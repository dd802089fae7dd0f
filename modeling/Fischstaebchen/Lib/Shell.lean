/-
  Token recognition of the POSIX shell.

  The shell reads a command string char by char.  What a char does depends on
  the quoting mode and on whether it is read inside a word: it is an operator,
  ends a word, adds to a word, or has no effect (`effect`).

  * `tokens s`: the words (after quote removal, before any expansion) and
    operators of `s`, if all quotes are closed.
  * `wellQuoted s`: all quotes are closed, and all operators, such as a newline,
    are quoted.
  * `tokens_words_iff`: `s` consists of words only exactly if it is well quoted.
  * `run_starts_word`: a word that has been started is one of the tokens, if
    only with more chars at its end.

  An operator of two chars is read as two.  Command substitution and parameter
  expansion in braces are not covered: `tokens` gives nothing for them.
-/
import Mathlib.Tactic

namespace Lib

namespace Shell

/-! ## Reading a command string -/

/-- The quoting modes. -/
inductive Mode
  | plain
  | escape
  | single
  | double
  | doubleEscape
  | comment
deriving DecidableEq

/-- What a char does. -/
inductive Effect
  | nothing
  | delimit
  | operator
  | add (cs : List Char)

/-- `<blank>` in the POSIX locale. -/
def isBlank (c : Char) : Bool := c = ' ' || c = '\t'

/-- The chars that operators consist of, and the newline. -/
def isOperator (c : Char) : Bool := "&();<>|\n".toList.contains c

/-- The chars that a backslash quotes between double quotes. -/
def isDoubleQuotable (c : Char) : Bool := "$\x60\"\\".toList.contains c

def nextMode (mode : Mode) (inWord : Bool) (c : Char) : Mode :=
  match mode with
  | .plain =>
    if c = '\\' then .escape
    else if c = '\'' then .single
    else if c = '"' then .double
    else if c = '#' && !inWord then .comment
    else .plain
  | .escape => .plain
  | .single => if c = '\'' then .plain else .single
  | .double => if c = '"' then .plain else if c = '\\' then .doubleEscape else .double
  | .doubleEscape => .double
  | .comment => if c = '\n' then .plain else .comment

def effect (mode : Mode) (inWord : Bool) (c : Char) : Effect :=
  match mode with
  | .plain =>
    if isOperator c then .operator
    else if isBlank c then .delimit
    else if c = '\\' then .nothing
    else if c = '\'' || c = '"' then .add []
    else if c = '#' && !inWord then .nothing
    else .add [c]
  -- a backslash before a newline continues the line
  | .escape => if c = '\n' then .nothing else .add [c]
  | .single => if c = '\'' then .nothing else .add [c]
  | .double => if c = '"' || c = '\\' then .nothing else .add [c]
  | .doubleEscape =>
    if c = '\n' then .nothing else if isDoubleQuotable c then .add [c] else .add ['\\', c]
  | .comment => if c = '\n' then .operator else .nothing

inductive Token
  | word (w : List Char)
  | operator (c : Char)
deriving DecidableEq

def Token.isOperator : Token → Bool
  | .word _ => false
  | .operator _ => true

/-- The tokens read so far, and the word that is being read. -/
structure Lexer where
  mode : Mode
  cur : Option (List Char)
  toks : List Token

def Lexer.init : Lexer := ⟨.plain, none, []⟩

/-- Ends the current word, if any. -/
def Lexer.delimit (st : Lexer) : Lexer :=
  { st with cur := none, toks := st.toks ++ (st.cur.map Token.word).toList }

def Lexer.apply (st : Lexer) (c : Char) : Effect → Lexer
  | .nothing => st
  | .delimit => st.delimit
  | .operator => { st.delimit with toks := st.delimit.toks ++ [.operator c] }
  | .add cs => { st with cur := some (st.cur.getD [] ++ cs) }

def Lexer.step (st : Lexer) (c : Char) : Lexer :=
  { st.apply c (effect st.mode st.cur.isSome c) with mode := nextMode st.mode st.cur.isSome c }

def Lexer.run (st : Lexer) (s : List Char) : Lexer := s.foldl Lexer.step st

/-- The tokens at the end of the string; a backslash at the end is literal. -/
def Lexer.finish (st : Lexer) : Option (List Token) :=
  match st.mode with
  | .plain | .comment => some st.delimit.toks
  | .escape => some (st.apply '\\' (.add ['\\'])).delimit.toks
  | .single | .double | .doubleEscape => none

/-- Whether the string has a backquote, `$(` or `${`. -/
def hasSubstitution : List Char → Bool
  | [] => false
  | c :: s => c = '\x60' || (c = '$' && (s.head? = some '(' || s.head? = some '\x7b')) ||
      hasSubstitution s

/-- The tokens of a command string. -/
def tokens (s : List Char) : Option (List Token) :=
  if hasSubstitution s then none else (Lexer.init.run s).finish

/-! ## Quoting -/

/-- The part of the lexer that does not depend on the words. -/
structure Scan where
  mode : Mode
  inWord : Bool
  /-- An operator has been read. -/
  bare : Bool

def Scan.init : Scan := ⟨.plain, false, false⟩

def Scan.step (st : Scan) (c : Char) : Scan :=
  let mode := nextMode st.mode st.inWord c
  match effect st.mode st.inWord c with
  | .nothing => ⟨mode, st.inWord, st.bare⟩
  | .delimit => ⟨mode, false, st.bare⟩
  | .operator => ⟨mode, false, true⟩
  | .add _ => ⟨mode, true, st.bare⟩

/-- All quotes are closed. -/
def Mode.isClosed : Mode → Bool
  | .plain | .escape | .comment => true
  | .single | .double | .doubleEscape => false

/-- All quotes are closed, and no operator is unquoted. -/
def wellQuoted (s : List Char) : Bool :=
  let r := s.foldl Scan.step Scan.init
  r.mode.isClosed && !r.bare

/-! ## Runs -/

section
variable (st : Lexer)

@[simp] theorem run_nil : st.run [] = st := rfl

@[simp] theorem run_cons (c : Char) (s : List Char) : st.run (c :: s) = (st.step c).run s := rfl

theorem run_append (s t : List Char) : st.run (s ++ t) = (st.run s).run t := List.foldl_append

def Lexer.scan : Scan := ⟨st.mode, st.cur.isSome, st.toks.any Token.isOperator⟩

theorem scan_step (c : Char) : (st.step c).scan = st.scan.step c := by
  unfold Lexer.step Scan.step Lexer.scan
  dsimp only
  cases effect st.mode st.cur.isSome c with
  | nothing => rfl
  | delimit => cases hcur : st.cur <;> simp [Lexer.apply, Lexer.delimit, hcur, Token.isOperator]
  | operator => simp [Lexer.apply, Lexer.delimit, Token.isOperator]
  | add cs => rfl

theorem scan_run (s : List Char) : (st.run s).scan = s.foldl Scan.step st.scan := by
  induction s generalizing st with
  | nil => rfl
  | cons c s ih => rw [run_cons, ih, scan_step, List.foldl_cons]

/-- At the end, the tokens are words only if the quotes are closed and no
    operator has been read. -/
theorem finish_words_iff :
    (∃ ws : List (List Char), st.finish = some (ws.map .word)) ↔
      st.mode.isClosed = true ∧ st.toks.any Token.isOperator = false := by
  have hwords : ∀ toks : List Token,
      (∃ ws : List (List Char), some toks = some (ws.map .word)) ↔
        toks.any Token.isOperator = false := by
    intro toks
    simp only [Option.some.injEq, List.any_eq_false]
    constructor
    · rintro ⟨ws, rfl⟩ t ht
      obtain ⟨w, -, rfl⟩ := List.mem_map.1 ht
      simp [Token.isOperator]
    · intro h
      induction toks with
      | nil => exact ⟨[], rfl⟩
      | cons t toks ih =>
        obtain ⟨ws, rfl⟩ := ih fun t' ht' => h t' (List.mem_cons_of_mem _ ht')
        cases t with
        | word w => exact ⟨w :: ws, rfl⟩
        | operator c => exact absurd rfl (h _ List.mem_cons_self)
  have hdelim : ∀ st : Lexer, st.delimit.toks.any Token.isOperator =
      st.toks.any Token.isOperator := by
    intro st
    cases hcur : st.cur <;> simp [Lexer.delimit, hcur, Token.isOperator]
  unfold Lexer.finish
  cases st.mode with
  | plain | comment => simp only [hwords, hdelim, Mode.isClosed, true_and]
  | escape => simp only [hwords, hdelim, Mode.isClosed, true_and, Lexer.apply]
  | single | double | doubleEscape => simp [Mode.isClosed]

end

/-- **A string consists of words only** exactly if it is well quoted. -/
theorem tokens_words_iff {s : List Char} (h : hasSubstitution s = false) :
    (∃ ws : List (List Char), tokens s = some (ws.map .word)) ↔ wellQuoted s = true := by
  have hscan := scan_run Lexer.init s
  rw [show Lexer.init.scan = Scan.init from rfl] at hscan
  rw [tokens, h, if_neg (by simp), finish_words_iff, wellQuoted, ← hscan]
  simp [Lexer.scan]

/-! ## Words that have been started -/

/-- The tokens `toks` have been read, and after them a word that starts with `w`. -/
def Started (toks : List Token) (w : List Char) (st : Lexer) : Prop :=
  (∃ x, st.cur = some (w ++ x) ∧ st.toks = toks) ∨
    ∃ x rest, st.toks = toks ++ .word (w ++ x) :: rest

theorem Started.apply {toks : List Token} {w : List Char} {st : Lexer} (h : Started toks w st)
    (c : Char) (e : Effect) : Started toks w (st.apply c e) := by
  rcases h with ⟨x, hcur, htoks⟩ | ⟨x, rest, htoks⟩
  · cases e with
    | nothing => exact .inl ⟨x, hcur, htoks⟩
    | delimit => exact .inr ⟨x, [], by simp [Lexer.apply, Lexer.delimit, hcur, htoks]⟩
    | operator => exact .inr ⟨x, [.operator c], by simp [Lexer.apply, Lexer.delimit, hcur, htoks]⟩
    | add cs => exact .inl ⟨x ++ cs, by simp [Lexer.apply, hcur], htoks⟩
  · right
    cases e with
    | nothing | add => exact ⟨x, rest, htoks⟩
    | delimit | operator => exact ⟨x, _, by simp [Lexer.apply, Lexer.delimit, htoks]; rfl⟩

theorem Started.run {toks : List Token} {w : List Char} {st : Lexer} (h : Started toks w st)
    (s : List Char) : Started toks w (st.run s) := by
  induction s generalizing st with
  | nil => exact h
  | cons c s ih => exact ih (h.apply c _)

theorem Started.finish {toks ts : List Token} {w : List Char} {st : Lexer}
    (h : Started toks w st) (hts : st.finish = some ts) :
    ∃ x rest, ts = toks ++ .word (w ++ x) :: rest := by
  have hdelim : ∀ st : Lexer, Started toks w st →
      ∃ x rest, st.delimit.toks = toks ++ .word (w ++ x) :: rest := by
    rintro st (⟨x, hcur, htoks⟩ | ⟨x, rest, htoks⟩)
    · exact ⟨x, [], by simp [Lexer.delimit, hcur, htoks]⟩
    · exact ⟨x, _, by simp [Lexer.delimit, htoks]; rfl⟩
  unfold Lexer.finish at hts
  cases hmode : st.mode with
  | plain | comment =>
    simp only [hmode, Option.some.injEq] at hts
    exact hts ▸ hdelim st h
  | escape =>
    simp only [hmode, Option.some.injEq] at hts
    exact hts ▸ hdelim _ (h.apply '\\' _)
  | single | double | doubleEscape => simp [hmode] at hts

/-- **A word that has been started** is one of the tokens, if only with more
    chars at its end. -/
theorem run_starts_word {st : Lexer} {w s : List Char} {ts : List Token} (hcur : st.cur = some w)
    (hts : (st.run s).finish = some ts) :
    ∃ x rest, ts = st.toks ++ .word (w ++ x) :: rest :=
  Started.finish (Started.run (.inl ⟨[], by simp [hcur], rfl⟩) s) hts

/-- The tokens that have been read are not changed. -/
theorem run_toks {st : Lexer} {s : List Char} {ts : List Token}
    (hts : (st.run s).finish = some ts) : st.toks <+: ts := by
  have happly : ∀ (st : Lexer) (c : Char) (e : Effect), st.toks <+: (st.apply c e).toks := by
    intro st c e
    cases e <;> simp [Lexer.apply, Lexer.delimit]
  have hrun : ∀ (s : List Char) (st : Lexer), st.toks <+: (st.run s).toks := by
    intro s
    induction s with
    | nil => exact fun st => List.prefix_rfl
    | cons c s ih =>
      intro st
      have hstep : st.toks <+: (st.step c).toks := happly st c _
      exact hstep.trans (ih _)
  refine (hrun s st).trans ?_
  have hdelim : ∀ st : Lexer, st.toks <+: st.delimit.toks := fun st => by simp [Lexer.delimit]
  unfold Lexer.finish at hts
  cases hmode : (st.run s).mode with
  | plain | comment =>
    simp only [hmode, Option.some.injEq] at hts
    exact hts ▸ hdelim _
  | escape =>
    simp only [hmode, Option.some.injEq] at hts
    exact hts ▸ (happly _ _ _).trans (hdelim _)
  | single | double | doubleEscape => simp [hmode] at hts

/-- After an operator, the string does not consist of words only. -/
theorem not_words_of_operator {st : Lexer} (h : st.toks.any Token.isOperator = true)
    (s : List Char) (ws : List (List Char)) : (st.run s).finish ≠ some (ws.map .word) := by
  intro hts
  obtain ⟨t, ht, hop⟩ := List.any_eq_true.1 h
  obtain ⟨w, -, rfl⟩ := List.mem_map.1 ((run_toks hts).subset ht)
  exact Bool.false_ne_true hop

/-! ## Between words -/

/-- The state after the tokens `toks`, outside of words and quotes. -/
def between (toks : List Token) : Lexer := ⟨.plain, none, toks⟩

/-- Skips blanks and line continuations. -/
def skipBlanks : List Char → List Char
  | [] => []
  | [c] => if isBlank c then [] else [c]
  | c :: d :: s =>
    if c = '\\' ∧ d = '\n' then skipBlanks s
    else if isBlank c then skipBlanks (d :: s)
    else c :: d :: s

/-- After blanks and line continuations, there is more than a comment. -/
def hasWord (s : List Char) : Bool := !(skipBlanks s).isEmpty && (skipBlanks s).head? != some '#'

section
variable (toks : List Token)

theorem step_blank {st : Lexer} (hmode : st.mode = .plain) {c : Char} (hc : isBlank c = true) :
    st.step c = st.delimit := by
  have hc' : c = ' ' ∨ c = '\t' := by simpa [isBlank] using hc
  obtain ⟨mode, cur, toks⟩ := st
  subst hmode
  rcases hc' with rfl | rfl <;> rfl

theorem run_blanks : ∀ {s : List Char}, (∀ c ∈ s, isBlank c = true) →
    (between toks).run s = between toks
  | [], _ => rfl
  | c :: s, h => by
    have hd : (between toks).delimit = between toks := by simp [between, Lexer.delimit]
    rw [run_cons, step_blank rfl (h c (by simp)), hd]
    exact run_blanks fun c hc => h c (by simp [hc])

theorem run_skipBlanks (s : List Char) :
    (between toks).run (skipBlanks s) = (between toks).run s := by
  have hblank : ∀ c, isBlank c = true → (between toks).step c = between toks := fun c hc => by
    rw [step_blank rfl hc]; simp [between, Lexer.delimit]
  fun_induction skipBlanks s with
  | case1 => rfl
  | case2 c hc => rw [run_cons, hblank c hc]
  | case3 => rfl
  | case4 c d s h ih => rw [ih, h.1, h.2]; rfl
  | case5 c d s h hc ih =>
    have hstep : (between toks).run (c :: d :: s) = ((between toks).step c).run (d :: s) := rfl
    rw [ih, hstep, hblank c hc]
  | case6 => rfl

/-- Where the skipped part ends. -/
theorem skipBlanks_cons {s t : List Char} {c : Char} (h : skipBlanks s = c :: t) :
    isBlank c = false ∧ ¬ (c = '\\' ∧ t.head? = some '\n') := by
  fun_induction skipBlanks s with
  | case1 => simp at h
  | case2 => simp at h
  | case3 c' hc =>
    obtain ⟨rfl, rfl⟩ := List.cons.inj h
    exact ⟨by simpa using hc, by simp⟩
  | case4 c' d s hcd ih => exact ih h
  | case5 c' d s hcd hc ih => exact ih h
  | case6 c' d s hcd hc =>
    obtain ⟨rfl, rfl⟩ := List.cons.inj h
    exact ⟨by simpa using hc, by simpa using hcd⟩

/-- A comment without a newline adds no token. -/
theorem run_comment : ∀ (s : List Char) {ws : List (List Char)},
    ((⟨.comment, none, toks⟩ : Lexer).run s).finish = some (ws.map .word) → ws.map .word = toks
  | [], ws, h => by
    simpa [Lexer.finish, Lexer.delimit, eq_comm] using h
  | c :: s, ws, h => by
    by_cases hc : c = '\n'
    · subst hc
      refine absurd h (not_words_of_operator ?_ s ws)
      simp [Lexer.step, effect, Lexer.apply, Lexer.delimit, Token.isOperator]
    · have hstep : (⟨.comment, none, toks⟩ : Lexer).step c = ⟨.comment, none, toks⟩ := by
        simp [Lexer.step, effect, nextMode, Lexer.apply, hc]
      rw [run_cons, hstep] at h
      exact run_comment s h

/-- **Between words**, a further word is read exactly if the text has one. -/
theorem run_hasWord {s : List Char} {ws : List (List Char)}
    (h : ((between toks).run s).finish = some (ws.map .word)) :
    (∃ w rest, ws.map Token.word = toks ++ .word w :: rest) ↔ hasWord s = true := by
  have hnone : ws.map Token.word = toks →
      ¬ ∃ w rest, ws.map Token.word = toks ++ .word w :: rest := by
    rintro heq ⟨w, rest, hw⟩
    rw [heq] at hw
    simp at hw
  rw [← run_skipBlanks] at h
  unfold hasWord
  cases hs : skipBlanks s with
  | nil =>
    rw [hs] at h
    have heq : ws.map Token.word = toks := by
      simpa [between, Lexer.finish, Lexer.delimit, eq_comm] using h
    simpa using hnone heq
  | cons c t =>
    obtain ⟨hblank, hcont⟩ := skipBlanks_cons hs
    rw [hs, run_cons] at h
    by_cases hhash : c = '#'
    · subst hhash
      simpa using hnone (run_comment toks t h)
    · simp only [List.isEmpty_cons, Bool.not_false, Bool.true_and, List.head?_cons, bne_iff_ne,
        ne_eq, Option.some.injEq, hhash, not_false_eq_true, iff_true]
      by_cases hop : isOperator c = true
      · refine absurd h (not_words_of_operator ?_ t ws)
        simp [between, Lexer.step, effect, hop, Lexer.apply, Lexer.delimit, Token.isOperator]
      · have hstarted : ∀ {st : Lexer} {w t : List Char}, st.cur = some w → st.toks = toks →
            (st.run t).finish = some (ws.map .word) →
            ∃ w rest, ws.map Token.word = toks ++ .word w :: rest := fun hcur htoks hts => by
          obtain ⟨x, rest, hx⟩ := run_starts_word hcur hts
          exact ⟨_, _, htoks ▸ hx⟩
        by_cases hesc : c = '\\'
        · subst hesc
          cases t with
          | nil =>
            have hts : ws.map Token.word = toks ++ [.word ['\\']] := (Option.some.inj h).symm
            exact ⟨_, _, hts⟩
          | cons d t =>
            have hd : d ≠ '\n' := fun hd => hcont ⟨rfl, by rw [hd]; rfl⟩
            rw [run_cons] at h
            have hstep : ((between toks).step '\\').step d = ⟨.plain, some [d], toks⟩ := by
              simp [between, Lexer.step, effect, nextMode, Lexer.apply, isOperator, isBlank, hd]
            rw [hstep] at h
            exact hstarted rfl rfl h
        · by_cases hquote : c = '\'' ∨ c = '"'
          · refine hstarted (w := []) ?_ ?_ h <;>
              rcases hquote with rfl | rfl <;> rfl
          · rw [not_or] at hquote
            refine hstarted (w := [c]) ?_ ?_ h <;>
              simp [between, Lexer.step, effect, hop, hblank, hesc, hquote, hhash, Lexer.apply]

end

end Shell

end Lib
