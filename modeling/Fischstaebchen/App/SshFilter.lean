/-
  The ssh command filter (`app/ssh-validate-sync-command/main.c`).

  The filter scans the command string once, as chars that are forbidden, white
  space or part of a word, and passes the string to the shell if it then starts
  with `scp -t`, `rsync --server` or `mkdir` and a further word.

  * `checkCommandStr_eq_zero`: what the filter accepts.
  * `shellSafe_iff`: when the shell reads an accepted string as one simple
    command of these forms.
-/
import Fischstaebchen.Lib.Shell
import Fischstaebchen.Strutil.Compare
import Mathlib.Data.List.TakeWhile

namespace Fischstaebchen

/-! ## The filter -/

/-- `is_whitespace`. -/
def isWhitespace (c : Char) : Bool :=
  c = ' ' || c = '\t' || c = '\n' || c = '\x0b' || c = '\x0c'

/-- `is_whitespace_or_empty`. -/
def isWhitespaceOrEmpty (c : Char) : Bool := c = '\x00' || isWhitespace c

/-- The chars for which `check_command_str` returns 2. -/
def isForbidden (c : Char) : Bool := "&()\x7b\x7d;<>\x60|".toList.contains c

/-- `p[i]`, which is `'\0'` at the end of the string. -/
def charAt (p : CStr) (i : ℕ) : Char := p.getD i '\x00'

/-- `_check_command_allowed`. -/
def checkCommandAllowed (cmdStr : CStr) (pArgs : Option CStr) (progNameLen : ℕ) : ℤ :=
  match progNameLen, pArgs with
  | 3, some pArgs =>
    -- "scp -t"
    if strncmpEq cmdStr "scp".toList 3 ∧ charAt pArgs 0 = '-' ∧ charAt pArgs 1 = 't' then 0 else -1
  | 5, some pArgs =>
    -- "rsync --server"
    if strncmpEq cmdStr "rsync".toList 5 then
      if strncmpEq pArgs "--server".toList 8 then
        if isWhitespaceOrEmpty (charAt pArgs 8) then 0 else -1
      else -1
    -- "mkdir"
    else if strncmpEq cmdStr "mkdir".toList 5 then 0
    else -1
  | _, _ => -1

/-- The variables of `check_command_str`; `p_args` is the rest of the string. -/
structure CheckState where
  isFirstWord : Bool
  progNameLen : ℕ
  pArgs : Option CStr

/-- The loop of `check_command_str`; `none` if it returns 2. -/
def checkCommandLoop : CStr → CheckState → Option CheckState
  | [], st => some st
  | c :: s, st =>
    if isForbidden c then none
    else if isWhitespace c then checkCommandLoop s { st with isFirstWord := false }
    else if st.isFirstWord then checkCommandLoop s { st with progNameLen := st.progNameLen + 1 }
    else if st.pArgs = none then checkCommandLoop s { st with pArgs := some (c :: s) }
    else checkCommandLoop s st

/-- `check_command_str`. -/
def checkCommandStr (cmdStr : CStr) : ℤ :=
  match checkCommandLoop cmdStr ⟨true, 0, none⟩ with
  | none => 2
  | some st => checkCommandAllowed cmdStr st.pArgs st.progNameLen

/-- `main`, for the value of `SSH_ORIGINAL_COMMAND` and the function `system`:
    the exit code and the string that is passed to the shell. -/
def sshFilterMain (system : CStr → ℤ) (cmdStr : Option CStr) : ℤ × Option CStr :=
  match cmdStr with
  | none | some [] => (64, none)  -- EX_USAGE
  | some cmdStr =>
    if checkCommandStr cmdStr ≠ 0 then (2, none)
    else
      let retcode := system cmdStr
      (if retcode < 0 then 71 else retcode, some cmdStr)  -- EX_OSERR

/-! ## What it accepts -/

/-- The first word of a command string, as the filter reads it. -/
def progName (s : CStr) : CStr := s.takeWhile fun c => !isWhitespace c

/-- The string after the first word. -/
def afterProg (s : CStr) : CStr := s.dropWhile fun c => !isWhitespace c

/-- The white space after the first word. -/
def separator (s : CStr) : CStr := (afterProg s).takeWhile isWhitespace

/-- The string from its second word on. -/
def arguments (s : CStr) : CStr := (afterProg s).dropWhile isWhitespace

theorem progName_append (s : CStr) : progName s ++ afterProg s = s :=
  List.takeWhile_append_dropWhile

theorem separator_append (s : CStr) : separator s ++ arguments s = afterProg s :=
  List.takeWhile_append_dropWhile

section
variable {s : CStr} {st : CheckState}

theorem checkCommandLoop_forbidden : ∀ {s : CStr} (st : CheckState),
    (∃ c ∈ s, isForbidden c = true) → checkCommandLoop s st = none
  | [], _, h => by simp at h
  | c :: s, st, h => by
    by_cases hc : isForbidden c = true
    · rw [checkCommandLoop, if_pos hc]
    · have hs : ∃ c ∈ s, isForbidden c = true := by simpa [hc] using h
      rw [checkCommandLoop, if_neg hc]
      split_ifs <;> exact checkCommandLoop_forbidden _ hs

/-- After the start of the second word, nothing is recorded. -/
theorem checkCommandLoop_args : ∀ {s : CStr} {st : CheckState}, st.isFirstWord = false →
    st.pArgs ≠ none → (∀ c ∈ s, isForbidden c = false) → checkCommandLoop s st = some st
  | [], _, _, _, _ => rfl
  | c :: s, st, hw, ha, hs => by
    have hst : { st with isFirstWord := false } = st := by rw [← hw]
    have hw' : ¬ st.isFirstWord = true := by simp [hw]
    rw [checkCommandLoop, if_neg (by simp [hs c (by simp)]), hst, if_neg hw', if_neg ha, ite_self]
    exact checkCommandLoop_args hw ha fun c hc => hs c (by simp [hc])

/-- In the white space after the first word. -/
theorem checkCommandLoop_separator (n : ℕ) : ∀ {s : CStr}, (∀ c ∈ s, isForbidden c = false) →
    checkCommandLoop s ⟨false, n, none⟩ = some ⟨false, n,
      if s.dropWhile isWhitespace = [] then none else some (s.dropWhile isWhitespace)⟩
  | [], _ => rfl
  | c :: s, hs => by
    have hrest : ∀ c ∈ s, isForbidden c = false := fun c hc => hs c (by simp [hc])
    rw [checkCommandLoop, if_neg (by simp [hs c (by simp)])]
    by_cases hc : isWhitespace c = true
    · rw [if_pos hc, checkCommandLoop_separator n hrest, List.dropWhile_cons_of_pos hc]
    · rw [if_neg hc, if_neg Bool.false_ne_true, if_pos rfl,
        checkCommandLoop_args rfl (by simp) hrest, List.dropWhile_cons_of_neg hc, if_neg (by simp)]

/-- In the first word. -/
theorem checkCommandLoop_prog : ∀ {s : CStr} (n : ℕ), (∀ c ∈ s, isForbidden c = false) →
    (checkCommandLoop s ⟨true, n, none⟩).map (fun st => (st.progNameLen, st.pArgs)) =
      some (n + (progName s).length, if arguments s = [] then none else some (arguments s))
  | [], n, _ => rfl
  | c :: s, n, hs => by
    have hrest : ∀ c ∈ s, isForbidden c = false := fun c hc => hs c (by simp [hc])
    rw [checkCommandLoop, if_neg (by simp [hs c (by simp)])]
    by_cases hc : isWhitespace c = true
    · rw [if_pos hc, checkCommandLoop_separator n hrest]
      simp [progName, arguments, afterProg, hc]
    · have hp : progName (c :: s) = c :: progName s := by simp [progName, hc]
      have ha : arguments (c :: s) = arguments s := by simp [arguments, afterProg, hc]
      rw [if_neg hc, if_pos rfl, checkCommandLoop_prog (n + 1) hrest, hp, ha, List.length_cons,
        Nat.add_assoc, Nat.add_comm 1]

end

/-- The forms that `_check_command_allowed` lets pass. -/
def IsAllowedForm (prog args : CStr) : Prop :=
  (prog = "scp".toList ∧ "-t".toList <+: args) ∨
    (prog = "rsync".toList ∧ ∃ r, args = "--server".toList ++ r ∧ ∀ c, r.head? = some c →
      isWhitespaceOrEmpty c = true) ∨
    (prog = "mkdir".toList ∧ args ≠ [])

/-- The result of the scan. -/
theorem checkCommandStr_eq {s : CStr} (h : ∀ c ∈ s, isForbidden c = false) :
    checkCommandStr s = checkCommandAllowed s
      (if arguments s = [] then none else some (arguments s)) (progName s).length := by
  have hloop := checkCommandLoop_prog 0 h
  rw [Nat.zero_add, Option.map_eq_some_iff] at hloop
  obtain ⟨st, hst, hfields⟩ := hloop
  rw [Prod.mk.injEq] at hfields
  rw [checkCommandStr, hst, ← hfields.1, ← hfields.2]

/-- Comparing with a name of the length of the first word. -/
theorem progName_eq_iff {s name : CStr} (h : (progName s).length = name.length) :
    progName s = name ↔ strncmpEq s name name.length = true := by
  have hp : progName s <+: s := List.takeWhile_prefix _
  rw [strncmpEq_iff]
  constructor
  · rintro rfl; exact hp
  · intro hn
    exact (List.prefix_of_prefix_length_le hp hn h.le).eq_of_length h

theorem charAt_dash_t (args : CStr) :
    charAt args 0 = '-' ∧ charAt args 1 = 't' ↔ "-t".toList <+: args := by
  have ht : "-t".toList = ['-', 't'] := rfl
  rw [ht]
  match args with
  | [] => simp [charAt]
  | [a] => simp [charAt]
  | a :: b :: r => simp [charAt, eq_comm]

/-- The char after a prefix. -/
theorem charAt_append (p r : CStr) : charAt (p ++ r) p.length = r.headD '\x00' := by
  cases r <;> simp [charAt]

/-- The arguments of `rsync`. -/
theorem rsync_arguments {args : CStr} :
    strncmpEq args "--server".toList 8 = true ∧ isWhitespaceOrEmpty (charAt args 8) = true ↔
      ∃ r, args = "--server".toList ++ r ∧ ∀ c, r.head? = some c →
        isWhitespaceOrEmpty c = true := by
  have hp : strncmpEq args "--server".toList 8 = true ↔ "--server".toList <+: args :=
    strncmpEq_iff args "--server".toList
  have hchar : ∀ r : CStr, isWhitespaceOrEmpty (charAt ("--server".toList ++ r) 8) = true ↔
      ∀ c, r.head? = some c → isWhitespaceOrEmpty c = true := by
    intro r
    rw [show charAt ("--server".toList ++ r) 8 = r.headD '\x00' from charAt_append _ r]
    cases r with
    | nil => simp [isWhitespaceOrEmpty]
    | cons c r => simp
  rw [hp]
  constructor
  · rintro ⟨⟨r, rfl⟩, h⟩
    exact ⟨r, rfl, (hchar r).1 h⟩
  · rintro ⟨r, rfl, h⟩
    exact ⟨List.prefix_append _ _, (hchar r).2 h⟩

/-- `_check_command_allowed` for a string with a second word. -/
theorem checkCommandAllowed_eq_zero {s : CStr} (ha : arguments s ≠ []) :
    checkCommandAllowed s (some (arguments s)) (progName s).length = 0 ↔
      IsAllowedForm (progName s) (arguments s) := by
  have hlen : ∀ name : String, progName s = name.toList →
      (progName s).length = name.toList.length := fun name h => congrArg _ h
  unfold IsAllowedForm
  by_cases h3 : (progName s).length = 3
  · have hscp : progName s = "scp".toList ↔ strncmpEq s "scp".toList 3 = true :=
      progName_eq_iff h3
    have hrsync : progName s ≠ "rsync".toList := fun h => by have := hlen _ h; simp [h3] at this
    have hmkdir : progName s ≠ "mkdir".toList := fun h => by have := hlen _ h; simp [h3] at this
    rw [h3, hscp, ← charAt_dash_t]
    simp only [checkCommandAllowed, hrsync, hmkdir, false_and, or_false]
    split_ifs <;> simp_all
  · by_cases h5 : (progName s).length = 5
    · have hscp : progName s ≠ "scp".toList := fun h => by have := hlen _ h; simp [h5] at this
      have hrsync : progName s = "rsync".toList ↔ strncmpEq s "rsync".toList 5 = true :=
        progName_eq_iff h5
      have hmkdir : progName s = "mkdir".toList ↔ strncmpEq s "mkdir".toList 5 = true :=
        progName_eq_iff h5
      have hne : progName s = "rsync".toList → progName s ≠ "mkdir".toList := fun h => by
        rw [h]; decide
      rw [h5, ← rsync_arguments]
      simp only [checkCommandAllowed, ← hrsync, ← hmkdir, hscp, false_and, false_or, ne_eq, ha,
        not_false_eq_true, and_true]
      split_ifs <;> simp_all
    · have hno : ∀ name : String, name.toList.length = 3 ∨ name.toList.length = 5 →
          progName s ≠ name.toList := fun name hn h => by have := hlen _ h; omega
      have hval : checkCommandAllowed s (some (arguments s)) (progName s).length = -1 := by
        unfold checkCommandAllowed; split <;> simp_all
      rw [hval]
      simp only [hno "scp" (by simp), hno "rsync" (by simp), hno "mkdir" (by simp), false_and,
        or_false]
      decide

/-- **What the filter accepts**: strings without forbidden chars that have one
    of the three forms. -/
theorem checkCommandStr_eq_zero {s : CStr} :
    checkCommandStr s = 0 ↔
      (∀ c ∈ s, isForbidden c = false) ∧ IsAllowedForm (progName s) (arguments s) := by
  by_cases hf : ∀ c ∈ s, isForbidden c = false
  · rw [checkCommandStr_eq hf, and_iff_right hf]
    by_cases ha : arguments s = []
    · have hno : ¬ IsAllowedForm (progName s) (arguments s) := by
        rw [ha]
        rintro (⟨-, h⟩ | ⟨-, r, h, -⟩ | ⟨-, h⟩)
        · exact absurd (List.prefix_nil.1 h) (by simp)
        · exact absurd (List.append_eq_nil_iff.1 h.symm).1 (by simp)
        · exact h rfl
      rw [if_pos ha, iff_false_right hno]
      unfold checkCommandAllowed
      split <;> simp_all
    · rw [if_neg ha]
      exact checkCommandAllowed_eq_zero ha
  · have hloop : checkCommandLoop s ⟨true, 0, none⟩ = none :=
      checkCommandLoop_forbidden _ (by simpa using hf)
    simp [checkCommandStr, hloop, hf]

/-! ## What the shell reads -/

open Lib.Shell

/-- The commands that the filter is to let pass: `scp -t..`, `rsync --server`
    and `mkdir` with an argument. -/
def IsPermitted (words : List CStr) : Prop :=
  (∃ arg rest, words = "scp".toList :: arg :: rest ∧ "-t".toList <+: arg) ∨
    (∃ rest, words = "rsync".toList :: "--server".toList :: rest) ∨
    ∃ arg rest, words = "mkdir".toList :: arg :: rest

/-- The shell reads the string as one simple command of these forms. -/
def ShellSafe (s : CStr) : Prop :=
  ∃ words : List CStr, tokens s = some (words.map .word) ∧ IsPermitted words

/-- The chars that the filter and the shell read differently do not matter:
    newlines are quoted and quotes closed, the words that the filter compares
    end at a blank, and a directory is given. -/
structure ReadAlike (s : CStr) : Prop where
  quoted : wellQuoted s = true
  separator : ∀ c, (separator s).head? = some c → isBlank c = true
  separators : progName s ≠ "mkdir".toList → ∀ c ∈ Fischstaebchen.separator s, isBlank c = true
  server : progName s = "rsync".toList →
    ∀ c, ((arguments s).drop 8).head? = some c → isBlank c = true
  operand : progName s = "mkdir".toList → hasWord (afterProg s) = true

theorem hasSubstitution_of_allowed : ∀ {s : CStr}, (∀ c ∈ s, isForbidden c = false) →
    hasSubstitution s = false
  | [], _ => rfl
  | c :: s, h => by
    have hc : c ≠ '\x60' := by
      rintro rfl; exact absurd (h _ List.mem_cons_self) (by decide)
    have hhead : ∀ d, isForbidden d = true → s.head? ≠ some d := fun d hd hs => by
      rw [h d (List.mem_cons_of_mem c (List.mem_of_mem_head? hs))] at hd
      exact Bool.false_ne_true hd
    have hrest := hasSubstitution_of_allowed fun d hd => h d (List.mem_cons_of_mem c hd)
    rw [hasSubstitution, hrest]
    simp [hc, hhead '(' (by decide), hhead '\x7b' (by decide)]

/-- White space that is no blank: a newline is an operator, any other char adds
    to a word. -/
theorem step_space {st : Lexer} (hmode : st.mode = .plain) {c : Char}
    (hc : isWhitespaceOrEmpty c = true) (hb : isBlank c = false) {r : CStr} {ws : List CStr}
    (h : ((st.step c).run r).finish = some (ws.map .word)) :
    ∃ x rest, ws.map Token.word = st.toks ++ .word (st.cur.getD [] ++ [c] ++ x) :: rest := by
  have hcases : c = '\n' ∨ c = '\x00' ∨ c = '\x0b' ∨ c = '\x0c' := by
    simp [isWhitespaceOrEmpty, isWhitespace] at hc
    simp [isBlank] at hb
    tauto
  obtain ⟨mode, cur, toks⟩ := st
  subst hmode
  rcases hcases with rfl | hcases
  · refine absurd h (not_words_of_operator ?_ r ws)
    simp [Lexer.step, effect, isOperator, Lexer.apply, Lexer.delimit, Token.isOperator]
  · have hstep : (⟨.plain, cur, toks⟩ : Lexer).step c =
        ⟨.plain, some (cur.getD [] ++ [c]), toks⟩ := by
      rcases hcases with rfl | rfl | rfl <;> rfl
    rw [hstep] at h
    exact @run_starts_word ⟨.plain, some (cur.getD [] ++ [c]), toks⟩ _ _ _ rfl h

/-- The words of a permitted command that matter have no white space. -/
theorem IsPermitted.head {ws : List CStr} (h : IsPermitted ws) {w : CStr} {ts : List Token}
    (hws : ws.map Token.word = .word w :: ts) : ∀ c ∈ w, isWhitespaceOrEmpty c = false := by
  have hall : (w.all fun c => !isWhitespaceOrEmpty c) = true := by
    rcases h with ⟨a, r, rfl, -⟩ | ⟨r, rfl⟩ | ⟨a, r, rfl⟩ <;>
      · obtain ⟨hw, -⟩ := List.cons.inj hws
        rw [← Token.word.inj hw]
        decide
  intro c hc
  simpa using List.all_eq_true.1 hall c hc

theorem IsPermitted.second {ws : List CStr} (h : IsPermitted ws) {w a : CStr} {ts : List Token}
    (hws : ws.map Token.word = .word w :: .word a :: ts) (hw : w ≠ "mkdir".toList) :
    a.head? = some '-' ∧ (w = "rsync".toList → a = "--server".toList) := by
  rcases h with ⟨a', r, rfl, t, ht⟩ | ⟨r, rfl⟩ | ⟨a', r, rfl⟩
  all_goals
    obtain ⟨h1, h2⟩ := List.cons.inj hws
    obtain ⟨h2, -⟩ := List.cons.inj h2
    have h1 := Token.word.inj h1
    have h2 := Token.word.inj h2
    subst h1 h2
  · exact ⟨by rw [← ht]; rfl, fun h => absurd h (by simp)⟩
  · exact ⟨rfl, fun _ => rfl⟩
  · exact absurd rfl hw

/-! ## Accepted strings -/

section
variable {s : CStr}

/-- The parts of an accepted string. -/
theorem accepted_parts (h : IsAllowedForm (progName s) (arguments s)) :
    (progName s = "scp".toList ∨ progName s = "rsync".toList ∨ progName s = "mkdir".toList) ∧
      ∃ c sep, separator s = c :: sep ∧ isWhitespaceOrEmpty c = true ∧
        afterProg s = c :: (sep ++ arguments s) := by
  have hprog : progName s = "scp".toList ∨ progName s = "rsync".toList ∨
      progName s = "mkdir".toList := by
    rcases h with ⟨h, -⟩ | ⟨h, -⟩ | ⟨h, -⟩ <;> simp [h]
  have hargs : arguments s ≠ [] := by
    intro ha
    rw [ha] at h
    rcases h with ⟨-, h⟩ | ⟨-, r, h, -⟩ | ⟨-, h⟩
    · exact absurd (List.prefix_nil.1 h) (by simp)
    · exact absurd (List.append_eq_nil_iff.1 h.symm).1 (by simp)
    · exact h rfl
  refine ⟨hprog, ?_⟩
  cases ha : afterProg s with
  | nil => simp [arguments, ha] at hargs
  | cons c r =>
    have hc : isWhitespace c = true := by
      have hne : s.dropWhile (fun c => !isWhitespace c) ≠ [] := by
        rw [show s.dropWhile (fun c => !isWhitespace c) = c :: r from ha]; simp
      have := List.head_dropWhile_not (fun c => !isWhitespace c) hne
      simpa [show s.dropWhile (fun c => !isWhitespace c) = c :: r from ha] using this
    have hsep : separator s = c :: r.takeWhile isWhitespace := by
      rw [separator, ha, List.takeWhile_cons_of_pos hc]
    refine ⟨c, _, hsep, by simp [isWhitespaceOrEmpty, hc], ?_⟩
    rw [← ha, ← separator_append, hsep]
    rfl

/-- After the first word, the shell is in the middle of it. -/
theorem tokens_accepted (hf : ∀ c ∈ s, isForbidden c = false)
    (hprog : progName s = "scp".toList ∨ progName s = "rsync".toList ∨
      progName s = "mkdir".toList) :
    tokens s = ((⟨.plain, some (progName s), []⟩ : Lexer).run (afterProg s)).finish := by
  have hrun : Lexer.init.run (progName s) = ⟨.plain, some (progName s), []⟩ := by
    rcases hprog with h | h | h <;> rw [h] <;> rfl
  rw [tokens, hasSubstitution_of_allowed hf, if_neg Bool.false_ne_true, ← hrun, ← run_append,
    progName_append]

/-- After a blank, it is between words. -/
theorem tokens_accepted_blank {c : Char} {sep : CStr} (hb : isBlank c = true)
    (ha : afterProg s = c :: (sep ++ arguments s))
    (ht : tokens s = ((⟨.plain, some (progName s), []⟩ : Lexer).run (afterProg s)).finish) :
    tokens s = ((between [.word (progName s)]).run (sep ++ arguments s)).finish := by
  rw [ht, ha, run_cons, step_blank rfl hb]
  rfl

/-- In front of a word that the filter compares, white space is blank. -/
theorem blank_separator {w sep args : CStr} (hsep : ∀ c ∈ sep, isWhitespaceOrEmpty c = true)
    (hw : w ≠ "mkdir".toList) {ws : List CStr} (hperm : IsPermitted ws)
    (hws : ((between [.word w]).run (sep ++ args)).finish = some (ws.map .word)) :
    ∀ c ∈ sep, isBlank c = true := by
  cases hd : sep.dropWhile isBlank with
  | nil => exact List.dropWhile_eq_nil_iff.1 hd
  | cons v rest =>
    exfalso
    have hsplit : sep = sep.takeWhile isBlank ++ v :: rest := by
      rw [← hd, List.takeWhile_append_dropWhile]
    have hv : isWhitespaceOrEmpty v = true := hsep v (by rw [hsplit]; simp)
    have hvb : isBlank v = false := by
      have hne : sep.dropWhile isBlank ≠ [] := by rw [hd]; simp
      simpa [hd] using List.head_dropWhile_not isBlank hne
    rw [hsplit, List.append_assoc, run_append,
      run_blanks _ fun c hc => (List.mem_takeWhile_imp hc), List.cons_append, run_cons] at hws
    obtain ⟨x, r, hx⟩ := step_space rfl hv hvb hws
    have hdash : v = '-' := by simpa [between] using (hperm.second hx hw).1
    rw [hdash] at hv
    exact absurd hv (by decide)

/-- After `--server`, white space is blank. -/
theorem blank_after_server {sep r : CStr} (hsep : ∀ c ∈ sep, isBlank c = true)
    (hr : ∀ c, r.head? = some c → isWhitespaceOrEmpty c = true) {ws : List CStr}
    (hperm : IsPermitted ws)
    (hws : ((between [.word "rsync".toList]).run (sep ++ ("--server".toList ++ r))).finish =
      some (ws.map .word)) :
    ∀ c, r.head? = some c → isBlank c = true := by
  intro c hc
  obtain ⟨r, rfl⟩ : ∃ r', r = c :: r' := by
    cases r with
    | nil => simp at hc
    | cons d r => exact ⟨r, by rw [Option.some.inj hc]⟩
  by_contra hb
  rw [Bool.not_eq_true] at hb
  have hserver : (between [.word "rsync".toList]).run "--server".toList =
      ⟨.plain, some "--server".toList, [.word "rsync".toList]⟩ := rfl
  rw [run_append, run_blanks _ hsep, run_append, hserver, run_cons] at hws
  obtain ⟨x, rest, hx⟩ := step_space rfl (hr c hc) hb hws
  have heq := (hperm.second hx (by simp)).2 rfl
  have := congrArg List.length heq
  simp at this

/-- The words of a command with an operand. -/
theorem operand_of_isPermitted {rest : CStr} {ws : List CStr} (hperm : IsPermitted ws)
    (hws : ((between [.word "mkdir".toList]).run rest).finish = some (ws.map .word)) :
    hasWord rest = true := by
  refine (run_hasWord _ hws).1 ?_
  have hhead := run_toks hws
  rcases hperm with ⟨a, r, rfl, -⟩ | ⟨r, rfl⟩ | ⟨a, r, rfl⟩
  · exact absurd (Token.word.inj (List.cons_prefix_cons.1 hhead).1) (by simp)
  · exact absurd (Token.word.inj (List.cons_prefix_cons.1 hhead).1) (by simp)
  · exact ⟨a, _, rfl⟩

/-- If the shell reads a permitted command, it reads it as the filter does. -/
theorem ShellSafe.readAlike (hs : ShellSafe s) (hf : ∀ c ∈ s, isForbidden c = false)
    (hform : IsAllowedForm (progName s) (arguments s)) : ReadAlike s := by
  obtain ⟨ws, hws, hperm⟩ := hs
  obtain ⟨hprog, c, sep, hsep, hc, hafter⟩ := accepted_parts hform
  have hquoted : wellQuoted s = true :=
    (tokens_words_iff (hasSubstitution_of_allowed hf)).1 ⟨ws, hws⟩
  have ht := tokens_accepted hf hprog
  -- the char after the first word
  have hb : isBlank c = true := by
    by_contra hb
    rw [Bool.not_eq_true] at hb
    have h := hws
    rw [ht, hafter, run_cons] at h
    obtain ⟨x, rest, hx⟩ := step_space rfl hc hb h
    have := hperm.head hx c (by simp)
    rw [hc] at this
    exact absurd this (by simp)
  rw [tokens_accepted_blank hb hafter ht] at hws
  have hspace : ∀ d ∈ sep, isWhitespaceOrEmpty d = true := by
    intro d hd
    have hmem : d ∈ separator s := by rw [hsep]; exact List.mem_cons_of_mem c hd
    simp [isWhitespaceOrEmpty, List.mem_takeWhile_imp hmem]
  have hblanks : progName s ≠ "mkdir".toList → ∀ d ∈ sep, isBlank d = true := fun hp =>
    blank_separator hspace hp hperm hws
  refine ⟨hquoted, fun d hd => ?_, fun hp d hd => ?_, fun hp d hd => ?_, fun hp => ?_⟩
  · rw [hsep] at hd
    rwa [← Option.some.inj hd]
  · rw [hsep] at hd
    rcases List.mem_cons.1 hd with rfl | hd
    · exact hb
    · exact hblanks hp d hd
  · obtain ⟨r, hr, hrspace⟩ : ∃ r, arguments s = "--server".toList ++ r ∧
        ∀ c, r.head? = some c → isWhitespaceOrEmpty c = true := by
      rcases hform with ⟨h, -⟩ | ⟨-, h⟩ | ⟨h, -⟩
      · exact absurd (hp.symm.trans h) (by simp)
      · exact h
      · exact absurd (hp.symm.trans h) (by simp)
    rw [hr, hp] at hws
    rw [hr] at hd
    exact blank_after_server (hblanks (by rw [hp]; decide)) hrspace hperm hws d (by simpa using hd)
  · have hskip : ((between [.word (progName s)]).run (afterProg s)).finish =
        some (ws.map .word) := by
      rw [hafter, run_cons, step_blank rfl hb]
      exact hws
    rw [hp] at hskip
    exact operand_of_isPermitted hperm hskip

theorem map_word_cons {ws : List CStr} {w : CStr} {ts : List Token}
    (h : ws.map Token.word = .word w :: ts) : ∃ ws', ws = w :: ws' ∧ ws'.map Token.word = ts := by
  obtain ⟨w', ws', rfl, hw, hts⟩ := List.map_eq_cons_iff.1 h
  exact ⟨ws', by rw [Token.word.inj hw], hts⟩

/-- If the shell reads an accepted string as the filter does, it reads a
    permitted command. -/
theorem ReadAlike.shellSafe (h : ReadAlike s) (hf : ∀ c ∈ s, isForbidden c = false)
    (hform : IsAllowedForm (progName s) (arguments s)) : ShellSafe s := by
  obtain ⟨hprog, c, sep, hsep, -, hafter⟩ := accepted_parts hform
  obtain ⟨ws, hws⟩ := (tokens_words_iff (hasSubstitution_of_allowed hf)).2 h.quoted
  have hb : isBlank c = true := h.separator c (by rw [hsep]; rfl)
  have hrun := hws
  rw [tokens_accepted_blank hb hafter (tokens_accepted hf hprog)] at hrun
  have hblanks : progName s ≠ "mkdir".toList → ∀ d ∈ sep, isBlank d = true := fun hp d hd =>
    h.separators hp d (by rw [hsep]; exact List.mem_cons_of_mem c hd)
  refine ⟨ws, hws, ?_⟩
  rcases hform with ⟨hp, r, hr⟩ | ⟨hp, r, hr, -⟩ | ⟨hp, -⟩
  · -- scp: the second word starts with `-t`
    have hdash : (between [.word "scp".toList]).run "-t".toList =
      ⟨.plain, some "-t".toList, [.word "scp".toList]⟩ := rfl
    rw [← hr, hp, run_append, run_blanks _ (hblanks (by rw [hp]; decide)), run_append,
      hdash] at hrun
    obtain ⟨x, rest, hx⟩ := run_starts_word rfl hrun
    obtain ⟨ws₁, rfl, h₁⟩ := map_word_cons hx
    obtain ⟨ws₂, rfl, -⟩ := map_word_cons h₁
    exact .inl ⟨_, ws₂, rfl, x, rfl⟩
  · -- rsync: the second word ends after `--server`
    have hserver : (between [.word "rsync".toList]).run "--server".toList =
      ⟨.plain, some "--server".toList, [.word "rsync".toList]⟩ := rfl
    rw [hr, hp, run_append, run_blanks _ (hblanks (by rw [hp]; decide)), run_append,
      hserver] at hrun
    have htoks : [.word "rsync".toList, .word "--server".toList] <+: ws.map Token.word := by
      cases r with
      | nil =>
        have hfin : [Token.word "rsync".toList, .word "--server".toList] = ws.map .word :=
          Option.some.inj hrun
        exact hfin ▸ List.prefix_rfl
      | cons d r =>
        have hd : isBlank d = true := h.server hp d (by rw [hr]; rfl)
        rw [run_cons, step_blank rfl hd] at hrun
        exact run_toks hrun
    obtain ⟨rest, hx⟩ := htoks
    obtain ⟨ws₁, rfl, h₁⟩ := map_word_cons hx.symm
    obtain ⟨ws₂, rfl, -⟩ := map_word_cons h₁
    exact .inr (.inl ⟨ws₂, rfl⟩)
  · -- mkdir: there is a second word
    have hrest : ((between [.word "mkdir".toList]).run (afterProg s)).finish =
        some (ws.map .word) := by
      rw [hafter, run_cons, step_blank rfl hb, ← hp]
      exact hrun
    obtain ⟨w, rest, hx⟩ := (run_hasWord _ hrest).2 (h.operand hp)
    obtain ⟨ws₁, rfl, h₁⟩ := map_word_cons hx
    obtain ⟨ws₂, rfl, -⟩ := map_word_cons h₁
    exact .inr (.inr ⟨w, ws₂, rfl⟩)

end

/-- `main` passes exactly the accepted strings to the shell. -/
theorem sshFilterMain_passes (system : CStr → ℤ) (s : CStr) :
    (sshFilterMain system (some s)).2 = if checkCommandStr s = 0 then some s else none := by
  cases s with
  | nil => rfl
  | cons c s =>
    simp only [sshFilterMain]
    by_cases h : checkCommandStr (c :: s) = 0 <;> simp [h]

/-- **The filter is safe** for an accepted string, which is passed to the shell,
    exactly if the shell reads it as the filter does. -/
theorem shellSafe_iff (system : CStr → ℤ) {s : CStr} (h : checkCommandStr s = 0) :
    (∀ cmd, (sshFilterMain system (some s)).2 = some cmd → ShellSafe cmd) ↔ ReadAlike s := by
  obtain ⟨hf, hform⟩ := checkCommandStr_eq_zero.1 h
  rw [sshFilterMain_passes, if_pos h]
  constructor
  · intro hs
    exact (hs s rfl).readAlike hf hform
  · rintro hr cmd hcmd
    rw [← Option.some.inj hcmd]
    exact hr.shellSafe hf hform

/-- An upload by `scp`. -/
theorem shellSafe_scp :
    (∀ cmd, (sshFilterMain (fun _ => 0) (some "scp -t /var".toList)).2 = some cmd →
      ShellSafe cmd) ↔ ReadAlike "scp -t /var".toList :=
  shellSafe_iff _ (by decide)

/-- A newline makes the shell run a second command. -/
theorem shellSafe_newline :
    checkCommandStr "mkdir x\nreboot".toList = 0 ∧
      (sshFilterMain (fun _ => 0) (some "mkdir x\nreboot".toList)).2 =
        some "mkdir x\nreboot".toList ∧
      tokens "mkdir x\nreboot".toList = some [.word "mkdir".toList, .word "x".toList,
        .operator '\n', .word "reboot".toList] ∧
      ¬ ShellSafe "mkdir x\nreboot".toList := by
  have ht : tokens "mkdir x\nreboot".toList = some [.word "mkdir".toList, .word "x".toList,
      .operator '\n', .word "reboot".toList] := by decide
  refine ⟨by decide, by decide, ht, ?_⟩
  rintro ⟨ws, hws, -⟩
  rw [ht] at hws
  have hmem : Token.operator '\n' ∈ ws.map Token.word := by
    rw [← Option.some.inj hws]; simp
  obtain ⟨w, -, hw⟩ := List.mem_map.1 hmem
  exact Token.noConfusion hw

end Fischstaebchen
