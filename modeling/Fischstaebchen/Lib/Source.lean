/-
  Sourcing a file in the POSIX shell.

  The file is read char by char as a command string is, but each char of a word
  keeps the quoting mode in which it has been read.  So it is known which chars
  introduce an expansion, and which words are assignments.

  * `sourceFile s`: the assignments that the shell makes, and the commands that it
    executes.
  * `run_literal`: text that the shell reads as it is between double quotes.
  * `sourceFile_assignments`: a file of assignments makes these assignments.

  `sourceFile` gives nothing if quotes are not closed, if something is expanded, and
  for operators other than the newline.
-/
import Fischstaebchen.Lib.Command

namespace Lib

namespace Shell

/-! ## Words before quote removal -/

/-- What a word consists of: opening quotes, and chars with the mode in which they
    have been read. -/
inductive Item
  | quote
  | char (c : Char) (mode : Mode)
deriving DecidableEq

/-- Quote removal. -/
def Item.removed : Item → Option Char
  | quote => none
  | char c _ => some c

def chars (w : List Item) : List Char := w.filterMap Item.removed

/-- The char introduces an expansion. -/
def Item.isActive : Item → Bool
  | char c .plain => "$\x60~*?[".toList.contains c
  | char c .double => "$\x60".toList.contains c
  | _ => false

inductive RawToken
  | word (w : List Item)
  | operator (c : Char)

/-- The tokens read so far, and the word that is being read. -/
structure Reader where
  mode : Mode
  cur : Option (List Item)
  toks : List RawToken

namespace Reader

def init : Reader := ⟨.plain, none, []⟩

def delimit (st : Reader) : Reader :=
  { st with cur := none, toks := st.toks ++ (st.cur.map RawToken.word).toList }

def apply (st : Reader) (c : Char) : Effect → Reader
  | .nothing => st
  | .delimit => st.delimit
  | .operator => { st.delimit with toks := st.delimit.toks ++ [.operator c] }
  | .add [] => { st with cur := some (st.cur.getD [] ++ [.quote]) }
  | .add cs => { st with cur := some (st.cur.getD [] ++ cs.map fun x => .char x st.mode) }

def step (st : Reader) (c : Char) : Reader :=
  { st.apply c (effect st.mode st.cur.isSome c) with mode := nextMode st.mode st.cur.isSome c }

def run (st : Reader) (s : List Char) : Reader := s.foldl step st

/-- The tokens at the end of the file. -/
def finish (st : Reader) : Option (List RawToken) :=
  match st.mode with
  | .plain | .comment => some st.delimit.toks
  | .escape => some (st.apply '\\' (.add ['\\'])).delimit.toks
  | .single | .double | .doubleEscape => none

end Reader

/-! ## Commands -/

/-- The start of a variable name. -/
def isNameStart (c : Char) : Bool := c.isAlpha || c == '_'

def isNameChar (c : Char) : Bool := c.isAlphanum || c == '_'

/-- A valid name of a shell variable. -/
def isName : List Char → Bool
  | [] => false
  | c :: w => isNameStart c && w.all isNameChar

/-- The unquoted part of a word before an unquoted `=`, and what follows. -/
def splitAssign : List Item → Option (List Char × List Item)
  | .char c .plain :: w =>
    if c = '=' then some ([], w) else (splitAssign w).map fun p => (c :: p.1, p.2)
  | _ => none

/-- The name and the value, if the word is an assignment. -/
def assignmentOf (w : List Item) : Option (List Char × List Char) :=
  match splitAssign w with
  | some (name, value) => if isName name then some (name, chars value) else none
  | none => none

/-- What the shell does for a file. -/
inductive Event
  | assign (name value : List Char)
  | command (words : List (List Char))
deriving DecidableEq

/-- A simple command: if all its words are assignments, they are made, else it is
    executed. -/
def simpleCommand (ws : List (List Item)) : List Event :=
  match ws.mapM assignmentOf with
  | some assigns => assigns.map fun a => .assign a.1 a.2
  | none => [.command (ws.map chars)]

/-- The events of the tokens, after the words `ws` of the first command. -/
def sourceTokens : List (List Item) → List RawToken → Option (List Event)
  | ws, [] => some (simpleCommand ws)
  | ws, .word w :: toks => if w.any Item.isActive then none else sourceTokens (ws ++ [w]) toks
  | ws, .operator c :: toks =>
    if c = '\n' then (sourceTokens [] toks).map (simpleCommand ws ++ ·) else none

/-- **Sourcing a file.** -/
def sourceFile (s : List Char) : Option (List Event) :=
  match (Reader.init.run s).finish with
  | some toks => sourceTokens [] toks
  | none => none

/-- The value that a variable has in the end, if one has been assigned. -/
def assignedValue (events : List Event) (name : List Char) : Option (List Char) :=
  (events.filterMap fun
    | .assign n v => if n = name then some v else none
    | .command _ => none).getLast?

/-! ## Assignments between double quotes -/

/-- The shell reads the text as it is between double quotes: it has no quote, no char
    that introduces an expansion, and no backslash that quotes. -/
def readsLiterally : List Char → Bool
  | [] => true
  | [c] => decide (IsQuoted c)
  | c :: d :: s =>
    if c = '\\' then !isDoubleQuotable d && d != '\n' && readsLiterally s
    else decide (IsQuoted c) && readsLiterally (d :: s)

section
variable (toks : List RawToken)

namespace Reader

@[simp] theorem run_nil (st : Reader) : st.run [] = st := rfl

@[simp] theorem run_cons (st : Reader) (c : Char) (s : List Char) :
    st.run (c :: s) = (st.step c).run s := rfl

theorem run_append (st : Reader) (s t : List Char) : st.run (s ++ t) = (st.run s).run t :=
  List.foldl_append

/-- Between words. -/
def between (toks : List RawToken) : Reader := ⟨.plain, none, toks⟩

theorem step_bare {c : Char} (hc : IsBare c) (cur : Option (List Item)) :
    (⟨.plain, cur, toks⟩ : Reader).step c =
      ⟨.plain, some (cur.getD [] ++ [.char c .plain]), toks⟩ := by
  obtain ⟨hop, hblank, hspecial⟩ := hc
  simp only [List.mem_cons, List.not_mem_nil, or_false, not_or] at hspecial
  obtain ⟨hesc, hsingle, hdouble, hhash, -, -⟩ := hspecial
  simp [step, effect, nextMode, apply, hop, hblank, hesc, hsingle, hdouble, hhash]

theorem run_bare {w : List Char} (hw : ∀ c ∈ w, IsBare c) (cur : List Item) :
    (⟨.plain, some cur, toks⟩ : Reader).run w =
      ⟨.plain, some (cur ++ w.map fun c => .char c .plain), toks⟩ := by
  induction w generalizing cur with
  | nil => simp
  | cons c w ih =>
    rw [run_cons, step_bare toks (hw c (by simp)), Option.getD_some,
      ih (fun x hx => hw x (by simp [hx])), List.append_assoc]
    rfl

/-- A bare word is read as it is. -/
theorem run_bareWord {w : List Char} (hw : IsBareWord w) :
    (between toks).run w = ⟨.plain, some (w.map fun c => .char c .plain), toks⟩ := by
  obtain ⟨hne, hw⟩ := hw
  obtain ⟨c, w, rfl⟩ := List.exists_cons_of_ne_nil hne
  rw [run_cons, between, step_bare toks (hw c (by simp)),
    run_bare toks fun x hx => hw x (by simp [hx])]
  rfl

theorem step_quoted {c : Char} (hc : IsQuoted c) (cur : List Item) :
    (⟨.double, some cur, toks⟩ : Reader).step c =
      ⟨.double, some (cur ++ [.char c .double]), toks⟩ := by
  simp only [IsQuoted, List.mem_cons, List.not_mem_nil, or_false, not_or] at hc
  simp [step, effect, nextMode, apply, hc.1, hc.2.1]

/-- A backslash that does not quote stays. -/
theorem run_backslash {c : Char} (hc : isDoubleQuotable c = false) (hline : c ≠ '\n')
    (cur : List Item) :
    (⟨.double, some cur, toks⟩ : Reader).run ['\\', c] =
      ⟨.double, some (cur ++ [.char '\\' .doubleEscape, .char c .doubleEscape]), toks⟩ := by
  simp [step, effect, nextMode, apply, hc, hline]

/-- **Text between double quotes** that is read as it is. -/
theorem run_literal {s : List Char} (hs : readsLiterally s = true) (cur : List Item) :
    ∃ w, (⟨.double, some cur, toks⟩ : Reader).run s = ⟨.double, some (cur ++ w), toks⟩ ∧
      chars w = s ∧ w.any Item.isActive = false := by
  have hinactive : ∀ {c : Char}, IsQuoted c → (Item.char c .double).isActive = false := by
    intro c hc
    simp only [IsQuoted, List.mem_cons, List.not_mem_nil, or_false, not_or] at hc
    simp [Item.isActive, hc]
  fun_induction readsLiterally s generalizing cur with
  | case1 => exact ⟨[], by simp, rfl, rfl⟩
  | case2 c =>
    have hc : IsQuoted c := of_decide_eq_true hs
    refine ⟨[.char c .double], ?_, rfl, ?_⟩
    · rw [run_cons, step_quoted toks hc]
      rfl
    · simpa using hinactive hc
  | case3 d s ih =>
    simp only [Bool.and_eq_true, Bool.not_eq_true', bne_iff_ne] at hs
    obtain ⟨⟨hd, hline⟩, hs⟩ := hs
    obtain ⟨w, hrun, hchars, hw⟩ := ih hs (cur ++ [.char '\\' .doubleEscape, .char d .doubleEscape])
    refine ⟨[.char '\\' .doubleEscape, .char d .doubleEscape] ++ w, ?_, ?_, ?_⟩
    · have hpair : '\\' :: d :: s = ['\\', d] ++ s := rfl
      rw [hpair, run_append, run_backslash toks hd hline, hrun, List.append_assoc]
    · rw [chars, List.filterMap_append, ← chars, ← chars, hchars]
      rfl
    · rw [List.any_append, hw]
      rfl
  | case4 c d s hc ih =>
    rw [Bool.and_eq_true, decide_eq_true_eq] at hs
    obtain ⟨w, hrun, hchars, hw⟩ := ih hs.2 (cur ++ [.char c .double])
    refine ⟨.char c .double :: w, ?_, ?_, ?_⟩
    · rw [run_cons, step_quoted toks hs.1, hrun, List.append_assoc]
      rfl
    · rw [← hchars]
      rfl
    · rw [List.any_cons, hinactive hs.1, hw]
      rfl

end Reader

/-- No char of a name is among some other chars. -/
theorem not_mem_of_isNameChar {c : Char} (h : isNameChar c = true) {s : List Char}
    (hs : (s.all fun d => !isNameChar d) = true) : c ∉ s := by
  intro hc
  have hd := List.all_eq_true.1 hs c hc
  rw [h] at hd
  cases hd

/-- The chars of names need no quotes. -/
theorem isBare_of_isNameChar {c : Char} (h : isNameChar c = true) : IsBare c := by
  refine ⟨?_, ?_, not_mem_of_isNameChar h (by decide)⟩
  · have hop := not_mem_of_isNameChar h (s := "&();<>|\n".toList) (by decide)
    simpa [isOperator] using hop
  · have hblank := not_mem_of_isNameChar h (s := [' ', '\t']) (by decide)
    simpa [isBlank] using hblank

theorem isActive_of_isNameChar {c : Char} (h : isNameChar c = true) :
    (Item.char c .plain).isActive = false := by
  have hactive := not_mem_of_isNameChar h (s := "$\x60~*?[".toList) (by decide)
  simpa [Item.isActive] using hactive

theorem isNameChar_of_isName {name : List Char} (h : isName name = true) :
    ∀ c ∈ name, isNameChar c = true := by
  cases name with
  | nil => cases h
  | cons c name =>
    rw [isName, Bool.and_eq_true, List.all_eq_true] at h
    have hstart : isNameChar c = true := by
      have hc := h.1
      simp only [isNameStart, isNameChar, Bool.or_eq_true, Char.isAlphanum] at hc ⊢
      tauto
    intro d hd
    rcases List.mem_cons.1 hd with rfl | hd
    · exact hstart
    · exact h.2 d hd

theorem splitAssign_name {name : List Char} (h : ∀ c ∈ name, isNameChar c = true)
    (w : List Item) :
    splitAssign ((name.map fun c => .char c .plain) ++ .char '=' .plain :: w) =
      some (name, w) := by
  induction name with
  | nil => rfl
  | cons c name ih =>
    have hc : c ≠ '=' := by
      rintro rfl
      exact absurd (h '=' (by simp)) (by decide)
    rw [List.map_cons, List.cons_append, splitAssign, if_neg hc, ih fun d hd => h d (by simp [hd])]
    rfl

/-- **An assignment on a line** is read as one word, and nothing in it is expanded. -/
theorem run_assignment {name value : List Char} (hname : isName name = true)
    (hvalue : readsLiterally value = true) :
    ∃ w, (Reader.between toks).run (name ++ '=' :: '"' :: value ++ ['"', '\n']) =
        Reader.between (toks ++ [.word w, .operator '\n']) ∧
      assignmentOf w = some (name, value) ∧ w.any Item.isActive = false := by
  have hchars := isNameChar_of_isName hname
  have hbare : IsBareWord (name ++ ['=']) := by
    refine ⟨by simp, fun c hc => ?_⟩
    rcases List.mem_append.1 hc with hc | hc
    · exact isBare_of_isNameChar (hchars c hc)
    · rw [List.mem_singleton.1 hc]
      decide
  obtain ⟨w, hrun, hw, hactive⟩ := Reader.run_literal toks hvalue
    (((name ++ ['=']).map fun c => .char c .plain) ++ [.quote])
  have hword : ((name ++ ['=']).map fun c => Item.char c .plain) ++ [.quote] ++ w =
      (name.map fun c => .char c .plain) ++ .char '=' .plain :: .quote :: w := by simp
  rw [hword] at hrun
  refine ⟨(name.map fun c => .char c .plain) ++ .char '=' .plain :: .quote :: w, ?_, ?_, ?_⟩
  · have htext : name ++ '=' :: '"' :: value ++ ['"', '\n'] =
        (name ++ ['=']) ++ ('"' :: (value ++ ['"', '\n'])) := by simp
    have hopen : (⟨.plain, some ((name ++ ['=']).map fun c => .char c .plain), toks⟩ :
        Reader).step '"' =
          ⟨.double, some (((name ++ ['=']).map fun c => .char c .plain) ++ [.quote]), toks⟩ := by
      simp [Reader.step, effect, nextMode, Reader.apply, isOperator, isBlank]
    rw [htext, Reader.run_append, Reader.run_bareWord toks hbare, Reader.run_cons, hopen,
      Reader.run_append, hrun]
    simp [Reader.step, effect, nextMode, Reader.apply, Reader.delimit, Reader.between, isOperator]
  · rw [assignmentOf, splitAssign_name hchars]
    dsimp only
    rw [if_pos hname]
    exact congrArg (fun v => some (name, v)) hw
  · rw [List.any_append, List.any_map, List.any_cons, List.any_cons, hactive]
    have hnames : name.any (Item.isActive ∘ fun c => .char c .plain) = false := by
      rw [List.any_eq_false]
      intro c hc
      simpa using isActive_of_isNameChar (hchars c hc)
    rw [hnames]
    rfl

end

/-- Words on lines of their own that are assignments. -/
theorem sourceTokens_lines {ws : List (List Item)} {assigns : List (List Char × List Char)}
    (hassigns : ws.map assignmentOf = assigns.map some)
    (hactive : ∀ w ∈ ws, w.any Item.isActive = false) :
    sourceTokens [] (ws.flatMap fun w => [.word w, .operator '\n']) =
      some (assigns.map fun a => .assign a.1 a.2) := by
  induction ws generalizing assigns with
  | nil =>
    obtain rfl : assigns = [] := by simpa using hassigns
    rfl
  | cons w ws ih =>
    cases assigns with
    | nil => cases hassigns
    | cons a assigns =>
      obtain ⟨hw, hws⟩ := List.cons.inj hassigns
      have hcommand : simpleCommand [w] = [.assign a.1 a.2] := by
        simp [simpleCommand, hw]
      rw [List.flatMap_cons]
      simp only [List.cons_append, List.nil_append]
      rw [sourceTokens, if_neg (by simp [hactive w]), sourceTokens, if_pos rfl,
        ih hws fun v hv => hactive v (by simp [hv]), List.nil_append, hcommand]
      rfl

/-- **A file of assignments** makes these assignments, in order. -/
theorem sourceFile_assignments (assigns : List (List Char × List Char))
    (h : ∀ a ∈ assigns, isName a.1 = true ∧ readsLiterally a.2 = true) :
    sourceFile (assigns.flatMap fun a => a.1 ++ '=' :: '"' :: a.2 ++ ['"', '\n']) =
      some (assigns.map fun a => .assign a.1 a.2) := by
  have hrun : ∀ toks : List RawToken, ∃ ws : List (List Item),
      (Reader.between toks).run
        (assigns.flatMap fun a => a.1 ++ '=' :: '"' :: a.2 ++ ['"', '\n']) =
          Reader.between (toks ++ ws.flatMap fun w => [.word w, .operator '\n']) ∧
      ws.map assignmentOf = assigns.map some ∧ ∀ w ∈ ws, w.any Item.isActive = false := by
    induction assigns with
    | nil => exact fun toks => ⟨[], by simp, rfl, by simp⟩
    | cons a assigns ih =>
      intro toks
      obtain ⟨hname, hvalue⟩ := h a (by simp)
      obtain ⟨w, hrun, hassign, hactive⟩ := run_assignment toks hname hvalue
      obtain ⟨ws, hruns, hassigns, hactives⟩ := ih (fun b hb => h b (by simp [hb]))
        (toks ++ [.word w, .operator '\n'])
      refine ⟨w :: ws, ?_, ?_, ?_⟩
      · rw [List.flatMap_cons, Reader.run_append, hrun, hruns, List.flatMap_cons, List.append_assoc]
      · rw [List.map_cons, hassign, hassigns, List.map_cons]
      · intro v hv
        rcases List.mem_cons.1 hv with rfl | hv
        · exact hactive
        · exact hactives v hv
  obtain ⟨ws, hrun, hassigns, hactive⟩ := hrun []
  have hinit : Reader.init = Reader.between [] := rfl
  have hfinish : (Reader.between (ws.flatMap fun w => [.word w, .operator '\n'])).finish =
      some (ws.flatMap fun w => [.word w, .operator '\n']) := by
    simp [Reader.between, Reader.finish, Reader.delimit]
  rw [sourceFile, hinit, hrun, List.nil_append, hfinish]
  exact sourceTokens_lines hassigns hactive

end Shell

end Lib
