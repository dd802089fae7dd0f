/-
  The scope of definitions of metash (`scripts/metash`: `VarsDict`, `define`, `weakdef` and
  `undef` of `_preprocess_and_expand_lines`, and `process_lines`).

  An infile is processed with a fork of the variables: a copy, whose parent is asked for
  what the copy does not have.  Conditions and definitions ask the copy only.

  * `current`: the current definition of each name, which only depends on the
    instructions about it.
  * `process_ok_iff`: the lines that are processed one after another, and the two loops.
  * `process_vars`: the copy has the current definitions.
  * `scopeHolds_iff`: when all instructions and references go by them.
-/
import Fischstaebchen.Metash.MultiEdit

namespace Fischstaebchen

namespace Metash

/-! ## Definitions -/

/-- The name of a definition. -/
def defName (i : Instruction) : CStr :=
  ((i.args.getD []).dropWhile isSpace).takeWhile fun c => !isSpace c

/-- The text of its value. -/
def defText (i : Instruction) : CStr :=
  (((i.args.getD []).dropWhile isSpace).dropWhile fun c => !isSpace c).dropWhile isSpace

/-- The value may be in double quotes. -/
def unquote (text : CStr) : CStr :=
  if text.head? = text.getLast? ∧ 1 < text.length ∧ text.head? = some '"' then text.tail.dropLast
  else text

/-- The names that are not to be defined any more. -/
def undefNames (i : Instruction) : List CStr := Lib.runs isSpace (i.args.getD [])

/-- What an input line does to the definition of a name. -/
def redefine (name : CStr) (cur : Option MetaValue) : InputLine → Option MetaValue
  | .text _ _ => cur
  | .instruction _ i =>
    match i.opcode with
    | .define | .defineWeak =>
      if name = defName i then cur.or (some (.str (unquote (defText i)))) else cur
    | .undef => if (undefNames i).contains name then none else cur
    | _ => cur

/-- **The current definitions** after some lines: the most recent ones that are left. -/
def current (vars : VarsDict) (lines : List InputLine) : VarsDict :=
  fun name => lines.foldl (redefine name) (vars name)

/-- A definition of a valid name, an `undef` of some names, or a text line. -/
inductive IsScopeLine : InputLine → Prop
  | definition {o : Origin} {i : Instruction} :
    i.opcode = .define ∨ i.opcode = .defineWeak → isMetavarName (defName i) = true →
    IsScopeLine (.instruction o i)
  | undef {o : Origin} {i : Instruction} :
    i.opcode = .undef → undefNames i ≠ [] → IsScopeLine (.instruction o i)
  | text {o : Origin} {line : CStr} : IsScopeLine (.text o line)

/-- The names that a text line refers to. -/
def refNames (line : CStr) : List CStr :=
  (parseMetavarLine 0 line).filterMap fun
    | .char _ => none
    | .ref name => some name

/-- The names of an `undef` are all defined, one after another. -/
def Undefinable (cur : VarsDict) (i : Instruction) : Prop :=
  (undefNames i).Nodup ∧ ∀ name ∈ undefNames i, (cur name).isSome = true

instance (cur : VarsDict) (i : Instruction) : Decidable (Undefinable cur i) :=
  inferInstanceAs (Decidable (_ ∧ _))

/-! ## Processing lines -/

/-- The state of a shell file reader. -/
abbrev ShellState := ReaderState (List Symbol)

section
variable (C : Config)

/-- The reader of the infiles. -/
abbrev Config.reader : Reader (List Symbol) Yield := shellReader C.macros C.limit

/-- The loop bodies of `_preprocess_and_expand_lines` and `process_lines`: what is yielded
    for a line is expanded before the next line is read. -/
def Config.processLine (st : ShellState) (line : InputLine) :
    Except ReaderError (ShellState × List (Origin × CStr)) :=
  match C.reader.step st line with
  | .error e => .error e
  | .ok (st, action) =>
    match C.expandTexts action.results with
    | .error e => .error e
    | .ok out => .ok (st, out)

/-- The two loops. -/
def Config.process : List InputLine → ShellState →
    Except ReaderError (ShellState × List (Origin × CStr))
  | [], st => .ok (st, [])
  | line :: lines, st =>
    match C.processLine st line with
    | .error e => .error e
    | .ok (st, out) =>
      match Config.process lines st with
      | .error e => .error e
      | .ok (st, rest) => .ok (st, out ++ rest)

/-! ## What lines are meant to do -/

/-- The line is accepted; it changes the definitions and nothing else. -/
def Config.Accepts (st : ShellState) (cur : VarsDict) (line : InputLine) : Prop :=
  C.processLine st line = .ok ({ st with vars := current cur [line] }, [])

/-- A `BadInstructionError` is raised. -/
def Config.Refuses (st : ShellState) (line : InputLine) : Prop :=
  ∃ o msg, C.processLine st line = .error (.badInstruction o msg)

/-- **What a line is meant to do**: a name is defined once, only what is defined can be
    undefined, and each reference has the current definition. -/
def Config.Meets (st : ShellState) (cur : VarsDict) : InputLine → Prop
  | .text _ text => ∀ name ∈ refNames text, C.getItem st.vars name = cur name
  | .instruction o i =>
    match i.opcode with
    | .define =>
      if (cur (defName i)).isSome then C.Refuses st (.instruction o i)
      else C.Accepts st cur (.instruction o i)
    | .defineWeak => C.Accepts st cur (.instruction o i)
    | .undef =>
      if Undefinable cur i then C.Accepts st cur (.instruction o i)
      else C.Refuses st (.instruction o i)
    | _ => True

/-- **All lines** that are reached do what they are meant to do, and conditions would
    depend on the current definitions. -/
def Config.ScopeHolds (st : ShellState) (lines : List InputLine) : Prop :=
  ∀ pre line post, lines = pre ++ line :: post → ∀ st' out, C.process pre st = .ok (st', out) →
    st'.vars = current st.vars pre ∧ C.Meets st' (current st.vars pre) line

/-- A definition has a text for its value, which may be `""`; no text line refers to a
    name that is not defined any more but was at first. -/
def Config.LineOk (cur : VarsDict) : InputLine → Prop
  | .text _ text => ∀ name ∈ refNames text, cur name = none → C.metavars name = none
  | .instruction _ i => i.opcode = .define ∨ i.opcode = .defineWeak → defText i ≠ []

/-- The next line is reached. -/
def Config.Continues (cur : VarsDict) : InputLine → Prop
  | .text _ text => C.keepGoing = true ∨ ∀ name ∈ refNames text, (cur name).isSome = true
  | .instruction _ i =>
    match i.opcode with
    | .define => cur (defName i) = none
    | .undef => Undefinable cur i
    | _ => True

/-- So are all lines that are reached. -/
def Config.WellScoped : VarsDict → List InputLine → Prop
  | _, [] => True
  | cur, line :: lines =>
    C.LineOk cur line ∧ (C.Continues cur line → Config.WellScoped (current cur [line]) lines)

end

/-! ## Single lines -/

section
variable {C : Config} {st : ShellState} {cur : VarsDict} {o : Origin} {i : Instruction}

theorem current_singleton (cur : VarsDict) (line : InputLine) (name : CStr) :
    current cur [line] name = redefine name (cur name) line := rfl

theorem current_cons (cur : VarsDict) (line : InputLine) (lines : List InputLine) :
    current cur (line :: lines) = current (current cur [line]) lines := rfl

theorem reader_isMetavarName (C : Config) : C.reader.isMetavarName = isMetavarName := by
  rw [Config.reader]
  cases C.limit <;> rfl

/-- What a definition does to the variables. -/
theorem defineVar_eq (hdef : i.opcode = .define ∨ i.opcode = .defineWeak)
    (hname : isMetavarName (defName i) = true) :
    defineVar C.reader cur o i =
      if defText i = [] then .error .indexError
      else if (cur (defName i)).isSome ∧ i.opcode = .define then
        .error (.badInstruction o "already defined".toList)
      else .ok (current cur [.instruction o i]) := by
  have hne : defName i ≠ [] := by
    intro hnil
    rw [hnil] at hname
    cases hname
  rw [defineVar, reader_isMetavarName]
  cases hargs : i.args with
  | none =>
    have hnil : defName i = [] := by rw [defName, hargs]; rfl
    exact absurd hnil hne
  | some args =>
    have hfirst : (args.dropWhile isSpace).takeWhile (fun c => !isSpace c) = defName i := by
      rw [defName, hargs]; rfl
    have htext : ((args.dropWhile isSpace).dropWhile fun c => !isSpace c).dropWhile isSpace =
        defText i := by
      rw [defText, hargs]; rfl
    have hcurrent : current cur [.instruction o i] = fun name =>
        if name = defName i then (cur name).or (some (.str (unquote (defText i))))
        else cur name := by
      funext name
      rw [current_singleton, redefine]
      rcases hdef with hdef | hdef <;> rw [hdef]
    dsimp only
    rw [hfirst, htext, if_neg hne, if_neg (by simp [hname]), hcurrent, ← unquote]
    by_cases hempty : defText i = []
    · rw [if_pos hempty, if_pos hempty]
    rw [if_neg hempty, if_neg hempty]
    by_cases hsome : (cur (defName i)).isSome = true
    · rw [if_pos hsome]
      by_cases hop : i.opcode = .define
      · rw [if_pos hop, if_pos ⟨hsome, hop⟩]
      · have hnot : ¬ ((cur (defName i)).isSome = true ∧ i.opcode = .define) := fun h => hop h.2
        rw [if_neg hop, if_neg hnot]
        refine congrArg Except.ok (funext fun name => ?_)
        split_ifs with heq
        · obtain ⟨v, hv⟩ := Option.isSome_iff_exists.1 hsome
          rw [heq, hv, Option.some_or]
        · rfl
    · have hnot : ¬ ((cur (defName i)).isSome = true ∧ i.opcode = .define) := fun h => hsome h.1
      rw [if_neg hsome, if_neg hnot]
      refine congrArg Except.ok (funext fun name => ?_)
      split_ifs with heq
      · rw [heq, Option.not_isSome_iff_eq_none.1 hsome, Option.none_or]
      · rfl

/-- The names are taken out one after another. -/
theorem undefVars_eq : ∀ (names : List CStr) (cur : VarsDict),
    (names.Nodup ∧ (∀ name ∈ names, (cur name).isSome = true) ∧
      undefVars o names cur = .ok fun key => if key ∈ names then none else cur key) ∨
    (¬ (names.Nodup ∧ ∀ name ∈ names, (cur name).isSome = true) ∧
      ∃ msg, undefVars o names cur = .error (.badInstruction o msg))
  | [], cur => .inl ⟨List.nodup_nil, by simp, by simp [undefVars]⟩
  | name :: names, cur => by
    rw [undefVars]
    by_cases hsome : (cur name).isSome = true
    · rw [if_pos hsome]
      have hrest : (∀ key ∈ names, ((fun key => if key = name then none else cur key) key :
          Option MetaValue).isSome = true) ↔
          name ∉ names ∧ ∀ key ∈ names, (cur key).isSome = true := by
        constructor
        · intro h
          refine ⟨fun hmem => ?_, fun key hkey => ?_⟩
          · have hname := h name hmem
            simp at hname
          · have hkey' := h key hkey
            dsimp only at hkey'
            split_ifs at hkey' with heq
            · cases hkey'
            · exact hkey'
        · rintro ⟨hnot, h⟩ key hkey
          dsimp only
          have hne : key ≠ name := fun heq => hnot (heq ▸ hkey)
          rw [if_neg hne]
          exact h key hkey
      rcases undefVars_eq names fun key => if key = name then none else cur key with
        ⟨hnodup, hall, hok⟩ | ⟨hnot, msg, herror⟩
      · obtain ⟨hfresh, hall⟩ := hrest.1 hall
        refine .inl ⟨List.nodup_cons.2 ⟨hfresh, hnodup⟩,
          List.forall_mem_cons.2 ⟨hsome, hall⟩, ?_⟩
        rw [hok]
        refine congrArg Except.ok (funext fun key => ?_)
        by_cases heq : key = name
        · simp [heq]
        · simp [heq]
      · refine .inr ⟨fun ⟨hnodup, hall⟩ => hnot ?_, msg, herror⟩
        obtain ⟨hfresh, hnodup⟩ := List.nodup_cons.1 hnodup
        exact ⟨hnodup, hrest.2 ⟨hfresh, (List.forall_mem_cons.1 hall).2⟩⟩
    · rw [if_neg hsome]
      exact .inr ⟨fun ⟨_, hall⟩ => hsome (List.forall_mem_cons.1 hall).1, _, rfl⟩

theorem step_top (hstack : st.stack = []) (hop : i.opcode ≠ .if_) :
    C.reader.step st (.instruction o i) = execInstruction C.reader st o i := by
  rw [Reader.step, if_neg hop, hstack]

/-- A definition is processed. -/
theorem processLine_definition (hstack : st.stack = [])
    (hdef : i.opcode = .define ∨ i.opcode = .defineWeak)
    (hname : isMetavarName (defName i) = true) :
    C.processLine st (.instruction o i) =
      if defText i = [] then .error .indexError
      else if (st.vars (defName i)).isSome ∧ i.opcode = .define then
        .error (.badInstruction o "already defined".toList)
      else .ok ({ st with vars := current st.vars [.instruction o i] }, []) := by
  have hop : i.opcode ≠ .if_ := by rcases hdef with hdef | hdef <;> rw [hdef] <;> decide
  have hexec : execInstruction C.reader st o i =
      (defineVar C.reader st.vars o i).map fun vars => ({ st with vars := vars }, .taken) := by
    rw [execInstruction]
    rcases hdef with hdef | hdef
    · rw [hdef]
      cases defineVar C.reader st.vars o i <;> rfl
    · rw [hdef]
      cases defineVar C.reader st.vars o i <;> rfl
  rw [Config.processLine, step_top hstack hop, hexec, defineVar_eq hdef hname]
  by_cases hempty : defText i = []
  · rw [if_pos hempty, if_pos hempty]
    rfl
  rw [if_neg hempty, if_neg hempty]
  by_cases hdefined : (st.vars (defName i)).isSome = true ∧ i.opcode = .define
  · rw [if_pos hdefined, if_pos hdefined]
    rfl
  · rw [if_neg hdefined, if_neg hdefined]
    rfl

/-- An `undef` is processed. -/
theorem processLine_undef (hstack : st.stack = []) (hop : i.opcode = .undef)
    (hnames : undefNames i ≠ []) :
    (Undefinable st.vars i ∧ C.Accepts st st.vars (.instruction o i)) ∨
      (¬ Undefinable st.vars i ∧ C.Refuses st (.instruction o i)) := by
  obtain ⟨args, hargs⟩ : ∃ args, i.args = some args := by
    cases hargs : i.args with
    | none =>
      rw [undefNames, hargs] at hnames
      exact absurd rfl hnames
    | some args => exact ⟨args, rfl⟩
  have hruns : Lib.runs isSpace args = undefNames i := by rw [undefNames, hargs]; rfl
  have hexec : execInstruction C.reader st o i =
      (undefVars o (undefNames i) st.vars).map fun vars => ({ st with vars := vars }, .taken) := by
    rw [execInstruction, hop, hargs]
    dsimp only
    rw [hruns, if_neg hnames]
    cases undefVars o (undefNames i) st.vars <;> rfl
  have hif : i.opcode ≠ .if_ := by rw [hop]; decide
  rcases undefVars_eq (o := o) (undefNames i) st.vars with
    ⟨hnodup, hall, hok⟩ | ⟨hnot, msg, herror⟩
  · refine .inl ⟨⟨hnodup, hall⟩, ?_⟩
    have hcurrent : current st.vars [.instruction o i] =
        fun key => if key ∈ undefNames i then none else st.vars key := by
      funext key
      rw [current_singleton, redefine, hop]
      exact if_congr List.contains_iff_mem rfl rfl
    rw [Config.Accepts, Config.processLine, step_top hstack hif, hexec, hok, hcurrent]
    rfl
  · refine .inr ⟨hnot, o, msg, ?_⟩
    rw [Config.processLine, step_top hstack hif, hexec, herror]
    rfl

/-- A text line is processed. -/
theorem processLine_text (hstack : st.stack = []) (line : CStr) :
    C.processLine st (.text o line) =
      (C.expandText st.vars line).map fun s => (st, [(o, s)]) := by
  have hstep : C.reader.step st (.text o line) = .ok (st, .yield [.text st.vars o line]) := by
    rw [Reader.step, hstack, Config.reader, shellReader_yieldText]
    rfl
  rw [Config.processLine, hstep]
  dsimp only [Action.results]
  rw [Config.expandTexts]
  cases C.expandText st.vars line <;> rfl

/-- No name is missing. -/
theorem missing_eq_nil (vars : VarsDict) (line : CStr) :
    C.missing vars (parseMetavarLine 0 line) = [] ↔
      ∀ name ∈ refNames line, (C.getItem vars name).isSome = true := by
  rw [Config.missing, List.filterMap_eq_nil_iff]
  constructor
  · intro h name hname
    obtain ⟨c, hc, heq⟩ := List.mem_filterMap.1 hname
    cases c with
    | char c => cases heq
    | ref key =>
      obtain rfl := Option.some.inj heq
      have hnone := h _ hc
      by_contra hmissing
      dsimp only at hnone
      rw [if_neg hmissing] at hnone
      cases hnone
  · intro h c hc
    cases c with
    | char c => rfl
    | ref name => exact if_pos (h name (List.mem_filterMap.2 ⟨_, hc, rfl⟩))

/-! ## What lines do -/

variable {st' : ShellState} {line : InputLine} {out : List (Origin × CStr)}

/-- A reference has the current definition, if the parent has none where this has none. -/
theorem getItem_eq_iff (vars : VarsDict) (name : CStr) :
    C.getItem vars name = vars name ↔ (vars name = none → C.metavars name = none) := by
  rw [Config.getItem]
  cases vars name with
  | none => simp
  | some v => simp

/-- **A line does what it is meant to do** exactly if it is all right. -/
theorem meets_iff (hstack : st.stack = []) (hline : IsScopeLine line) :
    C.Meets st st.vars line ↔ C.LineOk st.vars line := by
  cases hline with
  | text => exact forall₂_congr fun name _ => getItem_eq_iff st.vars name
  | @undef o i hop hnames =>
    have hok : C.LineOk st.vars (.instruction o i) := by
      rintro (h | h) <;> rw [hop] at h <;> cases h
    refine iff_of_true ?_ hok
    rw [Config.Meets, hop]
    dsimp only
    rcases processLine_undef hstack hop hnames with ⟨hund, h⟩ | ⟨hund, h⟩
    · rw [if_pos hund]
      exact h
    · rw [if_neg hund]
      exact h
  | @definition o i hdef hname =>
    have hprocess := processLine_definition (C := C) (o := o) hstack hdef hname
    rw [Config.LineOk, imp_iff_right hdef]
    by_cases hempty : defText i = []
    · -- neither accepted nor refused
      rw [if_pos hempty] at hprocess
      have haccepts : ¬ C.Accepts st st.vars (.instruction o i) := by
        intro h
        rw [Config.Accepts, hprocess] at h
        cases h
      have hrefuses : ¬ C.Refuses st (.instruction o i) := by
        rintro ⟨o', msg, h⟩
        rw [hprocess] at h
        cases h
      refine iff_of_false (fun h => ?_) (not_not.2 hempty)
      rw [Config.Meets] at h
      rcases hdef with hop | hop
      · rw [hop] at h
        dsimp only at h
        split_ifs at h
        · exact hrefuses h
        · exact haccepts h
      · rw [hop] at h
        exact haccepts h
    · rw [if_neg hempty] at hprocess
      refine iff_of_true ?_ hempty
      rw [Config.Meets]
      rcases hdef with hop | hop
      · rw [hop]
        dsimp only
        by_cases hsome : (st.vars (defName i)).isSome = true
        · rw [if_pos ⟨hsome, hop⟩] at hprocess
          rw [if_pos hsome]
          exact ⟨_, _, hprocess⟩
        · have hnot : ¬ ((st.vars (defName i)).isSome = true ∧ i.opcode = .define) :=
            fun h => hsome h.1
          rw [if_neg hnot] at hprocess
          rw [if_neg hsome]
          exact hprocess
      · have hnot : ¬ ((st.vars (defName i)).isSome = true ∧ i.opcode = .define) := by
          rw [hop]
          exact fun h => Opcode.noConfusion h.2
        rw [if_neg hnot] at hprocess
        rw [hop]
        exact hprocess

/-- After a line, the copy has the current definitions again. -/
theorem processLine_next (hstack : st.stack = []) (hline : IsScopeLine line)
    (h : C.processLine st line = .ok (st', out)) :
    st'.vars = current st.vars [line] ∧ st'.stack = [] := by
  cases hline with
  | @text o text =>
    rw [processLine_text hstack] at h
    cases hexpand : C.expandText st.vars text with
    | error e =>
      rw [hexpand] at h
      cases h
    | ok s =>
      rw [hexpand] at h
      obtain ⟨rfl, -⟩ := Prod.mk.inj (Except.ok.inj h)
      exact ⟨rfl, hstack⟩
  | @undef o i hop hnames =>
    rcases processLine_undef hstack hop hnames with ⟨-, haccepts⟩ | ⟨-, o', msg, herror⟩
    · rw [haccepts] at h
      obtain ⟨rfl, -⟩ := Prod.mk.inj (Except.ok.inj h)
      exact ⟨rfl, hstack⟩
    · rw [herror] at h
      cases h
  | @definition o i hdef hname =>
    rw [processLine_definition hstack hdef hname] at h
    split_ifs at h
    obtain ⟨rfl, -⟩ := Prod.mk.inj (Except.ok.inj h)
    exact ⟨rfl, hstack⟩

/-- When the next line is reached. -/
theorem processLine_ok_iff (hstack : st.stack = []) (hline : IsScopeLine line)
    (hok : C.LineOk st.vars line) :
    (∃ r, C.processLine st line = .ok r) ↔ C.Continues st.vars line := by
  cases hline with
  | @text o text =>
    have hsame : (∀ name ∈ refNames text, (C.getItem st.vars name).isSome = true) ↔
        ∀ name ∈ refNames text, (st.vars name).isSome = true := by
      refine forall₂_congr fun name hname => ?_
      rw [(getItem_eq_iff st.vars name).2 (hok name hname)]
    rw [processLine_text hstack, Config.Continues, ← hsame, ← missing_eq_nil, Config.expandText]
    by_cases hmissing : C.missing st.vars (parseMetavarLine 0 text) ≠ [] ∧ C.keepGoing = false
    · rw [if_pos hmissing]
      refine iff_of_false ?_ ?_
      · rintro ⟨r, hr⟩
        cases hr
      · rintro (hkeep | hnil)
        · rw [hmissing.2] at hkeep
          cases hkeep
        · exact hmissing.1 hnil
    · rw [if_neg hmissing]
      refine iff_of_true ⟨_, rfl⟩ ?_
      rw [not_and_or, not_not, Bool.not_eq_false] at hmissing
      exact hmissing.symm
  | @undef o i hop hnames =>
    rw [Config.Continues, hop]
    rcases processLine_undef hstack hop hnames with ⟨hund, haccepts⟩ | ⟨hund, o', msg, herror⟩
    · exact iff_of_true ⟨_, haccepts⟩ hund
    · refine iff_of_false ?_ hund
      rintro ⟨r, hr⟩
      rw [herror] at hr
      cases hr
  | @definition o i hdef hname =>
    rw [processLine_definition hstack hdef hname, if_neg (hok hdef), Config.Continues]
    rcases hdef with hop | hop
    · rw [hop]
      by_cases hsome : (st.vars (defName i)).isSome = true
      · rw [if_pos ⟨hsome, rfl⟩]
        refine iff_of_false ?_ (Option.isSome_iff_ne_none.1 hsome)
        rintro ⟨r, hr⟩
        cases hr
      · rw [if_neg fun h => hsome h.1]
        exact iff_of_true ⟨_, rfl⟩ (Option.not_isSome_iff_eq_none.1 hsome)
    · rw [hop, if_neg fun h => Opcode.noConfusion h.2]
      exact iff_of_true ⟨_, rfl⟩ trivial

/-! ## Runs -/

variable {lines : List InputLine}

/-- The first line is processed, and then the others. -/
theorem process_cons_ok : C.process (line :: lines) st = .ok (st', out) ↔
    ∃ mid out₁ out₂, C.processLine st line = .ok (mid, out₁) ∧
      C.process lines mid = .ok (st', out₂) ∧ out = out₁ ++ out₂ := by
  rw [Config.process]
  constructor
  · intro h
    cases hline : C.processLine st line with
    | error e =>
      rw [hline] at h
      cases h
    | ok r =>
      obtain ⟨mid, out₁⟩ := r
      rw [hline] at h
      dsimp only at h
      cases hrest : C.process lines mid with
      | error e =>
        rw [hrest] at h
        cases h
      | ok r =>
        obtain ⟨last, out₂⟩ := r
        rw [hrest] at h
        obtain ⟨rfl, rfl⟩ := Prod.mk.inj (Except.ok.inj h)
        exact ⟨mid, out₁, out₂, rfl, hrest, rfl⟩
  · rintro ⟨mid, out₁, out₂, hline, hrest, rfl⟩
    rw [hline]
    dsimp only
    rw [hrest]

theorem expandTexts_append_ok {ys ys' : List Yield} {out : List (Origin × CStr)} :
    C.expandTexts (ys ++ ys') = .ok out ↔
      ∃ out₁ out₂, C.expandTexts ys = .ok out₁ ∧ C.expandTexts ys' = .ok out₂ ∧
        out = out₁ ++ out₂ := by
  induction ys generalizing out with
  | nil => simp [Config.expandTexts]
  | cons y ys ih =>
    rw [List.cons_append]
    cases y with
    | expansion o lines =>
      rw [Config.expandTexts, Config.expandTexts]
      exact ih
    | text vars o line =>
      rw [Config.expandTexts, Config.expandTexts]
      cases C.expandText vars line with
      | error e => simp
      | ok s =>
        constructor
        · intro h
          cases hall : C.expandTexts (ys ++ ys') with
          | error e =>
            rw [hall] at h
            cases h
          | ok rest =>
            rw [hall] at h
            obtain rfl := Except.ok.inj h
            obtain ⟨out₁, out₂, hfirst, hsecond, rfl⟩ := ih.1 hall
            refine ⟨(o, s) :: out₁, out₂, ?_, hsecond, rfl⟩
            dsimp only
            rw [hfirst]
        · rintro ⟨out₁, out₂, hfirst, hsecond, rfl⟩
          cases hys : C.expandTexts ys with
          | error e =>
            rw [hys] at hfirst
            cases hfirst
          | ok rest =>
            rw [hys] at hfirst
            obtain rfl := Except.ok.inj hfirst
            dsimp only
            rw [ih.2 ⟨rest, out₂, hys, hsecond, rfl⟩]
            rfl

/-- **If nothing is raised**, it does not matter whether a text is expanded before the next
    line is read, or after all lines. -/
theorem process_ok_iff : C.process lines st = .ok (st', out) ↔
    ∃ actions, C.reader.run lines st = .ok (st', actions) ∧
      C.expandTexts (actions.flatMap Action.results) = .ok out := by
  induction lines generalizing st out with
  | nil =>
    constructor
    · intro h
      obtain ⟨rfl, rfl⟩ := Prod.mk.inj (Except.ok.inj h)
      exact ⟨[], rfl, rfl⟩
    · rintro ⟨actions, hrun, hexpand⟩
      obtain ⟨rfl, rfl⟩ := Prod.mk.inj (Except.ok.inj hrun)
      obtain rfl := Except.ok.inj hexpand
      rfl
  | cons line lines ih =>
    rw [process_cons_ok]
    constructor
    · rintro ⟨mid, out₁, out₂, hline, hrest, rfl⟩
      rw [Config.processLine] at hline
      cases hstep : C.reader.step st line with
      | error e =>
        rw [hstep] at hline
        cases hline
      | ok r =>
        obtain ⟨mid', action⟩ := r
        rw [hstep] at hline
        dsimp only at hline
        cases hexpand : C.expandTexts action.results with
        | error e =>
          rw [hexpand] at hline
          cases hline
        | ok texts =>
          rw [hexpand] at hline
          obtain ⟨rfl, rfl⟩ := Prod.mk.inj (Except.ok.inj hline)
          obtain ⟨actions, hrun, htexts⟩ := ih.1 hrest
          refine ⟨action :: actions, ?_, ?_⟩
          · rw [Reader.run_cons hstep, hrun]
            rfl
          · rw [List.flatMap_cons]
            exact expandTexts_append_ok.2 ⟨_, _, hexpand, htexts, rfl⟩
    · rintro ⟨actions, hrun, htexts⟩
      rw [Reader.run] at hrun
      cases hstep : C.reader.step st line with
      | error e =>
        rw [hstep] at hrun
        cases hrun
      | ok r =>
        obtain ⟨mid, action⟩ := r
        rw [hstep] at hrun
        dsimp only at hrun
        cases hrest : C.reader.run lines mid with
        | error e =>
          rw [hrest] at hrun
          cases hrun
        | ok r =>
          obtain ⟨last, actions'⟩ := r
          rw [hrest] at hrun
          obtain ⟨rfl, rfl⟩ := Prod.mk.inj (Except.ok.inj hrun)
          rw [List.flatMap_cons] at htexts
          obtain ⟨out₁, out₂, hfirst, hsecond, rfl⟩ := expandTexts_append_ok.1 htexts
          refine ⟨mid, out₁, out₂, ?_, ih.2 ⟨actions', hrest, hsecond⟩, rfl⟩
          rw [Config.processLine, hstep]
          dsimp only
          rw [hfirst]

/-- **The copy has the current definitions** after each line. -/
theorem process_vars (hstack : st.stack = []) (hlines : ∀ line ∈ lines, IsScopeLine line)
    (h : C.process lines st = .ok (st', out)) :
    st'.vars = current st.vars lines ∧ st'.stack = [] := by
  induction lines generalizing st out with
  | nil =>
    obtain ⟨rfl, -⟩ := Prod.mk.inj (Except.ok.inj h)
    exact ⟨rfl, hstack⟩
  | cons line lines ih =>
    obtain ⟨mid, out₁, out₂, hline, hrest, -⟩ := process_cons_ok.1 h
    obtain ⟨hvars, hmid⟩ := processLine_next hstack (hlines line (by simp)) hline
    have hlast := ih hmid (fun l hl => hlines l (by simp [hl])) hrest
    rw [hvars] at hlast
    exact hlast

/-- The first line, and what follows if it is processed. -/
theorem scopeHolds_cons (hstack : st.stack = []) (hline : IsScopeLine line) :
    C.ScopeHolds st (line :: lines) ↔
      C.Meets st st.vars line ∧
        ∀ st' out, C.processLine st line = .ok (st', out) → C.ScopeHolds st' lines := by
  constructor
  · intro h
    refine ⟨(h [] line lines rfl st [] rfl).2, fun mid out hprocess => ?_⟩
    obtain ⟨hvars, -⟩ := processLine_next hstack hline hprocess
    intro pre next post hsplit last out' hpre
    have hrun : C.process (line :: pre) st = .ok (last, out ++ out') :=
      process_cons_ok.2 ⟨mid, out, out', hprocess, hpre, rfl⟩
    have hnext := h (line :: pre) next post (by rw [hsplit]; rfl) last _ hrun
    rw [current_cons, ← hvars] at hnext
    exact hnext
  · rintro ⟨hmeets, hrest⟩ pre next post hsplit last out hrun
    cases pre with
    | nil =>
      obtain ⟨rfl, rfl⟩ := List.cons.inj hsplit
      obtain ⟨rfl, -⟩ := Prod.mk.inj (Except.ok.inj hrun)
      exact ⟨rfl, hmeets⟩
    | cons first pre =>
      obtain ⟨rfl, htail⟩ := List.cons.inj hsplit
      obtain ⟨mid, out₁, out₂, hprocess, hpre, -⟩ := process_cons_ok.1 hrun
      obtain ⟨hvars, -⟩ := processLine_next hstack hline hprocess
      have hnext := hrest mid out₁ hprocess pre next post htail last out₂ hpre
      rw [hvars] at hnext
      exact hnext

end

/-- **Definitions are scoped** as they are meant to be exactly if no definition that is
    reached lacks a value, and no reference finds a definition of the parent that has been
    undefined. -/
theorem scopeHolds_iff (C : Config) (lines : List InputLine)
    (hlines : ∀ line ∈ lines, IsScopeLine line) (st : ShellState) (hstack : st.stack = []) :
    C.ScopeHolds st lines ↔ C.WellScoped st.vars lines := by
  induction lines generalizing st with
  | nil =>
    refine iff_of_true ?_ trivial
    intro pre line post hsplit
    exact absurd hsplit.symm (by simp)
  | cons line lines ih =>
    have hline := hlines line (by simp)
    have hrest : ∀ l ∈ lines, IsScopeLine l := fun l hl => hlines l (by simp [hl])
    rw [scopeHolds_cons hstack hline, Config.WellScoped, meets_iff hstack hline]
    refine and_congr_right fun hok => ?_
    rw [← processLine_ok_iff hstack hline hok]
    constructor
    · rintro h ⟨⟨st', out⟩, hprocess⟩
      obtain ⟨hvars, hstack'⟩ := processLine_next hstack hline hprocess
      rw [← hvars, ← ih hrest st' hstack']
      exact h st' out hprocess
    · intro h st' out hprocess
      obtain ⟨hvars, hstack'⟩ := processLine_next hstack hline hprocess
      rw [ih hrest st' hstack', hvars]
      exact h ⟨_, hprocess⟩

/-- The same for an infile, which is processed with a fork of the variables. -/
theorem scopeHolds_fork_iff (C : Config) (used : List Symbol) (lines : List InputLine)
    (hlines : ∀ line ∈ lines, IsScopeLine line) :
    C.ScopeHolds ⟨used, C.metavars, []⟩ lines ↔ C.WellScoped C.metavars lines :=
  scopeHolds_iff C lines hlines ⟨used, C.metavars, []⟩ rfl

/-! ## Two infiles -/

/-- `X` is defined at first. -/
def scopeConfig : Config :=
  ⟨0, fun _ => none, fun lines => .ok (lines.map Prod.snd), false,
    fun key => if key = ['X'] then some (.str "old".toList) else none⟩

/-- An instruction with arguments. -/
def instructionLine (args : String) (opcode : Opcode) : InputLine :=
  .instruction ⟨1, []⟩ ⟨opcode, some args.toList, [], [], isSpace_of_mem_nil⟩

/-- `X` is undefined and gets an empty value. -/
theorem scopeHolds_redefined :
    scopeConfig.ScopeHolds ⟨[], scopeConfig.metavars, []⟩
        [instructionLine "X" .undef, instructionLine "X \"\"" .define,
          .text ⟨3, []⟩ "@@X@@".toList] ↔
      scopeConfig.WellScoped scopeConfig.metavars
        [instructionLine "X" .undef, instructionLine "X \"\"" .define,
          .text ⟨3, []⟩ "@@X@@".toList] := by
  refine scopeHolds_fork_iff scopeConfig [] _ fun line hline => ?_
  simp only [List.mem_cons, List.not_mem_nil, or_false] at hline
  rcases hline with rfl | rfl | rfl
  · exact .undef rfl (by decide)
  · exact .definition (.inl rfl) (by decide)
  · exact .text

/-- **`X` is undefined, but a reference still has its old value**; and a definition without
    a value is an error. -/
theorem undef_still_referenced :
    (∃ lines st, preprocessLines ["<%undef X%>".toList, "@@X@@".toList] = .ok lines ∧
      (∀ line ∈ lines, IsScopeLine line) ∧
      scopeConfig.process lines ⟨[], scopeConfig.metavars, []⟩ =
        .ok (st, [(⟨2, "@@X@@".toList⟩, "old".toList)]) ∧
      st.vars ['X'] = none ∧
      ¬ scopeConfig.ScopeHolds ⟨[], scopeConfig.metavars, []⟩ lines) ∧
    ∃ line, preprocessLines ["<%define Y%>".toList] = .ok [line] ∧ IsScopeLine line ∧
      scopeConfig.process [line] ⟨[], scopeConfig.metavars, []⟩ = .error .indexError ∧
      ¬ scopeConfig.ScopeHolds ⟨[], scopeConfig.metavars, []⟩ [line] := by
  refine ⟨⟨_, _, rfl, ?_, rfl, rfl, ?_⟩, _, rfl, ?_, rfl, ?_⟩
  · intro line hline
    simp only [List.mem_cons, List.not_mem_nil, or_false] at hline
    rcases hline with rfl | rfl
    · exact .undef rfl (by decide)
    · exact .text
  · intro h
    have hmeets := (h [_] _ [] rfl _ _ rfl).2
    have hvalue := hmeets ['X'] (by decide)
    cases hvalue
  · exact .definition (.inl rfl) (by decide)
  · intro h
    have haccepts := (h [] _ [] rfl _ _ rfl).2
    cases haccepts

end Metash

end Fischstaebchen
