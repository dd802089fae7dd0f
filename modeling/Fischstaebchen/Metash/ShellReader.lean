/-
  Expanding builtins (`scripts/metash`: `_preprocess_and_expand_lines` with
  `MetavarShellFileReader.expand_builtin`).

  The lines of a builtin are read in turn, and may have builtins.  `shellReader` is the
  reader as it is, with the used symbols as its state.  `staticReader` reads the same lines
  and keeps the requests for symbols; it has no state.

  * `run_expand`: a reader that expands what another one yields.
  * `shellReader_expands`: **`shellReader` expands what `staticReader` yields**, so that
    the used symbols do not affect what is read.
-/
import Fischstaebchen.Metash.Defsym

namespace Fischstaebchen

namespace Metash

/-! ## Expanding what a reader yields -/

section
variable {σ κ τ : Type} (e : σ → κ → σ × List τ)

/-- The items are expanded one after another. -/
def expandAll (s : σ) (ks : List κ) : σ × List τ :=
  ((Lib.handleAll e s ks).1, (Lib.handleAll e s ks).2.flatten)

def expandAction (s : σ) : Action κ → σ × Action τ
  | .yield ks => ((expandAll e s ks).1, .yield (expandAll e s ks).2)
  | .taken => (s, .taken)
  | .passed line => (s, .passed line)

def expandActions : σ → List (Action κ) → σ × List (Action τ) := Lib.handleAll (expandAction e)

theorem expandAll_cons (s : σ) (k : κ) (ks : List κ) :
    expandAll e s (k :: ks) =
      ((expandAll e (e s k).1 ks).1, (e s k).2 ++ (expandAll e (e s k).1 ks).2) := rfl

theorem expandAll_append (s : σ) (ks ks' : List κ) :
    expandAll e s (ks ++ ks') =
      ((expandAll e (expandAll e s ks).1 ks').1,
        (expandAll e s ks).2 ++ (expandAll e (expandAll e s ks).1 ks').2) := by
  rw [expandAll, Lib.handleAll_append, List.flatten_append]
  rfl

theorem expandAll_singleton (s : σ) (k : κ) : expandAll e s [k] = e s k := by
  rw [expandAll_cons]
  simp [expandAll, Lib.handleAll]

/-- The results of the expanded actions. -/
theorem expandAll_results (s : σ) (as : List (Action κ)) :
    expandAll e s (as.flatMap Action.results) =
      ((expandActions e s as).1, (expandActions e s as).2.flatMap Action.results) := by
  induction as generalizing s with
  | nil => rfl
  | cons a as ih =>
    rw [List.flatMap_cons, expandAll_append, ih, expandActions, Lib.handleAll, List.flatMap_cons]
    cases a <;> rfl

variable (R : Reader σ τ) (S : Reader Unit κ)

/-- What `R` yields is the expansion of what `S` yields. -/
structure Expands : Prop where
  isMetavarName : R.isMetavarName = S.isMetavarName
  yieldText : ∀ s vars o line, e s (S.yieldText vars o line) = (s, [R.yieldText vars o line])
  expandBuiltin : ∀ s vars o i, R.expandBuiltin s vars o i =
    (S.expandBuiltin () vars o i).map fun r =>
      ((expandAll e s r.2.2).1, r.2.1, (expandAll e s r.2.2).2)

variable {e R S}

theorem Expands.execInstruction (h : Expands e R S) (s : σ) (vars : VarsDict)
    (stack : List IfBlock) (o : Origin) (i : Instruction) :
    execInstruction R ⟨s, vars, stack⟩ o i =
      (execInstruction S ⟨(), vars, stack⟩ o i).map fun r =>
        (⟨(expandAction e s r.2).1, r.1.vars, r.1.stack⟩, (expandAction e s r.2).2) := by
  have hdef : defineVar R vars o i = defineVar S vars o i := by
    simp only [defineVar, h.isMetavarName]
  rw [Metash.execInstruction, Metash.execInstruction]
  split
  · rw [hdef]
    cases defineVar S vars o i <;> rfl
  · rw [hdef]
    cases defineVar S vars o i <;> rfl
  · split
    · rfl
    · split
      · rfl
      · dsimp only
        split <;> rfl
  · split
    · rfl
    · dsimp only
      rw [h.expandBuiltin]
      cases S.expandBuiltin () vars o i <;> rfl
  · rfl

theorem Expands.step (h : Expands e R S) (s : σ) (vars : VarsDict) (stack : List IfBlock)
    (line : InputLine) :
    R.step ⟨s, vars, stack⟩ line =
      (S.step ⟨(), vars, stack⟩ line).map fun r =>
        (⟨(expandAction e s r.2).1, r.1.vars, r.1.stack⟩, (expandAction e s r.2).2) := by
  cases line with
  | text o line =>
    rw [Reader.step, Reader.step]
    dsimp only
    split
    · rfl
    · simp only [Except.map, expandAction, expandAll_singleton, h.yieldText]
  | instruction o i =>
    rw [Reader.step, Reader.step]
    dsimp only
    split
    · split <;> rfl
    · cases stack with
      | nil => exact h.execInstruction s vars [] o i
      | cons b stack =>
        dsimp only
        split
        · split <;> rfl
        · split
          · rfl
          · exact h.execInstruction s vars (b :: stack) o i

/-- **The run of `R` is the expansion of the run of `S`.** -/
theorem Expands.run_expand (h : Expands e R S) (lines : List InputLine) (s : σ)
    (vars : VarsDict) (stack : List IfBlock) :
    R.run lines ⟨s, vars, stack⟩ =
      (S.run lines ⟨(), vars, stack⟩).map fun r =>
        (⟨(expandActions e s r.2).1, r.1.vars, r.1.stack⟩, (expandActions e s r.2).2) := by
  induction lines generalizing s vars stack with
  | nil => rfl
  | cons line lines ih =>
    rw [Reader.run, Reader.run, h.step]
    cases S.step ⟨(), vars, stack⟩ line with
    | error err => rfl
    | ok r =>
      obtain ⟨⟨-, vars', stack'⟩, action⟩ := r
      simp only [Except.map]
      rw [ih]
      cases S.run lines ⟨(), vars', stack'⟩ <;> rfl

theorem Expands.preprocessAndExpandLines (h : Expands e R S) (lines : List InputLine) (s : σ)
    (vars : VarsDict) :
    R.preprocessAndExpandLines s vars lines =
      (S.preprocessAndExpandLines () vars lines).map fun r =>
        (⟨(expandActions e s r.2).1, r.1.vars, r.1.stack⟩, (expandActions e s r.2).2) := by
  rw [Reader.preprocessAndExpandLines, Reader.preprocessAndExpandLines, h.run_expand]
  cases S.run lines ⟨(), vars, []⟩ with
  | error err => rfl
  | ok r =>
    simp only [Except.map]
    by_cases hstack : r.1.stack = []
    · rw [if_pos hstack, if_pos hstack]
    · rw [if_neg hstack, if_neg hstack]

end

/-! ## Text lines -/

section
variable {σ τ : Type} (R : Reader σ τ) (vars : VarsDict)

/-- What is yielded for a text line. -/
def lineYields : InputLine → List τ
  | .text o line => [R.yieldText vars o line]
  | .instruction _ _ => []

/-- Text lines are yielded. -/
theorem Reader.run_texts {lines : List InputLine} (h : ∀ line ∈ lines, line.IsText) (s : σ) :
    R.run lines ⟨s, vars, []⟩ =
      .ok (⟨s, vars, []⟩, lines.map fun line => .yield (lineYields R vars line)) := by
  induction lines with
  | nil => rfl
  | cons line lines ih =>
    obtain ⟨o, text, rfl⟩ := h line List.mem_cons_self
    have hstep : R.step ⟨s, vars, []⟩ (.text o text) =
        .ok (⟨s, vars, []⟩, .yield [R.yieldText vars o text]) := rfl
    rw [Reader.run_cons hstep, ih fun x hx => h x (List.mem_cons_of_mem _ hx)]
    rfl

theorem Reader.preprocessAndExpandLines_texts {lines : List InputLine}
    (h : ∀ line ∈ lines, line.IsText) (s : σ) :
    R.preprocessAndExpandLines s vars lines =
      .ok (⟨s, vars, []⟩, lines.map fun line => .yield (lineYields R vars line)) := by
  rw [Reader.preprocessAndExpandLines, R.run_texts vars h]
  rfl

end

/-! ## The reader of the shell scripts -/

/-- A yielded line; or the lines a builtin is expanded to, before they are read. -/
inductive Yield
  | text (vars : VarsDict) (o : Origin) (line : CStr)
  | expansion (o : Origin) (lines : List CStr)

/-- `re_metavar_name`. -/
def isMetavarName (name : CStr) : Bool :=
  let isFirst (c : Char) : Bool := c.isUpper || c == '_'
  match name with
  | [] => false
  | c :: cs => (c == '$' && cs == []) || (isFirst c && cs.all fun c => isFirst c || c.isDigit)

section
variable (macros : Macros)

/-- `MetavarShellFileReader`, with a limit of nested expansions. -/
def shellReader : ℕ → Reader (List Symbol) Yield
  | 0 => ⟨isMetavarName, .text, fun _ _ _ _ => .error .recursion⟩
  | n + 1 => ⟨isMetavarName, .text, fun used vars o i =>
    match expandBuiltin macros o i used with
    | .error e => .error e
    | .ok (used, lines) =>
      match preprocessLines lines with
      | .error e => .error e
      | .ok input =>
        match (shellReader n).preprocessAndExpandLines used vars input with
        | .error e => .error e
        | .ok (st, actions) =>
          .ok (st.global, st.vars, .expansion o lines :: actions.flatMap Action.results)⟩

/-- A yielded line, the lines of a builtin, or a request for symbols. -/
inductive Chunk
  | text (vars : VarsDict) (o : Origin) (line : CStr)
  | expansion (o : Origin) (lines : List CStr)
  | symbols (vars : VarsDict) (o : Origin) (i : Instruction) (ss : List Symbol)

/-- The requested symbols. -/
def Chunk.requests : Chunk → List Symbol
  | text _ _ _ | expansion _ _ => []
  | symbols _ _ _ ss => ss

/-- The reader without a state. -/
def staticReader : ℕ → Reader Unit Chunk
  | 0 => ⟨isMetavarName, .text, fun _ _ _ _ => .error .recursion⟩
  | n + 1 => ⟨isMetavarName, .text, fun _ vars o i =>
    match parseBuiltin macros o i with
    | .error e => .error e
    | .ok (.symbols ss) => .ok ((), vars, [.symbols vars o i ss])
    | .ok (.lines ls) =>
      match preprocessLines (addRemainder i.lineRemainder ls) with
      | .error e => .error e
      | .ok input =>
        match (staticReader n).preprocessAndExpandLines () vars input with
        | .error e => .error e
        | .ok (st, actions) =>
          .ok ((), st.vars, .expansion o (addRemainder i.lineRemainder ls) ::
            actions.flatMap Action.results)⟩

end

/-- The text lines that these lines are. -/
def textYields (vars : VarsDict) (lines : List CStr) : List Yield :=
  match preprocessLines lines with
  | .error _ => []
  | .ok input => input.flatMap fun
    | .text o line => [.text vars o line]
    | .instruction _ _ => []

/-- A request is expanded to the definitions of the symbols. -/
def Chunk.expand (used : List Symbol) : Chunk → List Symbol × List Yield
  | text vars o line => (used, [.text vars o line])
  | expansion o lines => (used, [.expansion o lines])
  | symbols vars o i ss =>
    let r := (Expansion.symbols ss).expand i used
    (r.1, .expansion o r.2 :: textYields vars r.2)

section
variable {macros : Macros}

@[simp]
theorem shellReader_yieldText (n : ℕ) : (shellReader macros n).yieldText = Yield.text := by
  cases n <;> rfl

@[simp]
theorem staticReader_yieldText (n : ℕ) : (staticReader macros n).yieldText = Chunk.text := by
  cases n <;> rfl

/-- The lines of a request are read as text lines. -/
theorem shellReader_symbols (macros : Macros) (n : ℕ) (used : List Symbol) (vars : VarsDict) (i : Instruction)
    (ss : List Symbol) :
    ∃ input actions, preprocessLines ((Expansion.symbols ss).expand i used).2 = .ok input ∧
      (shellReader macros n).preprocessAndExpandLines
        ((Expansion.symbols ss).expand i used).1 vars input =
          .ok (⟨((Expansion.symbols ss).expand i used).1, vars, []⟩, actions) ∧
      actions.flatMap Action.results =
        textYields vars ((Expansion.symbols ss).expand i used).2 := by
  obtain ⟨input, hinput, htexts⟩ :=
    preprocessLines_plain (expand_symbols_plain i used ss)
  refine ⟨input, _, hinput, (shellReader macros n).preprocessAndExpandLines_texts vars htexts _, ?_⟩
  rw [textYields, hinput, List.flatMap_map]
  refine List.flatMap_congr fun line hline => ?_
  obtain ⟨o, text, rfl⟩ := htexts line hline
  simp [Action.results, lineYields]

/-- **The used symbols do not affect what is read.** -/
theorem shellReader_expands (n : ℕ) :
    Expands Chunk.expand (shellReader macros n) (staticReader macros n) := by
  induction n with
  | zero =>
    refine ⟨rfl, fun s vars o line => rfl, fun s vars o i => rfl⟩
  | succ n ih =>
    refine ⟨rfl, fun s vars o line => rfl, fun used vars o i => ?_⟩
    rw [shellReader, staticReader]
    dsimp only
    rw [expandBuiltin]
    cases hparse : parseBuiltin macros o i with
    | error err => rfl
    | ok x =>
      cases x with
      | symbols ss =>
        obtain ⟨input, actions, hinput, hread, hresults⟩ :=
          shellReader_symbols macros n used vars i ss
        simp only [Except.map, hinput, hread, hresults, expandAll_singleton, Chunk.expand]
      | lines ls =>
        simp only [Except.map, Expansion.expand]
        cases preprocessLines (addRemainder i.lineRemainder ls) with
        | error err => rfl
        | ok input =>
          dsimp only
          rw [ih.preprocessAndExpandLines]
          cases (staticReader macros n).preprocessAndExpandLines () vars input with
          | error err => rfl
          | ok r =>
            obtain ⟨st, actions⟩ := r
            simp only [Except.map, expandAll_cons, Chunk.expand, expandAll_results,
              List.singleton_append]

end

end Metash

end Fischstaebchen
