/-
  The conditional blocks of metash (`scripts/metash`).

  Properly nested input is a tree of blocks and text lines (`Script`), whose selected
  lines are defined without the reader.

  * `Script.run_good`: the reader yields the selected lines, if each block has at most
    one `elseif`.
  * `Script.run_bad`: it fails or skips an instruction, if some block has two.
  * `readsSelected_iff`: the reader reads properly nested input exactly under this
    condition.
-/
import Fischstaebchen.Metash.Reader

namespace Fischstaebchen

namespace Metash

/-! ## Properly nested input -/

/-- The line of an instruction: all of it but the opcode and the arguments. -/
structure Layout extends Origin where
  lineIndent : CStr
  lineRemainder : CStr
  indent_space : ∀ c ∈ lineIndent, isSpace c = true

def Layout.instruction (l : Layout) (opcode : Opcode) (args : Option CStr) : InputLine :=
  .instruction l.toOrigin ⟨opcode, args, l.lineIndent, l.lineRemainder, l.indent_space⟩

mutual

/-- A properly nested sequence of blocks and text lines. -/
inductive Script
  | nil
  | text (o : Origin) (line : CStr) (rest : Script)
  | block (l : Layout) (arg : CStr) (body : Script) (chain : Chain) (rest : Script)

/-- The part of a block after its first branch. -/
inductive Chain
  | endif (l : Layout)
  | else_ (l : Layout) (body : Script) (l' : Layout)
  | elseif (l : Layout) (arg : CStr) (body : Script) (chain : Chain)

end

mutual

/-- The input lines. -/
def Script.lines : Script → List InputLine
  | .nil => []
  | .text o line rest => .text o line :: rest.lines
  | .block l arg body chain rest =>
    l.instruction .if_ (some arg) :: (body.lines ++ (chain.lines ++ rest.lines))

def Chain.lines : Chain → List InputLine
  | .endif l => [l.instruction .endIf none]
  | .else_ l body l' =>
    l.instruction .else_ none :: (body.lines ++ [l'.instruction .endIf none])
  | .elseif l arg body chain => l.instruction .elseIf (some arg) :: (body.lines ++ chain.lines)

end

section
variable (vars : VarsDict)

/-- The argument is one word, and names a defined variable or has a default. -/
def HasCondition (arg : CStr) : Prop :=
  ∃ word, Lib.runs isSpace arg = [word] ∧ varname word ≠ [] ∧
    ((vars (varname word)).isSome = true ∨ hasDefault word = true)

/-- The variable is not one of those whose values are ints. -/
def IsStrCondition (arg : CStr) : Prop :=
  ∀ word ∈ Lib.runs isSpace arg, ∀ n, vars (varname word) ≠ some (.int n)

/-- The condition is true: the value is not false, or it is and the condition is
    negated. -/
def isTrue (arg : CStr) : Bool :=
  match Lib.runs isSpace arg with
  | [word] =>
    match (vars (varname word)).getD (.str (defaultValue word)) with
    | .str svalue => isFalse svalue == negated word
    | .int _ => false
  | _ => false

section
variable {σ τ : Type} (R : Reader σ τ)

mutual

/-- **The selected lines**: those whose enclosing blocks all select the branch that has
    the line. -/
def Script.selected : Script → List τ
  | .nil => []
  | .text o line rest => R.yieldText vars o line :: rest.selected
  | .block _ arg body chain rest =>
    (if isTrue vars arg then body.selected else chain.selected) ++ rest.selected

def Chain.selected : Chain → List τ
  | .endif _ => []
  | .else_ _ body _ => body.selected
  | .elseif _ arg body chain => if isTrue vars arg then body.selected else chain.selected

end

/-- **The input is read**: the selected lines are yielded, and no instruction is passed
    over. -/
def ReadsSelected (global : σ) (s : Script) : Prop :=
  ∃ st actions, R.preprocessAndExpandLines global vars s.lines = .ok (st, actions) ∧
    actions.flatMap Action.results = s.selected vars R ∧
    ∀ o i, Action.passed (.instruction o i) ∉ actions

end

end

section
variable (P : CStr → Prop)

mutual

/-- All conditions have a property. -/
def Script.All : Script → Prop
  | .nil => True
  | .text _ _ rest => rest.All
  | .block _ arg body chain rest => P arg ∧ body.All ∧ chain.All ∧ rest.All

def Chain.All : Chain → Prop
  | .endif _ => True
  | .else_ _ body _ => body.All
  | .elseif _ arg body chain => P arg ∧ body.All ∧ chain.All

end

mutual

/-- All conditions have a property, and no block has two `elseif`. -/
def Script.Good : Script → Prop
  | .nil => True
  | .text _ _ rest => rest.Good
  | .block _ arg body chain rest => P arg ∧ body.Good ∧ chain.Good true ∧ rest.Good

/-- In the rest of a block, an `elseif` may follow or not. -/
def Chain.Good : Chain → Bool → Prop
  | .endif _, _ => True
  | .else_ _ body _, _ => body.Good
  | .elseif _ arg body chain, elseifAllowed =>
    elseifAllowed = true ∧ P arg ∧ body.Good ∧ chain.Good false

end

end

/-! ## Conditions -/

section
variable {vars : VarsDict} {arg : CStr} (o : Origin)

/-- A condition is evaluated. -/
theorem parseIfInstruction_ok (h : HasCondition vars arg) (hstr : IsStrCondition vars arg) :
    parseIfInstruction vars o (some arg) = .ok (!isTrue vars arg) := by
  obtain ⟨word, hword, hname, hvalue⟩ := h
  have hstr := hstr word (by simp [hword])
  rw [parseIfInstruction, isTrue, hword]
  dsimp only
  rw [parseConditional, if_neg hname]
  cases hvar : vars (varname word) with
  | none =>
    rw [hvar] at hvalue
    have hdefault : hasDefault word = true := by simpa using hvalue
    dsimp only
    rw [if_pos hdefault, blindFor, Option.getD_none]
    rfl
  | some v =>
    cases v with
    | int n => exact absurd hvar (hstr n)
    | str svalue =>
      rw [Option.getD_some]
      rfl

/-- An int is not a condition. -/
theorem parseIfInstruction_error (h : HasCondition vars arg) (hstr : ¬ IsStrCondition vars arg) :
    ∃ e, parseIfInstruction vars o (some arg) = .error e := by
  obtain ⟨word, hword, hname, -⟩ := h
  obtain ⟨n, hn⟩ : ∃ n, vars (varname word) = some (.int n) := by
    by_contra hall
    refine hstr fun w hw n hn => hall ⟨n, ?_⟩
    rw [hword, List.mem_singleton] at hw
    rwa [hw] at hn
  refine ⟨.attributeError, ?_⟩
  rw [parseIfInstruction, hword]
  dsimp only
  rw [parseConditional, if_neg hname, hn]
  rfl

end

/-! ## Steps -/

section
variable {σ τ : Type} (R : Reader σ τ) (global : σ) (vars : VarsDict) (stack : List IfBlock)

/-- The opcodes that may follow in a block, after an `if` or an `elseif`. -/
def followOps (elseifAllowed : Bool) : List Opcode :=
  if elseifAllowed then [.else_, .elseIf, .endIf] else [.else_, .endIf]

/-- An open block, whose branch has been read. -/
structure IfBlock.Open (b : IfBlock) (elseifAllowed : Bool) : Prop where
  allowed : b.allowedOps = followOps elseifAllowed
  isOpen : b.isClosed = some false

/-- An `if` opens a block. -/
theorem step_if (l : Layout) {arg : CStr} {blind : Bool}
    (h : parseIfInstruction vars l.toOrigin (some arg) = .ok blind) :
    ∃ b, R.step ⟨global, vars, stack⟩ (l.instruction .if_ (some arg)) =
        .ok (⟨global, vars, b :: stack⟩, .taken) ∧
      b.Open true ∧ b.wasMatched = !blind ∧ b.forcedBlind = isBlindTop stack ∧
      isBlindTop (b :: stack) = (isBlindTop stack || blind) := by
  refine ⟨⟨[.else_, .elseIf, .endIf], if isBlindTop stack then some true else some blind,
    some false, !blind, isBlindTop stack⟩, ?_, ⟨rfl, rfl⟩, rfl, rfl, ?_⟩
  · simp [Reader.step, Layout.instruction, IfBlock.new, IfBlock.update, IfBlock.accepts, h,
      IfBlock.finishUpdate, Opcode.blockEnd]
    rfl
  · cases isBlindTop stack <;> simp [isBlindTop]

/-- An `else` selects its branch, if no other branch has been selected. -/
theorem step_else (l : Layout) {b : IfBlock} {allowed : Bool} (hb : b.Open allowed) :
    ∃ b', R.step ⟨global, vars, b :: stack⟩ (l.instruction .else_ none) =
        .ok (⟨global, vars, b' :: stack⟩, .taken) ∧
      b'.allowedOps = [.endIf] ∧ b'.isClosed = some false ∧
      isBlindTop (b' :: stack) = (b.forcedBlind || b.wasMatched) := by
  obtain ⟨hallowed, hopen⟩ := hb
  refine ⟨⟨[.endIf], if b.forcedBlind then some true else some b.wasMatched, some false,
    b.wasMatched, b.forcedBlind⟩, ?_, rfl, rfl, ?_⟩
  · cases allowed <;>
      simp [Reader.step, Layout.instruction, IfBlock.update, IfBlock.accepts, hallowed, followOps,
        hopen, IfBlock.finishUpdate, Opcode.blockEnd]
  · cases b.forcedBlind <;> simp [isBlindTop]

/-- An `endif` closes the block. -/
theorem step_endif (l : Layout) {b : IfBlock} (hallowed : Opcode.endIf ∈ b.allowedOps)
    (hopen : b.isClosed = some false) :
    R.step ⟨global, vars, b :: stack⟩ (l.instruction .endIf none) =
      .ok (⟨global, vars, stack⟩, .taken) := by
  simp [Reader.step, Layout.instruction, IfBlock.update, IfBlock.accepts, hallowed, hopen,
    IfBlock.finishUpdate]

/-- An `elseif` selects its branch, if its condition is true and no other branch has
    been selected. -/
theorem step_elseif (l : Layout) {b : IfBlock} (hb : b.Open true) {arg : CStr} {blind : Bool}
    (h : parseIfInstruction vars l.toOrigin (some arg) = .ok blind) :
    ∃ b', R.step ⟨global, vars, b :: stack⟩ (l.instruction .elseIf (some arg)) =
        .ok (⟨global, vars, b' :: stack⟩, .taken) ∧
      b'.Open false ∧ b'.wasMatched = (b.wasMatched || !blind) ∧
      b'.forcedBlind = b.forcedBlind ∧
      isBlindTop (b' :: stack) = (b.forcedBlind || (b.wasMatched || blind)) := by
  obtain ⟨hallowed, hopen⟩ := hb
  refine ⟨⟨[.else_, .endIf], if b.forcedBlind then some true else some (b.wasMatched || blind),
    some false, b.wasMatched || !blind, b.forcedBlind⟩, ?_, ⟨rfl, rfl⟩, rfl, rfl, ?_⟩
  · cases hmatched : b.wasMatched <;>
      simp [Reader.step, Layout.instruction, IfBlock.update, IfBlock.accepts, hallowed, followOps,
        hopen, IfBlock.finishUpdate, Opcode.blockEnd, h, hmatched]
  · cases b.forcedBlind <;> simp [isBlindTop]

/-- **A second `elseif`** is passed over or refused. -/
theorem step_elseif_twice (l : Layout) {b : IfBlock} (hb : b.Open false) (arg : CStr) :
    R.step ⟨global, vars, b :: stack⟩ (l.instruction .elseIf (some arg)) =
      if isBlindTop (b :: stack) then
        .ok (⟨global, vars, b :: stack⟩, .passed (l.instruction .elseIf (some arg)))
      else .error (.notImplemented .elseIf) := by
  simp [Reader.step, Layout.instruction, IfBlock.accepts, hb.allowed, followOps, isBlindTop,
    execInstruction]
  rfl

/-! ## Blocks that are read -/

variable {R} {global} {vars} {stack}

/-- No instruction has been passed over. -/
def NoneSkipped (actions : List (Action τ)) : Prop :=
  ∀ o i, Action.passed (.instruction o i) ∉ actions

theorem NoneSkipped.append {actions actions' : List (Action τ)} (h : NoneSkipped actions)
    (h' : NoneSkipped actions') : NoneSkipped (actions ++ actions') := by
  intro o i hmem
  rcases List.mem_append.1 hmem with hmem | hmem
  · exact h o i hmem
  · exact h' o i hmem

theorem noneSkipped_taken : NoneSkipped ([.taken] : List (Action τ)) := by
  intro o i hmem
  cases List.mem_singleton.1 hmem

/-- A part of the input is read: it leaves the stack `stack'`, and yields `results`. -/
def Reads (R : Reader σ τ) (global : σ) (vars : VarsDict) (lines : List InputLine)
    (stack stack' : List IfBlock) (results : List τ) : Prop :=
  ∃ actions, R.run lines ⟨global, vars, stack⟩ = .ok (⟨global, vars, stack'⟩, actions) ∧
    actions.flatMap Action.results = results ∧ NoneSkipped actions

theorem Reads.nil : Reads R global vars [] stack stack [] :=
  ⟨[], rfl, rfl, fun _ _ h => by cases h⟩

theorem Reads.append {lines lines' : List InputLine} {stack₁ stack₂ : List IfBlock}
    {results results' : List τ} (h : Reads R global vars lines stack stack₁ results)
    (h' : Reads R global vars lines' stack₁ stack₂ results') :
    Reads R global vars (lines ++ lines') stack stack₂ (results ++ results') := by
  obtain ⟨actions, hrun, hresults, hskip⟩ := h
  obtain ⟨actions', hrun', hresults', hskip'⟩ := h'
  refine ⟨actions ++ actions', ?_, ?_, hskip.append hskip'⟩
  · rw [Reader.run_append hrun, hrun']
    rfl
  · rw [List.flatMap_append, hresults, hresults']

/-- An instruction of a block is taken. -/
theorem Reads.of_step {line : InputLine} {stack' : List IfBlock}
    (h : R.step ⟨global, vars, stack⟩ line = .ok (⟨global, vars, stack'⟩, .taken)) :
    Reads R global vars [line] stack stack' [] := by
  refine ⟨[.taken], ?_, rfl, noneSkipped_taken⟩
  rw [Reader.run_cons h]
  rfl

/-- A text line is yielded, unless the block is blind. -/
theorem Reads.text (o : Origin) (line : CStr) :
    Reads R global vars [.text o line] stack stack
      (if isBlindTop stack then [] else [R.yieldText vars o line]) := by
  cases hblind : isBlindTop stack with
  | true =>
    have hstep : R.step ⟨global, vars, stack⟩ (.text o line) =
        .ok (⟨global, vars, stack⟩, .passed (.text o line)) := by
      rw [Reader.step, if_pos hblind]
    refine ⟨[.passed (.text o line)], ?_, rfl, fun o i h => ?_⟩
    · rw [Reader.run_cons hstep]
      rfl
    · cases List.mem_singleton.1 h
  | false =>
    have hstep : R.step ⟨global, vars, stack⟩ (.text o line) =
        .ok (⟨global, vars, stack⟩, .yield [R.yieldText vars o line]) := by
      rw [Reader.step, if_neg (by simp [hblind])]
    refine ⟨[.yield [R.yieldText vars o line]], ?_, rfl, fun o i h => ?_⟩
    · rw [Reader.run_cons hstep]
      rfl
    · cases List.mem_singleton.1 h

mutual

/-- **A script with at most one `elseif` in each block** is read: nothing is yielded in
    a blind block, and else the selected lines. -/
theorem Script.run_good (stack : List IfBlock) : ∀ s : Script, s.All (HasCondition vars) →
    s.Good (IsStrCondition vars) →
    Reads R global vars s.lines stack stack (if isBlindTop stack then [] else s.selected vars R)
  | .nil, _, _ => by
    rw [Script.lines, Script.selected, ite_self]
    exact .nil
  | .text o line rest, hall, hgood => by
    have h := (Reads.text (R := R) o line).append (rest.run_good stack hall hgood)
    rw [Script.lines, Script.selected]
    cases hblind : isBlindTop stack <;> rw [hblind] at h <;> exact h
  | .block l arg body chain rest, hall, hgood => by
    obtain ⟨harg, hbody, hchain, hrest⟩ := hall
    obtain ⟨hstr, hbody', hchain', hrest'⟩ := hgood
    obtain ⟨b, hstep, hopen, hmatched, hforced, hblind⟩ := step_if R global vars stack l
      (parseIfInstruction_ok l.toOrigin harg hstr)
    have h := (Reads.of_step hstep).append ((body.run_good (b :: stack) hbody hbody').append
      ((chain.run_good stack hopen hchain hchain').append (rest.run_good stack hrest hrest')))
    rw [Script.lines, Script.selected]
    rw [hblind, hforced, hmatched] at h
    cases hstack : isBlindTop stack <;> cases htrue : isTrue vars arg <;>
      rw [hstack, htrue] at h <;> simpa using h

theorem Chain.run_good (stack : List IfBlock) {b : IfBlock} {allowed : Bool}
    (hb : b.Open allowed) : ∀ c : Chain, c.All (HasCondition vars) →
    c.Good (IsStrCondition vars) allowed →
    Reads R global vars c.lines (b :: stack) stack
      (if b.forcedBlind || b.wasMatched then [] else c.selected vars R)
  | .endif l, _, _ => by
    have hallowed : Opcode.endIf ∈ b.allowedOps := by
      rw [hb.allowed]
      cases allowed <;> decide
    rw [Chain.lines, Chain.selected, ite_self]
    exact .of_step (step_endif R global vars stack l hallowed hb.isOpen)
  | .else_ l body l', hall, hgood => by
    obtain ⟨b', hstep, hallowed, hopen, hblind⟩ :=
      step_else R global vars stack l hb
    have h := (Reads.of_step hstep).append ((body.run_good (b' :: stack) hall hgood).append
      (.of_step (step_endif R global vars stack l' (by simp [hallowed]) hopen)))
    rw [Chain.lines, Chain.selected]
    rw [hblind] at h
    simpa using h
  | .elseif l arg body chain, hall, hgood => by
    obtain ⟨harg, hbody, hchain⟩ := hall
    obtain ⟨rfl, hstr, hbody', hchain'⟩ := hgood
    obtain ⟨b', hstep, hopen, hmatched, hforced, hblind⟩ :=
      step_elseif R global vars stack l hb
        (parseIfInstruction_ok l.toOrigin harg hstr)
    have h := (Reads.of_step hstep).append ((body.run_good (b' :: stack) hbody hbody').append
      (chain.run_good stack hopen hchain hchain'))
    rw [Chain.lines, Chain.selected]
    rw [hblind, hforced, hmatched] at h
    cases hf : b.forcedBlind <;> cases hm : b.wasMatched <;> cases htrue : isTrue vars arg <;>
      rw [hf, hm, htrue] at h <;> simpa using h

end

/-! ## Blocks that are not read -/

/-- The reader fails, or passes over an instruction. -/
def Fails (r : Except ReaderError (ReaderState σ × List (Action τ))) : Prop :=
  ∀ st actions, r = .ok (st, actions) → ¬ NoneSkipped actions

theorem fails_error (e : ReaderError) :
    Fails (.error e : Except ReaderError (ReaderState σ × List (Action τ))) := by
  intro st actions h
  cases h

/-- An instruction that has been passed over stays so. -/
theorem fails_append {actions : List (Action τ)}
    {r : Except ReaderError (ReaderState σ × List (Action τ))}
    (h : ¬ NoneSkipped actions ∨ Fails r) : Fails (r.map fun r => (r.1, actions ++ r.2)) := by
  cases r with
  | error e => exact fails_error e
  | ok r =>
    obtain ⟨st, actions'⟩ := r
    intro st₂ actions₂ hok hskip
    cases hok
    rcases h with h | h
    · exact h fun o i hmem => hskip o i (List.mem_append_left _ hmem)
    · exact h st actions' rfl fun o i hmem => hskip o i (List.mem_append_right _ hmem)

theorem Fails.append_left {lines : List InputLine} {st : ReaderState σ}
    (h : Fails (R.run lines st)) (lines' : List InputLine) :
    Fails (R.run (lines ++ lines') st) := by
  cases hrun : R.run lines st with
  | error e =>
    rw [Reader.run_append_error hrun]
    exact fails_error e
  | ok r =>
    obtain ⟨st', actions⟩ := r
    rw [Reader.run_append hrun]
    exact fails_append (.inl (h st' actions hrun))

theorem Reads.fails_append {lines : List InputLine} {stack' : List IfBlock} {results : List τ}
    (h : Reads R global vars lines stack stack' results) {lines' : List InputLine}
    (h' : Fails (R.run lines' ⟨global, vars, stack'⟩)) :
    Fails (R.run (lines ++ lines') ⟨global, vars, stack⟩) := by
  obtain ⟨actions, hrun, -, -⟩ := h
  rw [Reader.run_append hrun]
  exact Metash.fails_append (.inr h')

theorem fails_of_step_error {line : InputLine} {st : ReaderState σ} {e : ReaderError}
    (h : R.step st line = .error e) (lines : List InputLine) :
    Fails (R.run (line :: lines) st) := by
  rw [Reader.run, h]
  exact fails_error e

/-- An instruction with a condition that cannot be evaluated. -/
theorem update_error {b : IfBlock} {o : Origin} {i : Instruction} {e : ReaderError}
    (h : parseIfInstruction vars o i.args = .error e)
    (hop : i.opcode = .if_ ∨ i.opcode = .elseIf) : ∃ e', b.update vars o i = .error e' := by
  rw [IfBlock.update]
  by_cases hacc : b.accepts i = false
  · exact ⟨_, if_pos hacc⟩
  · rw [if_neg hacc]
    rcases hop with hop | hop
    · rw [hop]
      dsimp only
      by_cases hnew : b.isClosed ≠ none
      · exact ⟨_, if_pos hnew⟩
      · rw [if_neg hnew, h]
        exact ⟨_, rfl⟩
    · rw [hop]
      dsimp only
      rw [h]
      exact ⟨_, rfl⟩

theorem step_if_error (R : Reader σ τ) (global : σ) (vars : VarsDict) (stack : List IfBlock)
    (l : Layout) {args : Option CStr} {e : ReaderError}
    (h : parseIfInstruction vars l.toOrigin args = .error e) :
    ∃ e', R.step ⟨global, vars, stack⟩ (l.instruction .if_ args) = .error e' := by
  obtain ⟨e', he'⟩ := update_error (b := IfBlock.new (isBlindTop stack))
    (i := ⟨.if_, args, l.lineIndent, l.lineRemainder, l.indent_space⟩) h (.inl rfl)
  refine ⟨e', ?_⟩
  rw [Layout.instruction, Reader.step, if_pos rfl]
  dsimp only
  rw [he']

theorem step_elseif_error (R : Reader σ τ) (global : σ) (vars : VarsDict) (stack : List IfBlock)
    (l : Layout) {b : IfBlock} (hb : b.Open true) {args : Option CStr}
    {e : ReaderError} (h : parseIfInstruction vars l.toOrigin args = .error e) :
    ∃ e', R.step ⟨global, vars, b :: stack⟩ (l.instruction .elseIf args) = .error e' := by
  obtain ⟨e', he'⟩ := update_error (b := b)
    (i := ⟨.elseIf, args, l.lineIndent, l.lineRemainder, l.indent_space⟩) h (.inr rfl)
  refine ⟨e', ?_⟩
  have hacc : b.accepts ⟨.elseIf, args, l.lineIndent, l.lineRemainder, l.indent_space⟩ = true := by
    simp [IfBlock.accepts, hb.allowed, followOps]
  rw [Layout.instruction, Reader.step, if_neg (by simp)]
  dsimp only
  rw [if_pos hacc, he']

mutual

/-- **A script with two `elseif` in a block**, or with an int for a condition, is not
    read. -/
theorem Script.run_bad (stack : List IfBlock) : ∀ s : Script, s.All (HasCondition vars) →
    ¬ s.Good (IsStrCondition vars) → Fails (R.run s.lines ⟨global, vars, stack⟩)
  | .nil, _, hbad => absurd trivial hbad
  | .text o line rest, hall, hbad =>
    (Reads.text (R := R) o line).fails_append (rest.run_bad stack hall hbad)
  | .block l arg body chain rest, hall, hbad => by
    obtain ⟨harg, hbody, hchain, hrest⟩ := hall
    rw [Script.lines]
    by_cases hstr : IsStrCondition vars arg
    · obtain ⟨b, hstep, hopen, -⟩ := step_if R global vars stack l
        (parseIfInstruction_ok l.toOrigin harg hstr)
      refine (Reads.of_step hstep).fails_append ?_
      by_cases hbody' : body.Good (IsStrCondition vars)
      · refine (body.run_good (b :: stack) hbody hbody').fails_append ?_
        by_cases hchain' : chain.Good (IsStrCondition vars) true
        · refine (chain.run_good stack hopen hchain hchain').fails_append ?_
          exact rest.run_bad stack hrest fun hrest' => hbad ⟨hstr, hbody', hchain', hrest'⟩
        · exact (chain.run_bad stack hopen hchain hchain').append_left _
      · exact (body.run_bad (b :: stack) hbody hbody').append_left _
    · obtain ⟨e, he⟩ := parseIfInstruction_error l.toOrigin harg hstr
      obtain ⟨e', he'⟩ := step_if_error R global vars stack l he
      exact fails_of_step_error he' _

theorem Chain.run_bad (stack : List IfBlock) {b : IfBlock} {allowed : Bool}
    (hb : b.Open allowed) : ∀ c : Chain, c.All (HasCondition vars) →
    ¬ c.Good (IsStrCondition vars) allowed → Fails (R.run c.lines ⟨global, vars, b :: stack⟩)
  | .endif _, _, hbad => absurd trivial hbad
  | .else_ l body l', hall, hbad => by
    obtain ⟨b', hstep, -⟩ :=
      step_else R global vars stack l hb
    rw [Chain.lines]
    exact (Reads.of_step hstep).fails_append ((body.run_bad (b' :: stack) hall hbad).append_left _)
  | .elseif l arg body chain, hall, hbad => by
    obtain ⟨harg, hbody, hchain⟩ := hall
    rw [Chain.lines]
    cases allowed with
    | false =>
      have hstep := step_elseif_twice R global vars stack l hb arg
      cases hblind : isBlindTop (b :: stack) with
      | true =>
        rw [hblind, if_pos rfl] at hstep
        rw [Reader.run_cons hstep]
        have hskip : ¬ NoneSkipped ([.passed (l.instruction .elseIf (some arg))] :
            List (Action τ)) := by
          intro h
          exact h _ _ (List.mem_singleton.2 rfl)
        exact fails_append (.inl hskip)
      | false =>
        rw [hblind, if_neg (by simp)] at hstep
        exact fails_of_step_error hstep _
    | true =>
      by_cases hstr : IsStrCondition vars arg
      · obtain ⟨b', hstep, hopen, -⟩ := step_elseif R global vars stack l hb
          (parseIfInstruction_ok l.toOrigin harg hstr)
        refine (Reads.of_step hstep).fails_append ?_
        by_cases hbody' : body.Good (IsStrCondition vars)
        · refine (body.run_good (b' :: stack) hbody hbody').fails_append ?_
          exact chain.run_bad stack hopen hchain fun h => hbad ⟨rfl, hstr, hbody', h⟩
        · exact (body.run_bad (b' :: stack) hbody hbody').append_left _
      · obtain ⟨e, he⟩ := parseIfInstruction_error l.toOrigin harg hstr
        obtain ⟨e', he'⟩ := step_elseif_error R global vars stack l hb he
        exact fails_of_step_error he' _

end

end

/-- **Properly nested input is read** exactly if no block has two `elseif`, and if no
    condition is a variable whose value is an int: then the selected lines are yielded,
    and no instruction is passed over. -/
theorem readsSelected_iff {σ τ : Type} (R : Reader σ τ) (global : σ) (vars : VarsDict)
    (s : Script) (h : s.All (HasCondition vars)) :
    ReadsSelected vars R global s ↔ s.Good (IsStrCondition vars) := by
  constructor
  · rintro ⟨st, actions, hrun, -, hskip⟩
    by_contra hbad
    rw [Reader.preprocessAndExpandLines] at hrun
    have hfails : Fails (R.run s.lines ⟨global, vars, []⟩) := s.run_bad [] h hbad
    cases hlines : R.run s.lines ⟨global, vars, []⟩ with
    | error e => rw [hlines] at hrun; cases hrun
    | ok r =>
      obtain ⟨st', actions'⟩ := r
      rw [hlines] at hrun
      dsimp only at hrun
      split_ifs at hrun
      obtain ⟨-, rfl⟩ := Prod.mk.inj (Except.ok.inj hrun)
      exact hfails st' actions' hlines hskip
  · intro hgood
    have hreads : Reads R global vars s.lines [] [] (s.selected vars R) := s.run_good [] h hgood
    obtain ⟨actions, hrun, hresults, hskip⟩ := hreads
    refine ⟨⟨global, vars, []⟩, actions, ?_, hresults, hskip⟩
    rw [Reader.preprocessAndExpandLines, hrun]
    rfl

/-- A reader that yields the text lines as they are, and has no builtins. -/
def textReader : Reader Unit CStr :=
  ⟨fun _ => true, fun _ _ line => line, fun _ _ _ _ => .error .attributeError⟩

def emptyLayout : Layout := ⟨⟨0, []⟩, [], [], fun _ h => by cases h⟩

/-- A block in a block, with an `elseif` and an `else`. -/
theorem readsSelected_nested :
    let inner : Script := .block emptyLayout "!B=n".toList (.text ⟨2, []⟩ "b".toList .nil)
      (.else_ emptyLayout (.text ⟨4, []⟩ "c".toList .nil) emptyLayout) .nil
    let s : Script := .block emptyLayout "A".toList (.text ⟨1, []⟩ "a".toList .nil)
      (.elseif emptyLayout "C:=y".toList inner (.endif emptyLayout)) .nil
    ReadsSelected (fun key => if key = "A".toList then some (.str "no".toList) else none)
        textReader () s ↔
      s.Good (IsStrCondition fun key =>
        if key = "A".toList then some (.str "no".toList) else none) :=
  readsSelected_iff textReader () _ _
    ⟨⟨_, rfl, by decide, .inl rfl⟩, trivial,
      ⟨⟨_, rfl, by decide, .inr rfl⟩, ⟨⟨_, rfl, by decide, .inr rfl⟩, trivial, trivial, trivial⟩,
        trivial⟩, trivial⟩

/-- **A second `elseif` is skipped**: its branch, which is the selected one, is lost. -/
theorem not_readsSelected_secondElseif :
    let s : Script := .block emptyLayout "A=n".toList (.text ⟨2, []⟩ "a".toList .nil)
      (.elseif emptyLayout "B=n".toList (.text ⟨4, []⟩ "b".toList .nil)
        (.elseif emptyLayout "C=y".toList (.text ⟨6, []⟩ "c".toList .nil) (.endif emptyLayout)))
      .nil
    s.selected (fun _ => none) textReader = ["c".toList] ∧
      ¬ ReadsSelected (fun _ => none) textReader () s := by
  intro s
  refine ⟨rfl, ?_⟩
  rintro ⟨st, actions, hrun, hresults, -⟩
  have hrun' : textReader.preprocessAndExpandLines () (fun _ => none) s.lines =
      .ok (⟨(), fun _ => none, []⟩, [.taken, .passed (.text ⟨2, []⟩ "a".toList), .taken,
        .passed (.text ⟨4, []⟩ "b".toList),
        .passed (emptyLayout.instruction .elseIf (some "C=y".toList)),
        .passed (.text ⟨6, []⟩ "c".toList), .taken]) := rfl
  rw [hrun'] at hrun
  obtain ⟨-, rfl⟩ := Prod.mk.inj (Except.ok.inj hrun)
  cases hresults

end Metash

end Fischstaebchen
