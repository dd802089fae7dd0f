/-
  Unselected branches of metash (`scripts/metash`: `FileReaderIfBlock` and
  `_preprocess_and_expand_lines`).

  Properly nested input is a tree of blocks with any instructions (`Input`).  What its
  selected lines do is defined without the reader (`Input.effect`).  The reader parses the
  lines of the other branches, too, and evaluates the conditions of the blocks in them.

  * `Input.visible_spec`, `Input.blind_spec`: what the reader makes of the input in a
    selected branch, and in a blind one.
  * `Input.result_eq_some_iff`: **it has the effect of the selected lines**, if the others
    can be passed over.
-/
import Fischstaebchen.Metash.ParsedRun

namespace Fischstaebchen

namespace Metash

/-! ## Properly nested input -/

/-- The opcodes of blocks that end with an `endif`. -/
def Opcode.opensIf : Opcode → Bool
  | .ifDefined | .ifNotDefined | .if_ | .ifNot | .ifBool | .ifNotBool => true
  | _ => false

/-- The opcodes that do not belong to such blocks. -/
def Opcode.isPlain : Opcode → Bool
  | .elseIf | .else_ | .endIf => false
  | opcode => !opcode.opensIf

mutual

/-- A properly nested sequence of blocks and other lines. -/
inductive Input
  | nil
  | malformed (e : ReaderError) (rest : Input)
  | text (o : Origin) (line : CStr) (rest : Input)
  | plain (l : Layout) (opcode : Opcode) (args : Option CStr) (h : opcode.isPlain = true)
    (rest : Input)
  | block (l : Layout) (opcode : Opcode) (args : Option CStr) (h : opcode.opensIf = true)
    (body : Input) (branches : Branches) (rest : Input)

/-- The part of a block after its first branch. -/
inductive Branches
  | endif (l : Layout) (args : Option CStr)
  | else_ (l : Layout) (args : Option CStr) (body : Input) (l' : Layout) (args' : Option CStr)
  | elseif (l : Layout) (args : Option CStr) (body : Input) (branches : Branches)

end

mutual

/-- The lines. -/
def Input.lines : Input → List ParsedLine
  | .nil => []
  | .malformed e rest => .error e :: rest.lines
  | .text o line rest => .ok (.text o line) :: rest.lines
  | .plain l opcode args _ rest => .ok (l.instruction opcode args) :: rest.lines
  | .block l opcode args _ body branches rest =>
    .ok (l.instruction opcode args) :: (body.lines ++ (branches.lines ++ rest.lines))

def Branches.lines : Branches → List ParsedLine
  | .endif l args => [.ok (l.instruction .endIf args)]
  | .else_ l args body l' args' =>
    .ok (l.instruction .else_ args) :: (body.lines ++ [.ok (l'.instruction .endIf args')])
  | .elseif l args body branches =>
    .ok (l.instruction .elseIf args) :: (body.lines ++ branches.lines)

end

/-! ## What selected lines do -/

/-- An origin for all lines. -/
def noOrigin : Origin := ⟨0, []⟩

/-- The instruction of a line. -/
def Layout.op (l : Layout) (opcode : Opcode) (args : Option CStr) : Instruction :=
  ⟨opcode, args, l.lineIndent, l.lineRemainder, l.indent_space⟩

/-- What selected lines do: the state afterwards, and what they yield. -/
abbrev Effect (σ υ : Type) := Except ReaderError ((σ × VarsDict) × List υ)

/-- One after another. -/
def Effect.andThen {σ υ : Type} (r : Effect σ υ) (f : σ × VarsDict → Effect σ υ) : Effect σ υ :=
  match r with
  | .error e => .error e
  | .ok (st, out) =>
    match f st with
    | .error e => .error e
    | .ok (st, rest) => .ok (st, out ++ rest)

/-- No arguments are accepted. -/
def noArgs {σ υ : Type} (args : Option CStr) (st : σ × VarsDict) : Effect σ υ :=
  if args.getD [] ≠ [] then .error (.badInstruction noOrigin "no args accepted".toList)
  else .ok (st, [])

/-- Nothing is done for a branch that is not selected. -/
def skipIf {σ υ : Type} (blind : Bool) (f : σ × VarsDict → Effect σ υ) (st : σ × VarsDict) :
    Effect σ υ :=
  if blind then .ok (st, []) else f st

section
variable {σ τ υ : Type} (R : Reader σ τ) (erase : τ → υ)

/-- An instruction other than those of blocks. -/
def execPlain (i : Instruction) (st : σ × VarsDict) : Effect σ υ :=
  (execInstruction R ⟨st.1, st.2, []⟩ noOrigin i).map fun r =>
    ((r.1.global, r.1.vars), r.2.results.map erase)

mutual

/-- **The effect of the selected lines.** -/
def Input.effect : Input → σ × VarsDict → Effect σ υ
  | .nil, st => .ok (st, [])
  | .malformed e _, _ => .error e
  | .text _ line rest, st =>
    Effect.andThen (.ok (st, [erase (R.yieldText st.2 noOrigin line)])) rest.effect
  | .plain l opcode args _ rest, st =>
    Effect.andThen (execPlain R erase (l.op opcode args) st) rest.effect
  | .block _ opcode args _ body branches rest, st =>
    if opcode ≠ .if_ then .error (.notImplemented opcode)
    else
      match parseIfInstruction st.2 noOrigin args with
      | .error e => .error e
      | .ok blind =>
        Effect.andThen (skipIf blind body.effect st) fun st =>
          Effect.andThen (branches.effect true (!blind) (!blind) st) rest.effect

/-- The rest of a block: whether its first `elseif` may follow, whether a branch has been
    selected, and whether it was the last one.  A second `elseif` is not looked at. -/
def Branches.effect : Branches → Bool → Bool → Bool → σ × VarsDict → Effect σ υ
  | .endif _ args, _, _, _, st => noArgs args st
  | .else_ _ args body _ args', _, matched, _, st =>
    Effect.andThen (noArgs args st) fun st =>
      Effect.andThen (skipIf matched body.effect st) (noArgs args')
  | .elseif _ args body branches, true, matched, _, st =>
    if matched then branches.effect false true false st
    else
      match parseIfInstruction st.2 noOrigin args with
      | .error e => .error e
      | .ok blind =>
        Effect.andThen (skipIf blind body.effect st) (branches.effect false (!blind) (!blind))
  | .elseif _ _ _ branches, false, matched, last, st =>
    if last then .error (.notImplemented .elseIf) else branches.effect false matched false st

end

/-! ## What is read in unselected branches -/

/-- The condition can be evaluated. -/
def HasValue (vars : VarsDict) (args : Option CStr) : Prop :=
  ∃ blind, parseIfInstruction vars noOrigin args = .ok blind

section
variable (vars : VarsDict)

mutual

/-- **A blind branch can be passed over**: its lines are parsed, its blocks are implemented,
    their conditions can be evaluated, and no `else` or `endif` has arguments. -/
def Input.BlindOk : Input → Prop
  | .nil => True
  | .malformed _ _ => False
  | .text _ _ rest => rest.BlindOk
  | .plain _ _ _ _ rest => rest.BlindOk
  | .block _ opcode args _ body branches rest =>
    opcode = .if_ ∧ HasValue vars args ∧ body.BlindOk ∧ branches.BlindOk true ∧ rest.BlindOk

def Branches.BlindOk : Branches → Bool → Prop
  | .endif _ args, _ => args.getD [] = []
  | .else_ _ args body _ args', _ => args.getD [] = [] ∧ body.BlindOk ∧ args'.getD [] = []
  | .elseif _ args body branches, elseifAllowed =>
    (elseifAllowed = true → HasValue vars args) ∧ body.BlindOk ∧ branches.BlindOk false

end

end

mutual

/-- **All unselected branches can be passed over**, as far as the selected lines are read. -/
def Input.UnselectedOk : Input → σ × VarsDict → Prop
  | .nil, _ => True
  | .malformed _ _, _ => True
  | .text _ _ rest, st => rest.UnselectedOk st
  | .plain l opcode args _ rest, st =>
    ∀ r, execPlain R erase (l.op opcode args) st = .ok r → rest.UnselectedOk r.1
  | .block _ _ args _ body branches rest, st =>
    ∀ blind, parseIfInstruction st.2 noOrigin args = .ok blind →
      (if blind then body.BlindOk st.2 else body.UnselectedOk st) ∧
      ∀ r, skipIf blind (body.effect R erase) st = .ok r →
        branches.UnselectedOk true (!blind) (!blind) r.1 ∧
        ∀ r', branches.effect R erase true (!blind) (!blind) r.1 = .ok r' → rest.UnselectedOk r'.1

def Branches.UnselectedOk : Branches → Bool → Bool → Bool → σ × VarsDict → Prop
  | .endif _ _, _, _, _, _ => True
  | .else_ _ _ body _ _, _, matched, _, st =>
    if matched then body.BlindOk st.2 else body.UnselectedOk st
  | .elseif _ args body branches, true, true, _, st =>
    HasValue st.2 args ∧ body.BlindOk st.2 ∧ branches.UnselectedOk false true false st
  | .elseif _ args body branches, true, false, _, st =>
    ∀ blind, parseIfInstruction st.2 noOrigin args = .ok blind →
      (if blind then body.BlindOk st.2 else body.UnselectedOk st) ∧
      ∀ r, skipIf blind (body.effect R erase) st = .ok r →
        branches.UnselectedOk false (!blind) (!blind) r.1
  | .elseif _ _ body branches, false, matched, last, st =>
    last = true ∨ body.BlindOk st.2 ∧ branches.UnselectedOk false matched false st

end

end

mutual

/-- All blocks are implemented. -/
def Input.Implemented : Input → Prop
  | .nil => True
  | .malformed _ rest => rest.Implemented
  | .text _ _ rest => rest.Implemented
  | .plain _ _ _ _ rest => rest.Implemented
  | .block _ opcode _ _ body branches rest =>
    opcode = .if_ ∧ body.Implemented ∧ branches.Implemented ∧ rest.Implemented

def Branches.Implemented : Branches → Prop
  | .endif _ _ => True
  | .else_ _ _ body _ _ => body.Implemented
  | .elseif _ _ body branches => body.Implemented ∧ branches.Implemented

end

/-! ## Origins -/

section
variable {σ τ υ : Type} {R : Reader σ τ} {erase : τ → υ}

/-- Up to `erase`, the origin of a line does not matter for what it yields. -/
structure OriginFree (R : Reader σ τ) (erase : τ → υ) : Prop where
  yieldText : ∀ vars o o' line,
    erase (R.yieldText vars o line) = erase (R.yieldText vars o' line)
  expandBuiltin : ∀ global vars o o' i,
    (R.expandBuiltin global vars o i).toOption.map (fun r => (r.1, r.2.1, r.2.2.map erase)) =
      (R.expandBuiltin global vars o' i).toOption.map fun r => (r.1, r.2.1, r.2.2.map erase)

theorem parseConditional_origin (vars : VarsDict) (o o' : Origin) (arg : CStr) :
    (parseConditional vars o arg).toOption = (parseConditional vars o' arg).toOption := by
  rw [parseConditional, parseConditional]
  split_ifs
  · rfl
  · split <;> rfl
  · split <;> rfl

theorem parseIfInstruction_origin (vars : VarsDict) (o o' : Origin) (args : Option CStr) :
    (parseIfInstruction vars o args).toOption = (parseIfInstruction vars o' args).toOption := by
  unfold parseIfInstruction
  cases args with
  | none => rfl
  | some args =>
    dsimp only
    split
    · exact parseConditional_origin vars o o' _
    · rfl

theorem defineVar_origin (vars : VarsDict) (o o' : Origin) (i : Instruction) :
    (defineVar R vars o i).toOption = (defineVar R vars o' i).toOption := by
  rw [defineVar, defineVar]
  cases i.args with
  | none => rfl
  | some args =>
    dsimp only
    split_ifs <;> rfl

theorem undefVars_origin (o o' : Origin) (names : List CStr) (vars : VarsDict) :
    (undefVars o names vars).toOption = (undefVars o' names vars).toOption := by
  induction names generalizing vars with
  | nil => rfl
  | cons name names ih =>
    rw [undefVars, undefVars]
    split_ifs
    · exact ih _
    · rfl

theorem toOption_eq_some {ε α : Type} {r : Except ε α} {x : α} :
    r.toOption = some x ↔ r = .ok x := by
  cases r with
  | error e => exact iff_of_false (by rintro ⟨⟩) (by rintro ⟨⟩)
  | ok y =>
    constructor
    · intro h
      rw [Option.some.inj h]
    · intro h
      rw [Except.ok.inj h]
      rfl

/-- Two results that are the same up to errors. -/
theorem toOption_cases {ε α : Type} {r r' : Except ε α} (h : r.toOption = r'.toOption) :
    (∃ x, r = .ok x ∧ r' = .ok x) ∨ ∃ e e', r = .error e ∧ r' = .error e' := by
  cases r with
  | ok x => exact .inl ⟨x, rfl, toOption_eq_some.1 h.symm⟩
  | error e =>
    cases r' with
    | ok x =>
      cases toOption_eq_some.1 h
    | error e' => exact .inr ⟨e, e', rfl, rfl⟩

/-- The definitions after an instruction become those of the state. -/
def withVars (st : σ × VarsDict) (stack : List IfBlock) (r : Except ReaderError VarsDict) :
    Except ReaderError (ReaderState σ × Action τ) :=
  match r with
  | .error e => .error e
  | .ok vars => .ok (⟨st.1, vars, stack⟩, .taken)

/-- The effect of a step. -/
def effectOf (erase : τ → υ) (r : Except ReaderError (ReaderState σ × Action τ)) : Effect σ υ :=
  r.map fun r => ((r.1.global, r.1.vars), r.2.results.map erase)

theorem withVars_cases (st : σ × VarsDict) (stack : List IfBlock)
    {r r' : Except ReaderError VarsDict} (h : r.toOption = r'.toOption) :
    (∃ x action, effectOf erase (withVars st [] r) = .ok x ∧
      withVars st stack r' = .ok (⟨x.1.1, x.1.2, stack⟩, action) ∧
      action.results.map erase = x.2) ∨
    ∃ e e', effectOf erase (withVars st [] r) = .error e ∧
      (withVars st stack r' : Except ReaderError (ReaderState σ × Action τ)) = .error e' := by
  rcases toOption_cases h with ⟨vars, rfl, rfl⟩ | ⟨e, e', rfl, rfl⟩
  · exact .inl ⟨_, _, rfl, rfl, rfl⟩
  · exact .inr ⟨_, _, rfl, rfl⟩

/-- **An instruction** does the same wherever it stands. -/
theorem OriginFree.execInstruction_cases (hfree : OriginFree R erase) (st : σ × VarsDict)
    (stack : List IfBlock) (o : Origin) (i : Instruction) :
    (∃ r action, execPlain R erase i st = .ok r ∧
      execInstruction R ⟨st.1, st.2, stack⟩ o i = .ok (⟨r.1.1, r.1.2, stack⟩, action) ∧
      action.results.map erase = r.2) ∨
    ∃ e e', execPlain R erase i st = .error e ∧
      execInstruction R ⟨st.1, st.2, stack⟩ o i = .error e' := by
  rw [execPlain, execInstruction, execInstruction]
  split
  · exact withVars_cases st stack (defineVar_origin st.2 noOrigin o i)
  · exact withVars_cases st stack (defineVar_origin st.2 noOrigin o i)
  · cases i.args with
    | none => exact .inr ⟨_, _, rfl, rfl⟩
    | some args =>
      dsimp only
      split_ifs
      · exact .inr ⟨_, _, rfl, rfl⟩
      · exact withVars_cases st stack (undefVars_origin noOrigin o (Lib.runs isSpace args) st.2)
  · split_ifs
    · exact .inr ⟨_, _, rfl, rfl⟩
    · have hbuiltin := hfree.expandBuiltin st.1 st.2 noOrigin o i
      dsimp only
      cases hleft : R.expandBuiltin st.1 st.2 noOrigin i with
      | error e =>
        cases hright : R.expandBuiltin st.1 st.2 o i with
        | error e' => exact .inr ⟨_, _, rfl, rfl⟩
        | ok r =>
          rw [hleft, hright] at hbuiltin
          cases hbuiltin
      | ok r =>
        cases hright : R.expandBuiltin st.1 st.2 o i with
        | error e' =>
          rw [hleft, hright] at hbuiltin
          cases hbuiltin
        | ok r' =>
          rw [hleft, hright] at hbuiltin
          have heq := Option.some.inj hbuiltin
          obtain ⟨global, vars, results⟩ := r
          obtain ⟨global', vars', results'⟩ := r'
          obtain ⟨rfl, heq⟩ := Prod.mk.inj heq
          obtain ⟨rfl, hresults⟩ := Prod.mk.inj heq
          exact .inl ⟨_, _, rfl, rfl, hresults.symm⟩
  · exact .inr ⟨_, _, rfl, rfl⟩

/-! ## Steps -/

variable {st : σ × VarsDict} {stack stack' : List IfBlock} {b : IfBlock}

/-- The block on top accepts the instructions of its kind only. -/
def TopOk (stack : List IfBlock) : Prop :=
  ∀ b ∈ stack.head?, ∀ opcode ∈ b.allowedOps, opcode ∈ [.else_, .elseIf, Opcode.endIf]

theorem topOk_open {allowed : Bool} (hb : b.Open allowed) (stack : List IfBlock) :
    TopOk (b :: stack) := by
  intro b' hb' opcode hop
  obtain rfl := Option.some.inj hb'
  rw [hb.allowed] at hop
  cases allowed with
  | true => exact hop
  | false =>
    simp only [followOps, Bool.false_eq_true, if_false, List.mem_cons, List.not_mem_nil,
      or_false] at hop
    rcases hop with rfl | rfl <;> decide

/-- After an `else`. -/
theorem topOk_else (hallowed : b.allowedOps = [.endIf]) (stack : List IfBlock) :
    TopOk (b :: stack) := by
  intro b' hb' opcode hop
  obtain rfl := Option.some.inj hb'
  rw [hallowed, List.mem_singleton] at hop
  rw [hop]
  decide

/-- An instruction that does not belong to a block. -/
theorem step_plain (st : σ × VarsDict) (htop : TopOk stack) (l : Layout) {opcode : Opcode}
    (args : Option CStr) (hplain : opcode.isPlain = true) :
    R.step (onStack st stack) (l.instruction opcode args) =
      if isBlindTop stack then .ok (onStack st stack, .passed (l.instruction opcode args))
      else execInstruction R (onStack st stack) l.toOrigin (l.op opcode args) := by
  have hif : opcode ≠ .if_ := by
    rintro rfl
    cases hplain
  rw [Layout.instruction, Reader.step, if_neg hif]
  cases stack with
  | nil => rfl
  | cons b stack =>
    have hacc : b.accepts (l.op opcode args) = false := by
      rw [IfBlock.accepts, List.contains_eq_mem, decide_eq_false_iff_not]
      intro hmem
      have hop := htop b rfl opcode hmem
      simp only [List.mem_cons, List.not_mem_nil, or_false] at hop
      rcases hop with rfl | rfl | rfl <;> cases hplain
    show (if b.accepts (l.op opcode args) = true then _ else _) = _
    rw [if_neg (by rw [hacc]; decide)]
    rfl

/-- A condition has an argument. -/
theorem some_of_parseIf {vars : VarsDict} {o : Origin} {args : Option CStr} {blind : Bool}
    (h : parseIfInstruction vars o args = .ok blind) : ∃ arg, args = some arg := by
  cases args with
  | none => cases h
  | some arg => exact ⟨arg, rfl⟩

/-- **An `if`** opens a block, or raises an error. -/
theorem if_cases (st : σ × VarsDict) (stack : List IfBlock) (l : Layout) (args : Option CStr) :
    (∃ e e', parseIfInstruction st.2 noOrigin args = .error e ∧
      R.step (onStack st stack) (l.instruction .if_ args) = .error e') ∨
    ∃ blind b, parseIfInstruction st.2 noOrigin args = .ok blind ∧
      R.step (onStack st stack) (l.instruction .if_ args) =
        .ok (onStack st (b :: stack), .taken) ∧
      b.Open true ∧ b.wasMatched = !blind ∧ b.forcedBlind = isBlindTop stack ∧
      isBlindTop (b :: stack) = (isBlindTop stack || blind) := by
  rcases toOption_cases (parseIfInstruction_origin st.2 noOrigin l.toOrigin args) with
    ⟨blind, h, h'⟩ | ⟨e, e', h, h'⟩
  · obtain ⟨arg, rfl⟩ := some_of_parseIf h
    obtain ⟨b, hstep, hb⟩ := step_if R st.1 st.2 stack l h'
    exact .inr ⟨blind, b, h, hstep, hb⟩
  · obtain ⟨e'', hstep⟩ := step_if_error R st.1 st.2 stack l h'
    exact .inl ⟨e, e'', h, hstep⟩

/-- **The first `elseif`** of a block, likewise. -/
theorem elseif_cases (st : σ × VarsDict) (stack : List IfBlock) (hb : b.Open true) (l : Layout)
    (args : Option CStr) :
    (∃ e e', parseIfInstruction st.2 noOrigin args = .error e ∧
      R.step (onStack st (b :: stack)) (l.instruction .elseIf args) = .error e') ∨
    ∃ blind b', parseIfInstruction st.2 noOrigin args = .ok blind ∧
      R.step (onStack st (b :: stack)) (l.instruction .elseIf args) =
        .ok (onStack st (b' :: stack), .taken) ∧
      b'.Open false ∧ b'.wasMatched = (b.wasMatched || !blind) ∧
      b'.forcedBlind = b.forcedBlind ∧
      isBlindTop (b' :: stack) = (b.forcedBlind || (b.wasMatched || blind)) := by
  rcases toOption_cases (parseIfInstruction_origin st.2 noOrigin l.toOrigin args) with
    ⟨blind, h, h'⟩ | ⟨e, e', h, h'⟩
  · obtain ⟨arg, rfl⟩ := some_of_parseIf h
    obtain ⟨b', hstep, hb'⟩ := step_elseif R st.1 st.2 stack l hb h'
    exact .inr ⟨blind, b', h, hstep, hb'⟩
  · obtain ⟨e'', hstep⟩ := step_elseif_error R st.1 st.2 stack l hb h'
    exact .inl ⟨e, e'', h, hstep⟩

/-- A second one is passed over or refused. -/
theorem elseif_again (st : σ × VarsDict) (stack : List IfBlock) (hb : b.Open false) (l : Layout)
    (args : Option CStr) :
    R.step (onStack st (b :: stack)) (l.instruction .elseIf args) =
      if isBlindTop (b :: stack) then
        .ok (onStack st (b :: stack), .passed (l.instruction .elseIf args))
      else .error (.notImplemented .elseIf) := by
  simp [Reader.step, Layout.instruction, IfBlock.accepts, hb.allowed, followOps, isBlindTop,
    execInstruction, onStack]
  rfl

/-- **An `else`** has no arguments. -/
theorem else_cases (st : σ × VarsDict) (stack : List IfBlock) {allowed : Bool}
    (hb : b.Open allowed) (l : Layout) (args : Option CStr) :
    (args.getD [] ≠ [] ∧
      ∃ e, R.step (onStack st (b :: stack)) (l.instruction .else_ args) = .error e) ∨
    (args.getD [] = [] ∧ ∃ b', R.step (onStack st (b :: stack)) (l.instruction .else_ args) =
        .ok (onStack st (b' :: stack), .taken) ∧
      b'.allowedOps = [.endIf] ∧ b'.isClosed = some false ∧
      isBlindTop (b' :: stack) = (b.forcedBlind || b.wasMatched)) := by
  obtain ⟨hallowed, hopen⟩ := hb
  by_cases hargs : args.getD [] = []
  · refine .inr ⟨hargs, ⟨[.endIf], if b.forcedBlind then some true else some b.wasMatched,
      some false, b.wasMatched, b.forcedBlind⟩, ?_, rfl, rfl, ?_⟩
    · cases allowed <;>
        simp [Reader.step, Layout.instruction, IfBlock.update, IfBlock.accepts, hallowed, followOps,
          hopen, IfBlock.finishUpdate, Opcode.blockEnd, hargs, onStack]
    · cases b.forcedBlind <;> simp [isBlindTop]
  · refine .inl ⟨hargs, .badInstruction l.toOrigin "no args accepted".toList, ?_⟩
    cases allowed <;>
      simp [Reader.step, Layout.instruction, IfBlock.update, IfBlock.accepts, hallowed, followOps,
        hopen, hargs, onStack]

/-- **An `endif`** has no arguments. -/
theorem endif_cases (st : σ × VarsDict) (stack : List IfBlock)
    (hallowed : Opcode.endIf ∈ b.allowedOps) (hopen : b.isClosed = some false) (l : Layout)
    (args : Option CStr) :
    (args.getD [] ≠ [] ∧
      ∃ e, R.step (onStack st (b :: stack)) (l.instruction .endIf args) = .error e) ∨
    (args.getD [] = [] ∧ R.step (onStack st (b :: stack)) (l.instruction .endIf args) =
      .ok (onStack st stack, .taken)) := by
  by_cases hargs : args.getD [] = []
  · refine .inr ⟨hargs, ?_⟩
    simp [Reader.step, Layout.instruction, IfBlock.update, IfBlock.accepts, hallowed, hopen,
      IfBlock.finishUpdate, hargs, onStack]
  · refine .inl ⟨hargs, .badInstruction l.toOrigin "no args accepted".toList, ?_⟩
    simp [Reader.step, Layout.instruction, IfBlock.update, IfBlock.accepts, hallowed, hopen, hargs,
      onStack]

/-! ## Outcomes -/

/-- What a part of the input comes to: it has an effect and is read, if some condition
    holds, and otherwise an error is raised. -/
def Outcome (R : Reader σ τ) (erase : τ → υ) (lines : List ParsedLine) (st : σ × VarsDict)
    (stack stack' : List IfBlock) (effect : Effect σ υ) (cond : Prop) : Prop :=
  (∃ r, effect = .ok r ∧ cond ∧ Runs R erase lines (onStack st stack) (onStack r.1 stack') r.2) ∨
    ((∀ r, effect = .ok r → ¬ cond) ∧ Raises R lines (onStack st stack))

variable {lines lines' : List ParsedLine} {effect : Effect σ υ} {cond cond' : Prop}

theorem Outcome.congr (h : Outcome R erase lines st stack stack' effect cond)
    (hcond : cond ↔ cond') : Outcome R erase lines st stack stack' effect cond' := by
  rwa [Outcome, ← hcond]

theorem Outcome.nil : Outcome R erase [] st stack stack (.ok (st, [])) True :=
  .inl ⟨_, rfl, trivial, Runs.nil⟩

/-- An error is raised for the first line. -/
theorem Outcome.of_error {line : InputLine} {e e' : ReaderError} (heffect : effect = .error e')
    (h : R.step (onStack st stack) line = .error e) :
    Outcome R erase (.ok line :: lines) st stack stack' effect cond := by
  refine .inr ⟨fun r hr => ?_, Raises.of_step h _⟩
  rw [heffect] at hr
  cases hr

/-- A line is read that yields nothing. -/
theorem Outcome.cons {line : InputLine} {action : Action τ} {mid : List IfBlock}
    (hstep : R.step (onStack st stack) line = .ok (onStack st mid, action))
    (hresults : action.results = [])
    (h : Outcome R erase lines st mid stack' effect cond) :
    Outcome R erase (.ok line :: lines) st stack stack' effect cond := by
  have hfirst : Runs R erase [.ok line] (onStack st stack) (onStack st mid) [] := by
    have hrun : Runs R erase [.ok line] _ _ (action.results.map erase) := Runs.of_step hstep
    rwa [hresults] at hrun
  rcases h with ⟨r, heffect, hcond, hrun⟩ | ⟨hnot, hraises⟩
  · exact .inl ⟨r, heffect, hcond, hfirst.append hrun⟩
  · exact .inr ⟨hnot, hfirst.raises_append hraises⟩

/-- **One part after another.** -/
theorem Outcome.andThen {mid : List IfBlock} {f : σ × VarsDict → Effect σ υ}
    (next : σ × VarsDict → Prop) (h : Outcome R erase lines st stack mid effect cond)
    (h' : ∀ r, effect = .ok r → Outcome R erase lines' r.1 mid stack' (f r.1) (next r.1)) :
    Outcome R erase (lines ++ lines') st stack stack' (effect.andThen f)
      (cond ∧ ∀ r, effect = .ok r → next r.1) := by
  rcases h with ⟨r, rfl, hcond, hrun⟩ | ⟨hnot, hraises⟩
  · rcases h' r rfl with ⟨r', heffect, hnext, hrun'⟩ | ⟨hnot, hraises⟩
    · refine .inl ⟨(r'.1, r.2 ++ r'.2), ?_, ⟨hcond, ?_⟩, hrun.append hrun'⟩
      · rw [Effect.andThen, heffect]
      · intro r'' hr''
        rw [← Except.ok.inj hr'']
        exact hnext
    · refine .inr ⟨?_, hrun.raises_append hraises⟩
      rintro last hlast ⟨-, hnext⟩
      rw [Effect.andThen] at hlast
      cases heffect : f r.1 with
      | error e =>
        rw [heffect] at hlast
        cases hlast
      | ok r' => exact hnot r' heffect (hnext r rfl)
  · refine .inr ⟨?_, hraises.append _⟩
    rintro last hlast ⟨hcond, -⟩
    cases heffect : effect with
    | error e =>
      rw [heffect] at hlast
      cases hlast
    | ok r => exact hnot r heffect hcond

/-- After a part that is passed over. -/
theorem Outcome.skip {mid : List IfBlock}
    (h : Outcome R erase lines st stack mid (.ok (st, [])) cond)
    (h' : Outcome R erase lines' st mid stack' effect cond') :
    Outcome R erase (lines ++ lines') st stack stack' effect (cond ∧ cond') := by
  rcases h with ⟨r, heq, hcond, hrun⟩ | ⟨hnot, hraises⟩
  · obtain rfl := Except.ok.inj heq
    rcases h' with ⟨r, heffect, hcond', hrun'⟩ | ⟨hnot, hraises⟩
    · exact .inl ⟨r, heffect, ⟨hcond, hcond'⟩, hrun.append hrun'⟩
    · exact .inr ⟨fun r hr hboth => hnot r hr hboth.2, hrun.raises_append hraises⟩
  · exact .inr ⟨fun r _ hboth => hnot _ rfl hboth.1, hraises.append _⟩

/-- An `endif`. -/
theorem endif_outcome (st : σ × VarsDict) (stack : List IfBlock)
    (hallowed : Opcode.endIf ∈ b.allowedOps) (hopen : b.isClosed = some false) (l : Layout)
    (args : Option CStr) :
    Outcome R erase [.ok (l.instruction .endIf args)] st (b :: stack) stack (noArgs args st)
      True := by
  rcases endif_cases (R := R) st stack hallowed hopen l args with ⟨hargs, e, he⟩ | ⟨hargs, hstep⟩
  · exact .of_error (if_pos hargs) he
  · rw [noArgs, if_neg (not_not.2 hargs)]
    exact .cons hstep rfl .nil

/-- An `endif` that is passed over. -/
theorem endif_skip (st : σ × VarsDict) (stack : List IfBlock)
    (hallowed : Opcode.endIf ∈ b.allowedOps) (hopen : b.isClosed = some false) (l : Layout)
    (args : Option CStr) :
    Outcome R erase [.ok (l.instruction .endIf args)] st (b :: stack) stack (.ok (st, []))
      (args.getD [] = []) := by
  rcases endif_cases (R := R) st stack hallowed hopen l args with ⟨hargs, e, he⟩ | ⟨hargs, hstep⟩
  · exact .inr ⟨fun _ _ h => hargs h, Raises.of_step he _⟩
  · exact (Outcome.cons hstep rfl .nil).congr (iff_of_true trivial hargs)

theorem endIf_mem_open {allowed : Bool} (hb : b.Open allowed) : Opcode.endIf ∈ b.allowedOps := by
  rw [hb.allowed]
  cases allowed <;> decide

/-! ## Blind branches -/

mutual

/-- **In a blind branch** nothing is done, but an error is raised for what cannot be passed
    over. -/
theorem Input.blind_spec (st : σ × VarsDict) (stack : List IfBlock) (htop : TopOk stack)
    (hblind : isBlindTop stack = true) : ∀ s : Input, s.Implemented →
    Outcome R erase s.lines st stack stack (.ok (st, [])) (s.BlindOk st.2)
  | .nil, _ => .nil
  | .malformed e rest, _ => .inr ⟨fun _ _ h => h, e, rfl⟩
  | .text o line rest, himpl => by
    have hstep : R.step (onStack st stack) (.text o line) =
        .ok (onStack st stack, .passed (.text o line)) := by
      rw [Reader.step]
      exact if_pos hblind
    exact .cons hstep rfl (rest.blind_spec st stack htop hblind himpl)
  | .plain l opcode args h rest, himpl => by
    have hstep := step_plain (R := R) st htop l args h
    rw [if_pos hblind] at hstep
    exact .cons hstep rfl (rest.blind_spec st stack htop hblind himpl)
  | .block l opcode args h body branches rest, himpl => by
    obtain ⟨rfl, hbody, hbranches, hrest⟩ := himpl
    rcases if_cases (R := R) st stack l args with ⟨e, e', herror, hstep⟩ |
      ⟨blind, b, hvalue, hstep, hopen, -, hforced, htop'⟩
    · refine .inr ⟨?_, Raises.of_step hstep _⟩
      rintro _ _ ⟨-, ⟨blind, hvalue⟩, -⟩
      rw [herror] at hvalue
      cases hvalue
    · rw [hblind, Bool.true_or] at htop'
      have hrest' := rest.blind_spec st stack htop hblind hrest
      have hbranches' := branches.blind_spec st stack hopen (hforced.trans hblind) htop' hbranches
      have hbody' := body.blind_spec st (b :: stack) (topOk_open hopen stack) htop' hbody
      refine (Outcome.cons hstep rfl (hbody'.skip (hbranches'.skip hrest'))).congr ?_
      exact ⟨fun ⟨hbody, hbranches, hrest⟩ => ⟨rfl, ⟨blind, hvalue⟩, hbody, hbranches, hrest⟩,
        fun ⟨_, _, hbody, hbranches, hrest⟩ => ⟨hbody, hbranches, hrest⟩⟩

theorem Branches.blind_spec {b : IfBlock} {allowed : Bool} (st : σ × VarsDict)
    (stack : List IfBlock) (hb : b.Open allowed) (hforced : b.forcedBlind = true)
    (hblind : isBlindTop (b :: stack) = true) : ∀ c : Branches, c.Implemented →
    Outcome R erase c.lines st (b :: stack) stack (.ok (st, [])) (c.BlindOk st.2 allowed)
  | .endif l args, _ => endif_skip st stack (endIf_mem_open hb) hb.isOpen l args
  | .else_ l args body l' args', himpl => by
    rcases else_cases (R := R) st stack hb l args with ⟨hargs, e, he⟩ |
      ⟨hargs, b', hstep, hallowed, hopen, htop⟩
    · exact .inr ⟨fun _ _ h => hargs h.1, Raises.of_step he _⟩
    · rw [hforced, Bool.true_or] at htop
      have htop' : TopOk (b' :: stack) := topOk_else hallowed stack
      have hend : Opcode.endIf ∈ b'.allowedOps := by rw [hallowed]; decide
      have hbody := body.blind_spec st (b' :: stack) htop' htop himpl
      have hend' : Outcome R erase _ st (b' :: stack) stack (.ok (st, [])) _ :=
        endif_skip st stack hend hopen l' args'
      refine (Outcome.cons hstep rfl (hbody.skip hend')).congr ?_
      exact ⟨fun h => ⟨hargs, h⟩, fun h => h.2⟩
  | .elseif l args body branches, himpl => by
    obtain ⟨hbody, hbranches⟩ := himpl
    cases allowed with
    | true =>
      rcases elseif_cases (R := R) st stack hb l args with ⟨e, e', herror, hstep⟩ |
        ⟨blind, b', hvalue, hstep, hopen, -, hforced', htop⟩
      · refine .inr ⟨?_, Raises.of_step hstep _⟩
        rintro _ _ ⟨hvalue, -⟩
        obtain ⟨blind, hvalue⟩ := hvalue rfl
        rw [herror] at hvalue
        cases hvalue
      · rw [hforced, Bool.true_or] at htop
        have hbody' := body.blind_spec st (b' :: stack) (topOk_open hopen stack) htop hbody
        have hbranches' :=
          branches.blind_spec st stack hopen (hforced'.trans hforced) htop hbranches
        refine (Outcome.cons hstep rfl (hbody'.skip hbranches')).congr ?_
        exact ⟨fun h => ⟨fun _ => ⟨blind, hvalue⟩, h⟩, fun h => h.2⟩
    | false =>
      have hstep := elseif_again (R := R) st stack hb l args
      rw [if_pos hblind] at hstep
      have hbody' := body.blind_spec st (b :: stack) (topOk_open hb stack) hblind hbody
      have hbranches' := branches.blind_spec st stack hb hforced hblind hbranches
      refine (Outcome.cons hstep rfl (hbody'.skip hbranches')).congr ?_
      exact ⟨fun h => ⟨fun h => absurd h (by decide), h⟩, fun h => h.2⟩

end

/-! ## Selected branches -/

/-- Nothing is done before. -/
theorem andThen_nil (st : σ × VarsDict) (f : σ × VarsDict → Effect σ υ) :
    Effect.andThen (.ok (st, [])) f = f st := by
  rw [Effect.andThen]
  cases f st <;> rfl

/-- Nothing is done afterwards but a check. -/
theorem forall_ok_singleton {next : σ × VarsDict → Prop} (st : σ × VarsDict) (out : List υ) :
    (∀ r, (.ok (st, out) : Effect σ υ) = .ok r → next r.1) ↔ next st := by
  constructor
  · intro h
    exact h _ rfl
  · intro h r hr
    rw [← Except.ok.inj hr]
    exact h

/-- A branch of a block is blind or not. -/
theorem branch_outcome {blind : Bool} (s : Input) (htop : TopOk stack)
    (hblind : isBlindTop stack = blind) (himpl : s.Implemented)
    (hvisible : isBlindTop stack = false →
      Outcome R erase s.lines st stack stack (s.effect R erase st) (s.UnselectedOk R erase st)) :
    Outcome R erase s.lines st stack stack (skipIf blind (s.effect R erase) st)
      (if blind then s.BlindOk st.2 else s.UnselectedOk R erase st) := by
  cases blind with
  | true => exact s.blind_spec st stack htop hblind himpl
  | false => exact hvisible hblind

mutual

/-- **In a selected branch** the reader does what the selected lines do, but an error is
    raised for what cannot be passed over. -/
theorem Input.visible_spec (hfree : OriginFree R erase) (st : σ × VarsDict) (stack : List IfBlock)
    (htop : TopOk stack) (hvisible : isBlindTop stack = false) : ∀ s : Input, s.Implemented →
    Outcome R erase s.lines st stack stack (s.effect R erase st) (s.UnselectedOk R erase st)
  | .nil, _ => .nil
  | .malformed e rest, _ => .inr ⟨(fun _ h => by cases h), e, rfl⟩
  | .text o line rest, himpl => by
    have hstep : R.step (onStack st stack) (.text o line) =
        .ok (onStack st stack, .yield [R.yieldText st.2 o line]) := by
      rw [Reader.step]
      exact if_neg (by rw [onStack, hvisible]; decide)
    have hfirst : Outcome R erase [.ok (.text o line)] st stack stack
        (.ok (st, [erase (R.yieldText st.2 noOrigin line)])) True := by
      refine .inl ⟨_, rfl, trivial, ?_⟩
      rw [hfree.yieldText st.2 noOrigin o]
      exact Runs.of_step hstep
    refine (hfirst.andThen (rest.UnselectedOk R erase) fun r hr => ?_).congr
      ((Iff.of_eq (true_and _)).trans (forall_ok_singleton st _))
    rw [← Except.ok.inj hr]
    exact rest.visible_spec hfree st stack htop hvisible himpl
  | .plain l opcode args h rest, himpl => by
    have hstep := step_plain (R := R) st htop l args h
    rw [if_neg (by rw [hvisible]; decide)] at hstep
    have hfirst : Outcome R erase [.ok (l.instruction opcode args)] st stack stack
        (execPlain R erase (l.op opcode args) st) True := by
      rcases hfree.execInstruction_cases st stack l.toOrigin (l.op opcode args) with
        ⟨r, action, heffect, hexec, hresults⟩ | ⟨e, e', heffect, hexec⟩
      · rw [onStack, hexec] at hstep
        refine .inl ⟨r, heffect, trivial, ?_⟩
        rw [← hresults]
        exact Runs.of_step hstep
      · rw [onStack, hexec] at hstep
        exact .of_error heffect hstep
    exact (hfirst.andThen (rest.UnselectedOk R erase) fun r _ =>
      rest.visible_spec hfree r.1 stack htop hvisible himpl).congr (Iff.of_eq (true_and _))
  | .block l opcode args h body branches rest, himpl => by
    obtain ⟨rfl, hbody, hbranches, hrest⟩ := himpl
    rw [Input.lines, Input.effect, if_neg (not_not.2 rfl)]
    rcases if_cases (R := R) st stack l args with ⟨e, e', herror, hstep⟩ |
      ⟨blind, b, hvalue, hstep, hopen, hmatched, hforced, htop'⟩
    · rw [herror]
      exact .of_error rfl hstep
    · rw [hvalue]
      rw [hvisible, Bool.false_or] at htop'
      have hbody' := branch_outcome body (topOk_open hopen stack) htop' hbody fun hvisible' =>
        body.visible_spec hfree st (b :: stack) (topOk_open hopen stack) hvisible' hbody
      have hnext (st : σ × VarsDict) :=
        (branches.visible_spec (!blind) hfree st stack hopen hmatched (hforced.trans hvisible)
          (by rw [htop', Bool.not_not]) hbranches).andThen (rest.UnselectedOk R erase)
          fun r _ => rest.visible_spec hfree r.1 stack htop hvisible hrest
      refine (Outcome.cons hstep rfl (hbody'.andThen (fun st =>
        branches.UnselectedOk R erase true (!blind) (!blind) st ∧
          ∀ r, branches.effect R erase true (!blind) (!blind) st = .ok r →
            rest.UnselectedOk R erase r.1) fun r _ => hnext r.1)).congr ?_
      rw [Input.UnselectedOk, hvalue]
      constructor
      · rintro ⟨hbody, hnext⟩ blind' hblind'
        obtain rfl := Except.ok.inj hblind'
        exact ⟨hbody, hnext⟩
      · exact fun h => h blind rfl

theorem Branches.visible_spec {b : IfBlock} {allowed matched : Bool} (last : Bool)
    (hfree : OriginFree R erase) (st : σ × VarsDict) (stack : List IfBlock)
    (hb : b.Open allowed) (hmatched : b.wasMatched = matched) (hforced : b.forcedBlind = false)
    (hlast : isBlindTop (b :: stack) = !last) : ∀ c : Branches, c.Implemented →
    Outcome R erase c.lines st (b :: stack) stack (c.effect R erase allowed matched last st)
      (c.UnselectedOk R erase allowed matched last st)
  | .endif l args, _ => endif_outcome st stack (endIf_mem_open hb) hb.isOpen l args
  | .else_ l args body l' args', himpl => by
    rw [Branches.lines, Branches.effect]
    rcases else_cases (R := R) st stack hb l args with ⟨hargs, e, he⟩ |
      ⟨hargs, b', hstep, hallowed, hopen, htop⟩
    · rw [noArgs, if_pos hargs]
      exact .of_error rfl he
    · rw [hforced, Bool.false_or, hmatched] at htop
      have htop' : TopOk (b' :: stack) := topOk_else hallowed stack
      have hend : Opcode.endIf ∈ b'.allowedOps := by rw [hallowed]; decide
      rw [noArgs, if_neg (not_not.2 hargs), andThen_nil]
      have hbody := branch_outcome body htop' htop himpl fun hvisible =>
        body.visible_spec hfree st (b' :: stack) htop' hvisible himpl
      refine (Outcome.cons hstep rfl (hbody.andThen (fun _ => True) fun r _ =>
        endif_outcome r.1 stack hend hopen l' args')).congr ?_
      exact ⟨fun h => h.1, fun h => ⟨h, fun _ _ => trivial⟩⟩
  | .elseif l args body branches, himpl => by
    obtain ⟨hbody, hbranches⟩ := himpl
    rw [Branches.lines]
    cases allowed with
    | true =>
      rcases elseif_cases (R := R) st stack hb l args with ⟨e, e', herror, hstep⟩ |
        ⟨blind, b', hvalue, hstep, hopen, hmatched', hforced', htop⟩
      · cases matched with
        | true =>
          -- the condition is evaluated, although it does not matter
          refine .inr ⟨?_, Raises.of_step hstep _⟩
          rintro _ _ ⟨⟨blind, hvalue⟩, -⟩
          rw [herror] at hvalue
          cases hvalue
        | false =>
          rw [Branches.effect, if_neg (by decide), herror]
          exact .of_error rfl hstep
      · rw [hforced, Bool.false_or, hmatched] at htop
        rw [hmatched] at hmatched'
        cases matched with
        | true =>
          rw [Branches.effect, if_pos rfl]
          have hbody' : Outcome R erase body.lines st (b' :: stack) (b' :: stack) (.ok (st, []))
              (body.BlindOk st.2) :=
            body.blind_spec st (b' :: stack) (topOk_open hopen stack) htop hbody
          have hbranches' := branches.visible_spec false hfree st stack hopen hmatched'
            (hforced'.trans hforced) htop hbranches
          refine (Outcome.cons hstep rfl (hbody'.skip hbranches')).congr ?_
          exact ⟨fun h => ⟨⟨blind, hvalue⟩, h⟩, fun h => h.2⟩
        | false =>
          rw [Branches.effect, if_neg (by decide), hvalue]
          rw [Bool.false_or] at htop hmatched'
          have hbody' := branch_outcome body (topOk_open hopen stack) htop hbody fun hvisible =>
            body.visible_spec hfree st (b' :: stack) (topOk_open hopen stack) hvisible hbody
          refine (Outcome.cons hstep rfl (hbody'.andThen
            (branches.UnselectedOk R erase false (!blind) (!blind)) fun r _ =>
            branches.visible_spec (!blind) hfree r.1 stack hopen hmatched' (hforced'.trans hforced)
              (by rw [htop, Bool.not_not]) hbranches)).congr ?_
          rw [Branches.UnselectedOk, hvalue]
          constructor
          · rintro ⟨hbody, hnext⟩ blind' hblind'
            obtain rfl := Except.ok.inj hblind'
            exact ⟨hbody, hnext⟩
          · exact fun h => h blind rfl
    | false =>
      have hstep := elseif_again (R := R) st stack hb l args
      rw [hlast] at hstep
      cases last with
      | true =>
        rw [Branches.effect, if_pos rfl]
        rw [if_neg (by decide)] at hstep
        exact .of_error rfl hstep
      | false =>
        rw [Branches.effect, if_neg (by decide)]
        rw [if_pos (by decide)] at hstep
        have hbody' : Outcome R erase body.lines st (b :: stack) (b :: stack) (.ok (st, []))
            (body.BlindOk st.2) :=
          body.blind_spec st (b :: stack) (topOk_open hb stack) hlast hbody
        have hbranches' := branches.visible_spec false hfree st stack hb hmatched hforced
          hlast hbranches
        refine (Outcome.cons hstep rfl (hbody'.skip hbranches')).congr ?_
        exact ⟨fun h => .inr h, fun h => h.resolve_left (by decide)⟩

end

/-! ## The whole input -/

theorem andThen_eq_ok {r : Effect σ υ} {f : σ × VarsDict → Effect σ υ}
    {x : (σ × VarsDict) × List υ} (h : r.andThen f = .ok x) :
    ∃ y z, r = .ok y ∧ f y.1 = .ok z := by
  cases hr : r with
  | error e =>
    rw [hr] at h
    cases h
  | ok y =>
    cases hf : f y.1 with
    | error e =>
      rw [hr, Effect.andThen, hf] at h
      cases h
    | ok z => exact ⟨y, z, rfl, hf⟩

mutual

/-- What can be passed over is implemented. -/
theorem Input.BlindOk.implemented {vars : VarsDict} :
    ∀ s : Input, s.BlindOk vars → s.Implemented
  | .nil, _ => trivial
  | .malformed _ _, h => h.elim
  | .text _ _ rest, h => Input.BlindOk.implemented rest h
  | .plain _ _ _ _ rest, h => Input.BlindOk.implemented rest h
  | .block _ _ _ _ body branches rest, ⟨hop, _, hbody, hbranches, hrest⟩ =>
    ⟨hop, Input.BlindOk.implemented body hbody,
      Branches.BlindOk.implemented true branches hbranches,
      Input.BlindOk.implemented rest hrest⟩

theorem Branches.BlindOk.implemented {vars : VarsDict} (allowed : Bool) :
    ∀ c : Branches, c.BlindOk vars allowed → c.Implemented
  | .endif _ _, _ => trivial
  | .else_ _ _ body _ _, h => Input.BlindOk.implemented body h.2.1
  | .elseif _ _ body branches, h =>
    ⟨Input.BlindOk.implemented body h.2.1, Branches.BlindOk.implemented false branches h.2.2⟩

end

/-- A branch of a block, likewise. -/
theorem branch_implemented {blind : Bool} {s : Input} {r : (σ × VarsDict) × List υ}
    (heffect : skipIf blind (s.effect R erase) st = .ok r)
    (hok : if blind then s.BlindOk st.2 else s.UnselectedOk R erase st)
    (hvisible : s.effect R erase st = .ok r → s.UnselectedOk R erase st → s.Implemented) :
    s.Implemented := by
  cases blind with
  | true => exact hok.implemented
  | false => exact hvisible heffect hok

mutual

/-- What has an effect and can be passed over is implemented. -/
theorem Input.implemented_of_ok : ∀ (s : Input) (st : σ × VarsDict)
    (r : (σ × VarsDict) × List υ), s.effect R erase st = .ok r → s.UnselectedOk R erase st →
    s.Implemented
  | .nil, _, _, _, _ => trivial
  | .malformed _ _, _, _, h, _ => by cases h
  | .text _ _ rest, st, _, h, hok => by
    obtain ⟨y, z, hy, hz⟩ := andThen_eq_ok h
    rw [← Except.ok.inj hy] at hz
    exact rest.implemented_of_ok st z hz hok
  | .plain _ _ _ _ rest, _, _, h, hok => by
    obtain ⟨y, z, hy, hz⟩ := andThen_eq_ok h
    exact rest.implemented_of_ok y.1 z hz (hok y hy)
  | .block _ opcode args _ body branches rest, st, _, h, hok => by
    rw [Input.effect] at h
    by_cases hop : opcode ≠ .if_
    · rw [if_pos hop] at h
      cases h
    rw [if_neg hop] at h
    cases hvalue : parseIfInstruction st.2 noOrigin args with
    | error e =>
      rw [hvalue] at h
      cases h
    | ok blind =>
      rw [hvalue] at h
      obtain ⟨hbody, hnext⟩ := hok blind hvalue
      obtain ⟨y, z, hy, hz⟩ := andThen_eq_ok h
      obtain ⟨y', z', hy', hz'⟩ := andThen_eq_ok hz
      obtain ⟨hbranches, hrest⟩ := hnext y hy
      exact ⟨not_not.1 hop, branch_implemented hy hbody (body.implemented_of_ok st y),
        branches.implemented_of_ok _ _ _ y.1 y' hy' hbranches,
        rest.implemented_of_ok y'.1 z' hz' (hrest y' hy')⟩

theorem Branches.implemented_of_ok : ∀ (c : Branches) (allowed matched last : Bool)
    (st : σ × VarsDict) (r : (σ × VarsDict) × List υ),
    c.effect R erase allowed matched last st = .ok r →
    c.UnselectedOk R erase allowed matched last st → c.Implemented
  | .endif _ _, _, _, _, _, _, _, _ => trivial
  | .else_ _ _ body _ _, _, matched, _, st, _, h, hok => by
    obtain ⟨y, z, hy, hz⟩ := andThen_eq_ok h
    rw [noArgs] at hy
    split at hy
    · cases hy
    · rw [← Except.ok.inj hy] at hz
      obtain ⟨y', z', hy', -⟩ := andThen_eq_ok hz
      exact branch_implemented hy' hok (body.implemented_of_ok st y')
  | .elseif _ args body branches, true, true, _, st, r, h, hok => by
    rw [Branches.effect, if_pos rfl] at h
    exact ⟨hok.2.1.implemented, branches.implemented_of_ok false true false st r h hok.2.2⟩
  | .elseif _ args body branches, true, false, _, st, r, h, hok => by
    rw [Branches.effect, if_neg (by decide)] at h
    cases hvalue : parseIfInstruction st.2 noOrigin args with
    | error e =>
      rw [hvalue] at h
      cases h
    | ok blind =>
      rw [hvalue] at h
      obtain ⟨hbody, hnext⟩ := hok blind hvalue
      obtain ⟨y, z, hy, hz⟩ := andThen_eq_ok h
      exact ⟨branch_implemented hy hbody (body.implemented_of_ok st y),
        branches.implemented_of_ok _ _ _ y.1 z hz (hnext y hy)⟩
  | .elseif _ _ body branches, false, matched, last, st, r, h, hok => by
    rw [Branches.effect] at h
    cases last with
    | true =>
      rw [if_pos rfl] at h
      cases h
    | false =>
      rw [if_neg (by decide)] at h
      obtain ⟨hbody, hbranches⟩ := hok.resolve_left (by decide)
      exact ⟨hbody.implemented, branches.implemented_of_ok _ _ _ st r h hbranches⟩

end

/-! ## Blocks that are not implemented -/

theorem net_opensIf (l : Layout) {opcode : Opcode} (args : Option CStr)
    (h : opcode.opensIf = true) :
    (l.instruction opcode args).net = if opcode = .if_ then 1 else 0 := by
  cases opcode <;> first | rfl | cases h

theorem net_plain (l : Layout) {opcode : Opcode} (args : Option CStr)
    (h : opcode.isPlain = true) : (l.instruction opcode args).net = 0 := by
  cases opcode <;> first | rfl | cases h

mutual

/-- Only an `if` opens a block, but each `endif` closes one. -/
theorem Input.netBlocks_lines : ∀ s : Input,
    netBlocks s.lines ≤ 0 ∧ (netBlocks s.lines = 0 → s.Implemented)
  | .nil => ⟨le_rfl, fun _ => trivial⟩
  | .malformed e rest => by
    rw [Input.lines, netBlocks_error]
    exact rest.netBlocks_lines
  | .text o line rest => by
    rw [Input.lines, netBlocks_cons, InputLine.net, zero_add]
    exact rest.netBlocks_lines
  | .plain l opcode args h rest => by
    rw [Input.lines, netBlocks_cons, net_plain l args h, zero_add]
    exact rest.netBlocks_lines
  | .block l opcode args h body branches rest => by
    rw [Input.lines, netBlocks_cons, netBlocks_append, netBlocks_append, net_opensIf l args h]
    obtain ⟨hbody, hbody'⟩ := body.netBlocks_lines
    obtain ⟨hbranches, hbranches'⟩ := branches.netBlocks_lines
    obtain ⟨hrest, hrest'⟩ := rest.netBlocks_lines
    by_cases hop : opcode = .if_
    · rw [if_pos hop]
      refine ⟨by omega, fun hzero => ⟨hop, hbody' ?_, hbranches' ?_, hrest' ?_⟩⟩
      · omega
      · omega
      · omega
    · rw [if_neg hop]
      refine ⟨by omega, fun hzero => ?_⟩
      omega

theorem Branches.netBlocks_lines : ∀ c : Branches,
    netBlocks c.lines ≤ -1 ∧ (netBlocks c.lines = -1 → c.Implemented)
  | .endif l args => ⟨le_rfl, fun _ => trivial⟩
  | .else_ l args body l' args' => by
    have hend : netBlocks [.ok (l'.instruction .endIf args')] = -1 := rfl
    have helse : (l.instruction .else_ args).net = 0 := rfl
    rw [Branches.lines, netBlocks_cons, netBlocks_append, hend, helse]
    obtain ⟨hbody, hbody'⟩ := body.netBlocks_lines
    refine ⟨by omega, fun hzero => hbody' ?_⟩
    omega
  | .elseif l args body branches => by
    have helseif : (l.instruction .elseIf args).net = 0 := rfl
    rw [Branches.lines, netBlocks_cons, netBlocks_append, helseif]
    obtain ⟨hbody, hbody'⟩ := body.netBlocks_lines
    obtain ⟨hbranches, hbranches'⟩ := branches.netBlocks_lines
    refine ⟨by omega, fun hzero => ⟨hbody' ?_, hbranches' ?_⟩⟩
    · omega
    · omega

end

/-- **An input that is read is implemented.** -/
theorem Input.implemented_of_runs {s : Input} {st' : σ × VarsDict} {out : List υ}
    (h : Runs R erase s.lines (onStack st []) (onStack st' []) out) : s.Implemented := by
  have hbalance := h.balance (by rintro b ⟨⟩)
  refine s.netBlocks_lines.2 ?_
  rw [onStack, onStack] at hbalance
  simpa using hbalance.symm

/-- **The input has the effect of the selected lines**, if the other ones can be passed over;
    otherwise an error is raised. -/
theorem Input.result_eq_some_iff (hfree : OriginFree R erase) (s : Input) (st : σ × VarsDict)
    (r : (σ × VarsDict) × List υ) :
    R.result erase st s.lines = some r ↔
      s.effect R erase st = .ok r ∧ s.UnselectedOk R erase st := by
  rw [Reader.result_eq_some_iff]
  constructor
  · intro hrun
    rcases s.visible_spec hfree st [] (by rintro b ⟨⟩) rfl (Input.implemented_of_runs hrun) with
      ⟨r', heffect, hok, hrun'⟩ | ⟨-, hraises⟩
    · obtain ⟨hstate, hout⟩ := hrun.unique hrun'
      obtain ⟨hglobal, hvars, -⟩ := ReaderState.mk.inj hstate
      have hr : r' = r := Prod.ext (Prod.ext hglobal.symm hvars.symm) hout.symm
      rw [hr] at heffect
      exact ⟨heffect, hok⟩
    · exact absurd hraises hrun.not_raises
  · rintro ⟨heffect, hok⟩
    rcases s.visible_spec hfree st [] (by rintro b ⟨⟩) rfl (s.implemented_of_ok st r heffect hok)
      with ⟨r', heffect', -, hrun⟩ | ⟨hnot, -⟩
    · rw [heffect] at heffect'
      rwa [Except.ok.inj heffect']
    · exact absurd hok (hnot r heffect)

end

end Metash

end Fischstaebchen
