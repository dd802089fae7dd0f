/-
  Reading lines that are parsed one after another (`scripts/metash`: `_preprocess_lines` and
  `_preprocess_and_expand_lines`).

  A line is parsed when it is reached, in whatever branch it stands; a line that cannot be
  parsed ends the run.

  * `parseLines_ok`, `Reader.runParsed_ok`: lines that can all be parsed are read as by
    `Reader.run`.
  * `Runs`, `Raises`: how a part of the input is read, up to the origins in what is yielded.
  * `Runs.balance`: as many blocks are closed as have been opened.
-/
import Fischstaebchen.Metash.IfBlocks
import Fischstaebchen.Metash.ShellReader

namespace Fischstaebchen

namespace Metash

/-- A line, as it is parsed when it is reached. -/
abbrev ParsedLine := Except ReaderError InputLine

/-- The loop of `_preprocess_lines` over `accumulate_input_lines`: the lines, up to an error. -/
def parsedLines : ℕ → List CStr → LineBuffer → List ParsedLine
  | _, [], b =>
    match b.close with
    | .error e => [.error e]
    | .ok out => out.map fun p => preprocessLine p.1 p.2
  | lino, line :: lines, b =>
    match b.add lino line with
    | .error e => [.error e]
    | .ok (b, out) =>
      (out.map fun p => preprocessLine p.1 p.2) ++ parsedLines (lino + 1) lines b

/-- `_preprocess_lines`, line by line. -/
def parseLines (lines : List CStr) : List ParsedLine := parsedLines 0 lines LineBuffer.empty

theorem preprocessAccumulated_ok {out : List (ℕ × CStr)} {input : List InputLine}
    (h : preprocessAccumulated out = .ok input) :
    out.map (fun p => preprocessLine p.1 p.2) = input.map .ok := by
  induction out generalizing input with
  | nil =>
    rw [← Except.ok.inj h]
    rfl
  | cons p out ih =>
    rw [preprocessAccumulated] at h
    cases hline : preprocessLine p.1 p.2 with
    | error e =>
      rw [hline] at h
      cases h
    | ok line =>
      rw [hline] at h
      cases hrest : preprocessAccumulated out with
      | error e =>
        rw [hrest] at h
        cases h
      | ok rest =>
        rw [hrest] at h
        rw [← Except.ok.inj h, List.map_cons, List.map_cons, hline, ih hrest]

theorem parsedLines_ok {lines : List CStr} {lino : ℕ} {b : LineBuffer} {out : List (ℕ × CStr)}
    (h : accumulateInputLines lino lines b = .ok out) :
    parsedLines lino lines b = out.map fun p => preprocessLine p.1 p.2 := by
  induction lines generalizing lino b out with
  | nil =>
    rw [accumulateInputLines] at h
    rw [parsedLines, h]
  | cons line lines ih =>
    rw [accumulateInputLines] at h
    rw [parsedLines]
    cases hadd : b.add lino line with
    | error e =>
      rw [hadd] at h
      cases h
    | ok r =>
      obtain ⟨b', first⟩ := r
      rw [hadd] at h
      dsimp only at h ⊢
      cases hrest : accumulateInputLines (lino + 1) lines b' with
      | error e =>
        rw [hrest] at h
        cases h
      | ok rest =>
        rw [hrest] at h
        rw [← Except.ok.inj h, List.map_append, ih hrest]

/-- **Lines that are parsed at once** are parsed line by line. -/
theorem parseLines_ok {lines : List CStr} {input : List InputLine}
    (h : preprocessLines lines = .ok input) : parseLines lines = input.map .ok := by
  rw [preprocessLines] at h
  cases hout : accumulateInputLines 0 lines LineBuffer.empty with
  | error e =>
    rw [hout] at h
    cases h
  | ok out =>
    rw [hout] at h
    rw [parseLines, parsedLines_ok hout, preprocessAccumulated_ok h]

section
variable {σ τ υ : Type} (R : Reader σ τ)

/-- The loop of `_preprocess_and_expand_lines`. -/
def Reader.runParsed : List ParsedLine → ReaderState σ →
    Except ReaderError (ReaderState σ × List (Action τ))
  | [], st => .ok (st, [])
  | .error e :: _, _ => .error e
  | .ok line :: lines, st =>
    match R.step st line with
    | .error e => .error e
    | .ok (st, action) =>
      match Reader.runParsed lines st with
      | .error e => .error e
      | .ok (st, actions) => .ok (st, action :: actions)

/-- `_preprocess_and_expand_lines`. -/
def Reader.expandParsed (global : σ) (vars : VarsDict) (lines : List ParsedLine) :
    Except ReaderError (ReaderState σ × List (Action τ)) :=
  match R.runParsed lines ⟨global, vars, []⟩ with
  | .error e => .error e
  | .ok (st, actions) => if st.stack = [] then .ok (st, actions) else .error .missingEndif

variable {R}

theorem Reader.runParsed_cons {line : InputLine} {st st' : ReaderState σ} {action : Action τ}
    (h : R.step st line = .ok (st', action)) (lines : List ParsedLine) :
    R.runParsed (.ok line :: lines) st =
      (R.runParsed lines st').map fun r => (r.1, action :: r.2) := by
  rw [Reader.runParsed, h]
  dsimp only
  cases R.runParsed lines st' <;> rfl

/-- **Lines that are parsed** are read. -/
theorem Reader.runParsed_ok (lines : List InputLine) (st : ReaderState σ) :
    R.runParsed (lines.map .ok) st = R.run lines st := by
  induction lines generalizing st with
  | nil => rfl
  | cons line lines ih =>
    rw [List.map_cons]
    cases hstep : R.step st line with
    | error e => rw [Reader.runParsed, Reader.run, hstep]
    | ok r => rw [Reader.runParsed_cons hstep, Reader.run_cons hstep, ih]

theorem Reader.runParsed_append {lines : List ParsedLine} {st st' : ReaderState σ}
    {actions : List (Action τ)} (h : R.runParsed lines st = .ok (st', actions))
    (lines' : List ParsedLine) :
    R.runParsed (lines ++ lines') st =
      (R.runParsed lines' st').map fun r => (r.1, actions ++ r.2) := by
  induction lines generalizing st actions with
  | nil =>
    obtain ⟨rfl, rfl⟩ := Prod.mk.inj (Except.ok.inj h)
    rw [List.nil_append]
    cases R.runParsed lines' st <;> rfl
  | cons line lines ih =>
    cases line with
    | error e => cases h
    | ok line =>
      cases hstep : R.step st line with
      | error e =>
        rw [Reader.runParsed, hstep] at h
        cases h
      | ok r =>
        obtain ⟨mid, action⟩ := r
        rw [Reader.runParsed_cons hstep] at h
        cases hrun : R.runParsed lines mid with
        | error e =>
          rw [hrun] at h
          cases h
        | ok r =>
          obtain ⟨last, actions'⟩ := r
          rw [hrun] at h
          obtain ⟨rfl, rfl⟩ := Prod.mk.inj (Except.ok.inj h)
          rw [List.cons_append, Reader.runParsed_cons hstep, ih hrun]
          cases R.runParsed lines' last <;> rfl

/-! ## Parts of the input -/

section
variable (R) (erase : τ → υ)

/-- A part of the input is read. -/
def Runs (lines : List ParsedLine) (st st' : ReaderState σ) (out : List υ) : Prop :=
  ∃ actions, R.runParsed lines st = .ok (st', actions) ∧
    (actions.flatMap Action.results).map erase = out

/-- An error is raised. -/
def Raises (lines : List ParsedLine) (st : ReaderState σ) : Prop :=
  ∃ e, R.runParsed lines st = .error e

end

variable {erase : τ → υ} {lines lines' : List ParsedLine} {st st' st'' : ReaderState σ}
  {out out' : List υ}

theorem Runs.nil : Runs R erase [] st st [] := ⟨[], rfl, rfl⟩

theorem Runs.append (h : Runs R erase lines st st' out) (h' : Runs R erase lines' st' st'' out') :
    Runs R erase (lines ++ lines') st st'' (out ++ out') := by
  obtain ⟨actions, hrun, rfl⟩ := h
  obtain ⟨actions', hrun', rfl⟩ := h'
  refine ⟨actions ++ actions', ?_, by rw [List.flatMap_append, List.map_append]⟩
  rw [Reader.runParsed_append hrun, hrun']
  rfl

theorem Runs.of_step {line : InputLine} {action : Action τ}
    (h : R.step st line = .ok (st', action)) :
    Runs R erase [.ok line] st st' (action.results.map erase) := by
  refine ⟨[action], ?_, by simp⟩
  rw [Reader.runParsed_cons h]
  rfl

theorem Runs.raises_append (h : Runs R erase lines st st' out) (h' : Raises R lines' st') :
    Raises R (lines ++ lines') st := by
  obtain ⟨actions, hrun, -⟩ := h
  obtain ⟨e, he⟩ := h'
  refine ⟨e, ?_⟩
  rw [Reader.runParsed_append hrun, he]
  rfl

theorem Raises.append (h : Raises R lines st) (lines' : List ParsedLine) :
    Raises R (lines ++ lines') st := by
  induction lines generalizing st with
  | nil =>
    obtain ⟨e, he⟩ := h
    cases he
  | cons line lines ih =>
    rw [List.cons_append]
    cases line with
    | error e => exact ⟨e, rfl⟩
    | ok line =>
      cases hstep : R.step st line with
      | error e => exact ⟨e, by rw [Reader.runParsed, hstep]⟩
      | ok r =>
        obtain ⟨mid, action⟩ := r
        obtain ⟨e, he⟩ := h
        rw [Reader.runParsed_cons hstep] at he
        have hraises : Raises R lines mid := by
          cases hrun : R.runParsed lines mid with
          | error e' => exact ⟨e', hrun⟩
          | ok r =>
            rw [hrun] at he
            cases he
        obtain ⟨e', he'⟩ := ih hraises
        refine ⟨e', ?_⟩
        rw [Reader.runParsed_cons hstep, he']
        rfl

theorem Raises.of_step {line : InputLine} {e : ReaderError} (h : R.step st line = .error e)
    (lines : List ParsedLine) : Raises R (.ok line :: lines) st :=
  ⟨e, by rw [Reader.runParsed, h]⟩

/-- Not both. -/
theorem Runs.not_raises (h : Runs R erase lines st st' out) : ¬ Raises R lines st := by
  rintro ⟨e, he⟩
  obtain ⟨actions, hrun, -⟩ := h
  rw [hrun] at he
  cases he

theorem Runs.unique (h : Runs R erase lines st st' out) (h' : Runs R erase lines st st'' out') :
    st' = st'' ∧ out = out' := by
  obtain ⟨actions, hrun, rfl⟩ := h
  obtain ⟨actions', hrun', rfl⟩ := h'
  rw [hrun] at hrun'
  obtain ⟨rfl, rfl⟩ := Prod.mk.inj (Except.ok.inj hrun')
  exact ⟨rfl, rfl⟩

/-! ## Results -/

/-- The state of a reader with a stack of blocks. -/
def onStack (st : σ × VarsDict) (stack : List IfBlock) : ReaderState σ := ⟨st.1, st.2, stack⟩

/-- The state after the input is read, and what is yielded; nothing, if an error is raised. -/
def Reader.result (R : Reader σ τ) (erase : τ → υ) (st : σ × VarsDict) (lines : List ParsedLine) :
    Option ((σ × VarsDict) × List υ) :=
  (R.expandParsed st.1 st.2 lines).toOption.map fun r =>
    ((r.1.global, r.1.vars), (r.2.flatMap Action.results).map erase)

theorem Reader.result_eq_some_iff {st : σ × VarsDict} {r : (σ × VarsDict) × List υ} :
    R.result erase st lines = some r ↔
      Runs R erase lines (onStack st []) (onStack r.1 []) r.2 := by
  rw [Reader.result, Reader.expandParsed, Runs, onStack]
  cases hrun : R.runParsed lines ⟨st.1, st.2, []⟩ with
  | error e =>
    refine iff_of_false (by rintro ⟨⟩) ?_
    rintro ⟨actions, hok, -⟩
    cases hok
  | ok x =>
    obtain ⟨⟨global, vars, stack⟩, actions⟩ := x
    dsimp only
    by_cases hstack : stack = []
    · subst hstack
      rw [if_pos rfl]
      constructor
      · intro h
        rw [← Option.some.inj h]
        exact ⟨actions, rfl, rfl⟩
      · rintro ⟨actions', hok, hout⟩
        obtain ⟨hstate, rfl⟩ := Prod.mk.inj (Except.ok.inj hok)
        obtain ⟨hglobal, hvars, -⟩ := ReaderState.mk.inj hstate
        exact congrArg some (Prod.ext (Prod.ext hglobal hvars) hout)
    · rw [if_neg hstack]
      refine iff_of_false (by rintro ⟨⟩) ?_
      rintro ⟨actions', hok, -⟩
      obtain ⟨hstate, -⟩ := Prod.mk.inj (Except.ok.inj hok)
      exact hstack (ReaderState.mk.inj hstate).2.2

/-! ## Counting blocks -/

/-- How many blocks a line opens or closes. -/
def InputLine.net : InputLine → ℤ
  | .text _ _ => 0
  | .instruction _ i =>
    match i.opcode with
    | .if_ => 1
    | .endIf => -1
    | _ => 0

def netBlocks (lines : List ParsedLine) : ℤ :=
  (lines.map fun line => match line with
    | .ok line => line.net
    | .error _ => 0).sum

theorem netBlocks_append (lines lines' : List ParsedLine) :
    netBlocks (lines ++ lines') = netBlocks lines + netBlocks lines' := by
  rw [netBlocks, List.map_append, List.sum_append]
  rfl

theorem netBlocks_cons (line : InputLine) (lines : List ParsedLine) :
    netBlocks (.ok line :: lines) = line.net + netBlocks lines := by
  rw [netBlocks, List.map_cons, List.sum_cons]
  rfl

theorem netBlocks_error (e : ReaderError) (lines : List ParsedLine) :
    netBlocks (.error e :: lines) = netBlocks lines := by
  rw [netBlocks, List.map_cons, List.sum_cons]
  exact zero_add _

/-- A block that can be closed. -/
def IfBlock.Closable (b : IfBlock) : Prop :=
  Opcode.endIf ∈ b.allowedOps ∧ b.isClosed = some false

/-- Only what is accepted is done. -/
theorem accepts_of_update {b b' : IfBlock} {vars : VarsDict} {o : Origin} {i : Instruction}
    (h : b.update vars o i = .ok b') : ¬ b.accepts i = false := by
  intro hacc
  rw [IfBlock.update, if_pos hacc] at h
  cases h

theorem update_new {forcedBlind : Bool} {vars : VarsDict} {o : Origin} {i : Instruction}
    {b : IfBlock} (hop : i.opcode = .if_)
    (h : (IfBlock.new forcedBlind).update vars o i = .ok b) : b.Closable := by
  have hnew : ¬ (IfBlock.new forcedBlind).isClosed ≠ none := not_not.2 rfl
  rw [IfBlock.update, if_neg (accepts_of_update h), hop] at h
  dsimp only at h
  rw [if_neg hnew] at h
  split at h
  · cases h
  · obtain rfl := Except.ok.inj h
    refine ⟨?_, rfl⟩
    show Opcode.endIf ∈ (i.opcode.blockEnd).getD []
    rw [hop]
    decide

/-- An instruction closes the block, or leaves it open. -/
theorem IfBlock.Closable.update {vars : VarsDict} {o : Origin} {i : Instruction}
    {b b' : IfBlock} (hb : b.Closable) (hop : i.opcode ≠ .if_) (h : b.update vars o i = .ok b') :
    (i.opcode = .endIf ∧ b'.isClosed = some true) ∨ (i.opcode ≠ .endIf ∧ b'.Closable) := by
  have hclosed := hb.2
  rw [IfBlock.update, if_neg (accepts_of_update h)] at h
  split at h
  · next hend =>
    rw [if_neg (not_not.2 hclosed)] at h
    by_cases hargs : i.args.getD [] ≠ []
    · rw [if_pos hargs] at h
      cases h
    · rw [if_neg hargs] at h
      obtain rfl := Except.ok.inj h
      exact .inl ⟨hend, rfl⟩
  · next helse =>
    rw [if_neg (not_not.2 hclosed)] at h
    by_cases hargs : i.args.getD [] ≠ []
    · rw [if_pos hargs] at h
      cases h
    · rw [if_neg hargs] at h
      obtain rfl := Except.ok.inj h
      refine .inr ⟨by rw [helse]; decide, ?_, hclosed⟩
      show Opcode.endIf ∈ (i.opcode.blockEnd).getD []
      rw [helse]
      decide
  · next hif => exact absurd hif hop
  · next helseif =>
    split at h
    · cases h
    · obtain rfl := Except.ok.inj h
      refine .inr ⟨by rw [helseif]; decide, ?_, ?_⟩
      · show Opcode.endIf ∈ (i.opcode.blockEnd).getD []
        rw [helseif]
        decide
      · by_cases hmatched : b.wasMatched = true
        · rw [if_pos hmatched]
          exact hclosed
        · rw [if_neg hmatched]
          exact hclosed
  · cases h

theorem execInstruction_stack {o : Origin} {i : Instruction} {action : Action τ}
    (h : execInstruction R st o i = .ok (st', action)) :
    st'.stack = st.stack ∧ i.opcode ≠ .if_ ∧ i.opcode ≠ .endIf := by
  rw [execInstruction] at h
  split at h
  · next hop =>
    split at h
    · cases h
    · obtain ⟨rfl, -⟩ := Prod.mk.inj (Except.ok.inj h)
      exact ⟨rfl, by rw [hop]; decide, by rw [hop]; decide⟩
  · next hop =>
    split at h
    · cases h
    · obtain ⟨rfl, -⟩ := Prod.mk.inj (Except.ok.inj h)
      exact ⟨rfl, by rw [hop]; decide, by rw [hop]; decide⟩
  · next hop =>
    split at h
    · cases h
    · split_ifs at h
      split at h
      · cases h
      · obtain ⟨rfl, -⟩ := Prod.mk.inj (Except.ok.inj h)
        exact ⟨rfl, by rw [hop]; decide, by rw [hop]; decide⟩
  · next hop =>
    split_ifs at h
    split at h
    · cases h
    · obtain ⟨rfl, -⟩ := Prod.mk.inj (Except.ok.inj h)
      exact ⟨rfl, by rw [hop]; decide, by rw [hop]; decide⟩
  · cases h

theorem net_other {o : Origin} {i : Instruction} (hif : i.opcode ≠ .if_)
    (hend : i.opcode ≠ .endIf) : (InputLine.instruction o i).net = 0 := by
  rw [InputLine.net]
  split
  · next heq => exact absurd heq hif
  · next heq => exact absurd heq hend
  · rfl

/-- An instruction that is not for a block leaves all blocks open. -/
theorem execInstruction_balance {o : Origin} {i : Instruction} {action : Action τ}
    (hopen : ∀ b ∈ st.stack, b.Closable) (h : execInstruction R st o i = .ok (st', action)) :
    (∀ b ∈ st'.stack, b.Closable) ∧
      (st'.stack.length : ℤ) = st.stack.length + (InputLine.instruction o i).net := by
  obtain ⟨hstack, hif, hend⟩ := execInstruction_stack h
  rw [hstack, net_other hif hend, add_zero]
  exact ⟨hopen, rfl⟩

/-- **A line** opens a block, or closes one. -/
theorem step_balance {line : InputLine} {action : Action τ}
    (hopen : ∀ b ∈ st.stack, b.Closable) (h : R.step st line = .ok (st', action)) :
    (∀ b ∈ st'.stack, b.Closable) ∧ (st'.stack.length : ℤ) = st.stack.length + line.net := by
  cases line with
  | text o line =>
    have hsame : st' = st := by
      rw [Reader.step] at h
      split_ifs at h
      · exact (Prod.mk.inj (Except.ok.inj h)).1.symm
      · exact (Prod.mk.inj (Except.ok.inj h)).1.symm
    rw [hsame]
    exact ⟨hopen, (add_zero _).symm⟩
  | instruction o i =>
    rw [Reader.step] at h
    by_cases hif : i.opcode = .if_
    · rw [if_pos hif] at h
      split at h
      · cases h
      · next b hupdate =>
        obtain ⟨rfl, -⟩ := Prod.mk.inj (Except.ok.inj h)
        refine ⟨List.forall_mem_cons.2 ⟨update_new hif hupdate, hopen⟩, ?_⟩
        rw [InputLine.net, hif]
        exact Nat.cast_succ _
    rw [if_neg hif] at h
    cases hstack : st.stack with
    | nil =>
      rw [hstack] at h
      rw [← hstack]
      exact execInstruction_balance hopen h
    | cons b stack =>
      obtain ⟨hb, hrest⟩ := List.forall_mem_cons.1 (hstack ▸ hopen)
      rw [hstack] at h
      dsimp only at h
      rw [← hstack]
      by_cases hacc : b.accepts i = true
      · rw [if_pos hacc] at h
        split at h
        · cases h
        · next b' hupdate =>
          obtain ⟨rfl, -⟩ := Prod.mk.inj (Except.ok.inj h)
          rcases hb.update hif hupdate with ⟨hend, hclosed⟩ | ⟨hend, hb'⟩
          · rw [if_pos hclosed]
            refine ⟨hrest, ?_⟩
            rw [InputLine.net, hend, hstack, List.length_cons]
            push_cast
            ring
          · rw [if_neg (by rw [hb'.2]; decide), net_other hif hend, hstack, add_zero]
            exact ⟨List.forall_mem_cons.2 ⟨hb', hrest⟩, rfl⟩
      · rw [if_neg hacc] at h
        split_ifs at h
        · obtain ⟨rfl, -⟩ := Prod.mk.inj (Except.ok.inj h)
          -- an `endif` would be accepted
          have hend : i.opcode ≠ .endIf := by
            intro hend
            refine hacc ?_
            rw [IfBlock.accepts, hend]
            simpa using hb.1
          rw [net_other hif hend, add_zero]
          exact ⟨hopen, rfl⟩
        · exact execInstruction_balance hopen h

/-- **Blocks are balanced.** -/
theorem Runs.balance (hopen : ∀ b ∈ st.stack, b.Closable) (h : Runs R erase lines st st' out) :
    (st'.stack.length : ℤ) = st.stack.length + netBlocks lines := by
  obtain ⟨actions, hrun, -⟩ := h
  induction lines generalizing st actions with
  | nil =>
    obtain ⟨rfl, -⟩ := Prod.mk.inj (Except.ok.inj hrun)
    exact (add_zero _).symm
  | cons line lines ih =>
    cases line with
    | error e => cases hrun
    | ok line =>
      cases hstep : R.step st line with
      | error e =>
        rw [Reader.runParsed, hstep] at hrun
        cases hrun
      | ok r =>
        obtain ⟨mid, action⟩ := r
        rw [Reader.runParsed_cons hstep] at hrun
        cases hrest : R.runParsed lines mid with
        | error e =>
          rw [hrest] at hrun
          cases hrun
        | ok r =>
          obtain ⟨last, actions'⟩ := r
          rw [hrest] at hrun
          obtain ⟨rfl, -⟩ := Prod.mk.inj (Except.ok.inj hrun)
          obtain ⟨hmid, hlength⟩ := step_balance hopen hstep
          rw [ih hmid actions' hrest, hlength, netBlocks_cons, add_assoc]

end

end Metash

end Fischstaebchen
