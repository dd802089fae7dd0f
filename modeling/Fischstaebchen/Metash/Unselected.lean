/-
  Replacing unselected branches (`scripts/metash`: `FileReaderIfBlock` and
  `_preprocess_and_expand_lines`).

  Two inputs agree if their selected lines are the same, wherever these stand
  (`Input.Agree`); so do an input and the one with other lines in an unselected branch.

  * `Input.Agree.effect`: the selected lines do the same.
  * `Input.Agree.result_iff`: **when replacing unselected branches changes nothing**.
  * `shellReader_originFree`: the reader of the shell scripts yields the same wherever a
    line stands.
-/
import Fischstaebchen.Metash.Blind

namespace Fischstaebchen

namespace Metash

section
variable {σ τ υ : Type} (R : Reader σ τ) (erase : τ → υ)

/-! ## Agreement -/

mutual

/-- **The same lines are selected**, as far as they are read: nothing is said about the lines
    of branches that are not selected, and about what follows an error. -/
def Input.Agree : Input → Input → σ × VarsDict → Prop
  | .nil, .nil, _ => True
  | .malformed _ _, .malformed _ _, _ => True
  | .text _ line rest, .text _ line' rest', st => line' = line ∧ rest.Agree rest' st
  | .plain l opcode args _ rest, .plain l' opcode' args' _ rest', st =>
    l'.op opcode' args' = l.op opcode args ∧
      ∀ r, execPlain R erase (l.op opcode args) st = .ok r → rest.Agree rest' r.1
  | .block _ opcode args _ body branches rest, .block _ opcode' args' _ body' branches' rest',
      st =>
    opcode' = opcode ∧ args' = args ∧
      ∀ blind, parseIfInstruction st.2 noOrigin args = .ok blind →
        (blind = true ∨ body.Agree body' st) ∧
        ∀ r, skipIf blind (body.effect R erase) st = .ok r →
          branches.Agree branches' true (!blind) (!blind) r.1 ∧
          ∀ r', branches.effect R erase true (!blind) (!blind) r.1 = .ok r' →
            rest.Agree rest' r'.1
  | _, _, _ => False

/-- The rest of a block; also, nothing is said about the condition of an `elseif` after the
    selected branch, or of a second one. -/
def Branches.Agree : Branches → Branches → Bool → Bool → Bool → σ × VarsDict → Prop
  | .endif _ args, .endif _ args', _, _, _, _ => args' = args
  | .else_ _ args body _ last, .else_ _ args' body' _ last', _, matched, _, st =>
    args' = args ∧ last' = last ∧ (matched = true ∨ body.Agree body' st)
  | .elseif _ _ _ branches, .elseif _ _ _ branches', true, true, _, st =>
    branches.Agree branches' false true false st
  | .elseif _ args body branches, .elseif _ args' body' branches', true, false, _, st =>
    args' = args ∧
      ∀ blind, parseIfInstruction st.2 noOrigin args = .ok blind →
        (blind = true ∨ body.Agree body' st) ∧
        ∀ r, skipIf blind (body.effect R erase) st = .ok r →
          branches.Agree branches' false (!blind) (!blind) r.1
  | .elseif _ _ _ branches, .elseif _ _ _ branches', false, matched, last, st =>
    last = true ∨ branches.Agree branches' false matched false st
  | _, _, _, _, _, _ => False

end

variable {R erase}

/-! ## The effect of the selected lines -/

/-- Up to errors, the effects are the same. -/
theorem andThen_congr {r r' : Effect σ υ} {f f' : σ × VarsDict → Effect σ υ}
    (h : r.toOption = r'.toOption)
    (hnext : ∀ x, r = .ok x → (f x.1).toOption = (f' x.1).toOption) :
    (r.andThen f).toOption = (r'.andThen f').toOption := by
  rcases toOption_cases h with ⟨x, rfl, rfl⟩ | ⟨e, e', rfl, rfl⟩
  · rw [Effect.andThen, Effect.andThen]
    rcases toOption_cases (hnext x rfl) with ⟨y, hy, hy'⟩ | ⟨e, e', he, he'⟩
    · rw [hy, hy']
    · rw [he, he']
      rfl
  · rfl

/-- A branch that is selected, or not. -/
theorem skipIf_congr {blind : Bool} {f f' : σ × VarsDict → Effect σ υ} {st : σ × VarsDict}
    (h : blind = true ∨ (f st).toOption = (f' st).toOption) :
    (skipIf blind f st).toOption = (skipIf blind f' st).toOption := by
  cases blind with
  | true => rfl
  | false => exact h.resolve_left (by decide)

mutual

/-- **The selected lines do the same.** -/
theorem Input.Agree.effect : ∀ (s s' : Input) (st : σ × VarsDict), s.Agree R erase s' st →
    (s.effect R erase st).toOption = (s'.effect R erase st).toOption
  | .nil, s', st, h => by
    cases s' with
    | nil => rfl
    | _ => exact h.elim
  | .malformed e rest, s', st, h => by
    cases s' with
    | malformed e' rest' => rfl
    | _ => exact h.elim
  | .text o line rest, s', st, h => by
    cases s' with
    | text o' line' rest' =>
      obtain ⟨rfl, hrest⟩ := h
      refine andThen_congr rfl fun x hx => ?_
      rw [← Except.ok.inj hx]
      exact Input.Agree.effect rest rest' st hrest
    | _ => exact h.elim
  | .plain l opcode args hplain rest, s', st, h => by
    cases s' with
    | plain l' opcode' args' hplain' rest' =>
      obtain ⟨hop, hrest⟩ := h
      rw [Input.effect, Input.effect, hop]
      exact andThen_congr rfl fun x hx => Input.Agree.effect rest rest' x.1 (hrest x hx)
    | _ => exact h.elim
  | .block l opcode args hopens body branches rest, s', st, h => by
    cases s' with
    | block l' opcode' args' hopens' body' branches' rest' =>
      obtain ⟨rfl, rfl, h⟩ := h
      rw [Input.effect, Input.effect]
      by_cases hop : opcode' ≠ .if_
      · rw [if_pos hop, if_pos hop]
      · rw [if_neg hop, if_neg hop]
        cases hvalue : parseIfInstruction st.2 noOrigin args' with
        | error e => rfl
        | ok blind =>
          obtain ⟨hbody, hnext⟩ := h blind hvalue
          refine andThen_congr
            (skipIf_congr (hbody.imp_right (Input.Agree.effect body body' st))) fun x hx => ?_
          obtain ⟨hbranches, hrest⟩ := hnext x hx
          refine andThen_congr (Branches.Agree.effect branches branches' _ _ _ x.1 hbranches)
            fun y hy => ?_
          exact Input.Agree.effect rest rest' y.1 (hrest y hy)
    | _ => exact h.elim

theorem Branches.Agree.effect : ∀ (c c' : Branches) (allowed matched last : Bool)
    (st : σ × VarsDict), c.Agree R erase c' allowed matched last st →
    (c.effect R erase allowed matched last st).toOption =
      (c'.effect R erase allowed matched last st).toOption
  | .endif l args, c', _, _, _, st, h => by
    cases c' with
    | endif l' args' =>
      obtain rfl := h
      rfl
    | _ => exact h.elim
  | .else_ l args body l' end_, c', _, matched, _, st, h => by
    cases c' with
    | else_ l₂ args₂ body₂ l₂' end₂ =>
      obtain ⟨rfl, rfl, hbody⟩ := h
      rw [Branches.effect, Branches.effect]
      refine andThen_congr rfl fun x hx => andThen_congr ?_ fun _ _ => rfl
      have hx' : x.1 = st := by
        rw [noArgs] at hx
        split at hx
        · cases hx
        · rw [← Except.ok.inj hx]
      rw [hx']
      exact skipIf_congr (hbody.imp_right (Input.Agree.effect body body₂ st))
    | _ => exact h.elim
  | .elseif l args body branches, c', true, true, _, st, h => by
    cases c' with
    | elseif l' args' body' branches' =>
      exact Branches.Agree.effect branches branches' false true false st h
    | _ => exact h.elim
  | .elseif l args body branches, c', true, false, _, st, h => by
    cases c' with
    | elseif l' args' body' branches' =>
      obtain ⟨rfl, h⟩ := h
      rw [Branches.effect, Branches.effect, if_neg (by decide), if_neg (by decide)]
      cases hvalue : parseIfInstruction st.2 noOrigin args' with
      | error e => rfl
      | ok blind =>
        obtain ⟨hbody, hnext⟩ := h blind hvalue
        refine andThen_congr
          (skipIf_congr (hbody.imp_right (Input.Agree.effect body body' st))) fun x hx => ?_
        exact Branches.Agree.effect branches branches' _ _ _ x.1 (hnext x hx)
    | _ => exact h.elim
  | .elseif l args body branches, c', false, matched, last, st, h => by
    cases c' with
    | elseif l' args' body' branches' =>
      rw [Branches.effect, Branches.effect]
      cases last with
      | true => rfl
      | false =>
        exact Branches.Agree.effect branches branches' false matched false st
          (h.resolve_left (by decide))
    | _ => exact h.elim

end

/-! ## Two inputs -/

/-- **When replacing unselected branches changes nothing**: the selected lines raise an error,
    or both inputs have unselected branches that can be passed over, or neither. -/
theorem Input.Agree.result_iff (hfree : OriginFree R erase) {s s' : Input} {st : σ × VarsDict}
    (h : s.Agree R erase s' st) :
    R.result erase st s.lines = R.result erase st s'.lines ↔
      (∀ r, s.effect R erase st ≠ .ok r) ∨
        (s.UnselectedOk R erase st ↔ s'.UnselectedOk R erase st) := by
  have heffect (r : (σ × VarsDict) × List υ) :
      s'.effect R erase st = .ok r ↔ s.effect R erase st = .ok r := by
    rw [← toOption_eq_some, ← toOption_eq_some, Input.Agree.effect s s' st h]
  rw [Option.ext_iff]
  simp only [Input.result_eq_some_iff hfree, heffect]
  constructor
  · intro hsame
    by_cases hok : ∃ r, s.effect R erase st = .ok r
    · obtain ⟨r, hr⟩ := hok
      refine .inr ⟨fun hs => ((hsame r).1 ⟨hr, hs⟩).2, fun hs' => ((hsame r).2 ⟨hr, hs'⟩).2⟩
    · exact .inl (not_exists.1 hok)
  · rintro (hnot | hok) r
    · exact iff_of_false (fun hr => hnot r hr.1) fun hr => hnot r hr.1
    · exact and_congr_right fun _ => hok

end

/-! ## The reader of the shell scripts -/

/-- What is yielded, but where it comes from. -/
def Yield.withoutOrigin : Yield → Yield
  | text vars _ line => text vars noOrigin line
  | expansion _ lines => expansion noOrigin lines

section
variable (macros : Macros)

theorem macroLines_origin (o o' : Origin) (results : List (Option CStr)) :
    (macroLines o results).toOption = (macroLines o' results).toOption := by
  induction results with
  | nil => rfl
  | cons result results ih =>
    cases result with
    | none => rfl
    | some line =>
      rw [macroLines, macroLines]
      rcases toOption_cases ih with ⟨lines, h, h'⟩ | ⟨e, e', h, h'⟩
      · rw [h, h']
      · rw [h, h']
        rfl

theorem parseBuiltin_origin (o o' : Origin) (i : Instruction) :
    (parseBuiltin macros o i).toOption = (parseBuiltin macros o' i).toOption := by
  rw [parseBuiltin, parseBuiltin]
  cases splitFirst (i.args.getD []) with
  | none => rfl
  | some words =>
    obtain ⟨name, argsStr⟩ := words
    dsimp only
    by_cases hname : name = "defsym".toList
    · rw [if_pos hname, if_pos hname]
      split
      · rfl
      · split <;> rfl
    · rw [if_neg hname, if_neg hname]
      cases macros name with
      | none => rfl
      | some macroFn =>
        dsimp only
        split
        · rfl
        · split
          · rfl
          · next results _ =>
            rcases toOption_cases (macroLines_origin o o' results) with
              ⟨lines, h, h'⟩ | ⟨e, e', h, h'⟩
            · rw [h, h']
            · rw [h, h']
              rfl

/-- **The same is yielded wherever a line stands.** -/
theorem shellReader_originFree (n : ℕ) :
    OriginFree (shellReader macros n) Yield.withoutOrigin := by
  cases n with
  | zero => exact ⟨fun _ _ _ _ => rfl, fun _ _ _ _ _ => rfl⟩
  | succ n =>
    refine ⟨fun _ _ _ _ => rfl, fun used vars o o' i => ?_⟩
    rw [shellReader]
    dsimp only
    rw [expandBuiltin, expandBuiltin]
    rcases toOption_cases (parseBuiltin_origin macros o o' i) with ⟨x, h, h'⟩ | ⟨e, e', h, h'⟩
    · rw [h, h']
      dsimp only [Except.map]
      split
      · rfl
      · split <;> rfl
    · rw [h, h']
      rfl

/-- **When replacing unselected branches changes nothing** in the shell scripts: neither the
    lines, nor the variables, nor whether an error is raised. -/
theorem shellReader_result_iff (n : ℕ) {text text' : List CStr} {s s' : Input}
    {st : List Symbol × VarsDict} (hs : parseLines text = s.lines)
    (hs' : parseLines text' = s'.lines)
    (h : s.Agree (shellReader macros n) Yield.withoutOrigin s' st) :
    (shellReader macros n).result Yield.withoutOrigin st (parseLines text) =
        (shellReader macros n).result Yield.withoutOrigin st (parseLines text') ↔
      (∀ r, s.effect (shellReader macros n) Yield.withoutOrigin st ≠ .ok r) ∨
        (s.UnselectedOk (shellReader macros n) Yield.withoutOrigin st ↔
          s'.UnselectedOk (shellReader macros n) Yield.withoutOrigin st) := by
  rw [hs, hs']
  exact h.result_iff (shellReader_originFree macros n)

end

/-! ## A branch and its replacement -/

/-- No variable is defined, and no macro. -/
def emptyState : List Symbol × VarsDict := ([], fun _ => none)

/-- A line without indent and remainder. -/
def plainLayout (lino : ℕ) (line : String) : Layout :=
  ⟨⟨lino, line.toList⟩, [], [], isSpace_of_mem_nil⟩

/-- An empty block. -/
def emptyBlock : Input :=
  .block (plainLayout 1 "<%if A=n%>") .if_ (some "A=n".toList) rfl .nil
    (.endif (plainLayout 2 "<%endif%>") none) .nil

/-- Another block in it. -/
def nestedBlock (line arg : String) : Input :=
  .block (plainLayout 1 "<%if A=n%>") .if_ (some "A=n".toList) rfl
    (.block (plainLayout 2 line) .if_ (some arg.toList) rfl
      (.plain (plainLayout 3 "<%undef C%>") .undef (some "C".toList) rfl .nil)
      (.endif (plainLayout 4 "<%endif%>") none) .nil)
    (.endif (plainLayout 5 "<%endif%>") none) .nil

theorem blind_of_emptyBlock {blind : Bool}
    (h : parseIfInstruction emptyState.2 noOrigin (some "A=n".toList) = .ok blind) :
    blind = true := by
  have hvalue : parseIfInstruction emptyState.2 noOrigin (some "A=n".toList) = .ok true := rfl
  rw [hvalue] at h
  exact (Except.ok.inj h).symm

theorem emptyBlock_agree (line arg : String) :
    emptyBlock.Agree (shellReader (fun _ => none) 1) Yield.withoutOrigin (nestedBlock line arg)
      emptyState := by
  refine ⟨rfl, rfl, fun blind hblind => ?_⟩
  rw [blind_of_emptyBlock hblind]
  exact ⟨.inl rfl, fun r _ => ⟨rfl, fun _ _ => trivial⟩⟩

/-- `C` is not defined, but that does not matter. -/
theorem shellReader_result_blind :
    (shellReader (fun _ => none) 1).result Yield.withoutOrigin emptyState
        (parseLines ["<%if A=n%>".toList, "<%endif%>".toList]) =
      (shellReader (fun _ => none) 1).result Yield.withoutOrigin emptyState
        (parseLines ["<%if A=n%>".toList, "<%if B=y%>".toList, "<%undef C%>".toList,
          "<%endif%>".toList, "<%endif%>".toList]) := by
  have hempty : parseLines ["<%if A=n%>".toList, "<%endif%>".toList] = emptyBlock.lines := rfl
  have hnested : parseLines ["<%if A=n%>".toList, "<%if B=y%>".toList, "<%undef C%>".toList,
      "<%endif%>".toList, "<%endif%>".toList] = (nestedBlock "<%if B=y%>" "B=y").lines := rfl
  refine (shellReader_result_iff (fun _ => none) 1 hempty hnested (emptyBlock_agree _ _)).2
    (.inr (iff_of_true ?_ ?_))
  · intro blind hblind
    rw [blind_of_emptyBlock hblind]
    exact ⟨trivial, fun r _ => ⟨trivial, fun _ _ => trivial⟩⟩
  · intro blind hblind
    rw [blind_of_emptyBlock hblind]
    have hbody : HasValue emptyState.2 (some "B=y".toList) := ⟨false, rfl⟩
    exact ⟨⟨rfl, hbody, trivial, rfl, trivial⟩, fun r _ => ⟨trivial, fun _ _ => trivial⟩⟩

/-- **A condition is evaluated in a branch that is not selected**: `B` is not defined. -/
theorem unselected_condition_raises :
    ∃ s s' : Input, parseLines ["<%if A=n%>".toList, "<%endif%>".toList] = s.lines ∧
      parseLines ["<%if A=n%>".toList, "<%if B%>".toList, "<%undef C%>".toList,
        "<%endif%>".toList, "<%endif%>".toList] = s'.lines ∧
      s.Agree (shellReader (fun _ => none) 1) Yield.withoutOrigin s' emptyState ∧
      (shellReader (fun _ => none) 1).result Yield.withoutOrigin emptyState s.lines ≠ none ∧
      (shellReader (fun _ => none) 1).result Yield.withoutOrigin emptyState s'.lines = none := by
  refine ⟨emptyBlock, nestedBlock "<%if B%>" "B", rfl, rfl, emptyBlock_agree _ _, ?_, rfl⟩
  rintro ⟨⟩

end Metash

end Fischstaebchen
