/-
  Loops without a bound.

  A loop is given by what an iteration does; it ends in a state if some amount
  of fuel suffices.

  * `whileLoop_mono`: more fuel does not change the result.
  * `ends_leave`, `ends_next`: the rules of the last and of another iteration.
  * `endless_of_invariant`: an invariant under which no iteration leaves the loop.
-/
import Fischstaebchen.Lib.CountLoop

namespace Lib

variable {σ ρ : Type*}

/-- The loop from the state `s` on; `none` if the fuel does not suffice. -/
def whileLoop (step : σ → Flow σ ρ) : ℕ → σ → Option ρ
  | 0, _ => none
  | fuel + 1, s =>
    match step s with
    | .next s => whileLoop step fuel s
    | .leave r => some r

/-- The loop ends with the result `r`. -/
def Ends (step : σ → Flow σ ρ) (s : σ) (r : ρ) : Prop := ∃ fuel, whileLoop step fuel s = some r

/-- The loop does not end. -/
def Endless (step : σ → Flow σ ρ) (s : σ) : Prop := ∀ fuel, whileLoop step fuel s = none

section
variable {step : σ → Flow σ ρ} {s s' : σ} {r r' : ρ} {fuel : ℕ}

theorem whileLoop_succ (step : σ → Flow σ ρ) (fuel : ℕ) (s : σ) :
    whileLoop step (fuel + 1) s =
      match step s with
      | .next s => whileLoop step fuel s
      | .leave r => some r := rfl

theorem whileLoop_next (h : step s = .next s') :
    whileLoop step (fuel + 1) s = whileLoop step fuel s' := by
  rw [whileLoop_succ, h]

theorem whileLoop_leave (h : step s = .leave r) : whileLoop step (fuel + 1) s = some r := by
  rw [whileLoop_succ, h]

/-- More fuel does not change the result. -/
theorem whileLoop_mono (h : whileLoop step fuel s = some r) {fuel' : ℕ} (hle : fuel ≤ fuel') :
    whileLoop step fuel' s = some r := by
  induction fuel generalizing s fuel' with
  | zero => cases h
  | succ fuel ih =>
    obtain ⟨fuel', rfl⟩ : ∃ n, fuel' = n + 1 := ⟨fuel' - 1, by omega⟩
    cases hstep : step s with
    | next s' =>
      rw [whileLoop_next hstep] at h ⊢
      exact ih h (by omega)
    | leave r' =>
      rw [whileLoop_leave hstep] at h ⊢
      exact h

theorem Ends.unique (h : Ends step s r) (h' : Ends step s r') : r = r' := by
  obtain ⟨fuel, h⟩ := h
  obtain ⟨fuel', h'⟩ := h'
  have hr := whileLoop_mono h (le_max_left fuel fuel')
  rw [whileLoop_mono h' (le_max_right fuel fuel')] at hr
  exact (Option.some.inj hr).symm

/-- **The last iteration.** -/
theorem ends_leave (h : step s = .leave r) : Ends step s r := ⟨1, whileLoop_leave h⟩

/-- **Another iteration.** -/
theorem ends_next (h : step s = .next s') (hs' : Ends step s' r) : Ends step s r := by
  obtain ⟨fuel, hfuel⟩ := hs'
  exact ⟨fuel + 1, (whileLoop_next h).trans hfuel⟩

theorem endless_next (h : step s = .next s') (hs' : Endless step s') : Endless step s
  | 0 => rfl
  | fuel + 1 => (whileLoop_next h).trans (hs' fuel)

/-- **An invariant** under which no iteration leaves the loop. -/
theorem endless_of_invariant {I : σ → Prop} (hI : ∀ s, I s → ∃ s', step s = .next s' ∧ I s')
    (hs : I s) : Endless step s := by
  intro fuel
  induction fuel generalizing s with
  | zero => rfl
  | succ fuel ih =>
    obtain ⟨s', hstep, hs'⟩ := hI s hs
    rw [whileLoop_next hstep]
    exact ih hs'

end

end Lib
