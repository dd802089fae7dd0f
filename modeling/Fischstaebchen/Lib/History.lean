/-
  Histories of runs.

  A run performs operations one after the other; its history is the list of its
  steps, each with the states before and after it and its result.

  * `steps_inv`: an invariant of histories and states holds before and after
    every step.
  * `runOps_inv`: it holds after the run.
-/
import Mathlib.Tactic

namespace Lib

variable {α ρ σ : Type*}

/-- A step of a run. -/
structure Step (α ρ σ : Type*) where
  op : α
  before : σ
  ret : ρ
  after : σ

section
variable (f : α → σ → ρ × σ)

/-- The step that performs `a` in the state `s`. -/
def stepOf (a : α) (s : σ) : Step α ρ σ := ⟨a, s, (f a s).1, (f a s).2⟩

/-- The history of a run. -/
def steps : List α → σ → List (Step α ρ σ)
  | [], _ => []
  | a :: as, s => stepOf f a s :: steps as (f a s).2

/-- The state after a run. -/
def runOps (as : List α) (s : σ) : σ := as.foldl (fun s a => (f a s).2) s

variable {f}

/-- **An invariant of histories and states** holds before and after every step. -/
theorem steps_inv {I : List (Step α ρ σ) → σ → Prop}
    (hstep : ∀ hist a s, I hist s → I (hist ++ [stepOf f a s]) (f a s).2) :
    ∀ (as : List α) (hist : List (Step α ρ σ)) (s : σ), I hist s →
      ∀ pre step post, steps f as s = pre ++ step :: post →
        ∃ a s', step = stepOf f a s' ∧ I (hist ++ pre) s' ∧ I (hist ++ pre ++ [step]) step.after
  | [], _, _, _, pre, step, post, h => by
    rw [steps] at h
    exact absurd h.symm (by simp)
  | a :: as, hist, s, hinv, pre, step, post, h => by
    rw [steps] at h
    cases pre with
    | nil =>
      obtain ⟨rfl, -⟩ := List.cons.inj h
      exact ⟨a, s, rfl, by rwa [List.append_nil], by rw [List.append_nil]; exact hstep hist a s hinv⟩
    | cons first pre =>
      obtain ⟨rfl, hrest⟩ := List.cons.inj h
      have ih := steps_inv hstep as (hist ++ [stepOf f a s]) (f a s).2 (hstep hist a s hinv)
        pre step post hrest
      simpa only [List.append_assoc, List.cons_append, List.nil_append] using ih

/-- The same for the state after the whole run. -/
theorem runOps_inv {I : σ → Prop} (hstep : ∀ a s, I s → I (f a s).2) :
    ∀ (as : List α) (s : σ), I s → I (runOps f as s)
  | [], _, h => h
  | a :: as, s, h => runOps_inv hstep as (f a s).2 (hstep a s h)

end

end Lib
