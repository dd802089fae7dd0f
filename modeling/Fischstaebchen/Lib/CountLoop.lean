/-
  Loops that count with a variable of fixed width.

  The loop `for ( k = 0; k < limit; k++ )` compares a counter of `w` bits with a
  limit that may be wider.  An iteration may leave the loop.

  * `countLoop_eq_iterate`: if the limit fits into the counter, the loop is the
    iteration over the indices below it.
  * `countLoop_endless`: otherwise, and if no iteration leaves it, it has no end.
  * `iterate_set`: an iteration that sets the entries of an array one by one.
-/
import Mathlib.Tactic

namespace Lib

variable {σ ρ : Type*}

/-- What an iteration does: go on, or leave the loop with a result. -/
inductive Flow (σ ρ : Type*) where
  | next (s : σ)
  | leave (r : ρ)

/-- The iterations with the indices `k`, ..., `k + n - 1`. -/
def iterate (body : ℕ → σ → Flow σ ρ) : ℕ → ℕ → σ → Flow σ ρ
  | 0, _, s => .next s
  | n + 1, k, s =>
    match body k s with
    | .next s => iterate body n (k + 1) s
    | .leave r => .leave r

/-- The loop from the counter `k` on; `none` if the fuel does not suffice. -/
def countLoop {w : ℕ} (limit : ℕ) (body : ℕ → σ → Flow σ ρ) :
    ℕ → BitVec w → σ → Option (Flow σ ρ)
  | 0, _, _ => none
  | fuel + 1, k, s =>
    if k.toNat < limit then
      match body k.toNat s with
      | .next s => countLoop limit body fuel (k + 1) s
      | .leave r => some (.leave r)
    else some (.next s)

section
variable {w limit : ℕ} {body : ℕ → σ → Flow σ ρ}

/-- **A limit that fits into the counter** is reached. -/
theorem countLoop_eq_iterate (hfit : limit < 2 ^ w) : ∀ (n fuel : ℕ) (k : BitVec w) (s : σ),
    k.toNat + n = limit → n < fuel →
      countLoop limit body fuel k s = some (iterate body n k.toNat s)
  | _, 0, _, _, _, hfuel => absurd hfuel (by omega)
  | 0, fuel + 1, k, s, hk, _ => by
    rw [countLoop, if_neg (by omega), iterate]
  | n + 1, fuel + 1, k, s, hk, hfuel => by
    have hnext : (k + 1).toNat = k.toNat + 1 := by
      have hone : (1 : BitVec w).toNat = 1 := by
        show (BitVec.ofNat w 1).toNat = 1
        rw [BitVec.toNat_ofNat]
        exact Nat.mod_eq_of_lt (by omega)
      rw [BitVec.toNat_add, hone]
      exact Nat.mod_eq_of_lt (by omega)
    rw [countLoop, if_pos (by omega), iterate]
    cases body k.toNat s with
    | next s => rw [← hnext]; exact countLoop_eq_iterate hfit n fuel (k + 1) s (by omega) (by omega)
    | leave r => rfl

/-- **A limit that does not fit** is never reached. -/
theorem countLoop_endless (hfit : 2 ^ w ≤ limit) (hbody : ∀ k s, ∃ s', body k s = .next s') :
    ∀ (fuel : ℕ) (k : BitVec w) (s : σ), countLoop limit body fuel k s = none
  | 0, _, _ => rfl
  | fuel + 1, k, s => by
    obtain ⟨s', hs'⟩ := hbody k.toNat s
    rw [countLoop, if_pos (k.isLt.trans_le hfit), hs']
    exact countLoop_endless hfit hbody fuel (k + 1) s'

end

/-- An iteration that sets the entries of an array one by one. -/
theorem iterate_set {α : Type*} (a : α) : ∀ (before after : List α),
    iterate (ρ := ρ) (fun k l => .next (l.set k a)) after.length before.length (before ++ after) =
      .next (before ++ List.replicate after.length a)
  | before, [] => rfl
  | before, b :: after => by
    have hset : (before ++ b :: after).set before.length a = (before ++ [a]) ++ after := by
      simp
    have hlen : before.length + 1 = (before ++ [a]).length := by simp
    rw [List.length_cons, iterate]
    dsimp only
    rw [hset, hlen, iterate_set a (before ++ [a]) after]
    simp [List.replicate_succ]

end Lib
