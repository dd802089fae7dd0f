/-
  Flag words.

  A flag is a word with a single bit set (`IsBit`).  The lemmas say how setting
  and clearing flags acts on the part `f &&& m` of a flag word `f` that a mask
  `m` selects.
-/
import Mathlib.Tactic

namespace Lib

variable {w : ℕ}

/-- A flag: a word with exactly one bit set. -/
def IsBit (b : BitVec w) : Prop := ∃ i < w, b = BitVec.twoPow w i

instance (b : BitVec w) : Decidable (IsBit b) := inferInstanceAs (Decidable (∃ i < w, _))

/-- A set flag is selected as a whole. -/
theorem IsBit.and_eq {b : BitVec w} (hb : IsBit b) {f : BitVec w} (h : f &&& b ≠ 0#w) :
    f &&& b = b := by
  obtain ⟨i, -, rfl⟩ := hb
  rw [BitVec.and_twoPow] at h ⊢
  split_ifs at h ⊢ with hi
  · rfl
  · exact absurd rfl h

/-- Setting a flag of `f` adds it to the selected part. -/
theorem or_bit {f b : BitVec w} (hb : IsBit b) (h : f &&& b ≠ 0#w) (m : BitVec w) :
    f &&& m ||| b = f &&& (m ||| b) := by
  rw [BitVec.and_or_distrib_left, hb.and_eq h]

/-- A flag that `f` lacks adds nothing to the mask. -/
theorem and_or_of_lacks {f b : BitVec w} (h : f &&& b = 0#w) (m : BitVec w) :
    f &&& (m ||| b) = f &&& m := by
  rw [BitVec.and_or_distrib_left, h, BitVec.or_zero]

/-- A word without flags outside `m` is selected as a whole. -/
theorem and_of_subset {f m : BitVec w} (h : f &&& ~~~m = 0#w) : f &&& m = f := by
  have hm : f &&& m ||| f &&& ~~~m = f := by
    rw [← BitVec.and_or_distrib_left]; simp
  rwa [h, BitVec.or_zero] at hm

/-- It lacks the flags that `m` lacks. -/
theorem lacks_of_subset {f m b : BitVec w} (h : f &&& ~~~m = 0#w) (hb : m &&& b = 0#w) :
    f &&& b = 0#w := by
  rw [← and_of_subset h, BitVec.and_assoc, hb, BitVec.and_zero]

/-- Clearing a flag changes nothing exactly if it is not set. -/
theorem and_not_eq_self {f b : BitVec w} : f &&& ~~~b = f ↔ f &&& b = 0#w := by
  constructor
  · intro h
    rw [← h, BitVec.and_assoc]
    simp
  · intro h
    exact and_of_subset (by simpa using h)

/-- Whether a flag is set, after setting or clearing flags. -/
theorem or_self_and (x b : BitVec w) : (x ||| b) &&& b = b := by
  ext i; simp; intro h; exact Or.inr h

theorem clear_and (x b : BitVec w) : (x &&& ~~~b) &&& b = 0#w := by
  ext i; simp

theorem or_and_of_disjoint {b c : BitVec w} (h : c &&& b = 0#w) (x : BitVec w) :
    (x ||| c) &&& b = x &&& b := by
  rw [BitVec.and_or_distrib_right, h, BitVec.or_zero]

end Lib
