/-
  Decimal numbers that are read into words of fixed width.

  * `decimal d l`: the number that `l` stands for, if `d` gives the digits.
  * `decimal_concat`: one more digit.
  * `foldl_decimal_word`: a loop over words of `w` bits that multiplies by 10 and adds a
    digit gives this number modulo `2 ^ w`; `toNat_word_iff`: the number itself
    if and only if it is below `2 ^ w`.
  * `isDigit`, `digitOf`: the digits among the bytes.
  * `decimalText n`: the digits that `n` is printed as; `decimal_decimalText`: they
    stand for `n`.
-/
import Mathlib.Tactic

namespace Lib

variable {α : Type*}

/-- The number that some digits stand for, where `d` gives the value of each. -/
def decimal (d : α → ℕ) (l : List α) : ℕ := l.foldl (fun n a => 10 * n + d a) 0

section
variable (d : α → ℕ)

@[simp] theorem decimal_nil : decimal d [] = 0 := rfl

theorem decimal_concat (l : List α) (a : α) :
    decimal d (l ++ [a]) = 10 * decimal d l + d a := by
  rw [decimal, List.foldl_append]
  rfl

end

/-- **Reading a number into a word.** -/
theorem foldl_decimal_word {w : ℕ} {d : α → ℕ} {f : BitVec w → α → BitVec w} {l : List α}
    (hf : ∀ a ∈ l, ∀ n, f n a = 10#w * n + BitVec.ofNat w (d a)) :
    l.foldl f 0#w = BitVec.ofNat w (decimal d l) := by
  induction l using List.reverseRecOn with
  | nil => rfl
  | append_singleton l a ih =>
    rw [List.foldl_append, ih fun b hb => hf b (List.mem_append_left [a] hb), decimal_concat]
    show f _ a = _
    rw [hf a (by simp)]
    simp [BitVec.ofNat_add, BitVec.ofNat_mul]

theorem toNat_word_iff {w n : ℕ} : (BitVec.ofNat w n).toNat = n ↔ n < 2 ^ w := by
  rw [BitVec.toNat_ofNat]
  constructor
  · intro h
    rw [← h]
    exact Nat.mod_lt _ (Nat.two_pow_pos w)
  · intro h
    exact Nat.mod_eq_of_lt h

/-! ## Digits among the bytes -/

/-- `0` to `9`. -/
def isDigit (c : UInt8) : Bool := 0x30 ≤ c && c ≤ 0x39

/-- The value of a digit. -/
def digitOf (c : UInt8) : ℕ := c.toNat - 0x30

theorem isDigit_iff {c : UInt8} : isDigit c = true ↔ 0x30 ≤ c.toNat ∧ c.toNat ≤ 0x39 := by
  simp [isDigit, UInt8.le_iff_toNat_le]

/-- The value of a digit as the difference of two chars. -/
theorem ofNat_digitOf {w : ℕ} {c : UInt8} (h : isDigit c = true) :
    BitVec.ofNat w c.toNat - BitVec.ofNat w 0x30 = BitVec.ofNat w (digitOf c) := by
  have hle := (isDigit_iff.1 h).1
  have hc : c.toNat = digitOf c + 0x30 := by
    rw [digitOf]
    omega
  rw [hc, BitVec.ofNat_add, BitVec.add_sub_cancel]

/-! ## Printing a number -/

/-- The digits of a number. -/
def decimalText (n : ℕ) : List UInt8 := (Nat.toDigits 10 n).map fun c => UInt8.ofNat c.toNat

theorem ofNat_digitChar {n : ℕ} (h : n < 10) :
    isDigit (UInt8.ofNat n.digitChar.toNat) = true ∧
      digitOf (UInt8.ofNat n.digitChar.toNat) = n := by
  interval_cases n <;> exact ⟨rfl, rfl⟩

theorem decimalText_of_lt {n : ℕ} (h : n < 10) :
    decimalText n = [UInt8.ofNat n.digitChar.toNat] := by
  rw [decimalText, Nat.toDigits_of_lt_base h]
  rfl

theorem decimalText_of_le {n : ℕ} (h : 10 ≤ n) :
    decimalText n = decimalText (n / 10) ++ [UInt8.ofNat (n % 10).digitChar.toNat] := by
  rw [decimalText, Nat.toDigits_of_base_le (by simp) h, List.map_append]
  rfl

theorem isDigit_of_mem_decimalText {n : ℕ} : ∀ c ∈ decimalText n, isDigit c = true := by
  induction n using Nat.strong_induction_on with
  | _ n ih =>
    intro c hc
    rcases lt_or_ge n 10 with hlt | hle
    · rw [decimalText_of_lt hlt, List.mem_singleton] at hc
      rw [hc]
      exact (ofNat_digitChar hlt).1
    · rw [decimalText_of_le hle, List.mem_append, List.mem_singleton] at hc
      rcases hc with hc | rfl
      · exact ih _ (by omega) c hc
      · exact (ofNat_digitChar (Nat.mod_lt n (by simp))).1

/-- **What is printed** stands for the number. -/
theorem decimal_decimalText (n : ℕ) : decimal digitOf (decimalText n) = n := by
  induction n using Nat.strong_induction_on with
  | _ n ih =>
    rcases lt_or_ge n 10 with hlt | hle
    · rw [decimalText_of_lt hlt]
      show 10 * 0 + digitOf _ = n
      rw [(ofNat_digitChar hlt).2, Nat.mul_zero, Nat.zero_add]
    · rw [decimalText_of_le hle, decimal_concat, ih _ (by omega),
        (ofNat_digitChar (Nat.mod_lt n (by simp))).2]
      exact Nat.div_add_mod n 10

theorem decimalText_injective : Function.Injective decimalText :=
  Function.LeftInverse.injective decimal_decimalText

theorem decimalText_ne_nil (n : ℕ) : decimalText n ≠ [] := by
  simp [decimalText, Nat.toDigits_ne_nil]

end Lib
