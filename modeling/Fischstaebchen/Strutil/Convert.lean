/-
  Reading numbers (`common/strutil/convert.c`, `strtol`).

  * `strtol`: skips white space, reads a sign, a base prefix and digits, and
    clamps to the range of `long`.
  * `strtol_eq`: the number before it is clamped.
  * `strToLong_range`: what `str_to_long` stores fits into a `long`.
-/
import Fischstaebchen.Strutil.Compare

namespace Fischstaebchen

/-- `isspace` in the C locale. -/
def isspace (c : Char) : Bool := " \t\n\x0b\x0c\r".toList.contains c

/-- The value of a digit in bases up to 36. -/
def digitValue (c : Char) : Option ℕ :=
  if '0' ≤ c ∧ c ≤ '9' then some (c.toNat - '0'.toNat)
  else if 'a' ≤ c ∧ c ≤ 'z' then some (c.toNat - 'a'.toNat + 10)
  else if 'A' ≤ c ∧ c ≤ 'Z' then some (c.toNat - 'A'.toNat + 10)
  else none

/-- A digit in base `base`. -/
def isDigitIn (base : ℕ) (c : Char) : Bool := (digitValue c).any (· < base)

/-- `LONG_MAX`. -/
def longMax : ℤ := 2 ^ 63 - 1

/-- `LONG_MIN`. -/
def longMin : ℤ := -2 ^ 63

/-- The sign that `strtol` reads: whether it is a minus, and the rest. -/
def strtolSign : CStr → Bool × CStr
  | '-' :: s => (true, s)
  | '+' :: s => (false, s)
  | s => (false, s)

/-- The base that `strtol` detects, and the digits on. -/
def strtolBase (base : ℕ) : CStr → ℕ × CStr
  | '0' :: x :: c :: s =>
    if (base = 0 ∨ base = 16) ∧ (x = 'x' ∨ x = 'X') ∧ isDigitIn 16 c then (16, c :: s)
    else (if base = 0 then 8 else base, '0' :: x :: c :: s)
  | '0' :: s => (if base = 0 then 8 else base, '0' :: s)
  | s => (if base = 0 then 10 else base, s)

/-- `strtol(str, &endptr, base)`: the number and the string at `endptr`. -/
def strtol (str : CStr) (base : ℕ) : ℤ × CStr :=
  let sign := strtolSign (str.dropWhile isspace)
  let (base, s) := strtolBase base sign.2
  let digits := s.takeWhile (isDigitIn base)
  if digits = [] then (0, str)
  else
    let n : ℕ := digits.foldl (fun n c => n * base + (digitValue c).getD 0) 0
    let value : ℤ := if sign.1 then -n else n
    (max longMin (min longMax value), s.drop digits.length)

/-- The number that `strtol` reads before it is clamped, and the rest; `none` if
    there are no digits. -/
def strtolNumber (str : CStr) (base : ℕ) : Option (ℤ × CStr) :=
  let sign := strtolSign (str.dropWhile isspace)
  let (base, s) := strtolBase base sign.2
  let digits := s.takeWhile (isDigitIn base)
  if digits = [] then none
  else
    let n : ℕ := digits.foldl (fun n c => n * base + (digitValue c).getD 0) 0
    some (if sign.1 then -n else n, s.drop digits.length)

/-- `strtol` clamps the number. -/
theorem strtol_eq (str : CStr) (base : ℕ) :
    strtol str base = match strtolNumber str base with
      | none => (0, str)
      | some (value, rest) => (max longMin (min longMax value), rest) := by
  unfold strtol strtolNumber
  dsimp only
  split_ifs <;> rfl

theorem strtolSign_suffix (s : CStr) : (strtolSign s).2 <:+ s := by
  unfold strtolSign
  split
  · exact List.suffix_cons _ _
  · exact List.suffix_cons _ _
  · exact List.suffix_rfl

theorem strtolBase_suffix (base : ℕ) (s : CStr) : (strtolBase base s).2 <:+ s := by
  unfold strtolBase
  split
  · split
    · exact (List.suffix_cons _ _).trans (List.suffix_cons _ _)
    · exact List.suffix_rfl
  · exact List.suffix_rfl
  · exact List.suffix_rfl

/-- Reading a number takes at least one char. -/
theorem strtolNumber_rest {str rest : CStr} {base : ℕ} {value : ℤ}
    (h : strtolNumber str base = some (value, rest)) : rest.length < str.length := by
  unfold strtolNumber at h
  dsimp only at h
  have hsuffix : (strtolBase base (strtolSign (str.dropWhile isspace)).2).2 <:+ str :=
    (strtolBase_suffix _ _).trans ((strtolSign_suffix _).trans (List.dropWhile_suffix _))
  generalize strtolBase base (strtolSign (str.dropWhile isspace)).2 = r at h hsuffix
  by_cases hdigits : r.2.takeWhile (isDigitIn r.1) = []
  · rw [if_pos hdigits] at h
    cases h
  rw [if_neg hdigits] at h
  obtain ⟨-, rfl⟩ := Prod.mk.inj (Option.some.inj h)
  have hpos := List.length_pos_of_ne_nil hdigits
  have hle := (List.takeWhile_sublist (isDigitIn r.1) (l := r.2)).length_le
  have hstr := hsuffix.length_le
  rw [List.length_drop]
  omega

/-- `str_to_long_base`: the return code and the number stored. -/
def strToLongBase (base : ℕ) (str : Option CStr) : ℤ × ℤ :=
  match str with
  | none | some [] => (-1, 0)
  | some str =>
    let r := strtol str base
    (if r.2 ≠ [] then 1 else 0, r.1)

/-- `str_to_long`. -/
def strToLong (str : Option CStr) : ℤ × ℤ := strToLongBase 0 str

theorem strtol_range (str : CStr) (base : ℕ) :
    longMin ≤ (strtol str base).1 ∧ (strtol str base).1 ≤ longMax := by
  have hle : longMin ≤ longMax := by decide
  simp only [strtol]
  split_ifs
  · exact ⟨show longMin ≤ 0 by decide, show 0 ≤ longMax by decide⟩
  all_goals exact ⟨le_max_left _ _, max_le hle (min_le_left _ _)⟩

/-- The stored number fits into a `long`. -/
theorem strToLong_range (str : Option CStr) :
    longMin ≤ (strToLong str).2 ∧ (strToLong str).2 ≤ longMax := by
  unfold strToLong strToLongBase
  split
  · decide
  · decide
  · exact strtol_range _ _

example : strToLong (some "0x1F".toList) = (0, 31) := by decide
example : strToLong (some " -010k".toList) = (1, -8) := by decide

end Fischstaebchen
