/-
  tmpfs size specs (`common/fs/mount_opts.c`).

  A size spec is a number with an optional suffix; `parse_tmpfs_size_spec` turns
  it into a size in MiB, with unsigned 64-bit arithmetic on the clamped number
  that `strtol` returns.

  * `readSizeSpec`: what a size spec says, an unbounded number and a unit;
    `SizeSpec.mib` is its value in MiB.
  * `parseTmpfsSizeSpec_accepts`: which size specs are accepted.
  * `scaleSize_floor`: the size is the floor of the value if nothing wraps.
  * `SizeSpec.Exact.fits`: if it is, and fits into a byte count, nothing wraps.
-/
import Fischstaebchen.Strutil.Convert

namespace Fischstaebchen

/-! ## Parsing -/

/-- `_parse_size_spec`, with the additional size suffixes: the return code and
    the size. -/
def parseSizeSpec (sizeVal : ℤ) (suffix : CStr) (systemMemoryM : UInt64) : ℤ × UInt64 :=
  let sizeVal := UInt64.ofInt sizeVal
  match suffix with
  -- value in bytes
  | [] => (0, sizeVal / (1024 * 1024))
  -- don't know any suffix longer than one char
  | _ :: _ :: _ => (-1, 0)
  | [c] =>
    match c with
    | 'k' | 'K' => (0, sizeVal / 1024)
    | 'm' | 'M' => (0, sizeVal)
    | 'g' | 'G' => (0, sizeVal * 1024)
    | '%' => if systemMemoryM = 0 then (-1, 0) else (0, sizeVal * systemMemoryM / 100)
    | _ => (-1, 0)

/-- `parse_tmpfs_size_spec`: the return code and the size in MiB. -/
def parseTmpfsSizeSpec (sizeStr : Option CStr) (systemMemoryM : UInt64) : ℤ × UInt64 :=
  match sizeStr with
  | none | some [] => (-1, 0)
  | some str =>
    let r := strtol str 0
    if r.2 = str then (-1, 0) else parseSizeSpec r.1 r.2 systemMemoryM

/-- `create_tmpfs_size_opt`; the buffer is large enough for every size. -/
def createTmpfsSizeOpt (sizeM : UInt64) : Option CStr :=
  some ("size=".toList ++ (toString sizeM.toNat).toList ++ "m".toList)

/-! ## The meaning of a size spec -/

/-- The unit of a size spec. -/
inductive SizeUnit
  | bytes
  | kib
  | mib
  | gib
  | percent
  deriving DecidableEq

/-- The unit that a suffix stands for. -/
def SizeUnit.ofSuffix : CStr → Option SizeUnit
  | [] => some .bytes
  | ['k'] | ['K'] => some .kib
  | ['m'] | ['M'] => some .mib
  | ['g'] | ['G'] => some .gib
  | ['%'] => some .percent
  | _ => none

/-- A size spec: a number, however large, and a unit. -/
structure SizeSpec where
  value : ℤ
  unit : SizeUnit
  deriving DecidableEq

/-- What a size spec says. -/
def readSizeSpec (str : CStr) : Option SizeSpec :=
  (strtolNumber str 0).bind fun (value, rest) =>
    (SizeUnit.ofSuffix rest).map fun unit => { value, unit }

/-- The value of a size spec in MiB, for a memory size in MiB. -/
def SizeSpec.mib (spec : SizeSpec) (memM : ℕ) : ℚ :=
  match spec.unit with
  | .bytes => spec.value / 2 ^ 20
  | .kib => spec.value / 2 ^ 10
  | .mib => spec.value
  | .gib => spec.value * 2 ^ 10
  | .percent => spec.value * memM / 100

/-- What the number is multiplied with. -/
def SizeUnit.factor (memM : ℕ) : SizeUnit → ℕ
  | .bytes | .kib | .mib => 1
  | .gib => 1024
  | .percent => memM

/-- What the product is divided by. -/
def SizeUnit.divisor : SizeUnit → ℕ
  | .bytes => 1024 * 1024
  | .kib => 1024
  | .mib | .gib => 1
  | .percent => 100

/-- The value is a product over a divisor. -/
theorem SizeSpec.floor_mib (spec : SizeSpec) (memM : ℕ) :
    ⌊spec.mib memM⌋ = spec.value * spec.unit.factor memM / spec.unit.divisor := by
  rw [← Rat.floor_intCast_div_natCast]
  unfold SizeSpec.mib
  cases spec.unit <;> simp [SizeUnit.factor, SizeUnit.divisor] <;> norm_num

/-! ## What the code computes -/

/-- The size that is computed for a number with a unit, wrapping. -/
def scaleSize (sizeVal : ℤ) (unit : SizeUnit) (memM : UInt64) : UInt64 :=
  UInt64.ofInt sizeVal * UInt64.ofNat (unit.factor memM.toNat) / UInt64.ofNat unit.divisor

theorem parseSizeSpec_eq (sizeVal : ℤ) (suffix : CStr) (memM : UInt64) :
    parseSizeSpec sizeVal suffix memM =
      match SizeUnit.ofSuffix suffix with
      | none => (-1, 0)
      | some unit =>
        if unit = .percent ∧ memM = 0 then (-1, 0) else (0, scaleSize sizeVal unit memM) := by
  unfold parseSizeSpec SizeUnit.ofSuffix
  split
  · simp [scaleSize, SizeUnit.factor, SizeUnit.divisor]
  · split <;> simp_all
  · dsimp only
    split <;> simp_all [scaleSize, SizeUnit.factor, SizeUnit.divisor]

/-- **What is accepted**: a number with a known suffix, but no percentage of an
    unknown memory size; the number is clamped. -/
theorem parseTmpfsSizeSpec_accepts {str : CStr} {memM : UInt64}
    (h : (parseTmpfsSizeSpec (some str) memM).1 = 0) :
    ∃ spec, readSizeSpec str = some spec ∧ (spec.unit = .percent → memM ≠ 0) ∧
      (parseTmpfsSizeSpec (some str) memM).2 =
        scaleSize (max longMin (min longMax spec.value)) spec.unit memM := by
  have hfail : (-1 : ℤ) ≠ 0 := by simp
  have hne : str ≠ [] := by rintro rfl; exact hfail h
  have hparse : parseTmpfsSizeSpec (some str) memM =
      if (strtol str 0).2 = str then (-1, 0)
      else parseSizeSpec (strtol str 0).1 (strtol str 0).2 memM := by
    cases str with
    | nil => exact absurd rfl hne
    | cons c s => rfl
  rw [hparse, strtol_eq] at h ⊢
  unfold readSizeSpec
  cases hnum : strtolNumber str 0 with
  | none => rw [hnum, if_pos rfl] at h; exact absurd h hfail
  | some r =>
    obtain ⟨value, rest⟩ := r
    have hrest : rest ≠ str := by
      rintro rfl
      exact lt_irrefl _ (strtolNumber_rest hnum)
    rw [hnum] at h
    simp only [if_neg hrest, parseSizeSpec_eq] at h ⊢
    cases hunit : SizeUnit.ofSuffix rest with
    | none => rw [hunit] at h; exact absurd h hfail
    | some unit =>
      rw [hunit] at h
      dsimp only at h
      by_cases hmem : unit = .percent ∧ memM = 0
      · rw [if_pos hmem] at h
        exact absurd h hfail
      · exact ⟨⟨value, unit⟩, by simp [hunit], fun hpercent hzero => hmem ⟨hpercent, hzero⟩,
          by simp only [if_neg hmem]⟩

theorem scaleSize_toNat (sizeVal : ℤ) (unit : SizeUnit) (memM : UInt64) :
    (scaleSize sizeVal unit memM).toNat =
      (sizeVal % 2 ^ 64).toNat * unit.factor memM.toNat % 2 ^ 64 / unit.divisor := by
  have hval : (sizeVal % 2 ^ 64).toNat < 2 ^ 64 := by omega
  have hmem := memM.toNat_lt
  have hfactor : unit.factor memM.toNat < 2 ^ 64 := by
    cases unit
    case percent => exact hmem
    all_goals simp [SizeUnit.factor]
  have hdivisor : unit.divisor < 2 ^ 64 := by cases unit <;> decide
  rw [scaleSize, UInt64.toNat_div, UInt64.toNat_mul, UInt64.ofInt,
    UInt64.toNat_ofNat_of_lt' hval, UInt64.toNat_ofNat_of_lt' hfactor,
    UInt64.toNat_ofNat_of_lt' hdivisor]

/-! ## When the size is exact -/

/-- The number fits into a `long` and is not negative, and the value fits into a
    64-bit byte count. -/
structure SizeSpec.Fits (spec : SizeSpec) (memM : ℕ) : Prop where
  nonneg : 0 ≤ spec.value
  le_longMax : spec.value ≤ longMax
  mib_lt : ⌊spec.mib memM⌋ < 2 ^ 44

theorem clamp_eq {v : ℤ} (hnonneg : 0 ≤ v) (hle : v ≤ longMax) :
    max longMin (min longMax v) = v := by
  have hmin : longMin ≤ 0 := by decide
  rw [min_eq_right hle, max_eq_right (hmin.trans hnonneg)]

/-- The product is below the value times the divisor. -/
theorem SizeSpec.Fits.product_lt {spec : SizeSpec} {memM : ℕ} (h : spec.Fits memM) :
    spec.value * spec.unit.factor memM < 2 ^ 64 := by
  have hlt := h.mib_lt
  rw [SizeSpec.floor_mib] at hlt
  obtain ⟨value, unit⟩ := spec
  have hle := h.le_longMax
  have hmax : longMax < 2 ^ 63 := by decide
  cases unit <;> simp only [SizeUnit.factor, SizeUnit.divisor] at hlt ⊢ <;> push_cast at hlt ⊢ <;>
    omega

/-- **If the value fits, the size is its floor.** -/
theorem scaleSize_floor {spec : SizeSpec} {memM : UInt64} (h : spec.Fits memM.toNat) :
    ((scaleSize (max longMin (min longMax spec.value)) spec.unit memM).toNat : ℤ) =
      ⌊spec.mib memM.toNat⌋ := by
  have hproduct := h.product_lt
  have hmax : longMax < 2 ^ 63 := by decide
  have hle := h.le_longMax
  obtain ⟨n, hn⟩ := Int.eq_ofNat_of_zero_le h.nonneg
  rw [clamp_eq h.nonneg h.le_longMax, scaleSize_toNat, SizeSpec.floor_mib, hn]
  rw [hn] at hproduct hle
  have hmod : ((n : ℤ) % 2 ^ 64).toNat = n := by omega
  have hlt : n * spec.unit.factor memM.toNat < 2 ^ 64 := by exact_mod_cast hproduct
  rw [hmod, Nat.mod_eq_of_lt hlt]
  push_cast
  rfl

/-- **If the size is the floor of the value** and fits into a byte count, the
    value fits. -/
theorem SizeSpec.fits_of_floor {spec : SizeSpec} {memM : UInt64} (hnonneg : 0 ≤ spec.value)
    (hpercent : spec.unit = .percent → memM ≠ 0)
    (hfloor : ((scaleSize (max longMin (min longMax spec.value)) spec.unit memM).toNat : ℤ) =
      ⌊spec.mib memM.toNat⌋)
    (hbytes : (scaleSize (max longMin (min longMax spec.value)) spec.unit memM).toNat * 2 ^ 20 <
      2 ^ 64) :
    spec.Fits memM.toNat := by
  have hlt : ⌊spec.mib memM.toNat⌋ < 2 ^ 44 := by omega
  refine ⟨hnonneg, ?_, hlt⟩
  by_contra hgt
  push Not at hgt
  have hmax : longMax = 2 ^ 63 - 1 := rfl
  rw [SizeSpec.floor_mib] at hfloor hlt
  obtain ⟨value, unit⟩ := spec
  dsimp only at hnonneg hfloor hlt hgt
  cases unit with
  | bytes =>
    -- the number is clamped to the largest `long`, whose size is too small
    have hclamp : max longMin (min longMax value) = longMax := by
      rw [min_eq_left hgt.le]
      decide
    rw [scaleSize_toNat, hclamp] at hfloor
    simp only [SizeUnit.factor, SizeUnit.divisor] at hfloor
    push_cast at hfloor
    have hsize : ((longMax % 2 ^ 64).toNat * 1 % 2 ^ 64 / (1024 * 1024) : ℕ) = 8796093022207 := by
      decide
    omega
  | kib | mib | gib =>
    simp only [SizeUnit.factor, SizeUnit.divisor] at hlt
    push_cast at hlt
    omega
  | percent =>
    have hmem : 1 ≤ (memM.toNat : ℤ) := by
      have hne := hpercent rfl
      have hpos : memM.toNat ≠ 0 := fun h0 => hne (UInt64.toNat_inj.1 h0)
      omega
    have hprod : value ≤ value * memM.toNat := le_mul_of_one_le_right hnonneg hmem
    simp only [SizeUnit.factor, SizeUnit.divisor] at hlt
    push_cast at hlt
    omega

end Fischstaebchen
