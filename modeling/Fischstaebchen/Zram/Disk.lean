/-
  The size of a zram disk (`zram/disk.c`, `zram/data_types.c`).

  A size spec becomes a size in MiB and then, when the device is claimed, a
  number of bytes.

  * `getZramDevSizeB_eq`: the number of bytes does not need rounding for the page
    sizes that divide a MiB.
  * `sizePipeline_iff`: the size in MiB is the exact floor, and the number of
    bytes is exact, if and only if the size spec fits (`SizeSpec.Fits`).
-/
import Fischstaebchen.Fs.SizeSpec
import Fischstaebchen.Zram.Device

namespace Fischstaebchen

/-! ## Disk configs -/

/-- `struct zram_disk_config`. -/
structure ZramDiskConfig where
  name : Option CStr
  sizeM : UInt64
  maxCompStreams : ℕ
  compAlgorithm : ZramComp
  deriving DecidableEq

/-- `zram_disk_config_init`. -/
def zramDiskConfigInit (name : Option CStr) : ZramDiskConfig :=
  { name, sizeM := 0, maxCompStreams := 0, compAlgorithm := zramCompDefault }

/-- `zram_disk_config_set_size_from_str`. -/
def zramDiskConfigSetSizeFromStr (zdisk : ZramDiskConfig) (sizeSpec : CStr)
    (sysMemsizeM : UInt64) : ℤ × ZramDiskConfig :=
  let r := parseTmpfsSizeSpec (some sizeSpec) sysMemsizeM
  if r.1 = 0 then (0, { zdisk with sizeM := r.2 }) else (-1, zdisk)

/-- `zram_disk_config_set_size` without a usable size spec. -/
def zramDiskConfigSetFallbackSize (zdisk : ZramDiskConfig) (fallbackSize sysMemsizeM : UInt64) :
    ℤ × ZramDiskConfig :=
  if fallbackSize > 0 then (1, { zdisk with sizeM := fallbackSize })
  else if sysMemsizeM > 1 then (2, { zdisk with sizeM := sysMemsizeM / 2 })
  else (-1, zdisk)

/-- `zram_disk_config_set_size`. -/
def zramDiskConfigSetSize (zdisk : ZramDiskConfig) (sizeSpec : Option CStr)
    (fallbackSize sysMemsizeM : UInt64) : ℤ × ZramDiskConfig :=
  let zdisk := { zdisk with sizeM := 0 }
  match sizeSpec with
  | none => zramDiskConfigSetFallbackSize zdisk fallbackSize sysMemsizeM
  | some sizeSpec =>
    let r := zramDiskConfigSetSizeFromStr zdisk sizeSpec sysMemsizeM
    -- a size spec that cannot be parsed is reported and ignored
    if r.1 = 0 then (0, r.2) else zramDiskConfigSetFallbackSize r.2 fallbackSize sysMemsizeM

/-- `zram_disk_config_create_size_opt`. -/
def zramDiskConfigCreateSizeOpt (zdisk : ZramDiskConfig) : Option CStr :=
  if zdisk.sizeM < 1 then none else createTmpfsSizeOpt zdisk.sizeM

/-- An accepted size spec sets the size. -/
theorem zramDiskConfigSetSize_accepts {str : CStr} {memM : UInt64}
    (h : (parseTmpfsSizeSpec (some str) memM).1 = 0) (zdisk : ZramDiskConfig)
    (fallbackSize : UInt64) :
    zramDiskConfigSetSize zdisk (some str) fallbackSize memM =
      (0, { zdisk with sizeM := (parseTmpfsSizeSpec (some str) memM).2 }) := by
  simp only [zramDiskConfigSetSize, zramDiskConfigSetSizeFromStr, h, if_true]

/-! ## Sizes in bytes -/

/-- `n` rounded up to a multiple of `m`. -/
def roundUp (n m : ℕ) : ℕ := (n + m - 1) / m * m

theorem roundUp_of_dvd {n m : ℕ} (hm : 0 < m) (h : m ∣ n) : roundUp n m = n := by
  obtain ⟨k, rfl⟩ := h
  have hdiv : (m * k + m - 1) / m = k := by
    rw [Nat.add_sub_assoc hm, Nat.mul_add_div hm, Nat.div_eq_of_lt (by omega), Nat.add_zero]
  rw [roundUp, hdiv, Nat.mul_comm]

/-- **The number of bytes**, wrapping, for a page size that divides a MiB. -/
theorem getZramDevSizeB_eq {globals : ZramGlobals} {dev : ZramDevInfo}
    (hpage : globals.systemPageSize.toNat ∣ 2 ^ 20) :
    (getZramDevSizeB globals dev).toNat = dev.sizeM.toNat * 2 ^ 20 % 2 ^ 64 := by
  have hmul : (1048576 * dev.sizeM).toNat = dev.sizeM.toNat * 2 ^ 20 % 2 ^ 64 := by
    rw [UInt64.toNat_mul, Nat.mul_comm]
    rfl
  have hrem : 1048576 * dev.sizeM % globals.systemPageSize = 0 := by
    refine UInt64.toNat_inj.1 ?_
    rw [UInt64.toNat_mod, hmul]
    -- the page size divides the wrapped number, too
    refine Nat.mod_eq_zero_of_dvd ((Nat.dvd_mod_iff (hpage.trans ?_)).2 (hpage.mul_left _))
    exact pow_dvd_pow 2 (by simp)
  unfold getZramDevSizeB
  dsimp only
  rw [hrem, if_neg (not_not.2 rfl), ite_self, hmul]

/-! ## From the size spec to the number of bytes -/

/-- The size `sizeM` in MiB and `sizeB` in bytes are what the size spec says,
    and computing them wraps nowhere. -/
structure SizeSpec.Exact (spec : SizeSpec) (memM pageSize : ℕ) (sizeM sizeB : UInt64) : Prop where
  nonneg : 0 ≤ spec.value
  floor : (sizeM.toNat : ℤ) = ⌊spec.mib memM⌋
  product : spec.value * spec.unit.factor memM < 2 ^ 64
  bytes_lt : sizeM.toNat * 2 ^ 20 < 2 ^ 64
  bytes : sizeB.toNat = roundUp (sizeM.toNat * 2 ^ 20) pageSize

/-- The sizes that an accepted size spec leads to: the one that the disk config
    gets, and the one that the device is claimed with. -/
def pipelineSizes (globals : ZramGlobals) (zdisk : ZramDiskConfig) (identifier : UInt8)
    (str : CStr) (fallbackSize memM : UInt64) : UInt64 × UInt64 :=
  let sizeM := (zramDiskConfigSetSize zdisk (some str) fallbackSize memM).2.sizeM
  (sizeM, getZramDevSizeB globals { zramDevInfoNewFromIdentifier identifier with sizeM })

/-- **The sizes are exact if and only if the size spec fits**: its number is not
    negative and not clamped, and its value fits into a 64-bit number of bytes. -/
theorem sizePipeline_iff {globals : ZramGlobals} {zdisk : ZramDiskConfig} {identifier : UInt8}
    {str : CStr} {fallbackSize memM : UInt64}
    (hpage : ∃ k ≤ 20, globals.systemPageSize.toNat = 2 ^ k)
    (haccept : (parseTmpfsSizeSpec (some str) memM).1 = 0) :
    (∃ spec, readSizeSpec str = some spec ∧
      spec.Exact memM.toNat globals.systemPageSize.toNat
        (pipelineSizes globals zdisk identifier str fallbackSize memM).1
        (pipelineSizes globals zdisk identifier str fallbackSize memM).2) ↔
    ∃ spec, readSizeSpec str = some spec ∧ spec.Fits memM.toNat := by
  obtain ⟨spec, hspec, hpercent, hsize⟩ := parseTmpfsSizeSpec_accepts haccept
  obtain ⟨k, hk, hpow⟩ := hpage
  have hdvd : globals.systemPageSize.toNat ∣ 2 ^ 20 := hpow ▸ pow_dvd_pow 2 hk
  have hpos : 0 < globals.systemPageSize.toNat := by rw [hpow]; positivity
  have hbytes := @getZramDevSizeB_eq globals
    { zramDevInfoNewFromIdentifier identifier with
      sizeM := scaleSize (max longMin (min longMax spec.value)) spec.unit memM } hdvd
  simp only [pipelineSizes, zramDiskConfigSetSize_accepts haccept, hsize, hspec,
    Option.some.injEq, exists_eq_left']
  constructor
  · intro h
    exact SizeSpec.fits_of_floor h.nonneg hpercent h.floor h.bytes_lt
  · intro h
    have hfloor := scaleSize_floor h
    have hlt : (scaleSize (max longMin (min longMax spec.value)) spec.unit memM).toNat * 2 ^ 20 <
        2 ^ 64 := by
      have hmib := h.mib_lt
      omega
    refine ⟨h.nonneg, hfloor, h.product_lt, hlt, ?_⟩
    rw [hbytes, Nat.mod_eq_of_lt hlt, roundUp_of_dvd hpos (hdvd.mul_left _)]

/-- Three quarters of the memory. -/
theorem sizePipeline_percent :
    (∃ spec, readSizeSpec "75%".toList = some spec ∧
      spec.Exact (4096 : UInt64).toNat (⟨0, 4096⟩ : ZramGlobals).systemPageSize.toNat
        (pipelineSizes ⟨0, 4096⟩ (zramDiskConfigInit none) 0 "75%".toList 0 4096).1
        (pipelineSizes ⟨0, 4096⟩ (zramDiskConfigInit none) 0 "75%".toList 0 4096).2) ↔
    ∃ spec, readSizeSpec "75%".toList = some spec ∧ spec.Fits (4096 : UInt64).toNat :=
  sizePipeline_iff ⟨12, by decide, rfl⟩ (by decide)

/-- A negative size is accepted, and becomes one of 16 EiB. -/
theorem sizePipeline_negative :
    (parseTmpfsSizeSpec (some "-1".toList) 4096).1 = 0 ∧
      (⟨0, 4096⟩ : ZramGlobals).systemPageSize.toNat = 2 ^ 12 ∧
      ¬ ∃ spec, readSizeSpec "-1".toList = some spec ∧
        spec.Exact (4096 : UInt64).toNat (⟨0, 4096⟩ : ZramGlobals).systemPageSize.toNat
          (pipelineSizes ⟨0, 4096⟩ (zramDiskConfigInit none) 0 "-1".toList 0 4096).1
          (pipelineSizes ⟨0, 4096⟩ (zramDiskConfigInit none) 0 "-1".toList 0 4096).2 := by
  refine ⟨by decide, rfl, ?_⟩
  rintro ⟨spec, hspec, hexact⟩
  have hread : readSizeSpec "-1".toList = some ⟨-1, .bytes⟩ := by decide
  rw [hread, Option.some.injEq] at hspec
  have hnonneg := hexact.nonneg
  rw [← hspec] at hnonneg
  exact absurd hnonneg (by simp)

end Fischstaebchen
