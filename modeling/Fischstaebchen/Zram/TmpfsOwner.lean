/-
  Who owns a zram tmpfs mount (`zram/tmpfs.c`).

  The kernel gives the root of a plain tmpfs the user and group of the mount
  options, which it reads as decimal numbers.  For a zram disk, the options are
  parsed here, as octal numbers, and the mountpoint is handed over with chown.

  * `zramDoZramTmpfs_owner`: the mountpoint gets the user and group of the config.
  * `readDigits_eq_iff`: a number has the same value in both bases if and only if
    it is below 8.
  * `tmpfsOwner_iff`: hence a zram disk is owned like a plain tmpfs if and only if
    this is so for the last user and group that are octal numbers.
-/
import Fischstaebchen.Zram.TmpfsConfig

namespace Fischstaebchen

/-! ## The owner of the mountpoint -/

section
variable (O : Outcomes) (F : Faults)

/-- The operations of `zram_do_zram_tmpfs` on a disk that is mounted. -/
def tmpfsAttrOps (zmount : ZramTmpfsConfig) : List DiskOp :=
  (if zmount.mode ≠ 0 then [.chmod zmount.mp zmount.mode] else []) ++
    if zmount.uid ≠ 0 ∨ zmount.gid ≠ 0 then [.chown zmount.mp zmount.uid zmount.gid] else []

/-- Performs some operations; the return code is -2 if one of them fails. -/
def performAttrOps (ops : List DiskOp) (r : ℤ × DiskState) : ℤ × DiskState :=
  ops.foldl (fun r op => zramTmpfsAttrOp O true op r) r

theorem zramDoZramTmpfs_eq (zmount : ZramTmpfsConfig) (st : DiskState) :
    zramDoZramTmpfs O F zmount st =
      let r := zramDiskDoSetupAndMount O F zmount.zdisk (some zmount.mp) zmount.flags st
      if r.1 = 0 ∧ zmount.flags &&& msRdonly = 0#64 then
        performAttrOps O (tmpfsAttrOps zmount) r
      else r := by
  unfold zramDoZramTmpfs performAttrOps tmpfsAttrOps
  dsimp only
  split_ifs with h hmode howner howner
  · simp [hmode, howner]
  · simp [hmode, howner, zramTmpfsAttrOp]
  · simp [hmode, howner, zramTmpfsAttrOp]
  · simp [hmode, howner, zramTmpfsAttrOp]
  · rfl

/-- A user and a group. -/
abbrev Owner := UInt32 × UInt32

/-- The owner of `path` after a successful operation. -/
def DiskOp.owner (path : CStr) (owner : Owner) : DiskOp → Owner
  | .chown path' uid gid => if path' = path then (uid, gid) else owner
  | _ => owner

/-- The owner of `path` after some operations, the first of which has the number `n`. -/
def ownerAfter (path : CStr) : List DiskOp → ℕ → Owner → Owner
  | [], _, owner => owner
  | op :: ops, n, owner =>
    ownerAfter path ops (n + 1) (if O n op = 0 then op.owner path owner else owner)

/-- The owner of the mountpoint after `zram_do_zram_tmpfs`: the root of a new file
    system belongs to 0:0. -/
def zramTmpfsOwner (zmount : ZramTmpfsConfig) (st : DiskState) : Owner :=
  let r := zramDiskDoSetupAndMount O F zmount.zdisk (some zmount.mp) zmount.flags st
  if r.1 = 0 ∧ zmount.flags &&& msRdonly = 0#64 then
    ownerAfter O zmount.mp (tmpfsAttrOps zmount) r.2.ops (0, 0)
  else (0, 0)

/-- An operation that fails is not forgotten. -/
theorem performAttrOps_zero : ∀ (ops : List DiskOp) (r : ℤ × DiskState),
    (performAttrOps O ops r).1 = 0 → r.1 = 0
  | [], _, h => h
  | op :: ops, r, h => by
    have hnext := performAttrOps_zero ops _ h
    simp only [zramTmpfsAttrOp, if_true] at hnext
    split_ifs at hnext
    exact hnext

/-- If nothing fails, the owner is the one of the operations. -/
theorem ownerAfter_of_zero (path : CStr) : ∀ (ops : List DiskOp) (r : ℤ × DiskState)
    (owner : Owner), (performAttrOps O ops r).1 = 0 →
      ownerAfter O path ops r.2.ops owner = ops.foldl (DiskOp.owner path) owner
  | [], _, _, _ => rfl
  | op :: ops, r, owner, h => by
    have hfirst := performAttrOps_zero O ops _ h
    have hop : O r.2.ops op = 0 := by
      by_contra hne
      unfold zramTmpfsAttrOp performOp at hfirst
      simp [hne] at hfirst
    have hops : (zramTmpfsAttrOp O true op r).2.ops = r.2.ops + 1 := rfl
    have ih := ownerAfter_of_zero path ops _ (op.owner path owner) h
    rw [hops] at ih
    rw [ownerAfter, if_pos hop, ih]
    rfl

theorem tmpfsAttrOps_owner (zmount : ZramTmpfsConfig) :
    (tmpfsAttrOps zmount).foldl (DiskOp.owner zmount.mp) (0, 0) = (zmount.uid, zmount.gid) := by
  have howner : (if zmount.uid ≠ 0 ∨ zmount.gid ≠ 0 then
      [DiskOp.chown zmount.mp zmount.uid zmount.gid] else []).foldl (DiskOp.owner zmount.mp) (0, 0) =
      (zmount.uid, zmount.gid) := by
    split_ifs with h
    · simp [DiskOp.owner]
    · push Not at h
      rw [h.1, h.2]
      rfl
  have hmode : (if zmount.mode ≠ 0 then [DiskOp.chmod zmount.mp zmount.mode] else []).foldl
      (DiskOp.owner zmount.mp) (0, 0) = (0, 0) := by
    split_ifs <;> rfl
  rw [tmpfsAttrOps, List.foldl_append, hmode, howner]

/-- **The mountpoint gets the user and group of the config**, if the disk is mounted
    read-write and nothing fails. -/
theorem zramDoZramTmpfs_owner {zmount : ZramTmpfsConfig} {st : DiskState}
    (hrw : zmount.flags &&& msRdonly = 0#64) (hok : (zramDoZramTmpfs O F zmount st).1 = 0) :
    zramTmpfsOwner O F zmount st = (zmount.uid, zmount.gid) := by
  rw [zramDoZramTmpfs_eq] at hok
  unfold zramTmpfsOwner
  dsimp only at hok ⊢
  set r := zramDiskDoSetupAndMount O F zmount.zdisk (some zmount.mp) zmount.flags st with hr
  have hmount : r.1 = 0 := by
    split_ifs at hok with h
    · exact h.1
    · exact hok
  rw [if_pos ⟨hmount, hrw⟩] at hok ⊢
  rw [ownerAfter_of_zero O _ _ _ _ hok, tmpfsAttrOps_owner]

end

/-! ## Numbers -/

/-- The number that some digits stand for. -/
def readDigits (base : ℕ) (digits : CStr) : ℕ :=
  digits.foldl (fun n c => n * base + (digitValue c).getD 0) 0

/-- A string of decimal digits. -/
def isDecimal (val : CStr) : Bool := !val.isEmpty && val.all (isDigitIn 10)

/-- A string of octal digits. -/
def isOctal (val : CStr) : Bool := !val.isEmpty && val.all (isDigitIn 8)

theorem readDigits_concat (base : ℕ) (digits : CStr) (c : Char) :
    readDigits base (digits ++ [c]) = readDigits base digits * base + (digitValue c).getD 0 := by
  rw [readDigits, List.foldl_append]
  rfl

/-- **Which numbers have the same value in both bases**: those below 8. -/
theorem readDigits_eq_iff {digits : CStr} (h : ∀ c ∈ digits, isDigitIn 8 c = true) :
    readDigits 8 digits ≤ readDigits 10 digits ∧
      (readDigits 8 digits = readDigits 10 digits ↔ readDigits 10 digits < 8) := by
  induction digits using List.reverseRecOn with
  | nil => exact ⟨le_rfl, iff_of_true rfl (by decide)⟩
  | append_singleton digits c ih =>
    obtain ⟨hle, -⟩ := ih fun x hx => h x (List.mem_append_left _ hx)
    have hdigit : (digitValue c).getD 0 < 8 := by
      have hc := h c (by simp)
      unfold isDigitIn at hc
      cases hv : digitValue c with
      | none => decide
      | some d =>
        rw [hv] at hc
        exact of_decide_eq_true hc
    rw [readDigits_concat, readDigits_concat]
    omega

/-- A decimal digit is neither white space nor a sign. -/
theorem digit_cases {c : Char} (h : isDigitIn 10 c = true) :
    isspace c = false ∧ c ≠ '-' ∧ c ≠ '+' := by
  refine ⟨?_, ?_, ?_⟩
  · by_contra hspace
    have hmem : c ∈ " \t\n\x0b\x0c\r".toList :=
      List.contains_iff_mem.1 (Bool.of_not_eq_false hspace)
    have hall : ∀ c ∈ " \t\n\x0b\x0c\r".toList, isDigitIn 10 c = false := by
      simp [isDigitIn, digitValue]
    rw [hall c hmem] at h
    cases h
  · rintro rfl
    exact absurd h (by decide)
  · rintro rfl
    exact absurd h (by decide)

theorem strtolSign_digit {c : Char} (h : isDigitIn 10 c = true) (cs : CStr) :
    strtolSign (c :: cs) = (false, c :: cs) := by
  obtain ⟨-, hminus, hplus⟩ := digit_cases h
  unfold strtolSign
  split
  · rename_i heq
    exact absurd (List.cons.inj heq).1 hminus
  · rename_i heq
    exact absurd (List.cons.inj heq).1 hplus
  · rfl

/-- In base 8 there is no prefix. -/
theorem strtolBase_octal (s : CStr) : strtolBase 8 s = (8, s) := by
  unfold strtolBase
  split
  · rw [if_neg fun h => absurd h.1 (by simp)]
    rfl
  · rfl
  · rfl

/-- **Reading a decimal number as an octal one**: it is rejected if it has a digit
    8 or 9. -/
theorem strtolNumber_decimal {val : CStr} (h : isDecimal val = true) :
    (strtolNumber val 8).bind (fun r => if r.2 = [] then some r.1 else none) =
      if isOctal val then some (readDigits 8 val : ℤ) else none := by
  obtain ⟨hne, hall⟩ := Bool.and_eq_true_iff.1 h
  obtain ⟨c, cs, rfl⟩ : ∃ c cs, val = c :: cs :=
    List.exists_cons_of_ne_nil fun hnil => by simp [hnil] at hne
  have hc : isDigitIn 10 c = true := List.all_eq_true.1 hall c List.mem_cons_self
  have hspace : (c :: cs).dropWhile isspace = c :: cs :=
    List.dropWhile_cons_of_neg (by rw [(digit_cases hc).1]; exact Bool.false_ne_true)
  simp only [strtolNumber, hspace, strtolSign_digit hc, strtolBase_octal]
  by_cases hoct : isOctal (c :: cs) = true
  · obtain ⟨-, hdigits⟩ := Bool.and_eq_true_iff.1 hoct
    have htake : (c :: cs).takeWhile (isDigitIn 8) = c :: cs :=
      List.takeWhile_eq_self_iff.2 (List.all_eq_true.1 hdigits)
    rw [htake, if_neg (List.cons_ne_nil _ _), if_pos hoct]
    simp [readDigits]
  · rw [if_neg hoct]
    by_cases hnil : (c :: cs).takeWhile (isDigitIn 8) = []
    · rw [if_pos hnil]
      rfl
    · -- the digits do not reach the end
      have hrest : (c :: cs).drop ((c :: cs).takeWhile (isDigitIn 8)).length ≠ [] := by
        intro hdrop
        have hlen := List.drop_eq_nil_iff.1 hdrop
        have hself : (c :: cs).takeWhile (isDigitIn 8) = c :: cs :=
          (List.takeWhile_prefix _).eq_of_length_le hlen
        refine hoct (Bool.and_eq_true_iff.2 ⟨rfl, ?_⟩)
        exact List.all_eq_true.2 (List.takeWhile_eq_self_iff.1 hself)
      rw [if_neg hnil, Option.bind_some, if_neg hrest]

/-! ## Users and groups of an option string -/

/-- The values of the options `name=<value>`. -/
def optValues (name : String) (opts : Option CStr) : List CStr :=
  (mountOptions opts).filterMap fun opt => strStartswith opt name.toList

/-- The user or group that the kernel reads from an option string: the last one,
    as a decimal number, or 0. -/
def decimalId (name : String) (opts : Option CStr) : ℕ :=
  readDigits 10 ((optValues name opts).getLast?.getD [])

/-- The last user or group that is an octal number, or 0. -/
def octalId (name : String) (opts : Option CStr) : ℕ :=
  readDigits 8 (((optValues name opts).filter isOctal).getLast?.getD [])

/-- All users and groups are decimal numbers below `2 ^ 31`. -/
def DecimalIds (opts : Option CStr) : Prop :=
  ∀ name ∈ ["uid=", "gid="], ∀ val ∈ optValues name opts,
    isDecimal val = true ∧ readDigits 10 val < 2 ^ 31

/-- The last user or group of the option string is below 8 if it has octal digits
    only; if it has a digit 8 or 9, it is what the last one with octal digits
    only is in base 8. -/
def SameInOctal (name : String) (opts : Option CStr) : Prop :=
  ∀ val, (optValues name opts).getLast? = some val →
    if isOctal val then readDigits 10 val < 8 else octalId name opts = readDigits 10 val

theorem octalOptNumber_eq (name : String) (opts : Option CStr)
    (hdec : ∀ val ∈ optValues name opts, isDecimal val = true) :
    Lib.lastDecision (octalOptNumber name) (mountOptions opts) =
      ((optValues name opts).filter isOctal).getLast?.map fun val => (readDigits 8 val : ℤ) := by
  have hvalues : (mountOptions opts).filterMap (octalOptNumber name) =
      (optValues name opts).filterMap fun val =>
        (strtolNumber val 8).bind fun r => if r.2 = [] then some r.1 else none := by
    rw [optValues, List.filterMap_filterMap]
    rfl
  have hoctal : (optValues name opts).filterMap (fun val =>
        (strtolNumber val 8).bind fun r => if r.2 = [] then some r.1 else none) =
      ((optValues name opts).filter isOctal).map fun val => (readDigits 8 val : ℤ) := by
    rw [← List.filterMap_eq_map, List.filterMap_filter]
    exact List.filterMap_congr fun val hval => strtolNumber_decimal (hdec val hval)
  rw [Lib.lastDecision, hvalues, hoctal, List.getLast?_map]

/-- An octal number is not above the decimal number with the same digits. -/
theorem octalId_lt {name : String} {opts : Option CStr}
    (hlt : ∀ val ∈ optValues name opts, readDigits 10 val < 2 ^ 31) :
    octalId name opts < 2 ^ 31 := by
  unfold octalId
  cases hlast : ((optValues name opts).filter isOctal).getLast? with
  | none => decide
  | some val =>
    obtain ⟨hmem, hoct⟩ := List.mem_filter.1 (List.mem_of_getLast? hlast)
    have hdigits := List.all_eq_true.1 (Bool.and_eq_true_iff.1 hoct).2
    exact (readDigits_eq_iff hdigits).1.trans_lt (hlt val hmem)

/-- **What the parser makes of a user or group.** -/
theorem lastAttr_toNat {name : String} {opts : Option CStr}
    (hdec : ∀ val ∈ optValues name opts, isDecimal val = true ∧ readDigits 10 val < 2 ^ 31) :
    ((lastAttr name opts).getD 0).toNat = octalId name opts := by
  have hlt := octalId_lt fun val hval => (hdec val hval).2
  rw [lastAttr, octalOptNumber_eq name opts fun val hval => (hdec val hval).1]
  unfold octalId at hlt ⊢
  cases hlast : ((optValues name opts).filter isOctal).getLast? with
  | none => rfl
  | some val =>
    rw [hlast] at hlt
    have hnat : ((attrOfNumber (readDigits 8 val : ℤ)).toNat : ℤ) = (readDigits 8 val : ℤ) := by
      simp only [Option.getD_some] at hlt
      exact attrOfNumber_of_lt (by omega) (by omega)
    simpa using hnat

/-- **When both agree.** -/
theorem octalId_eq_iff {name : String} {opts : Option CStr} :
    octalId name opts = decimalId name opts ↔ SameInOctal name opts := by
  unfold SameInOctal
  rcases List.eq_nil_or_concat (optValues name opts) with hnil | ⟨init, val, hvals⟩
  · simp only [octalId, decimalId, hnil, List.filter_nil, List.getLast?_nil, reduceCtorEq,
      false_imp_iff, implies_true, iff_true]
    rfl
  · rw [List.concat_eq_append] at hvals
    have hlast : (optValues name opts).getLast? = some val := by rw [hvals]; simp
    have hdecimal : decimalId name opts = readDigits 10 val := by
      rw [decimalId, hlast]
      rfl
    simp only [hlast, Option.some.injEq, forall_eq', hdecimal]
    by_cases hoct : isOctal val = true
    · have hoctal : octalId name opts = readDigits 8 val := by
        rw [octalId, hvals, List.filter_append, List.filter_cons_of_pos hoct]
        simp
      rw [if_pos hoct, hoctal]
      exact (readDigits_eq_iff (List.all_eq_true.1 (Bool.and_eq_true_iff.1 hoct).2)).2
    · rw [if_neg hoct]

/-! ## The option string of the plain tmpfs -/

/-- Joined options are read back. -/
theorem mountOptions_joinOptions {words : List CStr}
    (h : ∀ w ∈ words, w ≠ [] ∧ ∀ c ∈ w, isDelim ",".toList c = false) :
    mountOptions (joinOptions words) = words := by
  unfold joinOptions mountOptions
  split_ifs with hnil
  · rw [hnil, Option.getD_none, Lib.runs_nil]
  · exact Lib.runs_intercalate_of (by decide) h

theorem toString_chars (n : ℕ) : ∀ c ∈ (toString n).toList, isDelim ",".toList c = false := by
  intro c hc
  have hdigit : c.isDigit = true := by
    rw [show toString n = Nat.repr n from rfl, Nat.toList_repr] at hc
    exact Nat.isDigit_of_mem_toDigits (by simp) (by simp) hc
  by_contra hcomma
  have hdelim := Bool.of_not_eq_false hcomma
  rw [show ",".toList = [','] from rfl, isDelim_singleton] at hdelim
  obtain rfl := of_decide_eq_true hdelim
  exact absurd hdigit (by simp)

theorem sizeOption_chars {size : Option UInt64} :
    ∀ w ∈ sizeOption size, ∀ c ∈ w, isDelim ",".toList c = false := by
  intro w hw c hc
  have hfixed : ∀ c ∈ "size=m".toList, isDelim ",".toList c = false := by simp [isDelim]
  unfold sizeOption at hw
  split at hw
  · cases hw
  · split_ifs at hw
    · cases hw
    · rw [List.mem_singleton.1 hw, List.mem_append, List.mem_append] at hc
      rcases hc with (hc | hc) | hc
      · exact hfixed c (List.mem_append_left ['m'] hc)
      · exact toString_chars _ c hc
      · exact hfixed c (List.mem_append_right "size=".toList hc)

theorem sizeOption_noId {size : Option UInt64} {name : String} (hname : name ∈ ["uid=", "gid="]) :
    (sizeOption size).filterMap (fun opt => strStartswith opt name.toList) = [] := by
  have hprefix : ∀ name ∈ ["uid=", "gid="], ¬ "size=".toList <+: name.toList ∧
      ¬ name.toList <+: "size=".toList := by simp
  obtain ⟨h₁, h₂⟩ := hprefix name hname
  unfold sizeOption
  split
  · rfl
  · split_ifs
    · rfl
    · refine List.filterMap_eq_nil_iff.2 fun w hw => ?_
      rw [List.mem_singleton.1 hw]
      refine strStartswith_disjoint ?_ h₁ h₂
      rw [List.append_assoc, strStartswith_eq_some.2 rfl]
      exact Option.some_ne_none _

/-- **The plain tmpfs gets the users and groups** of the option string. -/
theorem optValues_plainTmpfsOptions {name : String} (hname : name ∈ ["uid=", "gid="])
    (opts sizeSpec : Option CStr) (memM : UInt64) :
    optValues name (joinOptions (plainTmpfsOptions opts sizeSpec memM)) = optValues name opts := by
  have hwords : ∀ w ∈ plainTmpfsOptions opts sizeSpec memM,
      w ≠ [] ∧ ∀ c ∈ w, isDelim ",".toList c = false := by
    intro w hw
    rcases List.mem_append.1 hw with hw | hw
    · have hopt := List.mem_of_mem_filter hw
      exact ⟨mountOptions_ne_nil w hopt, Lib.mem_of_mem_runs hopt⟩
    · exact ⟨sizeOption_ne_nil w hw, sizeOption_chars w hw⟩
  have hattr : name ∈ ["mode=", "uid=", "gid="] := List.mem_cons_of_mem _ hname
  rw [optValues, mountOptions_joinOptions hwords, plainTmpfsOptions, List.filterMap_append,
    sizeOption_noId hname, List.append_nil, List.filterMap_filter, optValues]
  refine List.filterMap_congr fun opt _ => ?_
  by_cases hkey : isMountKeyword opt = true
  · simp [hkey, strStartswith_of_isMountKeyword hkey name (mem_attrs hattr)]
  · by_cases hzdisk : isZdiskOpt opt = true
    · simp [hzdisk, strStartswith_of_isZdiskOpt hzdisk name hattr]
    · simp [hkey, hzdisk]

/-! ## Both file systems -/

/-- The owner is the one of the option string, which is also the one of the plain
    tmpfs. -/
structure OwnedLikeTmpfs (opts : Option CStr) (zmount : ZramTmpfsConfig) (owner : Owner) :
    Prop where
  uid : owner.1.toNat = decimalId "uid=" opts
  gid : owner.2.toNat = decimalId "gid=" opts
  tmpfsUid : owner.1.toNat = decimalId "uid=" zmount.tmpfsOptsStr
  tmpfsGid : owner.2.toNat = decimalId "gid=" zmount.tmpfsOptsStr

section
variable {O : Outcomes} {F : Faults} {host : Host} {name : Option CStr} {mp : CStr} {flags : Flags}
  {opts sizeSpec : Option CStr} {sysMemsizeM : UInt64} {defaultMode : UInt32} {st : DiskState}

/-- The plain tmpfs belongs to the user and group of the option string. -/
theorem decimalId_tmpfsOptsStr {attr : String} (hattr : attr ∈ ["uid=", "gid="]) :
    decimalId attr (zramTmpfsConfigParse host name mp flags opts sizeSpec sysMemsizeM
      defaultMode).2.tmpfsOptsStr = decimalId attr opts := by
  rw [zramTmpfsConfigParse_filters.options, decimalId, optValues_plainTmpfsOptions hattr, decimalId]

/-- **A zram disk is owned like a plain tmpfs** if and only if the last user and the
    last group mean the same in octal. -/
theorem tmpfsOwner_iff (hids : DecimalIds opts)
    (hrw : (zramTmpfsConfigParse host name mp flags opts sizeSpec sysMemsizeM defaultMode).2.flags
      &&& msRdonly = 0#64)
    (hok : (zramDoZramTmpfs O F (zramTmpfsConfigParse host name mp flags opts sizeSpec sysMemsizeM
      defaultMode).2 st).1 = 0) :
    OwnedLikeTmpfs opts
        (zramTmpfsConfigParse host name mp flags opts sizeSpec sysMemsizeM defaultMode).2
        (zramTmpfsOwner O F
          (zramTmpfsConfigParse host name mp flags opts sizeSpec sysMemsizeM defaultMode).2 st) ↔
      SameInOctal "uid=" opts ∧ SameInOctal "gid=" opts := by
  obtain ⟨-, huid, hgid⟩ := @zramTmpfsConfigParse_attrs host name mp flags opts sizeSpec sysMemsizeM
    defaultMode
  have howner := zramDoZramTmpfs_owner O F hrw hok
  have htoUid := lastAttr_toNat (hids "uid=" (by simp))
  have htoGid := lastAttr_toNat (hids "gid=" (by simp))
  rw [howner, ← octalId_eq_iff, ← octalId_eq_iff, ← htoUid, ← htoGid, ← huid, ← hgid]
  constructor
  · intro h
    exact ⟨h.uid, h.gid⟩
  · rintro ⟨hu, hg⟩
    exact ⟨hu, hg, hu.trans (decimalId_tmpfsOptsStr (by simp)).symm,
      hg.trans (decimalId_tmpfsOptsStr (by simp)).symm⟩

end

/-- A zram tmpfs config for a machine with 4096 MiB of memory. -/
def sampleTmpfs (opts : String) : ZramTmpfsConfig :=
  (zramTmpfsConfigParse ⟨4, none, none⟩ none "/tmp".toList 0#64 (some opts.toList) none 4096 0).2

/-- A kernel with two free devices and no mounts. -/
def freeDevices : DiskState := ⟨twoDevices, 0, []⟩

/-- The group 8 of the second option is not octal, but 10 is 8 in octal. -/
theorem tmpfsOwner_mail :
    OwnedLikeTmpfs (some "uid=7,gid=10,gid=8".toList) (sampleTmpfs "uid=7,gid=10,gid=8")
        (zramTmpfsOwner (fun _ _ => 0) (fun _ => none) (sampleTmpfs "uid=7,gid=10,gid=8")
          freeDevices) ↔
      SameInOctal "uid=" (some "uid=7,gid=10,gid=8".toList) ∧
        SameInOctal "gid=" (some "uid=7,gid=10,gid=8".toList) :=
  tmpfsOwner_iff (by unfold DecimalIds; decide +kernel) (by decide +kernel) (by decide +kernel)

/-- The user 1000 becomes the user 512. -/
theorem not_ownedLikeTmpfs_1000 :
    (zramDoZramTmpfs (fun _ _ => 0) (fun _ => none) (sampleTmpfs "uid=1000") freeDevices).1 = 0 ∧
      zramTmpfsOwner (fun _ _ => 0) (fun _ => none) (sampleTmpfs "uid=1000") freeDevices = (512, 0) ∧
      DecimalIds (some "uid=1000".toList) ∧
      ¬ OwnedLikeTmpfs (some "uid=1000".toList) (sampleTmpfs "uid=1000")
        (zramTmpfsOwner (fun _ _ => 0) (fun _ => none) (sampleTmpfs "uid=1000") freeDevices) := by
  have howner : zramTmpfsOwner (fun _ _ => 0) (fun _ => none) (sampleTmpfs "uid=1000") freeDevices =
      (512, 0) := by decide +kernel
  refine ⟨by decide +kernel, howner, by unfold DecimalIds; decide +kernel, fun h => ?_⟩
  have huid := h.uid
  rw [howner] at huid
  revert huid
  decide +kernel

end Fischstaebchen
