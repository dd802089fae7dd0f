/-
  zram tmpfs mounts (`zram/tmpfs.c`).

  `zram_tmpfs` mounts a zram disk, and a plain tmpfs where the disk cannot be set
  up.

  * `zramDoZramTmpfs_cases`: the disk is mounted if all steps succeed, also if
    chmod or chown fail afterwards.
  * `zramTmpfs_report_iff`: the return code says what is mounted if and only if
    the config is rejected or the disk is mounted: it is always 0 otherwise.
  * `zramTmpfs_zero_iff`: a return code of 0 comes with a mount if and only if
    the disk or the fallback is mounted.
-/
import Fischstaebchen.Misc.Host
import Fischstaebchen.Zram.DiskMount

namespace Fischstaebchen

/-! ## Configs -/

/-- `SRWX_RWX_RWX`. -/
def srwxRwxRwx : UInt32 := 0o1777

/-- `RWX_RX_RX`. -/
def rwxRxRx : UInt32 := 0o755

/-- `struct zram_tmpfs_config`; `zram_tmpfs` rejects a NULL mountpoint before. -/
structure ZramTmpfsConfig where
  zdisk : ZramDiskConfig
  mp : CStr
  flags : Flags
  tmpfsOptsStr : Option CStr
  mode : UInt32
  uid : UInt32
  gid : UInt32
  deriving DecidableEq

/-- `zram_tmpfs_config_init`. -/
def zramTmpfsConfigInit (name : Option CStr) (mp : CStr) (defaultMode : UInt32) :
    ZramTmpfsConfig where
  zdisk := zramDiskConfigInit name
  mp := mp
  flags := 0#64
  tmpfsOptsStr := none
  mode := defaultMode
  uid := 0
  gid := 0

/-- What the loop of `_zram_tmpfs_config_parse_opts_arr` keeps: the config, the
    last size option and the options for a plain tmpfs. -/
structure TmpfsOptsState where
  zmount : ZramTmpfsConfig
  anySizeSpec : Option CStr
  tmpfsOptsArr : List CStr

/-- The options `mode=`, `uid=` and `gid=`, which are octal; a value that cannot
    be parsed is ignored. -/
def parseTmpfsAttr (zmount : ZramTmpfsConfig) (opt : CStr) : ZramTmpfsConfig :=
  match strStartswith opt "mode=".toList with
  | some val =>
    let r := strToLongBase 8 (some val)
    if r.1 = 0 then { zmount with mode := UInt32.ofInt r.2 } else zmount
  | none =>
    match strStartswith opt "uid=".toList with
    | some val =>
      let r := strToLongBase 8 (some val)
      if r.1 = 0 then { zmount with uid := UInt32.ofInt r.2 } else zmount
    | none =>
      match strStartswith opt "gid=".toList with
      | some val =>
        let r := strToLongBase 8 (some val)
        if r.1 = 0 then { zmount with gid := UInt32.ofInt r.2 } else zmount
      | none => zmount

/-- The body of the loop of `_zram_tmpfs_config_parse_opts_arr`. -/
def parseTmpfsOpt (st : TmpfsOptsState) (opt : CStr) : TmpfsOptsState :=
  match (strStartswith opt "size=".toList).or (strStartswith opt "x-size=".toList) with
  | some val => { st with anySizeSpec := some val }
  | none =>
    -- compression options are recognized, but not implemented
    if strStartswith opt "comp_algorithm=".toList ≠ none ∨ strStartswith opt "comp=".toList ≠ none ∨
        strStartswith opt "max_comp_streams=".toList ≠ none then
      st
    else
      { st with
        zmount := parseTmpfsAttr st.zmount opt
        tmpfsOptsArr := st.tmpfsOptsArr ++ [opt] }

/-- `_zram_tmpfs_config_parse_opts_arr`. -/
def zramTmpfsConfigParseOptsArr (zmount : ZramTmpfsConfig) (opts : List CStr)
    (sizeSpec : Option CStr) (sysMemsizeM : UInt64) : ℤ × ZramTmpfsConfig :=
  let st := opts.foldl parseTmpfsOpt ⟨zmount, none, []⟩
  let r := zramDiskConfigSetSize st.zmount.zdisk (sizeSpec.or st.anySizeSpec) 0 sysMemsizeM
  let sizeOpt := if r.1 = 0 ∨ r.1 = 1 then zramDiskConfigCreateSizeOpt r.2 else none
  let tmpfsOptsStr := joinStrDynarray (some ",".toList) (st.tmpfsOptsArr ++ sizeOpt.toList)
  (0, { st.zmount with
    zdisk := r.2
    tmpfsOptsStr := if tmpfsOptsStr = [] then none else some tmpfsOptsStr })

/-- `zram_tmpfs_config_parse`. -/
def zramTmpfsConfigParse (host : Host) (name : Option CStr) (mp : CStr) (flags : Flags)
    (opts sizeSpec : Option CStr) (sysMemsizeM : UInt64) (defaultMode : UInt32) :
    ℤ × ZramTmpfsConfig :=
  let zmount := zramTmpfsConfigInit name mp (if defaultMode = 0 then srwxRwxRwx else defaultMode)
  let zmount := { zmount with flags := zmount.flags ||| flags }
  let r := if opts = none then (0, 0#64, []) else parseMountOptsStrToDynarray opts []
  if r.1 ≠ 0 then (-1, zmount)
  else
    let zmount := { zmount with flags := zmount.flags ||| r.2.1 }
    let p := zramTmpfsConfigParseOptsArr zmount r.2.2 sizeSpec
      (if sysMemsizeM > 0 then sysMemsizeM else UInt64.ofNat (getMemsizeM host))
    if p.2.zdisk.sizeM < 1 then (-1, p.2) else p

/-! ## Mounting -/

section
variable (O : Outcomes) (F : Faults)

/-- `zram_do_normal_tmpfs`. -/
def zramDoNormalTmpfs (zmount : ZramTmpfsConfig) (st : DiskState) : ℤ × DiskState :=
  stdmount O (zmount.zdisk.name.getD "tmpfs".toList) zmount.mp "tmpfs".toList zmount.flags
    zmount.tmpfsOptsStr st

/-- An operation of `zram_do_zram_tmpfs` on the mounted disk, if it is needed:
    the return code so far, or -2 if it fails. -/
def zramTmpfsAttrOp (needed : Bool) (op : DiskOp) (r : ℤ × DiskState) : ℤ × DiskState :=
  if needed then
    let c := performOp O op r.2
    (if c.1 ≠ 0 then -2 else r.1, c.2)
  else r

/-- `zram_do_zram_tmpfs`. -/
def zramDoZramTmpfs (zmount : ZramTmpfsConfig) (st : DiskState) : ℤ × DiskState :=
  let r := zramDiskDoSetupAndMount O F zmount.zdisk (some zmount.mp) zmount.flags st
  if r.1 = 0 ∧ zmount.flags &&& msRdonly = 0#64 then
    let r := zramTmpfsAttrOp O (zmount.mode ≠ 0) (.chmod zmount.mp zmount.mode) r
    zramTmpfsAttrOp O (zmount.uid ≠ 0 ∨ zmount.gid ≠ 0) (.chown zmount.mp zmount.uid zmount.gid) r
  else r

/-- `zram_tmpfs`; the return code of mounting is not used. -/
def zramTmpfs (host : Host) (name mp : Option CStr) (flags : Flags) (opts sizeSpec : Option CStr)
    (sysMemsizeM : UInt64) (defaultMode : UInt32) (st : DiskState) : ℤ × DiskState :=
  match mp with
  | none => (-1, st)
  | some mp =>
    let p := zramTmpfsConfigParse host name mp flags opts sizeSpec sysMemsizeM defaultMode
    if p.1 ≠ 0 then (-1, st)
    else
      let r := zramDoZramTmpfs O F p.2 st
      -- fall back to tmpfs
      let r := if r.1 > 0 then zramDoNormalTmpfs O p.2 r.2 else r
      (0, r.2)

/-! ## What is mounted -/

/-- The entry of a plain tmpfs mounted at `path`. -/
structure MountEntry.IsTmpfs (entry : MountEntry) (path : CStr) : Prop where
  target : entry.target = path
  fstype : entry.fstype = "tmpfs".toList

theorem zramTmpfsAttrOp_mounts (needed : Bool) (op : DiskOp) (h : op.mountEntry = none)
    {r : ℤ × DiskState} (hr : r.1 ≤ 0) :
    (zramTmpfsAttrOp O needed op r).1 ≤ 0 ∧
      (zramTmpfsAttrOp O needed op r).2.mounts = r.2.mounts := by
  unfold zramTmpfsAttrOp
  dsimp only
  split_ifs
  · exact ⟨by omega, performOp_mounts O h _⟩
  · exact ⟨hr, performOp_mounts O h _⟩
  · exact ⟨hr, rfl⟩

/-- **The disk is mounted if all steps succeed**, and nothing is mounted
    otherwise; chmod and chown do not matter. -/
theorem zramDoZramTmpfs_cases (zmount : ZramTmpfsConfig) (st : DiskState) :
    (ZramDiskUp O F zmount.zdisk (some zmount.mp) zmount.flags st ∧
        (zramDoZramTmpfs O F zmount st).1 ≤ 0 ∧
        ∃ entry, entry.IsZramDisk zmount.mp ∧
          Mounts st (zramDoZramTmpfs O F zmount st).2 entry) ∨
      (¬ ZramDiskUp O F zmount.zdisk (some zmount.mp) zmount.flags st ∧
        (zramDoZramTmpfs O F zmount st).2.mounts = st.mounts) := by
  unfold zramDoZramTmpfs
  dsimp only
  rcases zramDiskDoSetupAndMount_cases O F zmount.zdisk (some zmount.mp) zmount.flags st with
    ⟨hup, h0, path, entry, hpath, hentry, hmount⟩ | ⟨hdown, h0, hmount⟩
  · obtain rfl : zmount.mp = path := Option.some.inj hpath
    unfold Mounts at hmount ⊢
    refine Or.inl ⟨hup, ?_⟩
    split_ifs
    · obtain ⟨hret₁, hmounts₁⟩ := zramTmpfsAttrOp_mounts O (decide (zmount.mode ≠ 0))
        (.chmod zmount.mp zmount.mode) rfl h0.le
      obtain ⟨hret₂, hmounts₂⟩ := zramTmpfsAttrOp_mounts O
        (decide (zmount.uid ≠ 0 ∨ zmount.gid ≠ 0))
        (.chown zmount.mp zmount.uid zmount.gid) rfl hret₁
      exact ⟨hret₂, entry, hentry, hmounts₂.trans (hmounts₁.trans hmount)⟩
    · exact ⟨h0.le, entry, hentry, hmount⟩
  · rw [if_neg fun h => h0 h.1]
    exact Or.inr ⟨hdown, hmount⟩

theorem zramDoNormalTmpfs_cases (zmount : ZramTmpfsConfig) (st : DiskState) :
    ((zramDoNormalTmpfs O zmount st).1 = 0 ∧
        ∃ entry, entry.IsTmpfs zmount.mp ∧ Mounts st (zramDoNormalTmpfs O zmount st).2 entry) ∨
      ((zramDoNormalTmpfs O zmount st).1 ≠ 0 ∧
        (zramDoNormalTmpfs O zmount st).2.mounts = st.mounts) := by
  rcases stdmount_cases O (zmount.zdisk.name.getD "tmpfs".toList) zmount.mp "tmpfs".toList
    zmount.flags zmount.tmpfsOptsStr st with ⟨h, hmount⟩ | h
  · exact Or.inl ⟨h, _, ⟨rfl, rfl⟩, hmount⟩
  · exact Or.inr h

end

/-! ## The return code -/

theorem parseTmpfsAttr_mp (zmount : ZramTmpfsConfig) (opt : CStr) :
    (parseTmpfsAttr zmount opt).mp = zmount.mp := by
  unfold parseTmpfsAttr
  split
  · dsimp only; split_ifs <;> rfl
  · split
    · dsimp only; split_ifs <;> rfl
    · split
      · dsimp only; split_ifs <;> rfl
      · rfl

theorem foldl_parseTmpfsOpt_mp : ∀ (opts : List CStr) (st : TmpfsOptsState),
    (opts.foldl parseTmpfsOpt st).zmount.mp = st.zmount.mp
  | [], _ => rfl
  | opt :: opts, st => by
    rw [List.foldl_cons, foldl_parseTmpfsOpt_mp opts]
    unfold parseTmpfsOpt
    split
    · rfl
    · split_ifs
      · rfl
      · exact parseTmpfsAttr_mp _ _

/-- Parsing keeps the mountpoint. -/
theorem zramTmpfsConfigParse_mp (host : Host) (name : Option CStr) (mp : CStr) (flags : Flags)
    (opts sizeSpec : Option CStr) (sysMemsizeM : UInt64) (defaultMode : UInt32) :
    (zramTmpfsConfigParse host name mp flags opts sizeSpec sysMemsizeM defaultMode).2.mp = mp := by
  have harr : ∀ (zmount : ZramTmpfsConfig) (opts : List CStr) (memM : UInt64),
      (zramTmpfsConfigParseOptsArr zmount opts sizeSpec memM).2.mp = zmount.mp :=
    fun zmount opts memM => foldl_parseTmpfsOpt_mp opts _
  unfold zramTmpfsConfigParse
  generalize (if opts = none then (0, 0#64, []) else parseMountOptsStrToDynarray opts []) = r
  generalize (if sysMemsizeM > 0 then sysMemsizeM else UInt64.ofNat (getMemsizeM host)) = memM
  generalize (if defaultMode = 0 then srwxRwxRwx else defaultMode) = mode
  dsimp only
  by_cases hret : r.1 ≠ 0
  · rw [if_pos hret]
    rfl
  · rw [if_neg hret]
    split
    · exact harr _ _ _
    · exact harr _ _ _

/-- The config that `zram_tmpfs` mounts, unless the mountpoint is NULL or the
    options cannot be parsed. -/
def tmpfsConfig (host : Host) (name mp : Option CStr) (flags : Flags) (opts sizeSpec : Option CStr)
    (sysMemsizeM : UInt64) (defaultMode : UInt32) : Option ZramTmpfsConfig :=
  mp.bind fun path =>
    let p := zramTmpfsConfigParse host name path flags opts sizeSpec sysMemsizeM defaultMode
    if p.1 ≠ 0 then none else some p.2

section
variable (O : Outcomes) (F : Faults)

/-- The zram disk can be claimed, formatted and mounted. -/
def ZramTmpfsConfig.DiskUp (zmount : ZramTmpfsConfig) (st : DiskState) : Prop :=
  ZramDiskUp O F zmount.zdisk (some zmount.mp) zmount.flags st

/-- No zram disk can be claimed or formatted, but a plain tmpfs can be mounted. -/
def ZramTmpfsConfig.FallbackUp (zmount : ZramTmpfsConfig) (st : DiskState) : Prop :=
  0 < (zramDoZramTmpfs O F zmount st).1 ∧
    (zramDoNormalTmpfs O zmount (zramDoZramTmpfs O F zmount st).2).1 = 0

/-- What `zram_tmpfs` is said to return: 0 only if a zram disk is mounted at the
    mountpoint, 1 only if a plain tmpfs is, and a negative value otherwise. -/
structure TmpfsReport (st : DiskState) (mp : Option CStr) (r : ℤ × DiskState) : Prop where
  zero : r.1 = 0 → ∃ path entry, mp = some path ∧ entry.IsZramDisk path ∧ Mounts st r.2 entry
  one : r.1 = 1 → ∃ path entry, mp = some path ∧ entry.IsTmpfs path ∧ Mounts st r.2 entry
  negative : r.1 ≠ 0 → r.1 ≠ 1 → r.1 < 0

/-- Something has been mounted at the mountpoint. -/
def SomethingMounted (st : DiskState) (mp : Option CStr) (st' : DiskState) : Prop :=
  ∃ path entry, mp = some path ∧ entry.target = path ∧ Mounts st st' entry

/-- What the steps after parsing do: mount a zram disk, or fall back to a plain
    tmpfs, or mount nothing. -/
inductive TmpfsOutcome (zmount : ZramTmpfsConfig) (st st' : DiskState) : Prop
  | disk (entry : MountEntry) (hup : zmount.DiskUp O F st) (hentry : entry.IsZramDisk zmount.mp)
      (hmounts : Mounts st st' entry)
  | fallback (entry : MountEntry) (hdown : ¬ zmount.DiskUp O F st)
      (hup : zmount.FallbackUp O F st) (hentry : entry.IsTmpfs zmount.mp)
      (hmounts : Mounts st st' entry)
  | nothing (hdown : ¬ zmount.DiskUp O F st) (hfallback : ¬ zmount.FallbackUp O F st)
      (hmounts : st'.mounts = st.mounts)

variable {O F}

theorem tmpfsOutcome (zmount : ZramTmpfsConfig) (st : DiskState) :
    TmpfsOutcome O F zmount st
      (if (zramDoZramTmpfs O F zmount st).1 > 0
        then zramDoNormalTmpfs O zmount (zramDoZramTmpfs O F zmount st).2
        else zramDoZramTmpfs O F zmount st).2 := by
  rcases zramDoZramTmpfs_cases O F zmount st with ⟨hup, hret, entry, hentry, hmount⟩ | ⟨hdown, hmount⟩
  · rw [if_neg (not_lt.2 hret)]
    exact .disk entry hup hentry hmount
  · split_ifs with hret
    · rcases zramDoNormalTmpfs_cases O zmount (zramDoZramTmpfs O F zmount st).2 with
        ⟨h0, entry, hentry, hmount'⟩ | ⟨h0, hmount'⟩
      · refine .fallback entry hdown ⟨hret, h0⟩ hentry ?_
        unfold Mounts at hmount' ⊢
        rw [hmount', hmount]
      · exact .nothing hdown (fun hfallback => h0 hfallback.2) (hmount'.trans hmount)
    · exact .nothing hdown (fun hfallback => hret hfallback.1) hmount

section
variable {host : Host} {name mp : Option CStr} {flags : Flags} {opts sizeSpec : Option CStr}
  {sysMemsizeM : UInt64} {defaultMode : UInt32} {st : DiskState}

variable (O F host name mp flags opts sizeSpec sysMemsizeM defaultMode st) in
/-- **What `zram_tmpfs` does**: it rejects the config with -1, or returns 0
    whatever the steps after parsing do. -/
theorem zramTmpfs_cases :
    let r := zramTmpfs O F host name mp flags opts sizeSpec sysMemsizeM defaultMode st
    (tmpfsConfig host name mp flags opts sizeSpec sysMemsizeM defaultMode = none ∧ r.1 = -1) ∨
      ∃ zmount, tmpfsConfig host name mp flags opts sizeSpec sysMemsizeM defaultMode =
        some zmount ∧ mp = some zmount.mp ∧ r.1 = 0 ∧ TmpfsOutcome O F zmount st r.2 := by
  cases mp with
  | none => exact Or.inl ⟨rfl, rfl⟩
  | some path =>
    have hmp := zramTmpfsConfigParse_mp host name path flags opts sizeSpec sysMemsizeM defaultMode
    simp only [zramTmpfs, tmpfsConfig, Option.bind_some]
    set p := zramTmpfsConfigParse host name path flags opts sizeSpec sysMemsizeM defaultMode with hp
    by_cases hret : p.1 ≠ 0
    · simp only [if_pos hret]
      exact Or.inl ⟨trivial, trivial⟩
    · simp only [if_neg hret]
      exact Or.inr ⟨p.2, rfl, by rw [hmp], trivial, tmpfsOutcome p.2 st⟩

theorem Mounts.inj {st st' : DiskState} {entry entry' : MountEntry} (h : Mounts st st' entry)
    (h' : Mounts st st' entry') : entry = entry' := by
  have heq := List.append_cancel_left (h.symm.trans h')
  exact List.cons.inj heq |>.1

theorem Mounts.ne {st st' : DiskState} {entry : MountEntry} (h : Mounts st st' entry) :
    st'.mounts ≠ st.mounts := by
  intro hsame
  rw [h] at hsame
  simp at hsame

/-- What is mounted is a zram disk only if all steps succeed. -/
theorem TmpfsOutcome.diskUp {zmount : ZramTmpfsConfig} {st st' : DiskState}
    (h : TmpfsOutcome O F zmount st st') {path : CStr} {entry : MountEntry}
    (hentry : entry.IsZramDisk path) (hmounts : Mounts st st' entry) : zmount.DiskUp O F st := by
  cases h with
  | disk _ hup => exact hup
  | fallback entry' _ _ hentry' hmounts' =>
    have hfstype := hentry.fstype
    rw [hmounts.inj hmounts', hentry'.fstype] at hfstype
    exact absurd hfstype (by simp)
  | nothing _ _ hmounts' => exact absurd hmounts' hmounts.ne

/-- **The return code says what is mounted** if and only if the config is rejected
    or the zram disk can be set up and mounted. -/
theorem zramTmpfs_report_iff :
    TmpfsReport st mp (zramTmpfs O F host name mp flags opts sizeSpec sysMemsizeM defaultMode st) ↔
      ∀ zmount, tmpfsConfig host name mp flags opts sizeSpec sysMemsizeM defaultMode =
        some zmount → zmount.DiskUp O F st := by
  have hcases := zramTmpfs_cases O F host name mp flags opts sizeSpec sysMemsizeM defaultMode st
  rcases hcases with ⟨hconfig, hret⟩ | ⟨zmount, hconfig, hmp, hret, hout⟩
  · refine iff_of_true ⟨fun h => ?_, fun h => ?_, fun _ _ => ?_⟩ fun zmount h => ?_
    · rw [hret] at h; cases h
    · rw [hret] at h; cases h
    · rw [hret]; decide
    · rw [hconfig] at h; cases h
  · rw [hconfig]
    constructor
    · rintro ⟨hzero, -, -⟩ zmount' h
      obtain rfl : zmount = zmount' := Option.some.inj h
      obtain ⟨path, entry, -, hentry, hmounts⟩ := hzero hret
      exact hout.diskUp hentry hmounts
    · intro h
      have hup := h zmount rfl
      refine ⟨fun _ => ?_, fun h1 => ?_, fun h0 => absurd hret h0⟩
      · cases hout with
        | disk entry _ hentry hmounts => exact ⟨_, entry, hmp, hentry, hmounts⟩
        | fallback _ hdown | nothing hdown => exact absurd hup hdown
      · rw [hret] at h1; cases h1

/-- **A return code of 0 comes with a mount** if and only if the config is
    rejected, or the zram disk or the fallback can be mounted. -/
theorem zramTmpfs_zero_iff :
    ((zramTmpfs O F host name mp flags opts sizeSpec sysMemsizeM defaultMode st).1 = 0 →
      SomethingMounted st mp
        (zramTmpfs O F host name mp flags opts sizeSpec sysMemsizeM defaultMode st).2) ↔
      ∀ zmount, tmpfsConfig host name mp flags opts sizeSpec sysMemsizeM defaultMode =
        some zmount → zmount.DiskUp O F st ∨ zmount.FallbackUp O F st := by
  have hcases := zramTmpfs_cases O F host name mp flags opts sizeSpec sysMemsizeM defaultMode st
  rcases hcases with ⟨hconfig, hret⟩ | ⟨zmount, hconfig, hmp, hret, hout⟩
  · refine iff_of_true (fun h => ?_) fun zmount h => ?_
    · rw [hret] at h; cases h
    · rw [hconfig] at h; cases h
  · rw [hconfig]
    constructor
    · intro hmounted zmount' h
      obtain rfl : zmount = zmount' := Option.some.inj h
      obtain ⟨path, entry, -, -, hmounts⟩ := hmounted hret
      cases hout with
      | disk _ hup => exact Or.inl hup
      | fallback _ _ hup => exact Or.inr hup
      | nothing _ _ hmounts' => exact absurd hmounts' hmounts.ne
    · intro h _
      cases hout with
      | disk entry _ hentry hmounts => exact ⟨_, entry, hmp, hentry.target, hmounts⟩
      | fallback entry _ _ hentry hmounts => exact ⟨_, entry, hmp, hentry.target, hmounts⟩
      | nothing hdown hfallback =>
        rcases h zmount rfl with hup | hup
        · exact absurd hup hdown
        · exact absurd hup hfallback

end

end

end Fischstaebchen
