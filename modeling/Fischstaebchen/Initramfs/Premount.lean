/-
  Premounting the entries of an fstab (`initramfs/premount.c`) and the newroot
  tmpdir (`initramfs/hacks.c`).

  `initramfs_premount_all` mounts the entries of a file that pass a filter,
  `initramfs_premount_all_nofilter` all entries of a file.

  * `mountRun`: the attempts that mounting all entries in order makes.
  * `premountAllNofilter_run`, `premountAll_run`: what the two functions do if
    all entries pass the filter.
  * `premountAgrees_iff`: when they agree.
  * `premountAgrees_mountThatEntry`: the same for `_mount_that_entry`.
-/
import Fischstaebchen.Initramfs.Domount
import Fischstaebchen.Initramfs.Hacks

namespace Fischstaebchen

/-- `struct mntent`, as it is read from an fstab. -/
structure FstabEntry where
  mntFsname : CStr
  mntDir : CStr
  mntType : CStr
  mntOpts : CStr
  deriving DecidableEq

/-! ## One entry -/

/-- What `_mount_that_entry` asks the system: `hasmntopt` (the position of an
    option), `is_mounted`, `access` with `F_OK`, and whether the network is up. -/
structure PremountSystem where
  hasmntopt : FstabEntry → CStr → Option ℕ
  isMounted : CStr → DiskState → ℤ
  fileExists : CStr → DiskState → Bool
  haveNetwork : ℤ

/-- `join_str_pair`: the string that is returned. -/
def joinStrPair (left right : CStr) : CStr := left ++ right

/-- `join_str_triple`: the string that is returned.  Its buffer has no room for
    `middle`; here the write behind it does no harm. -/
def joinStrTriple (left middle right : CStr) : CStr := left ++ middle ++ right

/-- `mount_config_assign_opts_str`: the return code and the config. -/
def mountConfigAssignOptsStr (p : MountConfig) (optsStr : Option CStr) : ℤ × MountConfig :=
  let r := parseMountOptsStr optsStr
  (r.1, { p with flags := r.2.1, opts := r.2.2 })

/-- `PREMOUNT_*`, as numbers. -/
def PremountRet.code : PremountRet → ℤ
  | .success => 0
  | .failedToMount => 1
  | .cannotMount => 2

section
variable (O : Outcomes) (F : Faults) (host : Host) (sys : PremountSystem)
  (domountFromConfig : MountConfig → DiskState → ℤ × DiskState) (g : InitramfsGlobals)

/-- `_init_mount_config_from_opts_str_and_autoset`. -/
def initMountConfigFromOptsStrAndAutoset (root fs mp fstype optsStr : CStr) (st : DiskState) :
    ℤ × MountConfig :=
  let mc := mountConfigInit none (some mp) (some fstype) 0#64 none mountCfgIsEnabled
  let mc :=
    -- could be a loop file
    if fs.head? = some '/' ∧ strStartswith fs "/dev/".toList = none ∧
        sys.fileExists (joinStrPair root fs) st then
      { mc.enable mountCfgNeedLoop with source := some (joinStrPair root fs) }
    else mc
  let mc := if mc.source = none then (mc.setSource (some fs)).2 else mc
  let r := mountConfigAssignOptsStr mc (some optsStr)
  if r.1 ≠ 0 then (-1, r.2)
  else
    let r := mountConfigAutoset r.2
    if r.1 ≠ 0 then (-1, r.2) else (0, r.2)

/-- `_mount_get_mount_opt`. -/
def mountGetMountOpt (entry : FstabEntry) (opt : CStr) (isBareword : Bool) : Option CStr :=
  if opt.length < 1 then none
  else
    match sys.hasmntopt entry opt with
    | none => none
    | some k =>
      if k ≠ 0 ∧ entry.mntOpts[k - 1]? ≠ some ',' then none
      else
        match entry.mntOpts.drop (k + opt.length) with
        | [] => some "1".toList
        | c :: value =>
          if c = ',' then some "1".toList
          else if c = '=' then (if isBareword then none else some value)
          else none

/-- `_create_bind_mount_source_dir_in_newroot`. -/
def createBindMountSourceDirInNewroot (source : Option CStr) (st : DiskState) : ℤ × DiskState :=
  match source with
  | none | some [] => (0, st)
  | some (c :: source) =>
    let dir := if c = '/' then newrootMountpoint else newrootMountpoint ++ "/".toList
    performOp O (.makedirs (joinStrPair dir (c :: source))) st

/-- The part of `_mount_that_entry` that mounts an ordinary file system. -/
def mountOrdinaryEntry (root mp : CStr) (entry : FstabEntry) (st : DiskState) : ℤ × DiskState :=
  let r := initMountConfigFromOptsStrAndAutoset sys root entry.mntFsname mp entry.mntType
    entry.mntOpts st
  if r.1 ≠ 0 then (-1, st)
  else
    let mc := r.2
    let mc := if mountGetMountOpt sys entry "loop".toList true ≠ none then
      mc.enable mountCfgNeedLoop else mc
    let mc := if mountGetMountOpt sys entry "_netdev".toList true ≠ none then
      mc.enable mountCfgNeedNetwork else mc
    if mc.cfg &&& mountCfgNeedNetwork ≠ 0#64 ∧ sys.haveNetwork < 1 then
      (PremountRet.cannotMount.code, st)
    else
      -- a failure here is only a warning
      let st := if mountGetMountOpt sys entry "bind".toList true ≠ none then
        (createBindMountSourceDirInNewroot O mc.source st).2 else st
      let r := initramfsDomount O F host domountFromConfig g mc st
      if r.1 = 0 then (PremountRet.success.code, r.2) else (PremountRet.failedToMount.code, r.2)

/-- `_mount_that_entry`. -/
def mountThatEntry (root mp : CStr) (entry : FstabEntry) (st : DiskState) : ℤ × DiskState :=
  let ztmpfs := fun (name : Option CStr) (isTmpfs : ℤ) =>
    let r := mountZtmpfsEntry O F host g name (some mp) (some entry.mntOpts) isTmpfs st
    (r.1.code, r.2)
  if sys.hasmntopt entry "x-nopremount".toList ≠ none then (PremountRet.cannotMount.code, st)
  else if streqSwitch entry.mntType ["swap", "ignore"] ≠ none then
    (PremountRet.cannotMount.code, st)
  -- if it is not known whether it is mounted, it is mounted
  else if sys.isMounted mp st = 0 then (PremountRet.success.code, st)
  else
    match streqSwitch entry.mntType ["swap", "ignore", "ztmpfs", "zdisk", "auto"] with
    | none => mountOrdinaryEntry O F host sys domountFromConfig g root mp entry st
    | some 0 | some 1 => (PremountRet.cannotMount.code, st)
    | some 2 => ztmpfs (some entry.mntFsname) 1
    | some 3 => ztmpfs (some entry.mntFsname) 0
    | some 4 =>
      match streqSwitch entry.mntFsname ["ztmpfs", "zdisk"] with
      | some 0 => ztmpfs none 1
      | some 1 => ztmpfs none 0
      | _ => mountOrdinaryEntry O F host sys domountFromConfig g root mp entry st
    | some _ => (-1, st)

end

/-! ## All entries -/

/-- `INITRAMFS_HAVEMNT_TMP`. -/
def initramfsHavemntTmp : BitVec 32 := 0x1

/-- A call of `_mount_that_entry`. -/
structure Attempt where
  mp : CStr
  entry : FstabEntry
  ret : ℤ
  deriving DecidableEq

/-- `initramfs_globals->premount_status`, the calls of `_mount_that_entry` so far
    and the state of the system. -/
structure PremountState (σ : Type*) where
  premountStatus : BitVec 32
  attempts : List Attempt
  sys : σ

section
variable {σ : Type*} (mountThatEntry : CStr → CStr → FstabEntry → σ → ℤ × σ) (root : CStr)

/-- The path that is mounted for the mountpoint `relMp` below `root`. -/
def premountPath (relMp : CStr) : CStr :=
  joinStrTriple root "/".toList (if relMp.head? = some '/' then relMp.tail else relMp)

/-- What a return code of `_mount_that_entry` does to the return code of all;
    the latter is an `int`. -/
def addRet (retcode : BitVec 32) (ret : ℤ) : BitVec 32 :=
  if ret = 0 then retcode
  else if ret = 1 then retcode ||| 2#32
  else if ret = 2 then retcode
  else -1#32

/-- `_initramfs_premount_all__mount`: the return code, and the return code of all
    with the state. -/
def premountAllMount (relMp : CStr) (entry : FstabEntry) (s : BitVec 32 × PremountState σ) :
    ℤ × BitVec 32 × PremountState σ :=
  let mp := premountPath root relMp
  let r := mountThatEntry root mp entry s.2.sys
  let st := { s.2 with attempts := s.2.attempts ++ [⟨mp, entry, r.1⟩], sys := r.2 }
  (if r.1 = 1 then 2 else r.1, addRet s.1 r.1, st)

/-- An iteration of `initramfs_premount_all_nofilter`. -/
def premountEntryNofilter (s : BitVec 32 × PremountState σ) (entry : FstabEntry) :
    BitVec 32 × PremountState σ :=
  if strIsEmpty (some entry.mntDir) ∨ entry.mntDir.head? ≠ some '/' then s
  else (premountAllMount mountThatEntry root entry.mntDir entry s).2

/-- `initramfs_premount_all_nofilter`; `none` is a file that cannot be opened. -/
def initramfsPremountAllNofilter (fstab : Option (List FstabEntry)) (st : PremountState σ) :
    BitVec 32 × PremountState σ :=
  match fstab with
  | none => (1#32, st)
  | some entries => entries.foldl (premountEntryNofilter mountThatEntry root) (0#32, st)

/-- The mountpoints that pass the filter. -/
def premountDirs : List String :=
  ["/tmp", "/run", "/mnt", "/media", "/data", "/UNION_ROOT", "/usr", "/var", "/etc"]

/-- Whatever is below these mountpoints passes the filter, too. -/
def premountPrefixes : List String := ["/usr/", "/var/", "/etc/", "/UNION_ROOT/"]

/-- An iteration of `initramfs_premount_all`. -/
def premountEntry (s : BitVec 32 × PremountState σ) (entry : FstabEntry) :
    BitVec 32 × PremountState σ :=
  let mp := entry.mntDir
  if strIsEmpty (some mp) ∨ mp.head? ≠ some '/' ∨ mp.tail = [] then s
  else
    match streqSwitch mp premountDirs with
    | none =>
      if ∃ p ∈ premountPrefixes, strStartswith mp p.toList ≠ none then
        (premountAllMount mountThatEntry root mp entry s).2
      else s
    | some 0 =>
      let r := premountAllMount mountThatEntry root mp entry s
      if r.1 = 0 then
        (r.2.1, { r.2.2 with premountStatus := r.2.2.premountStatus ||| initramfsHavemntTmp })
      else r.2
    | some _ => (premountAllMount mountThatEntry root mp entry s).2

/-- `initramfs_premount_all`. -/
def initramfsPremountAll (fstab : Option (List FstabEntry)) (st : PremountState σ) :
    BitVec 32 × PremountState σ :=
  match fstab with
  | none => (1#32, st)
  | some entries => entries.foldl (premountEntry mountThatEntry root) (0#32, st)

end

/-- `initramfs_mount_newroot_tmpdir`. -/
def initramfsMountNewrootTmpdir {σ : Type*} (basemountsMountTmp : CStr → σ → ℤ × σ)
    (st : PremountState σ) (env : Environ) : ℤ × PremountState σ × Environ :=
  let r :=
    if st.premountStatus &&& initramfsHavemntTmp = 0#32 then
      let r := basemountsMountTmp (getNewrootPath "/tmp") st.sys
      let st := { st with sys := r.2 }
      if r.1 = 0 then
        (r.1, { st with premountStatus := st.premountStatus ||| initramfsHavemntTmp })
      else (r.1, st)
    else (0, st)
  (r.1, r.2, exportEnvShbool "HAVE_NEWROOT_TMP"
    (r.2.premountStatus &&& initramfsHavemntTmp).toNat env)

/-! ## Mounting in order -/

section
variable {σ : Type*} (mountThatEntry : CStr → CStr → FstabEntry → σ → ℤ × σ) (root : CStr)

/-- Mounting entries in order, whatever their mountpoints are: the attempts and
    the state of the system. -/
def mountRun : List FstabEntry → σ → List Attempt × σ
  | [], sys => ([], sys)
  | entry :: entries, sys =>
    let mp := premountPath root entry.mntDir
    let r := mountThatEntry root mp entry sys
    let run := mountRun entries r.2
    (⟨mp, entry, r.1⟩ :: run.1, run.2)

/-- A mountpoint that passes the filter of `initramfs_premount_all`. -/
def PremountWanted (mp : CStr) : Prop :=
  (∃ d ∈ premountDirs, mp = d.toList) ∨ ∃ p ∈ premountPrefixes, p.toList <+: mp

/-- An attempt that has mounted `/tmp`. -/
def Attempt.MountsTmp (a : Attempt) : Prop := a.entry.mntDir = "/tmp".toList ∧ a.ret = 0

instance (a : Attempt) : Decidable a.MountsTmp := inferInstanceAs (Decidable (_ ∧ _))

/-- The premount status after some attempts, if it is kept up to date. -/
def tmpStatus (status : BitVec 32) (attempts : List Attempt) : BitVec 32 :=
  if ∃ a ∈ attempts, a.MountsTmp then status ||| initramfsHavemntTmp else status

theorem tmpStatus_cons (status : BitVec 32) (a : Attempt) (attempts : List Attempt) :
    tmpStatus status (a :: attempts) =
      tmpStatus (if a.MountsTmp then status ||| initramfsHavemntTmp else status) attempts := by
  have hidem : ∀ s : BitVec 32, s ||| initramfsHavemntTmp ||| initramfsHavemntTmp =
      s ||| initramfsHavemntTmp := fun s => by rw [BitVec.or_assoc, BitVec.or_self]
  unfold tmpStatus
  by_cases ha : a.MountsTmp
  · simp only [List.exists_mem_cons_iff, ha, true_or, if_true]
    split_ifs
    · exact (hidem status).symm
    · rfl
  · simp only [List.exists_mem_cons_iff, ha, false_or, if_false]

/-- A mountpoint that passes the filter is a path other than `/`. -/
theorem PremountWanted.path {mp : CStr} (h : PremountWanted mp) :
    ∃ c rest, mp = '/' :: c :: rest := by
  rcases h with ⟨d, hd, rfl⟩ | ⟨p, hp, t, rfl⟩
  · simp only [premountDirs, List.mem_cons, List.not_mem_nil, or_false] at hd
    rcases hd with rfl | rfl | rfl | rfl | rfl | rfl | rfl | rfl | rfl <;> exact ⟨_, _, rfl⟩
  · simp only [premountPrefixes, List.mem_cons, List.not_mem_nil, or_false] at hp
    rcases hp with rfl | rfl | rfl | rfl <;> exact ⟨_, _, rfl⟩

section
variable {mountThatEntry root} {entry : FstabEntry} (s : BitVec 32 × PremountState σ)

theorem premountEntryNofilter_wanted (h : PremountWanted entry.mntDir) :
    premountEntryNofilter mountThatEntry root s entry =
      (premountAllMount mountThatEntry root entry.mntDir entry s).2 := by
  obtain ⟨c, rest, hmp⟩ := h.path
  rw [premountEntryNofilter, if_neg (by rw [hmp]; simp [strIsEmpty])]

/-- **The filter** lets an entry pass as it is, except that a successful mount of
    `/tmp` is noted. -/
theorem premountEntry_wanted (h : PremountWanted entry.mntDir) :
    premountEntry mountThatEntry root s entry =
      let r := premountAllMount mountThatEntry root entry.mntDir entry s
      if entry.mntDir = "/tmp".toList ∧ r.1 = 0 then
        (r.2.1, { r.2.2 with premountStatus := r.2.2.premountStatus ||| initramfsHavemntTmp })
      else r.2 := by
  obtain ⟨c, rest, hmp⟩ := h.path
  have hpath : ¬ (strIsEmpty (some entry.mntDir) ∨ entry.mntDir.head? ≠ some '/' ∨
      entry.mntDir.tail = []) := by
    rw [hmp]; simp [strIsEmpty]
  rw [premountEntry]
  dsimp only
  rw [if_neg hpath]
  cases hswitch : streqSwitch entry.mntDir premountDirs with
  | none =>
    have hnot := streqSwitch_eq_none.1 hswitch
    have htmp : entry.mntDir ≠ "/tmp".toList := hnot "/tmp" (by simp [premountDirs])
    rcases h with ⟨d, hd, heq⟩ | ⟨p, hp, hpre⟩
    · exact absurd heq (hnot d hd)
    · have hprefix : ∃ p ∈ premountPrefixes, strStartswith entry.mntDir p.toList ≠ none :=
        ⟨p, hp, fun hnone => strStartswith_eq_none.1 hnone hpre⟩
      dsimp only
      rw [if_pos hprefix, if_neg fun h => htmp h.1]
  | some k =>
    obtain ⟨d, hd, hdir⟩ := streqSwitch_eq_some hswitch
    have hfirst : streqSwitch "/tmp".toList premountDirs = some 0 := rfl
    cases k with
    | zero =>
      have htmp : entry.mntDir = "/tmp".toList := by
        rw [hdir, show d = "/tmp" from (Option.some.inj hd).symm]
      simp only [htmp, true_and]
    | succ k =>
      have htmp : entry.mntDir ≠ "/tmp".toList := by
        intro heq
        rw [heq, hfirst] at hswitch
        cases hswitch
      show (premountAllMount mountThatEntry root entry.mntDir entry s).2 = _
      rw [if_neg fun h => htmp h.1]

end

/-- **Without the filter**, all entries are mounted and the status is kept. -/
theorem premountAllNofilter_run : ∀ (entries : List FstabEntry) (retcode : BitVec 32)
    (st : PremountState σ), (∀ e ∈ entries, PremountWanted e.mntDir) →
    entries.foldl (premountEntryNofilter mountThatEntry root) (retcode, st) =
      (((mountRun mountThatEntry root entries st.sys).1.map Attempt.ret).foldl addRet retcode,
        { premountStatus := st.premountStatus
          attempts := st.attempts ++ (mountRun mountThatEntry root entries st.sys).1
          sys := (mountRun mountThatEntry root entries st.sys).2 })
  | [], retcode, st, _ => by simp [mountRun]
  | entry :: entries, retcode, st, h => by
    rw [List.foldl_cons, premountEntryNofilter_wanted _ (h entry (by simp)), premountAllMount]
    dsimp only
    rw [premountAllNofilter_run entries _ _ fun e he => h e (by simp [he])]
    simp [mountRun]

/-- **With the filter**, the same is done, and the status is kept up to date. -/
theorem premountAll_run : ∀ (entries : List FstabEntry) (retcode : BitVec 32)
    (st : PremountState σ), (∀ e ∈ entries, PremountWanted e.mntDir) →
    entries.foldl (premountEntry mountThatEntry root) (retcode, st) =
      (((mountRun mountThatEntry root entries st.sys).1.map Attempt.ret).foldl addRet retcode,
        { premountStatus :=
            tmpStatus st.premountStatus (mountRun mountThatEntry root entries st.sys).1
          attempts := st.attempts ++ (mountRun mountThatEntry root entries st.sys).1
          sys := (mountRun mountThatEntry root entries st.sys).2 })
  | [], retcode, st, _ => by simp [mountRun, tmpStatus]
  | entry :: entries, retcode, st, h => by
    have hret : ∀ ret : ℤ, (if ret = 1 then 2 else ret) = 0 ↔ ret = 0 := by
      intro ret
      split_ifs with h1
      · simp [h1]
      · rfl
    rw [List.foldl_cons, premountEntry_wanted _ (h entry (by simp)), premountAllMount]
    dsimp only
    simp only [hret]
    rw [mountRun]
    dsimp only
    rw [tmpStatus_cons]
    set r := mountThatEntry root (premountPath root entry.mntDir) entry st.sys
    by_cases htmp : entry.mntDir = "/tmp".toList ∧ r.1 = 0
    · have hmounts : (⟨premountPath root entry.mntDir, entry, r.1⟩ : Attempt).MountsTmp := htmp
      rw [if_pos htmp, if_pos hmounts, premountAll_run entries _ _ fun e he => h e (by simp [he])]
      simp
    · have hmounts : ¬ (⟨premountPath root entry.mntDir, entry, r.1⟩ : Attempt).MountsTmp := htmp
      rw [if_neg htmp, if_neg hmounts, premountAll_run entries _ _ fun e he => h e (by simp [he])]
      simp

end

/-! ## Agreement -/

/-- The newroot tmpdir is not mounted again, whatever its mount would do. -/
def KeepsTmp {σ : Type*} (st : PremountState σ) : Prop :=
  ∀ (basemountsMountTmp : CStr → σ → ℤ × σ) (env : Environ),
    (initramfsMountNewrootTmpdir basemountsMountTmp st env).1 = 0 ∧
      (initramfsMountNewrootTmpdir basemountsMountTmp st env).2.1 = st

/-- The filtered and the unfiltered function attempt the same mounts, return the
    same code and leave the same status; and if one of them has mounted `/tmp`,
    this is noted and `/tmp` is not mounted again. -/
structure PremountAgrees {σ : Type*} (mountThatEntry : CStr → CStr → FstabEntry → σ → ℤ × σ)
    (root : CStr) (fstab : Option (List FstabEntry)) (st : PremountState σ) : Prop where
  attempts : (initramfsPremountAll mountThatEntry root fstab st).2.attempts =
    (initramfsPremountAllNofilter mountThatEntry root fstab st).2.attempts
  retcode : (initramfsPremountAll mountThatEntry root fstab st).1 =
    (initramfsPremountAllNofilter mountThatEntry root fstab st).1
  premountStatus : (initramfsPremountAll mountThatEntry root fstab st).2.premountStatus =
    (initramfsPremountAllNofilter mountThatEntry root fstab st).2.premountStatus
  tmp : ∀ f ∈ [initramfsPremountAll mountThatEntry, initramfsPremountAllNofilter mountThatEntry],
    (∃ a ∈ (f root fstab st).2.attempts.drop st.attempts.length, a.MountsTmp) →
      (f root fstab st).2.premountStatus &&& initramfsHavemntTmp ≠ 0#32 ∧
        KeepsTmp (f root fstab st).2

theorem keepsTmp_of_status {σ : Type*} {st : PremountState σ}
    (h : st.premountStatus &&& initramfsHavemntTmp ≠ 0#32) : KeepsTmp st := by
  intro basemountsMountTmp env
  rw [initramfsMountNewrootTmpdir, if_neg h]
  exact ⟨rfl, rfl⟩

theorem or_havemntTmp (status : BitVec 32) :
    (status ||| initramfsHavemntTmp) &&& initramfsHavemntTmp ≠ 0#32 := by
  rw [BitVec.and_or_distrib_right, BitVec.and_self]
  intro h
  have hbit := congrArg (fun v : BitVec 32 => v.getLsbD 0) h
  simp [initramfsHavemntTmp] at hbit

/-- The flag is one bit. -/
theorem or_havemntTmp_eq_iff (status : BitVec 32) :
    status ||| initramfsHavemntTmp = status ↔ status &&& initramfsHavemntTmp ≠ 0#32 := by
  refine ⟨fun h => h ▸ or_havemntTmp status, fun h => ?_⟩
  have hbit : status.getLsbD 0 = true := by
    by_contra hnot
    refine h (BitVec.eq_of_getLsbD_eq fun i hi => ?_)
    cases i with
    | zero => simpa [initramfsHavemntTmp] using hnot
    | succ i => simp [initramfsHavemntTmp, BitVec.getLsbD_one]
  refine BitVec.eq_of_getLsbD_eq fun i hi => ?_
  cases i with
  | zero => simp [initramfsHavemntTmp, hbit]
  | succ i => simp [initramfsHavemntTmp, BitVec.getLsbD_one]

theorem premountAgrees_entries_iff {σ : Type*}
    (mountThatEntry : CStr → CStr → FstabEntry → σ → ℤ × σ) (root : CStr)
    {entries : List FstabEntry} (h : ∀ e ∈ entries, PremountWanted e.mntDir)
    (st : PremountState σ) :
    PremountAgrees mountThatEntry root (some entries) st ↔
      st.premountStatus &&& initramfsHavemntTmp ≠ 0#32 ∨
        ∀ a ∈ (mountRun mountThatEntry root entries st.sys).1, ¬ a.MountsTmp := by
  have hall : initramfsPremountAll mountThatEntry root (some entries) st = _ :=
    premountAll_run mountThatEntry root entries 0#32 st h
  have hnofilter : initramfsPremountAllNofilter mountThatEntry root (some entries) st = _ :=
    premountAllNofilter_run mountThatEntry root entries 0#32 st h
  set run := mountRun mountThatEntry root entries st.sys
  constructor
  · intro hagrees
    by_cases hex : ∃ a ∈ run.1, a.MountsTmp
    · have hstatus := hagrees.premountStatus
      rw [hall, hnofilter] at hstatus
      dsimp only at hstatus
      rw [tmpStatus, if_pos hex] at hstatus
      exact .inl ((or_havemntTmp_eq_iff _).1 hstatus)
    · exact .inr fun a ha hmounts => hex ⟨a, ha, hmounts⟩
  · intro hcond
    have hstatus : tmpStatus st.premountStatus run.1 = st.premountStatus := by
      rw [tmpStatus]
      split_ifs with hex
      · obtain ⟨a, ha, hmounts⟩ := hex
        exact (or_havemntTmp_eq_iff _).2 (hcond.resolve_right fun hnone => hnone a ha hmounts)
      · rfl
    rw [hstatus] at hall
    refine ⟨by rw [hall, hnofilter], by rw [hall, hnofilter], by rw [hall, hnofilter], ?_⟩
    -- both leave the same state, in which the flag is that of `st`
    have hresult : ∀ f ∈ [initramfsPremountAll mountThatEntry,
        initramfsPremountAllNofilter mountThatEntry], f root (some entries) st =
          ((run.1.map Attempt.ret).foldl addRet 0#32,
            ⟨st.premountStatus, st.attempts ++ run.1, run.2⟩) := by
      intro f hf
      simp only [List.mem_cons, List.not_mem_nil, or_false] at hf
      rcases hf with rfl | rfl
      · exact hall
      · exact hnofilter
    rintro f hf ⟨a, ha, hmounts⟩
    rw [hresult f hf] at ha ⊢
    dsimp only at ha ⊢
    rw [List.drop_left] at ha
    have hflag := hcond.resolve_right fun hnone => hnone a ha hmounts
    exact ⟨hflag, keepsTmp_of_status hflag⟩

/-- **When the two functions agree**, whatever the outcomes of the mounts are:
    the flag is set already, or `/tmp` is not mounted successfully.
    `initramfs_premount_all_nofilter` never sets the flag. -/
theorem premountAgrees_iff {σ : Type*} (mountThatEntry : CStr → CStr → FstabEntry → σ → ℤ × σ)
    (root : CStr) {fstab : Option (List FstabEntry)}
    (h : ∀ e ∈ fstab.getD [], PremountWanted e.mntDir) (st : PremountState σ) :
    PremountAgrees mountThatEntry root fstab st ↔
      st.premountStatus &&& initramfsHavemntTmp ≠ 0#32 ∨
        ∀ a ∈ (mountRun mountThatEntry root (fstab.getD []) st.sys).1, ¬ a.MountsTmp := by
  cases fstab with
  | some entries => exact premountAgrees_entries_iff mountThatEntry root h st
  | none =>
    -- no file, no attempts
    refine iff_of_true ⟨rfl, rfl, rfl, ?_⟩ (.inr fun a ha => absurd ha List.not_mem_nil)
    rintro f hf ⟨a, ha, -⟩
    have hresult : f root none st = (1#32, st) := by
      simp only [List.mem_cons, List.not_mem_nil, or_false] at hf
      rcases hf with rfl | rfl <;> rfl
    rw [hresult, List.drop_length] at ha
    exact absurd ha List.not_mem_nil

/-- The same for the mounts of `_mount_that_entry`. -/
theorem premountAgrees_mountThatEntry (O : Outcomes) (F : Faults) (host : Host)
    (sys : PremountSystem) (domountFromConfig : MountConfig → DiskState → ℤ × DiskState)
    (g : InitramfsGlobals) (root : CStr) {entries : List FstabEntry}
    (h : ∀ e ∈ entries, PremountWanted e.mntDir) (st : PremountState DiskState)
    (hnew : st.premountStatus &&& initramfsHavemntTmp = 0#32) :
    PremountAgrees (mountThatEntry O F host sys domountFromConfig g) root (some entries) st ↔
      ∀ a ∈ (mountRun (mountThatEntry O F host sys domountFromConfig g) root entries st.sys).1,
        ¬ a.MountsTmp := by
  rw [premountAgrees_entries_iff _ root h, or_iff_right (not_not.2 hnew)]

/-- `strstr`: the position of the first occurrence. -/
def strstr (pat : CStr) : CStr → Option ℕ
  | [] => if pat = [] then some 0 else none
  | c :: s => if pat.isPrefixOf (c :: s) then some 0 else (strstr pat s).map (· + 1)

/-- Nothing is mounted yet, all files exist, the network is down, and `hasmntopt`
    searches for a substring. -/
def samplePremountSystem : PremountSystem where
  hasmntopt entry opt := strstr opt entry.mntOpts
  isMounted _ _ := 1
  fileExists _ _ := true
  haveNetwork := 0

/-- A system on which all mounts succeed. -/
def sampleMount : CStr → CStr → FstabEntry → DiskState → ℤ × DiskState :=
  mountThatEntry (fun _ _ => 0) noFaults sampleHost samplePremountSystem
    (fun _ st => (0, st)) (initramfsGlobalsInit sampleHost)

def usrEntry : FstabEntry :=
  ⟨"/dev/sda2".toList, "/usr".toList, "ext4".toList, "ro".toList⟩

def tmpEntry : FstabEntry :=
  ⟨"tmp".toList, "/tmp".toList, "tmpfs".toList, "size=1g".toList⟩

/-- Before premounting. -/
def samplePremountState : PremountState DiskState := ⟨0#32, [], freshDisks⟩

/-- An fstab with `/usr` only. -/
theorem premountAgrees_usr :
    PremountAgrees sampleMount newrootMountpoint (some [usrEntry]) samplePremountState ↔
      samplePremountState.premountStatus &&& initramfsHavemntTmp ≠ 0#32 ∨
        ∀ a ∈ (mountRun sampleMount newrootMountpoint ((some [usrEntry]).getD [])
          samplePremountState.sys).1, ¬ a.MountsTmp :=
  premountAgrees_iff sampleMount newrootMountpoint
    (fun e he => .inl ⟨"/usr", by decide, by rw [List.mem_singleton.1 he]; rfl⟩) _

/-- Without the filter, it is not noted that `/tmp` has been mounted, and a second
    tmpfs is mounted over it. -/
theorem premountAgrees_tmp :
    PremountWanted tmpEntry.mntDir ∧
      (initramfsPremountAll sampleMount newrootMountpoint (some [tmpEntry])
        samplePremountState).2.premountStatus = initramfsHavemntTmp ∧
      (initramfsPremountAllNofilter sampleMount newrootMountpoint (some [tmpEntry])
        samplePremountState).2.premountStatus = 0#32 ∧
      (initramfsPremountAllNofilter sampleMount newrootMountpoint (some [tmpEntry])
        samplePremountState).2.attempts = [⟨"/newroot/tmp".toList, tmpEntry, 0⟩] ∧
      ¬ KeepsTmp (initramfsPremountAllNofilter sampleMount newrootMountpoint (some [tmpEntry])
        samplePremountState).2 ∧
      ¬ PremountAgrees sampleMount newrootMountpoint (some [tmpEntry]) samplePremountState := by
  have hall : (initramfsPremountAll sampleMount newrootMountpoint (some [tmpEntry])
      samplePremountState).2.premountStatus = initramfsHavemntTmp := by decide +kernel
  have hnofilter : (initramfsPremountAllNofilter sampleMount newrootMountpoint (some [tmpEntry])
      samplePremountState).2.premountStatus = 0#32 := by decide +kernel
  refine ⟨.inl ⟨"/tmp", by decide, rfl⟩, hall, hnofilter, by decide +kernel, fun hkeeps => ?_,
    fun h => ?_⟩
  · -- a tmpfs that can be mounted is mounted
    have hkept := (hkeeps (fun _ st => (0, st)) emptyEnviron).2
    have hflag := congrArg PremountState.premountStatus hkept
    rw [initramfsMountNewrootTmpdir, if_pos (by rw [hnofilter]; decide)] at hflag
    dsimp only at hflag
    rw [if_pos rfl, hnofilter] at hflag
    exact absurd hflag (by decide)
  · have hstatus := h.premountStatus
    rw [hall, hnofilter] at hstatus
    exact absurd hstatus (by decide)

end Fischstaebchen
