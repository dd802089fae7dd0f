/-
  Setting up and mounting zram disks (`zram/disk.c`, `zram/mkfs.c`,
  `zram/mount.c`, `zram/devfs.c`).

  A zram disk is claimed, formatted with the best file system whose mkfs program
  there is, and mounted.  What the system answers to an operation is told by an
  oracle (`Outcomes`); a successful mount adds an entry to the mount table.

  * `zramDiskDoMkfs_mounts`, `zramMount_cases`: formatting mounts nothing, mounting
    adds the disk or nothing.
  * `ZramDiskUp`: all steps succeed; `zramDiskDoSetupAndMount_cases`: then the disk
    is mounted, else nothing is and the return code is not 0.
-/
import Fischstaebchen.Fs.MountOpts
import Fischstaebchen.Zram.Allocate
import Fischstaebchen.Zram.Disk

namespace Fischstaebchen

/-! ## Operations -/

/-- The operations on the system, apart from those on the zram devices:
    `devfs_create_disk_node`, `run_command_really_quiet`, `makedirs`, `dosym`,
    mount(2), chmod(2) and chown(2). -/
inductive DiskOp
  | mknod (path devpath : CStr)
  | run (exe : Option CStr) (argv : List CStr)
  | makedirs (path : CStr)
  | symlink (target path : CStr)
  | mount (source target fstype : CStr) (flags : Flags) (data : Option CStr)
  | chmod (path : CStr) (mode : UInt32)
  | chown (path : CStr) (uid gid : UInt32)

/-- What the system answers to the `n`-th operation: 0 on success. -/
abbrev Outcomes := ℕ → DiskOp → ℤ

/-- An entry of the mount table. -/
structure MountEntry where
  source : CStr
  target : CStr
  fstype : CStr
  flags : Flags
  data : Option CStr
  deriving DecidableEq

/-- The entry that a successful operation adds to the mount table. -/
def DiskOp.mountEntry : DiskOp → Option MountEntry
  | .mount source target fstype flags data => some ⟨source, target, fstype, flags, data⟩
  | _ => none

/-- The zram devices, the number of operations so far and the mount table. -/
structure DiskState where
  zram : ZramState
  ops : ℕ
  mounts : List MountEntry

/-- `DiskState` after an action on the zram devices. -/
def DiskState.onZram {α : Type*} (st : DiskState) (action : ZramState → α × ZramState) :
    α × DiskState :=
  let r := action st.zram
  (r.1, { st with zram := r.2 })

section
variable (O : Outcomes) (F : Faults)

/-- An operation. -/
def performOp (op : DiskOp) (st : DiskState) : ℤ × DiskState :=
  let ret := O st.ops op
  (ret, { st with
    ops := st.ops + 1
    mounts := if ret = 0 then st.mounts ++ op.mountEntry.toList else st.mounts })

/-! ## File systems -/

def zramTypeDisk : ZramBits := 0x2
def zramTypeDiskExt2 : ZramBits := 0x4
def zramTypeDiskExt4 : ZramBits := 0x8
def zramTypeDiskBtrfs : ZramBits := 0x10

/-- `ZRAM_TYPE_FSTYPE_MASK`. -/
def zramTypeFstypeMask : ZramBits := zramTypeDiskExt2 ||| zramTypeDiskExt4 ||| zramTypeDiskBtrfs

/-- The names and paths of `get_zram_name_path_triple`. -/
def zramName (identifier : UInt8) : CStr := ("zram" ++ toString identifier.toNat).toList

def zramPath (identifier : UInt8) : CStr := "/sys/block/".toList ++ zramName identifier

def zramDevpath (identifier : UInt8) : CStr := "/dev/".toList ++ zramName identifier

/-- `zram_dev_info_set_fstype`. -/
def ZramDevInfo.setFstype (dev : ZramDevInfo) (fstype : ZramBits) : ZramDevInfo :=
  { dev with type := zramTypeDisk ||| (fstype &&& zramTypeFstypeMask) }

/-- `run_command_really_quiet`. -/
def runCommandReallyQuiet (exe : Option String) (argv : List CStr) (st : DiskState) :
    ℤ × DiskState :=
  performOp O (.run (exe.map String.toList) argv) st

/-- `_zram_default_mkfs_supported_check`. -/
def zramDefaultMkfsSupportedCheck (prog : String) (st : DiskState) : ℤ × DiskState :=
  runCommandReallyQuiet O none [prog.toList, "-V".toList] st

/-- `get_best_mkfs_type`, with `ZRAM_DISK_PREFER_BTRFS` unset; `mkfs.ext2` of
    busybox is always there. -/
def getBestMkfsType (st : DiskState) : ZramBits × DiskState :=
  let r := zramDefaultMkfsSupportedCheck O "mkfs.ext4" st
  if r.1 = 0 then (zramTypeDiskExt4, r.2)
  else
    let r := zramDefaultMkfsSupportedCheck O "mkfs.btrfs" r.2
    if r.1 = 0 then (zramTypeDiskBtrfs, r.2) else (zramTypeDiskExt2, r.2)

/-- `_zram_mkfs_ext2`: busybox, or else the external program. -/
def zramMkfsExt2 (fslabel : CStr) (dev : ZramDevInfo) (st : DiskState) : ℤ × DiskState :=
  let argv := ["mkfs.ext2".toList, "-b".toList, "4096".toList, "-L".toList, fslabel,
    zramDevpath dev.identifier]
  let r := runCommandReallyQuiet O (some "/bin/busybox") argv st
  if r.1 = 0 then (0, r.2) else runCommandReallyQuiet O none argv r.2

/-- `_zram_mkfs_ext4`. -/
def zramMkfsExt4 (fslabel : CStr) (dev : ZramDevInfo) (st : DiskState) : ℤ × DiskState :=
  runCommandReallyQuiet O none ["mkfs.ext4".toList, "-b".toList, "4096".toList, "-O".toList,
    "dir_index,extents,filetype,^has_journal,sparse_super,^uninit_bg".toList, "-E".toList,
    "nodiscard".toList, "-L".toList, fslabel, zramDevpath dev.identifier] st

/-- `_zram_mkfs_btrfs`. -/
def zramMkfsBtrfs (fslabel : CStr) (dev : ZramDevInfo) (st : DiskState) : ℤ × DiskState :=
  runCommandReallyQuiet O none ["mkfs.btrfs".toList, "-L".toList, fslabel,
    zramDevpath dev.identifier] st

/-- `_zram_disk_check_can_init`. -/
def zramDiskCheckCanInit (dev : ZramDevInfo) (st : DiskState) : ℤ × DiskState :=
  if dev.type ≠ zramTypeNone ∧ dev.type ≠ zramTypeDisk then (-5, st)
  else if dev.status &&& zramStatusInuse ≠ 0 then (-1, st)
  else performOp O (.mknod (zramPath dev.identifier) (zramDevpath dev.identifier)) st

/-- `zram_make_devfs_symlink`; its failures are not fatal. -/
def zramMakeDevfsSymlink (fslabel : CStr) (dev : ZramDevInfo) (st : DiskState) : ℤ × DiskState :=
  let r := performOp O (.makedirs "/dev/zdisk".toList) st
  if r.1 ≠ 0 then (-1, r.2)
  else performOp O (.symlink (zramDevpath dev.identifier) ("/dev/zdisk/".toList ++ fslabel)) r.2

/-- The file systems of `zram_mkfs`, in the order in which they are tried. -/
def mkfsOrder : List (ZramBits × (CStr → ZramDevInfo → DiskState → ℤ × DiskState)) :=
  [(zramTypeDiskExt4, zramMkfsExt4 O), (zramTypeDiskBtrfs, zramMkfsBtrfs O),
    (zramTypeDiskExt2, zramMkfsExt2 O)]

/-- The part of `zram_mkfs` that tries the file systems of the device's type. -/
def zramMkfsTry (fslabel : CStr) (dev : ZramDevInfo) :
    List (ZramBits × (CStr → ZramDevInfo → DiskState → ℤ × DiskState)) → DiskState →
      ℤ × ZramDevInfo × DiskState
  | [], st => (-1, dev, st)
  | (fstype, mkfs) :: rest, st =>
    if dev.type &&& fstype ≠ 0 then
      let r := mkfs fslabel dev st
      if r.1 = 0 then
        let dev := dev.setFstype fstype
        (0, dev, (zramMakeDevfsSymlink O fslabel dev r.2).2)
      else zramMkfsTry fslabel dev rest r.2
    else zramMkfsTry fslabel dev rest st

/-- `zram_mkfs`. -/
def zramMkfs (fslabel : CStr) (dev : ZramDevInfo) (st : DiskState) :
    ℤ × ZramDevInfo × DiskState :=
  let r := zramDiskCheckCanInit O dev st
  if r.1 ≠ 0 then (-1, dev, r.2)
  else if dev.type &&& zramTypeFstypeMask = 0 then
    let best := getBestMkfsType O r.2
    zramMkfsTry O fslabel { dev with type := dev.type ||| best.1 } (mkfsOrder O) best.2
  else zramMkfsTry O fslabel dev (mkfsOrder O) r.2

/-! ## Mounting -/

/-- `stdmount`. -/
def stdmount (fs mp fstype : CStr) (flags : Flags) (extraOpts : Option CStr) (st : DiskState) :
    ℤ × DiskState :=
  let r := performOp O (.makedirs mp) st
  if r.1 ≠ 0 then (-1, r.2) else performOp O (.mount fs mp fstype flags extraOpts) r.2

/-- `_zram_mount_any`. -/
def zramMountAny (dev : ZramDevInfo) (mp : CStr) (extraFlags : Flags) (fstype : String)
    (opts : Option String) (st : DiskState) : ℤ × ZramDevInfo × DiskState :=
  let r := stdmount O (zramDevpath dev.identifier) mp fstype.toList (msNoatime ||| extraFlags)
    (opts.map String.toList) st
  if r.1 = 0 then (0, { dev with status := dev.status ||| zramStatusInuse }, r.2)
  else (-1, dev, r.2)

/-- `zram_mount`. -/
def zramMount (dev : ZramDevInfo) (mp : CStr) (extraFlags : Flags) (st : DiskState) :
    ℤ × ZramDevInfo × DiskState :=
  let fstype := dev.type &&& zramTypeFstypeMask
  if fstype = zramTypeDiskExt2 then zramMountAny O dev mp extraFlags "ext2" none st
  else if fstype = zramTypeDiskExt4 then
    zramMountAny O dev mp extraFlags "ext4" (some "commit=240,discard,nobarrier,data=writeback") st
  else if fstype = zramTypeDiskBtrfs then
    zramMountAny O dev mp extraFlags "btrfs" (some "commit=240,discard,nobarrier") st
  else (-1, dev, st)

/-! ## Disks -/

/-- `zram_disk_do_claim`. -/
def zramDiskDoClaim (zdisk : ZramDiskConfig) (st : DiskState) : Option ZramDevInfo × DiskState :=
  st.onZram fun zram =>
    let r := zramClaimNextFree F zdisk.sizeM (some none) zram
    (r.1.toOption, r.2)

/-- `zram_disk_do_mkfs`. -/
def zramDiskDoMkfs (zdisk : ZramDiskConfig) (dev : ZramDevInfo) (st : DiskState) :
    ℤ × ZramDevInfo × DiskState :=
  zramMkfs O (zdisk.name.getD (zramName dev.identifier)) dev st

/-- `zram_release_device ( p_dev, 1 )` for a device that is not needed. -/
def zramDropDevice (dev : ZramDevInfo) (st : DiskState) : DiskState :=
  (st.onZram fun zram => ((), (zramReleaseDevice dev 1 zram).2.2)).2

/-- `zram_disk_do_setup`: the return code and the device. -/
def zramDiskDoSetup (zdisk : ZramDiskConfig) (st : DiskState) :
    ℤ × Option ZramDevInfo × DiskState :=
  match zramDiskDoClaim F zdisk st with
  | (none, st) => (1, none, st)
  | (some dev, st) =>
    let r := zramDiskDoMkfs O zdisk dev st
    if r.1 ≠ 0 then (2, none, zramDropDevice r.2.1 r.2.2) else (0, some r.2.1, r.2.2)

/-- `zram_disk_do_setup_and_mount`. -/
def zramDiskDoSetupAndMount (zdisk : ZramDiskConfig) (mp : Option CStr) (flags : Flags)
    (st : DiskState) : ℤ × DiskState :=
  match mp with
  | none | some [] => (-1, st)
  | some mp =>
    match zramDiskDoSetup O F zdisk st with
    -- there is no device if and only if the return code is not 0
    | (ret, none, st) => (ret, st)
    | (_, some dev, st) =>
      let r := zramMount O dev mp flags st
      if r.1 ≠ 0 then (-1, zramDropDevice r.2.1 r.2.2) else (0, r.2.2)

/-! ## What is mounted -/

/-- The operation `op` mounts nothing. -/
theorem performOp_mounts {op : DiskOp} (h : op.mountEntry = none) (st : DiskState) :
    (performOp O op st).2.mounts = st.mounts := by
  simp only [performOp, h, Option.toList_none, List.append_nil, ite_self]

theorem runCommandReallyQuiet_mounts (exe : Option String) (argv : List CStr) (st : DiskState) :
    (runCommandReallyQuiet O exe argv st).2.mounts = st.mounts :=
  performOp_mounts O rfl st

theorem getBestMkfsType_mounts (st : DiskState) :
    (getBestMkfsType O st).2.mounts = st.mounts := by
  unfold getBestMkfsType zramDefaultMkfsSupportedCheck
  dsimp only
  split_ifs
  · exact runCommandReallyQuiet_mounts O _ _ _
  · exact (runCommandReallyQuiet_mounts O _ _ _).trans (runCommandReallyQuiet_mounts O _ _ _)
  · exact (runCommandReallyQuiet_mounts O _ _ _).trans (runCommandReallyQuiet_mounts O _ _ _)

theorem zramMakeDevfsSymlink_mounts (fslabel : CStr) (dev : ZramDevInfo) (st : DiskState) :
    (zramMakeDevfsSymlink O fslabel dev st).2.mounts = st.mounts := by
  unfold zramMakeDevfsSymlink
  dsimp only
  split_ifs
  · exact performOp_mounts O rfl _
  · exact (performOp_mounts O rfl _).trans (performOp_mounts O rfl _)

theorem zramDiskCheckCanInit_mounts (dev : ZramDevInfo) (st : DiskState) :
    (zramDiskCheckCanInit O dev st).2.mounts = st.mounts := by
  unfold zramDiskCheckCanInit
  split_ifs
  · rfl
  · rfl
  · exact performOp_mounts O rfl _

theorem mkfsOrder_mounts : ∀ entry ∈ mkfsOrder O, ∀ fslabel dev st,
    (entry.2 fslabel dev st).2.mounts = st.mounts := by
  intro entry hentry fslabel dev st
  simp only [mkfsOrder, List.mem_cons, List.not_mem_nil, or_false] at hentry
  rcases hentry with rfl | rfl | rfl
  · exact runCommandReallyQuiet_mounts O _ _ _
  · exact runCommandReallyQuiet_mounts O _ _ _
  · unfold zramMkfsExt2
    dsimp only
    split_ifs
    · exact runCommandReallyQuiet_mounts O _ _ _
    · exact (runCommandReallyQuiet_mounts O _ _ _).trans (runCommandReallyQuiet_mounts O _ _ _)

theorem zramMkfsTry_mounts (fslabel : CStr) (dev : ZramDevInfo) :
    ∀ (order : List (ZramBits × (CStr → ZramDevInfo → DiskState → ℤ × DiskState)))
      (st : DiskState),
      (∀ entry ∈ order, ∀ fslabel dev st, (entry.2 fslabel dev st).2.mounts = st.mounts) →
        (zramMkfsTry O fslabel dev order st).2.2.mounts = st.mounts
  | [], _, _ => rfl
  | (fstype, mkfs) :: rest, st, h => by
    have hmkfs := h (fstype, mkfs) List.mem_cons_self fslabel dev st
    have hrest : ∀ st', (zramMkfsTry O fslabel dev rest st').2.2.mounts = st'.mounts :=
      fun st' => zramMkfsTry_mounts fslabel dev rest st' fun entry he =>
        h entry (List.mem_cons_of_mem _ he)
    rw [zramMkfsTry]
    dsimp only at hmkfs ⊢
    split_ifs
    · exact (zramMakeDevfsSymlink_mounts O _ _ _).trans hmkfs
    · exact (hrest _).trans hmkfs
    · exact hrest st

/-- **Formatting mounts nothing.** -/
theorem zramDiskDoMkfs_mounts (zdisk : ZramDiskConfig) (dev : ZramDevInfo) (st : DiskState) :
    (zramDiskDoMkfs O zdisk dev st).2.2.mounts = st.mounts := by
  have hcheck := zramDiskCheckCanInit_mounts O dev st
  unfold zramDiskDoMkfs zramMkfs
  dsimp only
  split_ifs
  · exact hcheck
  · exact (zramMkfsTry_mounts O _ _ _ _ (mkfsOrder_mounts O)).trans
      ((getBestMkfsType_mounts O _).trans hcheck)
  · exact (zramMkfsTry_mounts O _ _ _ _ (mkfsOrder_mounts O)).trans hcheck

/-- `st'` has the mounts of `st` and `entry`, on top of everything else. -/
def Mounts (st st' : DiskState) (entry : MountEntry) : Prop := st'.mounts = st.mounts ++ [entry]

/-- `stdmount` mounts its file system or nothing. -/
theorem stdmount_cases (fs mp fstype : CStr) (flags : Flags) (extraOpts : Option CStr)
    (st : DiskState) :
    ((stdmount O fs mp fstype flags extraOpts st).1 = 0 ∧
        Mounts st (stdmount O fs mp fstype flags extraOpts st).2
          ⟨fs, mp, fstype, flags, extraOpts⟩) ∨
      ((stdmount O fs mp fstype flags extraOpts st).1 ≠ 0 ∧
        (stdmount O fs mp fstype flags extraOpts st).2.mounts = st.mounts) := by
  have hfail : (-1 : ℤ) ≠ 0 := by simp
  have hdirs : (performOp O (.makedirs mp) st).2.mounts = st.mounts := performOp_mounts O rfl st
  unfold stdmount
  dsimp only
  split_ifs with h
  · exact Or.inr ⟨hfail, hdirs⟩
  · set st₁ := (performOp O (.makedirs mp) st).2 with hst₁
    unfold Mounts performOp
    dsimp only
    by_cases hret : O st₁.ops (.mount fs mp fstype flags extraOpts) = 0
    · rw [if_pos hret]
      exact Or.inl ⟨hret, by rw [hdirs]; rfl⟩
    · rw [if_neg hret]
      exact Or.inr ⟨hret, hdirs⟩

/-- The entry of a zram disk mounted at `path`. -/
structure MountEntry.IsZramDisk (entry : MountEntry) (path : CStr) : Prop where
  target : entry.target = path
  source : ∃ identifier, entry.source = zramDevpath identifier
  fstype : entry.fstype ∈ ["ext2".toList, "ext4".toList, "btrfs".toList]

/-- **`zram_mount` mounts the disk or nothing.** -/
theorem zramMount_cases (dev : ZramDevInfo) (mp : CStr) (extraFlags : Flags) (st : DiskState) :
    ((zramMount O dev mp extraFlags st).1 = 0 ∧
        ∃ entry, entry.IsZramDisk mp ∧ Mounts st (zramMount O dev mp extraFlags st).2.2 entry) ∨
      ((zramMount O dev mp extraFlags st).1 ≠ 0 ∧
        (zramMount O dev mp extraFlags st).2.2.mounts = st.mounts) := by
  have hfail : (-1 : ℤ) ≠ 0 := by simp
  have hany : ∀ (fstype : String) (opts : Option String),
      fstype.toList ∈ ["ext2".toList, "ext4".toList, "btrfs".toList] →
      ((zramMountAny O dev mp extraFlags fstype opts st).1 = 0 ∧
          ∃ entry, entry.IsZramDisk mp ∧
            Mounts st (zramMountAny O dev mp extraFlags fstype opts st).2.2 entry) ∨
        ((zramMountAny O dev mp extraFlags fstype opts st).1 ≠ 0 ∧
          (zramMountAny O dev mp extraFlags fstype opts st).2.2.mounts = st.mounts) := by
    intro fstype opts hfstype
    unfold zramMountAny
    dsimp only
    rcases stdmount_cases O (zramDevpath dev.identifier) mp fstype.toList
      (msNoatime ||| extraFlags) (opts.map String.toList) st with ⟨h, hmount⟩ | ⟨h, hmount⟩
    · rw [if_pos h]
      exact Or.inl ⟨rfl, _, ⟨rfl, ⟨_, rfl⟩, hfstype⟩, hmount⟩
    · rw [if_neg h]
      exact Or.inr ⟨hfail, hmount⟩
  unfold zramMount
  dsimp only
  split_ifs
  · exact hany "ext2" none (by simp)
  · exact hany "ext4" _ (by simp)
  · exact hany "btrfs" _ (by simp)
  · exact Or.inr ⟨hfail, rfl⟩

/-- **All steps succeed**: there is a mountpoint, a device is claimed, formatted
    and mounted. -/
def ZramDiskUp (zdisk : ZramDiskConfig) (mp : Option CStr) (flags : Flags) (st : DiskState) :
    Prop :=
  ∃ path, mp = some path ∧ path ≠ [] ∧ ∃ dev, (zramDiskDoClaim F zdisk st).1 = some dev ∧
    (zramDiskDoMkfs O zdisk dev (zramDiskDoClaim F zdisk st).2).1 = 0 ∧
    (zramMount O (zramDiskDoMkfs O zdisk dev (zramDiskDoClaim F zdisk st).2).2.1 path flags
      (zramDiskDoMkfs O zdisk dev (zramDiskDoClaim F zdisk st).2).2.2).1 = 0

/-- **The disk is mounted if all steps succeed**, else nothing is mounted and the
    return code is not 0. -/
theorem zramDiskDoSetupAndMount_cases (zdisk : ZramDiskConfig) (mp : Option CStr) (flags : Flags)
    (st : DiskState) :
    (ZramDiskUp O F zdisk mp flags st ∧ (zramDiskDoSetupAndMount O F zdisk mp flags st).1 = 0 ∧
        ∃ path entry, mp = some path ∧ entry.IsZramDisk path ∧
          Mounts st (zramDiskDoSetupAndMount O F zdisk mp flags st).2 entry) ∨
      (¬ ZramDiskUp O F zdisk mp flags st ∧
        (zramDiskDoSetupAndMount O F zdisk mp flags st).1 ≠ 0 ∧
        (zramDiskDoSetupAndMount O F zdisk mp flags st).2.mounts = st.mounts) := by
  have hfail : (-1 : ℤ) ≠ 0 := by simp
  unfold ZramDiskUp
  match mp with
  | none => exact Or.inr ⟨fun ⟨_, h, _⟩ => (nomatch h), hfail, rfl⟩
  | some [] =>
    refine Or.inr ⟨?_, hfail, rfl⟩
    rintro ⟨path, hpath, hne, -⟩
    exact hne (Option.some.inj hpath).symm
  | some (c :: cs) =>
    have hclaim : (zramDiskDoClaim F zdisk st).2.mounts = st.mounts := rfl
    simp only [zramDiskDoSetupAndMount, zramDiskDoSetup]
    rcases hc : zramDiskDoClaim F zdisk st with ⟨_ | dev, st₁⟩
    · rw [hc] at hclaim
      refine Or.inr ⟨?_, (by simp : (1 : ℤ) ≠ 0), hclaim⟩
      rintro ⟨path, -, -, dev, hdev, -⟩
      cases hdev
    · rw [hc] at hclaim
      have hmkfs := zramDiskDoMkfs_mounts O zdisk dev st₁
      dsimp only
      set mk := zramDiskDoMkfs O zdisk dev st₁ with hmk
      by_cases hmkfs0 : mk.1 = 0
      · rw [if_neg (not_not.2 hmkfs0)]
        dsimp only
        rcases zramMount_cases O mk.2.1 (c :: cs) flags mk.2.2 with
          ⟨h0, entry, hentry, hmount⟩ | ⟨h0, hmount⟩
        · rw [if_neg (not_not.2 h0)]
          refine Or.inl ⟨⟨_, rfl, List.cons_ne_nil _ _, dev, rfl, hmkfs0, h0⟩, rfl, _, entry,
            rfl, hentry, ?_⟩
          unfold Mounts at hmount ⊢
          rw [hmount, hmkfs, hclaim]
        · rw [if_pos h0]
          refine Or.inr ⟨?_, hfail, hmount.trans (hmkfs.trans hclaim)⟩
          rintro ⟨path, hpath, -, dev', hdev', -, hup⟩
          obtain rfl : dev = dev' := Option.some.inj hdev'
          obtain rfl : c :: cs = path := Option.some.inj hpath
          exact h0 hup
      · rw [if_pos hmkfs0]
        refine Or.inr ⟨?_, (by simp : (2 : ℤ) ≠ 0), hmkfs.trans hclaim⟩
        rintro ⟨path, -, -, dev', hdev', hup, -⟩
        obtain rfl : dev = dev' := Option.some.inj hdev'
        exact hmkfs0 hup

end

end Fischstaebchen
