/-
  The callers of `zram_tmpfs` (`initramfs/premount.c`, `initramfs/domount.c`).

  * `ztmpfsReports_iff`: when the return codes of `zram_tmpfs` and its callers say
    what is mounted.
-/
import Fischstaebchen.Initramfs.Cmdline
import Fischstaebchen.Zram.NextFree
import Fischstaebchen.Zram.Tmpfs

namespace Fischstaebchen

/-- The codes of `_mount_that_entry` (`PREMOUNT_*`). -/
inductive PremountRet
  | success
  | failedToMount
  | cannotMount
  deriving DecidableEq

section
variable (O : Outcomes) (F : Faults) (host : Host)

/-- The arguments with which `_mount_ztmpfs_entry` calls `zram_tmpfs`. -/
def ztmpfsEntryName (name : Option CStr) : Option CStr :=
  if strIsEmpty name ∨ (name.getD []).head? = some '/' then none else name

def ztmpfsEntryMode (isTmpfs : ℤ) : UInt32 := if isTmpfs ≠ 0 then srwxRwxRwx else rwxRxRx

/-- `_mount_ztmpfs_entry`. -/
def mountZtmpfsEntry (g : InitramfsGlobals) (name mp opts : Option CStr) (isTmpfs : ℤ)
    (st : DiskState) : PremountRet × DiskState :=
  let r := zramTmpfs O F host (ztmpfsEntryName name) mp 0#64 opts none (UInt64.ofNat g.memsizeM)
    (ztmpfsEntryMode isTmpfs) st
  -- 1: had to mount it as a normal tmpfs
  if r.1 = 0 then (.success, r.2)
  else if r.1 = 1 then (.success, r.2)
  else (.failedToMount, r.2)

/-- `initramfs_domount`; mounts other than zram are done by `domount_from_config`. -/
def initramfsDomount (domountFromConfig : MountConfig → DiskState → ℤ × DiskState)
    (g : InitramfsGlobals) (p : MountConfig) (st : DiskState) : ℤ × DiskState :=
  let r :=
    if p.cfg &&& mountCfgIsZram ≠ 0#64 then
      zramTmpfs O F host p.source p.target p.flags p.opts none (UInt64.ofNat g.memsizeM) rwxRxRx st
    else domountFromConfig p st
  if r.1 ≠ 0 then r else (0, r.2)

variable {O F host}

theorem mountZtmpfsEntry_success {g : InitramfsGlobals} {name mp opts : Option CStr} {isTmpfs : ℤ}
    {st : DiskState} :
    ((mountZtmpfsEntry O F host g name mp opts isTmpfs st).1 = .success →
        SomethingMounted st mp (mountZtmpfsEntry O F host g name mp opts isTmpfs st).2) ↔
      ∀ zmount, tmpfsConfig host (ztmpfsEntryName name) mp 0#64 opts none
        (UInt64.ofNat g.memsizeM) (ztmpfsEntryMode isTmpfs) = some zmount →
          zmount.DiskUp O F st ∨ zmount.FallbackUp O F st := by
  rw [← zramTmpfs_zero_iff]
  have hcases := zramTmpfs_cases O F host (ztmpfsEntryName name) mp 0#64 opts none
    (UInt64.ofNat g.memsizeM) (ztmpfsEntryMode isTmpfs) st
  unfold mountZtmpfsEntry
  dsimp only at hcases ⊢
  generalize zramTmpfs O F host (ztmpfsEntryName name) mp 0#64 opts none
    (UInt64.ofNat g.memsizeM) (ztmpfsEntryMode isTmpfs) st = r at hcases ⊢
  by_cases h0 : r.1 = 0
  · rw [if_pos h0]
    exact ⟨fun h _ => h rfl, fun h _ => h h0⟩
  · have h1 : r.1 ≠ 1 := by
      rcases hcases with ⟨-, hret⟩ | ⟨-, -, -, hret, -⟩ <;> rw [hret] <;> decide
    rw [if_neg h0, if_neg h1]
    exact iff_of_true (fun h => PremountRet.noConfusion h) fun h => absurd h h0

theorem initramfsDomount_zram {domountFromConfig : MountConfig → DiskState → ℤ × DiskState}
    {g : InitramfsGlobals} {p : MountConfig} {st : DiskState}
    (hzram : p.cfg &&& mountCfgIsZram ≠ 0#64) :
    initramfsDomount O F host domountFromConfig g p st =
      zramTmpfs O F host p.source p.target p.flags p.opts none (UInt64.ofNat g.memsizeM) rwxRxRx
        st := by
  unfold initramfsDomount
  rw [if_pos hzram]
  dsimp only
  split_ifs with h0
  · rfl
  · exact Prod.ext (not_not.1 h0).symm rfl

/-- **What the return codes say.**  `zram_tmpfs` returns 0 only for a zram disk,
    1 only for a plain tmpfs and a negative value otherwise if and only if it
    rejects the config or the zram disk can be set up and mounted.  Its callers
    report success only if something is mounted if and only if this holds or the
    fallback can be mounted. -/
theorem ztmpfsReports_iff (name mp opts sizeSpec : Option CStr) (flags : Flags)
    (sysMemsizeM : UInt64) (defaultMode : UInt32) (st : DiskState) :
    (TmpfsReport st mp
        (zramTmpfs O F host name mp flags opts sizeSpec sysMemsizeM defaultMode st) ↔
      ∀ zmount, tmpfsConfig host name mp flags opts sizeSpec sysMemsizeM defaultMode =
        some zmount → zmount.DiskUp O F st) ∧
    (∀ (g : InitramfsGlobals) (isTmpfs : ℤ),
      ((mountZtmpfsEntry O F host g name mp opts isTmpfs st).1 = .success →
          SomethingMounted st mp (mountZtmpfsEntry O F host g name mp opts isTmpfs st).2) ↔
        ∀ zmount, tmpfsConfig host (ztmpfsEntryName name) mp 0#64 opts none
          (UInt64.ofNat g.memsizeM) (ztmpfsEntryMode isTmpfs) = some zmount →
            zmount.DiskUp O F st ∨ zmount.FallbackUp O F st) ∧
    ∀ (domountFromConfig : MountConfig → DiskState → ℤ × DiskState) (g : InitramfsGlobals)
      (p : MountConfig), p.cfg &&& mountCfgIsZram ≠ 0#64 →
      (((initramfsDomount O F host domountFromConfig g p st).1 = 0 →
          SomethingMounted st p.target (initramfsDomount O F host domountFromConfig g p st).2) ↔
        ∀ zmount, tmpfsConfig host p.source p.target p.flags p.opts none
          (UInt64.ofNat g.memsizeM) rwxRxRx = some zmount →
            zmount.DiskUp O F st ∨ zmount.FallbackUp O F st) := by
  refine ⟨zramTmpfs_report_iff, fun g isTmpfs => mountZtmpfsEntry_success,
    fun domountFromConfig g p hzram => ?_⟩
  rw [initramfsDomount_zram hzram]
  exact zramTmpfs_zero_iff

end

/-- A system that can mount nothing. -/
def mountsNothing : Outcomes := fun _ op =>
  match op with
  | .mount .. => -1
  | _ => 0

/-- Two free devices and no mounts. -/
def freshDisks : DiskState := ⟨twoDevices, 0, []⟩

/-- Neither the zram disk nor the tmpfs can be mounted, but success is reported. -/
theorem ztmpfs_mounts_nothing :
    (zramTmpfs mountsNothing noFaults sampleHost none (some "/mnt".toList) 0#64 none none 1024
        rwxRxRx freshDisks).1 = 0 ∧
      (zramTmpfs mountsNothing noFaults sampleHost none (some "/mnt".toList) 0#64 none none 1024
        rwxRxRx freshDisks).2.mounts = freshDisks.mounts ∧
      ¬ TmpfsReport freshDisks (some "/mnt".toList)
        (zramTmpfs mountsNothing noFaults sampleHost none (some "/mnt".toList) 0#64 none none 1024
          rwxRxRx freshDisks) ∧
      (mountZtmpfsEntry mountsNothing noFaults sampleHost (initramfsGlobalsInit sampleHost) none
        (some "/mnt".toList) none 0 freshDisks).1 = .success ∧
      (mountZtmpfsEntry mountsNothing noFaults sampleHost (initramfsGlobalsInit sampleHost) none
        (some "/mnt".toList) none 0 freshDisks).2.mounts = freshDisks.mounts := by
  have hret : (zramTmpfs mountsNothing noFaults sampleHost none (some "/mnt".toList) 0#64 none
      none 1024 rwxRxRx freshDisks).1 = 0 := by decide +kernel
  have hmounts : (zramTmpfs mountsNothing noFaults sampleHost none (some "/mnt".toList) 0#64 none
      none 1024 rwxRxRx freshDisks).2.mounts = freshDisks.mounts := by decide +kernel
  refine ⟨hret, hmounts, fun h => ?_, by decide +kernel, by decide +kernel⟩
  obtain ⟨-, entry, -, -, hentry⟩ := h.zero hret
  exact hentry.ne hmounts

end Fischstaebchen
