/-
  The mounts of newroot and of the initramfs (`initramfs/baselayout.c`,
  `common/baselayout/basemounts.c`, `common/fs/mount.c`).
-/
import Fischstaebchen.Fs.Umount
import Fischstaebchen.Initramfs.Globals

namespace Fischstaebchen

/-- The functions that mount and unmount, on a state. -/
structure MountCalls (σ : Type*) where
  /-- `stdmount`: source, mountpoint, type, flags and further options -/
  stdmount : CStr → CStr → CStr → Flags → Option CStr → σ → ℤ × σ
  /-- `bind_mount`, without further flags -/
  bindMount : CStr → CStr → σ → ℤ × σ
  /-- `mount_move` -/
  mountMove : CStr → CStr → σ → ℤ × σ
  /-- `do_umount` -/
  doUmount : CStr → σ → ℤ × σ

/-! ## Mountpoints -/

/-- `DEVFS_MOUNTPOINT`. -/
def devfsMountpoint : CStr := "/dev".toList

/-- `DEVFS_SHM_MOUNTPOINT`. -/
def devfsShmMountpoint : CStr := devfsMountpoint ++ "/shm".toList

/-- `DEVFS_PTS_MOUNTPOINT`. -/
def devfsPtsMountpoint : CStr := devfsMountpoint ++ "/pts".toList

/-- `SYSFS_MOUNTPOINT`. -/
def sysfsMountpoint : CStr := "/sys".toList

/-- `PROC_MOUNTPOINT`. -/
def procMountpoint : CStr := "/proc".toList

/-- `RUN_MOUNTPOINT`. -/
def runMountpoint : CStr := "/run".toList

/-- `TMP_MOUNTPOINT`. -/
def tmpMountpoint : CStr := "/tmp".toList

section
variable {σ : Type*} (C : MountCalls σ)

/-! ## Functions -/

/-- `basemounts_mount_tmp`. -/
def basemountsMountTmp (mp : CStr) : σ → ℤ × σ :=
  C.stdmount "tmp".toList mp "tmpfs".toList (msNosuid ||| msNoexec ||| msNodev ||| msRelatime) none

/-- `basemounts_mount_devfs_shm`. -/
def basemountsMountDevfsShm (mp : CStr) : σ → ℤ × σ :=
  C.stdmount "shm".toList mp "tmpfs".toList (msNodev ||| msNoexec) none

/-- `basemounts_mount_devfs_pts`. -/
def basemountsMountDevfsPts (mp : CStr) : σ → ℤ × σ :=
  C.stdmount "devpts".toList mp "devpts".toList (msNosuid ||| msNoexec ||| msRelatime)
    (some "gid=5,mode=620".toList)

/-- Going on with another call, unless one has failed: then its failure is `code`. -/
def orReturn (code : ℤ) (call next : σ → ℤ × σ) (st : σ) : ℤ × σ :=
  let r := call st
  if r.1 ≠ 0 then (code, r.2) else next r.2

/-- `initramfs_newroot_basemounts`. -/
def initramfsNewrootBasemounts : σ → ℤ × σ :=
  orReturn (-1) (C.bindMount devfsMountpoint (getNewrootPath "/dev")) <|
  orReturn (-1) (C.bindMount sysfsMountpoint (getNewrootPath "/sys")) <|
  orReturn (-1) (C.bindMount procMountpoint (getNewrootPath "/proc")) <|
  orReturn 1 (basemountsMountDevfsShm C (getNewrootPath "/dev/shm")) <|
  orReturn 1 (basemountsMountDevfsPts C (getNewrootPath "/dev/pts"))
  fun st => (0, st)

/-- `_do_umount_nonfatal`. -/
def doUmountNonfatal (mp : CStr) (st : σ) : σ := (C.doUmount mp st).2

/-- `initramfs_eject_newroot_basemounts`. -/
def initramfsEjectNewrootBasemounts (st : σ) : ℤ × σ :=
  let st := doUmountNonfatal C (getNewrootPath "/dev/shm") st
  let st := doUmountNonfatal C (getNewrootPath "/dev/pts") st
  let st := doUmountNonfatal C (getNewrootPath "/dev") st
  let st := doUmountNonfatal C (getNewrootPath "/sys") st
  let st := doUmountNonfatal C (getNewrootPath "/proc") st
  (0, st)

/-- `_do_move_or_umount`. -/
def doMoveOrUmount (src dst : CStr) (st : σ) : σ :=
  let r := C.mountMove src dst st
  if r.1 ≠ 0 then doUmountNonfatal C src r.2 else r.2

/-- `initramfs_preswitch_umount`; `unregisterMdev` and `closeLogfile` are what the functions
    of these names do. -/
def initramfsPreswitchUmount (closeLogfile unregisterMdev : σ → σ) (st : σ) : ℤ × σ :=
  let st := closeLogfile st
  let st := (initramfsEjectNewrootBasemounts C st).2
  let st := doUmountNonfatal C runMountpoint st
  let st := doUmountNonfatal C tmpMountpoint st
  let st := unregisterMdev st
  let st := doUmountNonfatal C devfsShmMountpoint st
  let st := doUmountNonfatal C devfsPtsMountpoint st
  -- maybe re-use the bind mounts
  let st := doMoveOrUmount C devfsMountpoint (getNewrootPath "/dev") st
  let st := doMoveOrUmount C sysfsMountpoint (getNewrootPath "/sys") st
  let st := doMoveOrUmount C procMountpoint (getNewrootPath "/proc") st
  (0, st)

end

end Fischstaebchen
