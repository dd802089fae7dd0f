/-
  Decisions and the global state of the initramfs (`common/decision_bool.h`,
  `initramfs/globals.c`).

  A decision bool is undecided, false or true.  Two tests decode it: whether it
  is not false (`dboolIsUndefTrue`), and whether the word is non-zero.
-/
import Fischstaebchen.Fs.MountConfig
import Fischstaebchen.Misc.Host

namespace Fischstaebchen

/-! ## Decision bools -/

/-- `DBOOL_TYPE`. -/
abbrev Dbool := BitVec 32

def dboolUndecided : Dbool := 0x0
def dboolForced : Dbool := 0x1
def dboolFalse : Dbool := 0x2
def dboolTrue : Dbool := 0x4

/-- `dbool_is_undef_true`. -/
def dboolIsUndefTrue (v : Dbool) : Bool := v &&& dboolFalse = 0#32

/-- `dbool_enforce`. -/
def dboolEnforce (v : Dbool) : Dbool := v ||| dboolForced

/-! ## The globals -/

def initramfsDoshellDisable : BitVec 32 := 0x00
def initramfsDoshellOnerror : BitVec 32 := 0x01
def initramfsDoshellOnce : BitVec 32 := 0x02
def initramfsDoshellOncePreswitch : BitVec 32 := 0x04
def initramfsDoshellLoop : BitVec 32 := 0x08

/-- `struct initramfs_globals_type`; the mount configs are not NULL once the
    globals are initialized. -/
structure InitramfsGlobals where
  rootRoStatus : Dbool
  wantNewrootMount : Dbool
  wantNewrootUsrMount : Dbool
  rootfindDelay : ℕ
  doshell : BitVec 32
  wantDebug : ℤ
  wantVerbose : ℤ
  wantQuiet : ℤ
  realInit : Option CStr
  cmdlineArgv : List CStr
  kernelReleaseStr : Option CStr
  kernelLocalverStr : Option CStr
  numCpu : ℤ
  memsizeM : ℕ
  zramAutoswapSizeSpec : Option CStr
  loadModules : List CStr
  newrootMount : MountConfig
  newrootUsrMount : MountConfig
  deriving DecidableEq

/-- `NEWROOT_MOUNTPOINT`. -/
def newrootMountpoint : CStr := "/newroot".toList

/-- `GET_NEWROOT_PATH`. -/
def getNewrootPath (p : String) : CStr := newrootMountpoint ++ p.toList

/-- `mount_config_init`. -/
def mountConfigInit (source target fstype : Option CStr) (flags : Flags) (opts : Option CStr)
    (cfg : Flags) : MountConfig :=
  { cfg, source, target, fstype, flags, opts }

/-- `_initramfs_globals_init`: `_initramfs_globals_zap` and
    `_initramfs_globals_init_data_structs`. -/
def initramfsGlobalsInit (host : Host) : InitramfsGlobals where
  rootRoStatus := dboolUndecided
  wantNewrootMount := dboolUndecided
  wantNewrootUsrMount := dboolUndecided
  rootfindDelay := 0
  doshell := initramfsDoshellDisable
  wantDebug := 0
  wantVerbose := 0
  wantQuiet := 0
  realInit := none
  cmdlineArgv := []
  kernelReleaseStr := none
  kernelLocalverStr := none
  numCpu := getCpucount host
  memsizeM := getMemsizeM host
  zramAutoswapSizeSpec := none
  loadModules := []
  newrootMount := mountConfigInit none (some newrootMountpoint) (some "ext4".toList) 0#64 none 0#64
  newrootUsrMount :=
    mountConfigInit (some (getNewrootPath "/usr.squashfs")) (some (getNewrootPath "/usr"))
      (some "squashfs".toList) msRdonly none mountCfgNeedLoop

end Fischstaebchen
