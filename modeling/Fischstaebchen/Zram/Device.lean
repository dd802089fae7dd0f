/-
  zram devices (`zram/data_types.c`, `zram/globals.c`) and their sysfs files.

  The kernel has up to 256 devices.  An operation on a device may fail for
  reasons of its own, which an oracle tells (`Faults`); otherwise it follows the
  state of the device.
-/
import Fischstaebchen.Strutil.Compare
import Fischstaebchen.Sys

namespace Fischstaebchen

/-! ## Device information -/

/-- `ZRAM_COMP_*`. -/
inductive ZramComp
  | none
  | lzo
  | lz4
  | unknown
deriving DecidableEq

/-- `zram_get_comp_desc`. -/
def zramGetCompDesc : ZramComp → Option CStr
  | .lzo => some "lzo".toList
  | .lz4 => some "lz4".toList
  | .none | .unknown => Option.none

/-- `ZRAM_COMP_DEFAULT`. -/
def zramCompDefault : ZramComp := .lz4

abbrev ZramBits := BitVec 8

def zramTypeNone : ZramBits := 0x0
def zramTypeSwap : ZramBits := 0x1

def zramStatusInitialized : ZramBits := 0x1
def zramStatusClaimed : ZramBits := 0x2
def zramStatusInuse : ZramBits := 0x4

/-- `struct zram_dev_info`; the name and the paths are those of the identifier. -/
structure ZramDevInfo where
  type : ZramBits
  compAlgorithm : ZramComp
  identifier : UInt8
  sizeM : UInt64
  status : ZramBits
deriving DecidableEq

/-- `zram_dev_info_new_from_identifier`. -/
def zramDevInfoNewFromIdentifier (identifier : UInt8) : ZramDevInfo where
  type := zramTypeNone
  compAlgorithm := zramCompDefault
  identifier := identifier
  sizeM := 0
  status := 0x0

/-- `struct zram_globals_type`. -/
structure ZramGlobals where
  nextFreeIdentifier : UInt8
  systemPageSize : UInt64

/-- `get_zram_dev_size_b`. -/
def getZramDevSizeB (globals : ZramGlobals) (dev : ZramDevInfo) : UInt64 :=
  let sizeB := 1048576 * dev.sizeM
  if globals.systemPageSize > 0 then
    let rem := sizeB % globals.systemPageSize
    if rem ≠ 0 then sizeB - rem + globals.systemPageSize else sizeB
  else sizeB

/-! ## The kernel -/

/-- The state of a device: missing, not initialized, or with a disk size and
    possibly in use as swap. -/
inductive ZramDev
  | absent
  | free
  | initialized (disksize : UInt64) (inUse : Bool)
deriving DecidableEq

/-- The `n`-th operation fails with this error. -/
abbrev Faults := ℕ → Option Errno

/-- The devices, the number of operations so far, `errno` and `zram_globals`. -/
structure ZramState where
  dev : UInt8 → ZramDev
  tick : ℕ
  errno : Errno
  globals : Option ZramGlobals

namespace ZramState

variable (st : ZramState)

/-- `errno = e`. -/
def setErrno (e : Errno) : ZramState := { st with errno := e }

def setDev (i : UInt8) (d : ZramDev) : ZramState := { st with dev := Function.update st.dev i d }

/-- One operation more. -/
def next : ZramState := { st with tick := st.tick + 1 }

/-- `zram_globals->next_free_identifier = i`. -/
def setNextFree (globals : ZramGlobals) (i : UInt8) : ZramState :=
  { st with globals := some { globals with nextFreeIdentifier := i } }

@[simp] theorem setErrno_dev (e : Errno) : (st.setErrno e).dev = st.dev := rfl
@[simp] theorem setErrno_errno (e : Errno) : (st.setErrno e).errno = e := rfl
@[simp] theorem setErrno_globals (e : Errno) : (st.setErrno e).globals = st.globals := rfl
@[simp] theorem setErrno_tick (e : Errno) : (st.setErrno e).tick = st.tick := rfl
@[simp] theorem setDev_dev (i : UInt8) (d : ZramDev) :
    (st.setDev i d).dev = Function.update st.dev i d := rfl
@[simp] theorem setDev_globals (i : UInt8) (d : ZramDev) :
    (st.setDev i d).globals = st.globals := rfl
@[simp] theorem setDev_tick (i : UInt8) (d : ZramDev) : (st.setDev i d).tick = st.tick := rfl
@[simp] theorem setNextFree_dev (globals : ZramGlobals) (i : UInt8) :
    (st.setNextFree globals i).dev = st.dev := rfl
@[simp] theorem next_dev : st.next.dev = st.dev := rfl
@[simp] theorem next_globals : st.next.globals = st.globals := rfl
@[simp] theorem next_tick : st.next.tick = st.tick + 1 := rfl

end ZramState

section
variable (F : Faults) (i : UInt8) (st : ZramState)

/-- `sysfs_read_str` of `initstate`: the return code and the value. -/
def readInitstate : (ℤ × Option CStr) × ZramState :=
  match F st.tick, st.dev i with
  | some e, _ => ((-1, none), st.next.setErrno e)
  | none, .absent => ((-1, none), st.next.setErrno .ENOENT)
  | none, .free => ((0, some "0".toList), st.next)
  | none, .initialized _ _ => ((0, some "1".toList), st.next)

/-- `sysfs_write_uint64_decimal` of `disksize`. -/
def writeDisksize (sizeB : UInt64) : ℤ × ZramState :=
  match F st.tick, st.dev i with
  | some e, _ => (-1, st.next.setErrno e)
  | none, .absent => (-1, st.next.setErrno .ENOENT)
  | none, .initialized _ _ => (-1, st.next.setErrno .EBUSY)
  | none, .free =>
    if sizeB = 0 then (-1, st.next.setErrno .EINVAL)
    else (0, st.next.setDev i (.initialized sizeB false))

/-- `sysfs_write_str` of `comp_algorithm`; which algorithm a device has is not
    part of its state. -/
def writeCompAlgorithm (_alg : CStr) : ℤ × ZramState :=
  match F st.tick, st.dev i with
  | some e, _ => (-1, st.next.setErrno e)
  | none, .absent => (-1, st.next.setErrno .ENOENT)
  | none, .initialized _ _ => (-1, st.next.setErrno .EBUSY)
  | none, .free => (0, st.next)

/-- `sysfs_write_str` of `reset`, which has no failures of its own. -/
def writeReset : ℤ × ZramState :=
  match st.dev i with
  | .absent => (-1, st.setErrno .ENOENT)
  | .initialized _ true => (-1, st.setErrno .EBUSY)
  | .initialized _ false => (0, st.setDev i .free)
  | .free => (0, st)

end

end Fischstaebchen
