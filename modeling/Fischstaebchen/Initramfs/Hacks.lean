/-
  The environment of the hook scripts (`initramfs/hacks.c`).

  `initramfs_additional_env_exports` exports what the hooks need to know about
  the initramfs, among other things whether the root is mounted read-only.

  * `rootRo_exported`: `ROOT_RO` is true if anything was decided at all.
  * `rootRoAgrees_iff`: hence it agrees with the mount flags only if the
    decision was for a read-only root.
-/
import Fischstaebchen.Initramfs.Cmdline

namespace Fischstaebchen

/-! ## Exports -/

def initramfsLogfilePath : CStr := "/initramfs.log".toList
def initramfsDatadir : CStr := "/init.d".toList
def initramfsHookdir : CStr := initramfsDatadir ++ "/hooks".toList
def initramfsConfdir : CStr := initramfsDatadir ++ "/config".toList

/-- `_initramfs_export_arch`. -/
def initramfsExportArch (host : Host) (env : Environ) : Environ :=
  match host.uname with
  | none =>
    let env := exportEnv "ARCH" none env
    exportEnv "ALT_ARCH" none env
  | some uinfo =>
    let env := exportEnv "ARCH" (some uinfo.machine) env
    match streqSwitch uinfo.machine ["x86_64", "x86"] with
    | some 0 => exportEnv "ALT_ARCH" (some "amd64".toList) env
    | some 1 => exportEnv "ALT_ARCH" (some "i686".toList) env
    | _ => exportEnv "ALT_ARCH" (some uinfo.machine) env

/-- `initramfs_additional_env_exports`. -/
def initramfsAdditionalEnvExports (host : Host) (g : InitramfsGlobals) (env : Environ) : Environ :=
  let env := exportEnv "INITRAMFS_LOGFILE" (some initramfsLogfilePath) env
  let env := exportEnv "IHOOK" (some initramfsHookdir) env
  let env := exportEnv "ICFG" (some initramfsConfdir) env
  let env := exportEnv "IDATA" (some initramfsDatadir) env
  let env := initramfsExportArch host env
  let env := exportEnv "KREL" g.kernelReleaseStr env
  let env := exportEnv "KLOCAL" g.kernelLocalverStr env
  let env := exportEnv "SYSMEM" (some (toString g.memsizeM).toList) env
  let env := exportEnv "CPUCOUNT" (some (toString g.numCpu).toList) env
  let env := exportEnvShbool "QUIET" g.wantQuiet env
  let env := exportEnvShbool "DEBUG" g.wantDebug env
  let env := exportEnvShbool "VERBOSE" g.wantVerbose env
  let env := exportEnvShbool "ROOT_RO" g.rootRoStatus.toInt env
  let env := exportEnvShbool "SHTRUE" 1 env
  let env := exportEnvShbool "SHFALSE" 0 env
  exportEnvShbool "SHELL_ON_ERROR" (if g.doshell &&& initramfsDoshellOnerror ≠ 0#32 then 1 else 0)
    env

/-- What is exported as `ROOT_RO`: whether the decision is non-zero. -/
theorem rootRo_exported (host : Host) (g : InitramfsGlobals) (env : Environ) :
    initramfsAdditionalEnvExports host g env "ROOT_RO" = some shellStrTrue ↔
      g.rootRoStatus ≠ dboolUndecided := by
  have hint : g.rootRoStatus.toInt ≠ 0 ↔ g.rootRoStatus ≠ dboolUndecided :=
    not_congr (BitVec.toInt_inj (y := 0#32))
  -- the exports that follow are of other variables
  simp only [initramfsAdditionalEnvExports]
  rw [exportEnvShbool_of_ne (by simp), exportEnvShbool_of_ne (by simp),
    exportEnvShbool_of_ne (by simp), exportEnvShbool_self, hint]

/-! ## `ROOT_RO` and the mount -/

/-- The exported `ROOT_RO` is true exactly if the root is mounted read-only. -/
def RootRoAgrees (host : Host) (g : InitramfsGlobals) (env : Environ) : Prop :=
  initramfsAdditionalEnvExports host g env "ROOT_RO" = some shellStrTrue ↔
    g.newrootMount.flags &&& msRdonly ≠ 0#64

section
variable {ω : Type*} (zramDiskSimple : ZramDiskSimple ω)

/-- **When `ROOT_RO` agrees with the mount**: the last word about the root mode
    is `ro`.  A decision for a read-write root is non-zero, too, and no decision
    mounts the root read-only. -/
theorem rootRoAgrees_iff {host : Host} {g : InitramfsGlobals} {w : ω}
    (hundecided : g.rootRoStatus = dboolUndecided)
    (hok : (initramfsProcessCmdline zramDiskSimple host g w).1 = 0)
    (hfstype : (initramfsProcessCmdline zramDiskSimple host g w).2.1.newrootMount.fstype ≠
      some "squashfs".toList) (env : Environ) :
    RootRoAgrees host (initramfsProcessCmdline zramDiskSimple host g w).2.1 env ↔
      lastRootMode g.cmdlineArgv = some .ro := by
  obtain ⟨-, hrun⟩ := processCmdline_success zramDiskSimple hok
  have hstatus : (initramfsProcessCmdline zramDiskSimple host g w).2.1.rootRoStatus =
      ((lastRootMode g.cmdlineArgv).map RootMode.status).getD dboolUndecided := by
    rw [← hundecided, ← processCmdline_rootRoStatus zramDiskSimple hok, hrun]
    rfl
  have hrdonly : (initramfsProcessCmdline zramDiskSimple host g w).2.1.newrootMount.flags &&&
      msRdonly ≠ 0#64 ↔ lastRootMode g.cmdlineArgv ≠ some .rw := by
    rw [hrun] at hfstype ⊢
    rw [postprocessCmdline_rdonly, processCmdline_rootRoStatus zramDiskSimple hok, hundecided,
      RootMode.isUndefTrue_status]
    exact or_iff_right fun h => hfstype h.2
  rw [RootRoAgrees, rootRo_exported, hstatus, hrdonly]
  rcases lastRootMode g.cmdlineArgv with _ | _ | _ <;> decide

end

/-- An environment without variables. -/
def emptyEnviron : Environ := fun _ => none

/-- A command line with `ro`. -/
theorem rootRoAgrees_ro :
    RootRoAgrees sampleHost (sampleRun ["quiet", "root=/dev/sda1", "ro"]).2.1 emptyEnviron ↔
      lastRootMode (["quiet", "root=/dev/sda1", "ro"].map String.toList) = some .ro :=
  rootRoAgrees_iff _ rfl (by decide +kernel) (by decide +kernel) emptyEnviron

/-- With `rw`, and without any decision, `ROOT_RO` is the opposite of the mount. -/
theorem rootRoAgrees_rw :
    (sampleRun ["root=/dev/sda1", "rw"]).1 = 0 ∧
      (sampleRun ["root=/dev/sda1", "rw"]).2.1.newrootMount.fstype ≠ some "squashfs".toList ∧
      ¬ RootRoAgrees sampleHost (sampleRun ["root=/dev/sda1", "rw"]).2.1 emptyEnviron ∧
      ¬ RootRoAgrees sampleHost (sampleRun ["root=/dev/sda1"]).2.1 emptyEnviron := by
  have hrw : (sampleRun ["root=/dev/sda1", "rw"]).2.1.rootRoStatus = dboolFalse ∧
      (sampleRun ["root=/dev/sda1", "rw"]).2.1.newrootMount.flags = 0#64 := by decide +kernel
  have hundecided : (sampleRun ["root=/dev/sda1"]).2.1.rootRoStatus = dboolUndecided ∧
      (sampleRun ["root=/dev/sda1"]).2.1.newrootMount.flags = msRdonly := by decide +kernel
  refine ⟨by decide +kernel, by decide +kernel, ?_, ?_⟩
  · rw [RootRoAgrees, rootRo_exported, hrw.1, hrw.2]
    decide
  · rw [RootRoAgrees, rootRo_exported, hundecided.1, hundecided.2]
    decide

end Fischstaebchen
