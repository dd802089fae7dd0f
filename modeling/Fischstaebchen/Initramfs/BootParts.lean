/-
  What happens in the phases of the boot process (`initramfs/initramfs.c`,
  `initramfs/hacks.c`, `initramfs/premount.c`, `initramfs/devfs.c`, `initramfs/run-flags.c`
  and `initramfs/main/init.c`).

  The functions of the phases are `Inner`.
-/
import Fischstaebchen.Initramfs.Basemounts
import Fischstaebchen.Initramfs.BootHooks

namespace Fischstaebchen

open Lib

/-- The parts of the initramfs that the boot process calls. -/
structure BootParts (σ : Type) extends BootSystem σ where
  /-- `makedirs` -/
  makedirs : CStr → σ → ℤ × σ
  /-- the file that `_initramfs_export_colors` writes -/
  writeColors : CStr → σ → σ
  /-- `run_command_until_success_quiet`: the message, the timeout, a file and its arguments -/
  untilSuccess : CStr → ℕ → CStr → List CStr → Environ → σ → ℤ × σ
  /-- the entries of an fstab file; `none` if it cannot be opened -/
  readFstab : CStr → σ → Option (List FstabEntry)
  /-- `_mount_that_entry`, given `have_network` -/
  mountThatEntry : ℤ → CStr → CStr → FstabEntry → σ → ℤ × σ
  /-- `initramfs_domount` -/
  domount : InitramfsGlobals → MountConfig → σ → ℤ × σ
  mounts : MountCalls σ
  /-- `umount_all_in` -/
  umountAllIn : CStr → σ → ℤ × σ
  /-- `umount_recursive` -/
  umountRecursive : CStr → σ → ℤ × σ
  /-- `unregister_mdev` -/
  unregisterMdev : σ → σ
  /-- `initramfs_globals_close_logfile` -/
  closeLogfile : σ → σ
  /-- `create_user_tmpdirs` -/
  createUserTmpdirs : CStr → CStr → σ → ℤ × σ
  /-- `read_sysfs_file` -/
  readSysfsFile : CStr → σ → ℤ × Option CStr

section
variable {σ : Type} (S : BootParts σ)

/-! ## Flag files -/

/-- `INITRAMFS_RUN_FLAGSDIR`. -/
def initramfsRunFlagsdir : CStr := initramfsRunConfdir

/-- `ishare_get_flagfile_path_shared`, if there is enough memory. -/
def ishareGetFlagfilePathShared (name : CStr) : Option CStr :=
  if name = [] then none else some (initramfsRunFlagsdir ++ "/".toList ++ name)

/-- `ishare_check_flag`. -/
def ishareCheckFlag (name : CStr) (sys : σ) : Dbool :=
  match ishareGetFlagfilePathShared name with
  | none => dboolUndecided
  | some flagfilePath => if S.fileExists flagfilePath sys then dboolTrue else dboolFalse

/-- `dbool_is_true`. -/
def dboolIsTrue (v : Dbool) : Bool := v &&& dboolTrue ≠ 0#32

/-- `dbool_is_false`. -/
def dboolIsFalse (v : Dbool) : Bool := v &&& dboolFalse ≠ 0#32

/-- `ishare_has_flag`. -/
def ishareHasFlag (name : CStr) (sys : σ) : Bool := dboolIsTrue (ishareCheckFlag S name sys)

/-- `ishare_has_not_flag`. -/
def ishareHasNotFlag (name : CStr) (sys : σ) : Bool := dboolIsFalse (ishareCheckFlag S name sys)

/-! ## The run directory -/

/-- `LX__MKDIR_EXPORT`. -/
def mkdirExport (vname : String) (p : CStr) (ret : BitVec 32) : Boot σ (BitVec 32) :=
  Prog.step fun st =>
    let r := S.makedirs p st.sys
    let st := st.setSys r.2
    if r.1 = 0 then (ret, { st with env := exportEnv vname (some p) st.env })
    else (ret ||| 1#32, { st with env := exportEnv vname none st.env })

/-- `initramfs_init_rundir`. -/
def initramfsInitRundir : Boot σ ℤ := do
  let ret ← mkdirExport S "ISHARE" initramfsRundir 0#32
  let ret ← mkdirExport S "ISHARE_TMP" initramfsRunTmpdir ret
  let ret ← mkdirExport S "ISHARE_CFG" initramfsRunConfdir ret
  let ret ← mkdirExport S "ISHARE_HOOKS" initramfsRunHookdir ret
  Prog.step fun st =>
    let env := exportEnv "IENV" (some (initramfsRunConfdir ++ "/env.sh".toList)) st.env
    let env := exportEnv "ICOLORS" (some (getInitramfsRundir "colors.sh")) env
    (ret.toInt, { st.setSys (S.writeColors (getInitramfsRundir "colors.sh") st.sys) with env })

/-! ## Modules -/

/-- `initramfs_modprobe`. -/
def initramfsModprobe (name : CStr) : Boot σ ℤ :=
  runCommand S.toBootSystem busyboxExe ["modprobe".toList, name]

/-- `have_modules_dir`. -/
def haveModulesDir (st : BootState σ) : Bool :=
  match st.g.kernelReleaseStr with
  | none | some [] => false
  | some rel => S.fileExists ("/lib/modules/".toList ++ rel ++ "/modules.dep".toList) st.sys

/-- The loop of `load_modules`. -/
def loadModulesLoop : List CStr → Boot σ ℤ
  | [] => pure 0
  | name :: names => do
    initramfsFailLatch S.toBootSystem (.module name) (initramfsModprobe S name)
    loadModulesLoop names

/-- `load_modules`. -/
def loadModules (modules : List CStr) : Boot σ ℤ := Boot.fn (loadModulesLoop S modules)

/-! ## Disks -/

/-- The message of `_initramfs_wait_for_disk__label_or_uuid`; its buffer has 51 chars. -/
def waitForDiskMessage (diskSpec : CStr) : CStr :=
  let msg := "Waiting for disk ".toList ++ diskSpec
  if msg.length < 51 then msg else msg.take 48 ++ "<>".toList

/-- `_initramfs_wait_for_disk__label_or_uuid`. -/
def waitForDiskLabelOrUuid (timeout : ℕ) (diskSpec : CStr) : Boot σ ℤ :=
  Prog.step fun st =>
    let r := S.untilSuccess (waitForDiskMessage diskSpec) timeout busyboxExe
      ["findfs".toList, diskSpec] st.env st.sys
    (r.1, st.setSys r.2)

/-- `access` with `F_OK`. -/
def accessFile (path : CStr) : Boot σ ℤ :=
  Prog.step fun st => (if S.fileExists path st.sys then 0 else -1, st)

/-- `_initramfs_wait_for_disk__dev`, with `mdev_run_scan`. -/
def waitForDiskDev (devpath : CStr) : Boot σ ℤ := do
  let _ ← runCommand S.toBootSystem "/sbin/mdev".toList ["/sbin/mdev".toList, "-s".toList]
  accessFile S devpath

/-- The part of `initramfs_wait_for_disk` for a path that does not exist; `rem` is what
    follows `/dev/`. -/
def waitForDiskPath (disk : CStr) (rem : Option CStr) : Boot σ ℤ :=
  match rem with
  -- netshare or invalid path
  | none => pure (-1)
  | some rem =>
    -- LVM, mdadm, and what is not a device node
    if (strStartswith rem "vg".toList).isSome ∨ (strStartswith rem "md".toList).isSome ∨
        '/' ∈ rem then
      pure (-1)
    else if (strStartswith rem "sd".toList).isSome ∨ (strStartswith rem "hd".toList).isSome then
      waitForDiskDev S disk
    else pure (-1)

/-- `initramfs_wait_for_disk`. -/
def initramfsWaitForDisk (timeout : ℕ) (disk : CStr) : Boot σ ℤ :=
  if disk = [] then pure (-1)
  else if disk.head? = some '/' then do
    let ret ← accessFile S disk
    if ret = 0 then pure 0 else waitForDiskPath S disk (strStartswith disk "/dev/".toList)
  else if (strStartswith disk "LABEL=".toList).isSome ∨
      (strStartswith disk "UUID=".toList).isSome ∨
      (strStartswith disk "PARTUUID=".toList).isSome then
    waitForDiskLabelOrUuid S timeout disk
  else pure (-1)

/-- The loop of `initramfs_waitfor_disk_devices`. -/
def waitforDisks (timeout : ℕ) : List CStr → Boot σ ℤ
  | [] => pure 0
  | disk :: disks =>
    if disk = [] then waitforDisks timeout disks
    else do
      let ret ← initramfsWaitForDisk S timeout disk
      if ret ≠ 0 then pure (-1) else waitforDisks timeout disks

/-- The disk of the root file system, if `initramfs_waitfor_disk_devices` waits for it. -/
def rootfsDisk (g : InitramfsGlobals) : Option CStr :=
  if dboolIsUndefTrue g.wantNewrootMount then
    if g.newrootMount.cfg &&& mountCfgNeedNetwork ≠ 0#64 then none
    else if g.newrootMount.cfg &&& (mountCfgNodev ||| mountCfgIsZram) ≠ 0#64 then none
    else g.newrootMount.source
  else none

/-- Waiting for the disk of the root file system. -/
def waitforRootfs (timeout : ℕ) (disk : Option CStr) : Boot σ ℤ :=
  match disk with
  | none => pure 0
  | some disk => initramfsWaitForDisk S timeout disk

/-- `initramfs_waitfor_disk_devices`. -/
def initramfsWaitforDiskDevices : Boot σ ℤ := do
  let st ← Prog.step fun st => (st, st)
  if st.g.rootfindDelay < 1 then pure 0
  else do
    let ret ← waitforRootfs S st.g.rootfindDelay (rootfsDisk st.g)
    if ret ≠ 0 then pure (-1) else waitforDisks S st.g.rootfindDelay st.rootfindDevices

/-! ## Mounts -/

/-- `get_any_file_va`. -/
def getAnyFile (files : List CStr) (sys : σ) : Option CStr :=
  files.find? fun file => S.fileExists file sys

/-- `initramfs_premount_all_nofilter` and `initramfs_premount_all`, for a file. -/
def premountFile (filter : Bool) (root file : CStr) : Boot σ ℤ :=
  Prog.step fun st =>
    let fstab := S.readFstab file st.sys
    let r :=
      if filter then initramfsPremountAll (S.mountThatEntry st.haveNetwork) root fstab st.premount
      else initramfsPremountAllNofilter (S.mountThatEntry st.haveNetwork) root fstab st.premount
    (r.1.toInt, { st with premount := r.2 })

/-- The part of `_premount_essential` that premounts. -/
def premountAnyFile (root : CStr) (files : List CStr) : Boot σ ℤ := do
  let file ← Prog.step fun st => (getAnyFile S files st.sys, st)
  if file = none then pure 0 else premountFile S false root (file.getD [])

/-- `_premount_essential`. -/
def premountEssential (root : CStr) (files : List CStr) : Boot σ ℤ := do
  let ret ← premountAnyFile S root files
  if ret ≠ 0 then
    initramfsRunOnerrorShell S.toBootSystem ret (some "essential premounts".toList)
  else pure ret

/-- `premount_by_name`. -/
def premountByName (root : CStr) (name : String) : Boot σ ℤ :=
  premountEssential S root
    [initramfsRunConfdir ++ "/".toList ++ name.toList, initramfsConfdir ++ "/".toList ++ name.toList]

/-- `initramfs_premount`. -/
def initramfsPremount (name : String) : Boot σ ℤ :=
  premountByName S "/".toList ("initramfs-" ++ name ++ ".fstab")

/-- `aux_premount`. -/
def auxPremount (name : String) : Boot σ ℤ :=
  premountByName S initramfsAuxMntroot ("aux-" ++ name ++ ".fstab")

/-- `newroot_premount`. -/
def newrootPremount (name : String) : Boot σ ℤ :=
  premountByName S newrootMountpoint ("newroot-" ++ name ++ ".fstab")

/-- `IMOUNT_FSTABFILE`. -/
def imountFstabfile (f : String) : Boot σ Unit := do
  let file ← Prog.step fun st => (getAnyFile S
    [getNewrootPath f ++ ".premount".toList, getNewrootPath f] st.sys, st)
  if file = none then pure ()
  else do
    let ret ← premountFile S (file = some (getNewrootPath f)) newrootMountpoint (file.getD [])
    if ret ≠ 0 then Prog.stop (.ret ret) else pure ()

/-- `initramfs_newroot_premount (NULL)`. -/
def initramfsNewrootPremount : Boot σ ℤ :=
  Boot.fn do
    imountFstabfile S "/fstab"
    imountFstabfile S "/etc/fstab"
    pure 0

/-- `_initramfs_mount_newroot_default`. -/
def initramfsMountNewrootDefault (wantFlag : Dbool) (mount : MountConfig) : Boot σ ℤ :=
  if dboolIsFalse wantFlag then pure 0
  else if mountConfigIsEnabled mount ≠ 0 then pure 0
  else do
    let ret ← Prog.step fun st =>
      let r := S.domount st.g mount st.sys
      (r.1, st.setSys r.2)
    Prog.emit (.domount mount.target ret)
    if ret ≠ 0 then
      initramfsRunOnerrorShell S.toBootSystem (-1) (some "Failed to mount".toList)
    else pure 0

/-- `initramfs_mount_newroot_root`. -/
def initramfsMountNewrootRoot : Boot σ ℤ := do
  let g ← Prog.step fun st => (st.g, st)
  initramfsMountNewrootDefault S g.wantNewrootMount g.newrootMount

/-- `initramfs_mount_newroot_usr`. -/
def initramfsMountNewrootUsr : Boot σ ℤ := do
  let g ← Prog.step fun st => (st.g, st)
  initramfsMountNewrootDefault S g.wantNewrootUsrMount g.newrootUsrMount

/-- A call that works on the state of the system. -/
def sysCall (call : σ → ℤ × σ) : Boot σ ℤ :=
  Prog.step fun st =>
    let r := call st.sys
    (r.1, st.setSys r.2)

/-- `initramfs_mount_newroot_tmpdir`. -/
def mountNewrootTmpdir : Boot σ ℤ :=
  Prog.step fun st =>
    let r := initramfsMountNewrootTmpdir (basemountsMountTmp S.mounts) st.premount st.env
    (r.1, { st with premount := r.2.1, env := r.2.2 })

/-- `initramfs_setup_newroot_tmpdir`; that user tmpdirs cannot be created is only reported. -/
def initramfsSetupNewrootTmpdir : Boot σ ℤ :=
  Prog.step fun st =>
    if st.premount.premountStatus &&& initramfsHavemntTmp ≠ 0#32 ∧
        S.fileExists (getNewrootPath "/etc/passwd") st.sys then
      (0, st.setSys (S.createUserTmpdirs (getNewrootPath "/etc/passwd")
        (getNewrootPath "/tmp/users") st.sys).2)
    else (0, st)

/-- `initramfs_eject_aux_mounts`. -/
def initramfsEjectAuxMounts : Boot σ ℤ := do
  let ret ← sysCall (S.umountAllIn "/mnt".toList)
  pure (if ret < 0 then -1 else 0)

/-- `initramfs_eject_mounts`. -/
def initramfsEjectMounts : Boot σ ℤ := do
  let _ ← sysCall (S.umountRecursive newrootMountpoint)
  let _ ← sysCall (initramfsEjectNewrootBasemounts S.mounts)
  let _ ← initramfsEjectAuxMounts S
  pure 0

/-! ## Switching to newroot -/

/-- `_initramfs_hacks_override_init_prog`. -/
def initramfsHacksOverrideInitProg (readFrom : CStr) : Boot σ ℤ :=
  Prog.step fun st =>
    if S.fileExists readFrom st.sys then
      let r := S.readSysfsFile readFrom st.sys
      (r.1, { st with g := { st.g with realInit := r.2 } })
    else (0, st)

/-- The init programs that are looked for in newroot, after the configured one. -/
def initCandidates : List String :=
  ["/sbin/init", "/init", "/usr/lib/systemd/systemd", "/lib/systemd/systemd"]

/-- The init program that is found in newroot. -/
def findInitProg (g : InitramfsGlobals) (sys : σ) : Option CStr :=
  match g.realInit with
  | none => (initCandidates.find? fun prog => S.lexists (getNewrootPath prog) sys).map String.toList
  | some realInit =>
    if S.lexists (newrootMountpoint ++ "/".toList ++ realInit) sys then some realInit
    else (initCandidates.find? fun prog => S.lexists (getNewrootPath prog) sys).map String.toList

/-- `get_init_prog`. -/
def getInitProg : Boot σ CStr := do
  let prog ← Prog.step fun st => (findInitProg S st.g st.sys, st)
  if prog = none then do
    let _ ← initramfsRunOnerrorShell S.toBootSystem (-1) (some "no init found in newroot".toList)
    pure "/sbin/init".toList
  else pure (prog.getD [])

/-- The command line of `switch_root`. -/
def switchRootArgv (initProg : CStr) : List CStr :=
  [busyboxExe, "switch_root".toList, newrootMountpoint, initProg]

/-- `initramfs_switch_root`. -/
def initramfsSwitchRoot : Boot σ ℤ := do
  let initProg ← getInitProg S
  let _ ← sysCall (initramfsPreswitchUmount S.mounts S.closeLogfile S.unregisterMdev)
  let argv := switchRootArgv initProg
  let execd ← Prog.step fun st => (S.execvp argv st.sys, st)
  if execd then Prog.stop (.exec argv) else pure (-1)

end

/-! ## Functions within a phase -/

section
variable {σ : Type} (S : BootParts σ) {Q : Stop → Prop}

/-- The boot process is replaced by `switch_root`. -/
def Stop.SwitchesRoot (x : Stop) : Prop := ∃ initProg, x = .exec (switchRootArgv initProg)

theorem inner_sysCall (call : σ → ℤ × σ) : Inner Q (sysCall call) :=
  inner_step (fun _ => rfl) (fun _ => rfl) fun _ => rfl

theorem inner_accessFile (path : CStr) : Inner Q (accessFile S path) :=
  inner_step (fun _ => rfl) (fun _ => rfl) fun _ => rfl

theorem inner_mkdirExport {vname : String} (hname : "HAVE_NET" ≠ vname) (p : CStr)
    (ret : BitVec 32) : Inner Q (mkdirExport S vname p ret) := by
  refine inner_step ?_ ?_ ?_ <;> intro st <;> dsimp only <;> split_ifs
  · rfl
  · rfl
  · rfl
  · rfl
  · exact exportEnv_of_ne hname (some p) st.env
  · exact exportEnv_of_ne hname none st.env

theorem inner_initRundir : Inner Q (initramfsInitRundir S) := by
  refine inner_bind (inner_mkdirExport S (by simp) _ _) fun ret =>
    inner_bind (inner_mkdirExport S (by simp) _ _) fun ret =>
    inner_bind (inner_mkdirExport S (by simp) _ _) fun ret =>
    inner_bind (inner_mkdirExport S (by simp) _ _) fun ret =>
    inner_step (fun _ => rfl) (fun _ => rfl) fun st => ?_
  have hcolors : ∀ value env, exportEnv "ICOLORS" value env "HAVE_NET" = env "HAVE_NET" :=
    exportEnv_of_ne (by simp)
  have henv : ∀ value env, exportEnv "IENV" value env "HAVE_NET" = env "HAVE_NET" :=
    exportEnv_of_ne (by simp)
  simp only [hcolors, henv]

theorem inner_loadModules (modules : List CStr) : Inner Q (loadModules S modules) := by
  refine inner_fn ?_
  induction modules with
  | nil => exact inner_pure 0
  | cons name names ih =>
    exact inner_bind (inner_moduleLatch _ (inner_runCommand _ _ _) name) fun _ => ih

theorem inner_waitForDiskPath (disk : CStr) (rem : Option CStr) :
    Inner Q (waitForDiskPath S disk rem) := by
  unfold waitForDiskPath
  cases rem with
  | none => exact inner_pure _
  | some rem =>
    dsimp only
    split_ifs
    · exact inner_pure _
    · exact inner_bind (inner_runCommand _ _ _) fun _ => inner_accessFile S disk
    · exact inner_pure _

theorem inner_waitForDisk (timeout : ℕ) (disk : CStr) :
    Inner Q (initramfsWaitForDisk S timeout disk) := by
  unfold initramfsWaitForDisk
  split_ifs
  · exact inner_pure _
  · refine inner_bind (inner_accessFile S disk) fun ret => ?_
    split_ifs
    · exact inner_pure _
    · exact inner_waitForDiskPath S disk _
  · exact inner_step (fun _ => rfl) (fun _ => rfl) fun _ => rfl
  · exact inner_pure _

theorem inner_waitforDiskDevices : Inner Q (initramfsWaitforDiskDevices S) := by
  have hdisks : ∀ timeout disks, Inner Q (waitforDisks S timeout disks) := by
    intro timeout disks
    induction disks with
    | nil => exact inner_pure 0
    | cons disk disks ih =>
      unfold waitforDisks
      split_ifs
      · exact ih
      · refine inner_bind (inner_waitForDisk S timeout disk) fun ret => ?_
        split_ifs
        · exact inner_pure _
        · exact ih
  refine inner_bind (inner_step (fun _ => rfl) (fun _ => rfl) fun _ => rfl) fun st => ?_
  split_ifs
  · exact inner_pure 0
  · refine inner_bind ?_ fun ret => ?_
    · cases rootfsDisk st.g with
      | none => exact inner_pure 0
      | some disk => exact inner_waitForDisk S _ disk
    · split_ifs
      · exact inner_pure _
      · exact hdisks _ _

theorem inner_premountFile (filter : Bool) (root file : CStr) :
    Inner Q (premountFile S filter root file) :=
  inner_step (fun _ => rfl) (fun _ => rfl) fun _ => rfl

theorem inner_premountByName (root : CStr) (name : String) :
    Inner Q (premountByName S root name) := by
  refine inner_bind (inner_bind (inner_step (fun _ => rfl) (fun _ => rfl) fun _ => rfl)
    fun file => ?_) fun ret => ?_
  · split_ifs
    · exact inner_pure 0
    · exact inner_premountFile S _ _ _
  · split_ifs
    · exact inner_onerrorShell _ ret (by simp [shellReasons])
    · exact inner_pure ret

theorem inner_newrootPremount : Inner Q (initramfsNewrootPremount S) := by
  have hfstab : ∀ f, Inner (fun x => (∃ code, x = .ret code) ∨ Q x) (imountFstabfile S f) := by
    intro f
    refine inner_bind (inner_step (fun _ => rfl) (fun _ => rfl) fun _ => rfl) fun file => ?_
    split_ifs
    · exact inner_pure ()
    · refine inner_bind (inner_premountFile S _ _ _) fun ret => ?_
      split_ifs
      · exact inner_stop (.inl ⟨ret, rfl⟩)
      · exact inner_pure ()
  exact inner_fn (inner_bind (hfstab _) fun _ => inner_bind (hfstab _) fun _ => inner_pure 0)

theorem inner_mountNewrootDefault (wantFlag : Dbool) (mount : MountConfig) :
    Inner Q (initramfsMountNewrootDefault S wantFlag mount) := by
  unfold initramfsMountNewrootDefault
  split_ifs
  · exact inner_pure 0
  · exact inner_pure 0
  · refine inner_bind (inner_step (fun _ => rfl) (fun _ => rfl) fun _ => rfl) fun ret =>
      inner_bind (inner_emit (fun _ _ => trivial) id
        (retryTold_of_noHook (by simp) (by simp))) fun _ => ?_
    split_ifs
    · exact inner_onerrorShell _ _ (by simp [shellReasons])
    · exact inner_pure 0

theorem inner_mountNewrootRoot : Inner Q (initramfsMountNewrootRoot S) :=
  inner_bind (inner_step (fun _ => rfl) (fun _ => rfl) fun _ => rfl) fun _ =>
    inner_mountNewrootDefault S _ _

theorem inner_mountNewrootUsr : Inner Q (initramfsMountNewrootUsr S) :=
  inner_bind (inner_step (fun _ => rfl) (fun _ => rfl) fun _ => rfl) fun _ =>
    inner_mountNewrootDefault S _ _

theorem inner_mountNewrootTmpdir : Inner Q (mountNewrootTmpdir S) := by
  refine inner_step (fun _ => rfl) (fun _ => rfl) fun st => ?_
  simp only [initramfsMountNewrootTmpdir]
  exact exportEnvShbool_of_ne (by simp) _ _

theorem inner_setupNewrootTmpdir : Inner Q (initramfsSetupNewrootTmpdir S) := by
  refine inner_step ?_ ?_ ?_ <;> intro st <;> split_ifs <;> rfl

theorem inner_ejectAuxMounts : Inner Q (initramfsEjectAuxMounts S) :=
  inner_bind (inner_sysCall _) fun _ => inner_pure _

theorem inner_overrideInitProg (readFrom : CStr) :
    Inner Q (initramfsHacksOverrideInitProg S readFrom) := by
  refine inner_step ?_ ?_ ?_ <;> intro st <;> split_ifs <;> rfl

/-- Switching to newroot may replace the boot process. -/
theorem inner_switchRoot : Inner Stop.SwitchesRoot (initramfsSwitchRoot S) := by
  refine inner_bind (inner_bind (inner_step (fun _ => rfl) (fun _ => rfl) fun _ => rfl)
    fun prog => ?_) fun initProg => inner_bind (inner_sysCall _) fun _ =>
    inner_bind (inner_step (fun _ => rfl) (fun _ => rfl) fun _ => rfl) fun execd => ?_
  · split_ifs
    · exact inner_bind (inner_onerrorShell _ _ (by simp [shellReasons])) fun _ => inner_pure _
    · exact inner_pure _
  · split_ifs
    · exact inner_stop ⟨initProg, rfl⟩
    · exact inner_pure _

end

end Fischstaebchen
