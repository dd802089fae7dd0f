/-
  The kernel command line (`initramfs/cmdline.c`).

  `_initramfs_process_cmdline` splits every word into a key and values and
  hands them to `_initramfs_cmdline_process_arg`, which updates the globals;
  what the words decided about the root mount is applied afterwards.

  * `processArg_flow`: a callback call never stops the traversal.
  * `processArg_writes`: which fields it may write, by the key of the word; only
    `ro`, `rw` and `stagedive` decide about `root_ro_status`.
  * `processCmdline_rootRoStatus`: hence the last of these words decides.
  * `processCmdline_rdonly`: and with it whether `MS_RDONLY` is set, apart from
    the auto-setup for squashfs.
  * `afterWords_rootfindDelay`: the rootfind delay stays bounded.
-/
import Fischstaebchen.Initramfs.Globals
import Fischstaebchen.Strutil.Argsplit
import Fischstaebchen.Strutil.Convert
import Fischstaebchen.Zram.Autoswap

namespace Fischstaebchen

/-! ## Keys -/

/-- The `CMDLINE_KEY_*`. -/
inductive CmdlineKey
  | dontCare
  | modprobe
  | init
  | realInit
  | newrootRo
  | newrootRw
  | newrootNomount
  | newrootSource
  | newrootFstype
  | newrootFlags
  | stagedive
  | rootfind
  | usrSfsNomount
  | usrSfs
  | zramSwap
  | zramDisk
  | shell
  | liram
  | liramSth
  deriving DecidableEq

/-- The keys of `_initramfs_cmdline_get_int_key`, in the order of the switch. -/
def cmdlineKeyNames : List String :=
  ["modprobe", "load_modules", "init", "real_init", "ro", "rw", "norootmount", "root", "rootfstype",
    "rootfsflags", "rootfind", "squashed_usr", "zram_swap", "zram_disk", "zdisk", "xshell", "liram",
    "stagedive", "nousrmount", "rootflags"]

/-- `_initramfs_cmdline_get_int_key`. -/
def initramfsCmdlineGetIntKey (key : CStr) : CmdlineKey :=
  if key = [] then .dontCare
  else match streqSwitch key cmdlineKeyNames with
  | none => if strStartswith key "liram_".toList ≠ none then .liramSth else .dontCare
  | some 0 | some 1 => .modprobe
  | some 2 => .init
  | some 3 => .realInit
  | some 4 => .newrootRo
  | some 5 => .newrootRw
  | some 6 => .newrootNomount
  | some 7 => .newrootSource
  | some 8 => .newrootFstype
  | some 9 | some 19 => .newrootFlags
  | some 10 => .rootfind
  | some 11 => .usrSfs
  | some 12 => .zramSwap
  | some 13 | some 14 => .zramDisk
  | some 15 => .shell
  | some 16 => .liram
  | some 17 => .stagedive
  | some 18 => .usrSfsNomount
  | some _ => .dontCare

/-- The names of a key; the keys that begin with `liram_` have none. -/
def CmdlineKey.names : CmdlineKey → List String
  | .modprobe => ["modprobe", "load_modules"]
  | .init => ["init"]
  | .realInit => ["real_init"]
  | .newrootRo => ["ro"]
  | .newrootRw => ["rw"]
  | .newrootNomount => ["norootmount"]
  | .newrootSource => ["root"]
  | .newrootFstype => ["rootfstype"]
  | .newrootFlags => ["rootfsflags", "rootflags"]
  | .stagedive => ["stagedive"]
  | .rootfind => ["rootfind"]
  | .usrSfsNomount => ["nousrmount"]
  | .usrSfs => ["squashed_usr"]
  | .zramSwap => ["zram_swap"]
  | .zramDisk => ["zram_disk", "zdisk"]
  | .shell => ["xshell"]
  | .liram => ["liram"]
  | .dontCare | .liramSth => []

theorem getIntKey_of_mem : ∀ (k : CmdlineKey), ∀ name ∈ k.names,
    initramfsCmdlineGetIntKey name.toList = k := by
  intro k
  cases k <;> decide +kernel

/-- **A key is found by its names.** -/
theorem getIntKey_eq_iff {key : CStr} {k : CmdlineKey} (hk : k.names ≠ []) :
    initramfsCmdlineGetIntKey key = k ↔ ∃ name ∈ k.names, key = name.toList := by
  constructor
  · rintro rfl
    cases hs : streqSwitch key cmdlineKeyNames with
    | none =>
      refine absurd ?_ hk
      simp only [initramfsCmdlineGetIntKey, hs]
      split_ifs <;> rfl
    | some i =>
      obtain ⟨name, hname, rfl⟩ := streqSwitch_eq_some hs
      have hall : ∀ name ∈ cmdlineKeyNames,
          name ∈ (initramfsCmdlineGetIntKey name.toList).names := by decide +kernel
      exact ⟨name, hall name (List.mem_of_getElem? hname), rfl⟩
  · rintro ⟨name, hname, rfl⟩
    exact getIntKey_of_mem k name hname

/-! ## The words -/

/-- `_initramfs_cmdline_process_arg__shell`. -/
def processArgShell (g : InitramfsGlobals) (arg : ArgsplitData) : ℤ × InitramfsGlobals :=
  if arg.endOfArg < 0 then
    let doshell := initramfsDoshellOnerror
    let doshell := if arg.nargs < 2 then doshell ||| initramfsDoshellLoop else doshell
    (0, { g with doshell })
  else if arg.endOfArg = 0 ∧ ¬ strIsEmpty arg.value then
    let doshell :=
      match streqSwitch (arg.value.getD [])
        ["never", "fail", "error", "once", "pre", "preswitch", "always"] with
      -- resets any previous mask
      | some 0 => initramfsDoshellDisable
      | some 1 | some 2 => g.doshell ||| initramfsDoshellOnerror
      | some 3 => g.doshell ||| initramfsDoshellOnce
      | some 4 | some 5 => g.doshell ||| initramfsDoshellOncePreswitch
      | some 6 => g.doshell ||| initramfsDoshellLoop
      | _ => g.doshell
    (0, { g with doshell })
  else (0, g)

/-- `_initramfs_cmdline_process_arg__rootfsflags`. -/
def processArgRootfsflags (g : InitramfsGlobals) (flowCtrl : Flow) (arg : ArgsplitData) :
    ℤ × Flow × InitramfsGlobals :=
  match strchr arg.str '=' with
  | none => (-1, flowCtrl, g)
  | some valstr =>
    let valstr := valstr.drop 1
    if valstr = [] then
      (0, .nextArg, { g with newrootMount := { g.newrootMount.freeOpts with flags := 0#64 } })
    else
      let r := parseMountOptsStr (some valstr)
      if r.1 ≠ 0 then (-1, flowCtrl, g)
      else (0, .nextArg,
        { g with newrootMount := { g.newrootMount.freeOpts with opts := r.2.2, flags := r.2.1 } })

/-- `_initramfs_cmdline_process_arg__zram_swap`. -/
def processArgZramSwap (g : InitramfsGlobals) (arg : ArgsplitData) : ℤ × InitramfsGlobals :=
  if arg.endOfArg ≥ 0 then (0, g)
  else
    let size := (arg.argv.getD [])[1]?
    let sizeSpec :=
      if arg.nargs = 1 ∨ strIsEmpty size then zramAutoswapGuessFractional g.memsizeM
      else size.getD []
    (0, { g with zramAutoswapSizeSpec := some sizeSpec })

/-- The loop of `_initramfs_cmdline_process_arg__zram_disk` from index `k` on:
    the name and the size.  The compression options are recognized, but not
    implemented; unknown options are ignored. -/
def zramDiskOptsLoop : ℕ → List CStr → Option CStr × Option CStr → Option CStr × Option CStr
  | _, [], st => st
  | k, opt :: opts, (pName, pSizeSpec) =>
    zramDiskOptsLoop (k + 1) opts
      (if opt = [] then (pName, pSizeSpec)
      else if k = 0 ∧ strchr opt '=' = none then (some opt, pSizeSpec)
      else match strStartswith opt "size=".toList with
        | some val => (pName, some val)
        | none =>
          match strStartswith opt "name=".toList with
          | some val => (some val, pSizeSpec)
          | none => (pName, pSizeSpec))

/-- `_initramfs_cmdline_process_arg__rootfind`. -/
def processArgRootfind (g : InitramfsGlobals) (arg : ArgsplitData) : ℤ × InitramfsGlobals :=
  let defaultRootfindDelay := 50
  if arg.endOfArg = -1 then
    -- set default delay if not already configured
    (0, { g with
      rootfindDelay := if g.rootfindDelay = 0 then defaultRootfindDelay else g.rootfindDelay })
  else if arg.endOfArg = 0 ∧ ¬ strIsEmpty arg.value then
    let r := strToLong arg.value
    let rootfindDelay :=
      if r.1 ≠ 0 ∨ r.2 < 0 ∨ r.2 > 10000 then defaultRootfindDelay else r.2.toNat
    (0, { g with rootfindDelay })
  else (0, g)

/-- `_initramfs_cmdline_process_arg__sfsmount_any`. -/
def processArgSfsmountAny (pMount : MountConfig) (arg : ArgsplitData) : ℤ × MountConfig :=
  if arg.endOfArg = -1 then (0, pMount.enable mountCfgIsEnabled)
  else if arg.endOfArg = 0 ∧ ¬ strIsEmpty arg.value then
    let value := arg.value.getD []
    if value = "rw".toList then (0, pMount.disableFlag msRdonly)
    else if value = "ro".toList then (0, pMount.enableFlag msRdonly)
    else if value.head? = some '/' then (0, (pMount.setSource arg.value).2)
    else (0, pMount)
  else (0, pMount)

/-- `_initramfs_cmdline_process_arg__squashed_usr`. -/
def processArgSquashedUsr (g : InitramfsGlobals) (arg : ArgsplitData) : ℤ × InitramfsGlobals :=
  if arg.endOfArg = 0 ∧ arg.value = some "builtin".toList then
    (0, { g with wantNewrootUsrMount := dboolEnforce g.wantNewrootUsrMount })
  else
    let r := processArgSfsmountAny g.newrootUsrMount arg
    (r.1, { g with newrootUsrMount := r.2 })

section
variable {ω : Type*}

/-- `zram_disk_simple ( name, mp, size_spec, sys_memsize_m )`, which acts on the
    zram devices `ω`. -/
abbrev ZramDiskSimple (ω : Type*) :=
  Option CStr → Option CStr → Option CStr → ℕ → ω → ℤ × ω

variable (zramDiskSimple : ZramDiskSimple ω)

/-- `_initramfs_cmdline_process_arg__zram_disk`. -/
def processArgZramDisk (g : InitramfsGlobals) (flowCtrl : Flow) (arg : ArgsplitData) (w : ω) :
    ℤ × Flow × ω :=
  if arg.endOfArg ≠ 0 then (0, flowCtrl, w)
  else
    let (pName, pSizeSpec) :=
      zramDiskOptsLoop 0 ((arg.argv.getD []).take arg.nargs) (none, none)
    let pName := if strIsEmpty pName then none else pName
    let pSizeSpec := if strIsEmpty pSizeSpec then none else pSizeSpec
    let r := zramDiskSimple pName none pSizeSpec g.memsizeM w
    (r.1, .nextArg, r.2)

/-- `_initramfs_cmdline_process_arg`. -/
def initramfsCmdlineProcessArg : ArgsplitCallback (InitramfsGlobals × ω) :=
  fun arg flowCtrl (g, w) =>
    match initramfsCmdlineGetIntKey arg.key with
    | .dontCare => (0, flowCtrl, g, w)
    | .modprobe =>
      if arg.endOfArg = 0 ∧ ¬ strIsEmpty arg.value then
        (0, flowCtrl, { g with loadModules := g.loadModules ++ [arg.value.getD []] }, w)
      else (0, flowCtrl, g, w)
    | .init | .realInit =>
      if arg.endOfArg = 0 ∧ arg.value ≠ none then
        (0, flowCtrl, { g with realInit := arg.value }, w)
      else (0, flowCtrl, g, w)
    | .newrootRo =>
      if arg.endOfArg < 0 then (0, .nextArg, { g with rootRoStatus := dboolTrue }, w)
      else (0, flowCtrl, g, w)
    | .newrootRw =>
      if arg.endOfArg < 0 then (0, .nextArg, { g with rootRoStatus := dboolFalse }, w)
      else (0, flowCtrl, g, w)
    | .newrootNomount => (0, flowCtrl, { g with wantNewrootMount := dboolFalse }, w)
    | .newrootSource =>
      if arg.endOfArg = 0 ∧ ¬ strIsEmpty arg.value then
        let r := g.newrootMount.setSource arg.value
        (r.1, .nextArg, { g with newrootMount := r.2.enable mountCfgIsEnabled }, w)
      else (0, flowCtrl, g, w)
    | .newrootFstype =>
      if arg.endOfArg = 0 then
        let r :=
          if ¬ strIsEmpty arg.value then g.newrootMount.setFstype arg.value
          else (0, g.newrootMount)
        (r.1, .nextArg, { g with newrootMount := r.2 }, w)
      else (0, flowCtrl, g, w)
    | .newrootFlags =>
      let r := processArgRootfsflags g flowCtrl arg
      (r.1, r.2.1, r.2.2, w)
    | .rootfind =>
      let r := processArgRootfind g arg
      (r.1, flowCtrl, r.2, w)
    | .stagedive =>
      let r := g.newrootMount.setSource (some "zroot".toList)
      let g := { g with newrootMount := r.2 }
      if r.1 ≠ 0 then (r.1, .nextArg, g, w)
      else
        let r := g.newrootMount.setFstype (some "zdisk".toList)
        let g := { g with newrootMount := r.2 }
        if r.1 ≠ 0 then (r.1, .nextArg, g, w)
        else
          (0, .nextArg, { g with
            rootRoStatus := dboolFalse
            newrootMount := g.newrootMount.freeOpts.enable mountCfgIsEnabled
            wantNewrootMount := dboolTrue }, w)
    | .usrSfs =>
      -- the usr mount can only be disabled, `squashed_usr` is ignored afterwards
      if dboolIsUndefTrue g.wantNewrootUsrMount then
        let r := processArgSquashedUsr g arg
        (r.1, flowCtrl, r.2, w)
      else (0, flowCtrl, g, w)
    | .usrSfsNomount => (0, flowCtrl, { g with wantNewrootUsrMount := dboolFalse }, w)
    | .zramSwap =>
      let r := processArgZramSwap g arg
      (r.1, flowCtrl, r.2, w)
    | .zramDisk =>
      let r := processArgZramDisk zramDiskSimple g flowCtrl arg w
      (r.1, r.2.1, g, r.2.2)
    | .shell =>
      let r := processArgShell g arg
      (r.1, flowCtrl, r.2, w)
    | .liram | .liramSth => (0, flowCtrl, { g with wantNewrootMount := dboolFalse }, w)

/-- `_initramfs_postprocess_cmdline`. -/
def initramfsPostprocessCmdline (g : InitramfsGlobals) : ℤ × InitramfsGlobals :=
  let newrootMount :=
    if dboolIsUndefTrue g.rootRoStatus then g.newrootMount.enableFlag msRdonly
    else g.newrootMount.disableFlag msRdonly
  let newrootMount :=
    if mountConfigIsEnabled newrootMount = 0 then (mountConfigAutoset newrootMount).2
    else newrootMount
  let newrootUsrMount :=
    if mountConfigIsEnabled g.newrootUsrMount = 0 then (mountConfigAutoset g.newrootUsrMount).2
    else g.newrootUsrMount
  (0, { g with newrootMount, newrootUsrMount })

/-- The part of `_initramfs_process_cmdline` before the words are read. -/
def initData (host : Host) (g : InitramfsGlobals) : InitramfsGlobals :=
  let g := { g with numCpu := getCpucount host, memsizeM := getMemsizeM host }
  if g.kernelReleaseStr = none then
    let kernelReleaseStr := getKernelRelease host
    { g with kernelReleaseStr, kernelLocalverStr := kernelReleaseStr.map getLocalversion }
  else g

/-- `_initramfs_process_cmdline`. -/
def initramfsProcessCmdline (host : Host) (g : InitramfsGlobals) (w : ω) :
    ℤ × InitramfsGlobals × ω :=
  let g := initData host g
  let r := argsplitDynarrayDo (initramfsCmdlineProcessArg zramDiskSimple) g.cmdlineArgv
    (some "=".toList) (some ",".toList) (g, w)
  if r.1 = 0 then
    let p := initramfsPostprocessCmdline r.2.1
    (p.1, p.2, r.2.2)
  else r

/-! ## What a call may do -/

/-- What a call decides about `root_ro_status`. -/
def rootRoWrite (arg : ArgsplitData) : Option Dbool :=
  match initramfsCmdlineGetIntKey arg.key with
  | .newrootRo => if arg.endOfArg < 0 then some dboolTrue else none
  | .newrootRw => if arg.endOfArg < 0 then some dboolFalse else none
  | .stagedive => some dboolFalse
  | _ => none

theorem processArgShell_frame (g : InitramfsGlobals) (arg : ArgsplitData) :
    ∃ doshell, (processArgShell g arg).2 = { g with doshell } := by
  unfold processArgShell; split_ifs <;> exact ⟨_, rfl⟩

theorem processArgRootfsflags_frame (g : InitramfsGlobals) (flowCtrl : Flow)
    (arg : ArgsplitData) :
    ∃ newrootMount, (processArgRootfsflags g flowCtrl arg).2.2 = { g with newrootMount } := by
  unfold processArgRootfsflags
  split
  · exact ⟨_, rfl⟩
  · dsimp only; split_ifs <;> exact ⟨_, rfl⟩

theorem processArgZramSwap_frame (g : InitramfsGlobals) (arg : ArgsplitData) :
    ∃ zramAutoswapSizeSpec, (processArgZramSwap g arg).2 = { g with zramAutoswapSizeSpec } := by
  unfold processArgZramSwap; split_ifs <;> exact ⟨_, rfl⟩

theorem processArgRootfind_frame (g : InitramfsGlobals) (arg : ArgsplitData) :
    ∃ rootfindDelay, (processArgRootfind g arg).2 = { g with rootfindDelay } := by
  unfold processArgRootfind; dsimp only; split_ifs <;> exact ⟨_, rfl⟩

theorem processArgSquashedUsr_frame (g : InitramfsGlobals) (arg : ArgsplitData) :
    ∃ wantNewrootUsrMount newrootUsrMount,
      (processArgSquashedUsr g arg).2 = { g with wantNewrootUsrMount, newrootUsrMount } := by
  unfold processArgSquashedUsr; split_ifs <;> exact ⟨_, _, rfl⟩

theorem processArgRootfsflags_flow (g : InitramfsGlobals) (arg : ArgsplitData) :
    (processArgRootfsflags g .keepGoing arg).2.1 ≠ .stopParse := by
  unfold processArgRootfsflags
  split
  · exact Flow.noConfusion
  · dsimp only; split_ifs <;> exact Flow.noConfusion

theorem processArgZramDisk_flow (g : InitramfsGlobals) (arg : ArgsplitData) (w : ω) :
    (processArgZramDisk zramDiskSimple g .keepGoing arg w).2.1 ≠ .stopParse := by
  unfold processArgZramDisk; split_ifs <;> exact Flow.noConfusion

/-- **The callback never stops the traversal** except by an error. -/
theorem processArg_flow (arg : ArgsplitData) (s : InitramfsGlobals × ω) :
    (initramfsCmdlineProcessArg zramDiskSimple arg .keepGoing s).2.1 ≠ .stopParse := by
  unfold initramfsCmdlineProcessArg
  dsimp only
  cases initramfsCmdlineGetIntKey arg.key <;> dsimp only
  case newrootFlags => exact processArgRootfsflags_flow _ _
  case zramDisk => exact processArgZramDisk_flow _ _ _ _
  case modprobe | init | realInit | newrootRo | newrootRw | newrootSource | newrootFstype | usrSfs |
      stagedive => split_ifs <;> exact Flow.noConfusion
  all_goals exact Flow.noConfusion

/-- Which keys write which fields. -/
structure Writes (k : CmdlineKey) (g g' : InitramfsGlobals) : Prop where
  rootRoStatus : k ∉ [.newrootRo, .newrootRw, .stagedive] → g'.rootRoStatus = g.rootRoStatus
  wantNewrootMount : k ∉ [.newrootNomount, .stagedive, .liram, .liramSth] →
    g'.wantNewrootMount = g.wantNewrootMount
  wantNewrootUsrMount : k ∉ [.usrSfs, .usrSfsNomount] →
    g'.wantNewrootUsrMount = g.wantNewrootUsrMount
  rootfindDelay : k ∉ [.rootfind] → g'.rootfindDelay = g.rootfindDelay
  doshell : k ∉ [.shell] → g'.doshell = g.doshell
  realInit : k ∉ [.init, .realInit] → g'.realInit = g.realInit
  zramAutoswapSizeSpec : k ∉ [.zramSwap] → g'.zramAutoswapSizeSpec = g.zramAutoswapSizeSpec
  loadModules : k ∉ [.modprobe] → g'.loadModules = g.loadModules
  newrootMount : k ∉ [.newrootSource, .newrootFstype, .newrootFlags, .stagedive] →
    g'.newrootMount = g.newrootMount
  newrootUsrMount : k ∉ [.usrSfs] → g'.newrootUsrMount = g.newrootUsrMount

theorem Writes.refl (k : CmdlineKey) (g : InitramfsGlobals) : Writes k g g := by
  constructor <;> exact fun _ => rfl

/-- **What a call may write**, by the key of the word. -/
theorem processArg_writes (arg : ArgsplitData) (flowCtrl : Flow) (s : InitramfsGlobals × ω) :
    Writes (initramfsCmdlineGetIntKey arg.key) s.1
      (initramfsCmdlineProcessArg zramDiskSimple arg flowCtrl s).2.2.1 := by
  unfold initramfsCmdlineProcessArg
  dsimp only
  cases initramfsCmdlineGetIntKey arg.key <;> dsimp only
  case newrootFlags =>
    obtain ⟨m, h⟩ := processArgRootfsflags_frame s.1 flowCtrl arg
    rw [h]
    constructor <;> intro hk <;> first | rfl | exact absurd (by simp) hk
  case rootfind =>
    obtain ⟨delay, h⟩ := processArgRootfind_frame s.1 arg
    rw [h]
    constructor <;> intro hk <;> first | rfl | exact absurd (by simp) hk
  case zramSwap =>
    obtain ⟨spec, h⟩ := processArgZramSwap_frame s.1 arg
    rw [h]
    constructor <;> intro hk <;> first | rfl | exact absurd (by simp) hk
  case shell =>
    obtain ⟨doshell, h⟩ := processArgShell_frame s.1 arg
    rw [h]
    constructor <;> intro hk <;> first | rfl | exact absurd (by simp) hk
  case usrSfs =>
    split_ifs
    · obtain ⟨want, m, h⟩ := processArgSquashedUsr_frame s.1 arg
      rw [h]
      constructor <;> intro hk <;> first | rfl | exact absurd (by simp) hk
    · exact Writes.refl _ _
  case modprobe | init | realInit | newrootRo | newrootRw | newrootSource | newrootFstype =>
    split_ifs <;> constructor <;> intro hk <;> first | rfl | exact absurd (by simp) hk
  case dontCare | zramDisk => exact Writes.refl _ _
  all_goals constructor <;> intro hk <;> first | rfl | exact absurd (by simp) hk

/-- **Who decides about `root_ro_status`**: `ro`, `rw` and `stagedive`. -/
theorem processArg_rootRoStatus (arg : ArgsplitData) (flowCtrl : Flow) (s : InitramfsGlobals × ω) :
    (initramfsCmdlineProcessArg zramDiskSimple arg flowCtrl s).2.2.1.rootRoStatus =
      (rootRoWrite arg).getD s.1.rootRoStatus := by
  have hwrites := (processArg_writes zramDiskSimple arg flowCtrl s).rootRoStatus
  unfold rootRoWrite
  cases hk : initramfsCmdlineGetIntKey arg.key <;> dsimp only
  case newrootRo | newrootRw =>
    unfold initramfsCmdlineProcessArg
    rw [hk]
    dsimp only
    split_ifs <;> rfl
  case stagedive =>
    -- the setters succeed
    unfold initramfsCmdlineProcessArg
    rw [hk]
    rfl
  all_goals exact hwrites (by rw [hk]; decide)

/-! ## The root mode -/

/-- The key of a word. -/
def cmdlineKey (word : CStr) : Option CStr :=
  (argFields (some "=".toList) (some ",".toList) word).head?

/-- The values of a word. -/
def cmdlineValues (word : CStr) : List CStr :=
  (argFields (some "=".toList) (some ",".toList) word).tail

/-- Whether the root is to be mounted read-only or read-write. -/
inductive RootMode
  | ro
  | rw
  deriving DecidableEq

/-- What a word says about the root mode, by its key. -/
def rootMode (word : CStr) : Option RootMode :=
  match cmdlineKey word with
  | none => none
  | some key =>
    if key = "ro".toList then some .ro
    else if key = "rw".toList ∨ key = "stagedive".toList then some .rw
    else none

/-- The root mode that a command line asks for: what the last of its words
    says that says anything. -/
def lastRootMode (words : List CStr) : Option RootMode := Lib.lastDecision rootMode words

/-- The decision that stands for a root mode. -/
def RootMode.status : RootMode → Dbool
  | .ro => dboolTrue
  | .rw => dboolFalse

theorem keyDelims_valid : ValidDelims (some "=".toList) (some ",".toList) := Or.inl ⟨'=', rfl⟩

/-- The first call for a word decides what the word says. -/
theorem head_rootRoWrite (word : CStr) :
    (argScript word (argFields (some "=".toList) (some ",".toList) word)).head?.bind rootRoWrite =
      (rootMode word).map RootMode.status := by
  unfold rootMode cmdlineKey
  cases argFields (some "=".toList) (some ",".toList) word with
  | nil => rfl
  | cons key values =>
    simp only [argScript, List.head?_cons, Option.bind_some, rootRoWrite]
    by_cases hro : key = "ro".toList
    · rw [getIntKey_eq_iff (k := .newrootRo) (by decide) |>.2 ⟨"ro", by decide, hro⟩, if_pos hro]
      rfl
    rw [if_neg hro]
    by_cases hrw : key = "rw".toList
    · rw [getIntKey_eq_iff (k := .newrootRw) (by decide) |>.2 ⟨"rw", by decide, hrw⟩,
        if_pos (Or.inl hrw)]
      rfl
    by_cases hst : key = "stagedive".toList
    · rw [getIntKey_eq_iff (k := .stagedive) (by decide) |>.2 ⟨"stagedive", by decide, hst⟩,
        if_pos (Or.inr hst)]
      rfl
    rw [if_neg (not_or.2 ⟨hrw, hst⟩)]
    -- no other key decides
    have hnot : ∀ (k : CmdlineKey) (name : String), k.names = [name] → key ≠ name.toList →
        initramfsCmdlineGetIntKey key ≠ k := by
      intro k name hk hne h
      obtain ⟨n, hn, hkey⟩ := (getIntKey_eq_iff (by rw [hk]; exact List.cons_ne_nil _ _)).1 h
      rw [hk, List.mem_singleton] at hn
      exact hne (hn ▸ hkey)
    split
    · exact absurd ‹_› (hnot _ "ro" rfl hro)
    · exact absurd ‹_› (hnot _ "rw" rfl hrw)
    · exact absurd ‹_› (hnot _ "stagedive" rfl hst)
    · rfl

/-- The later calls for a word do not disagree with the first one. -/
theorem tail_rootRoWrite (word : CStr) : ∀ arg ∈ (argScript word
    (argFields (some "=".toList) (some ",".toList) word)).tail, rootRoWrite arg = none ∨
      rootRoWrite arg = (argScript word
        (argFields (some "=".toList) (some ",".toList) word)).head?.bind rootRoWrite := by
  intro arg harg
  have hend := (argScript_tail harg).not_gt
  have hkey := argScript_key (List.mem_of_mem_tail harg)
  cases hf : argFields (some "=".toList) (some ",".toList) word with
  | nil => rw [hf] at hkey; cases hkey
  | cons key values =>
    rw [hf, List.head?_cons, Option.some.injEq] at hkey
    simp only [argScript, List.head?_cons, Option.bind_some, rootRoWrite, ← hkey, hend, if_false]
    split
    · exact Or.inl rfl
    · exact Or.inl rfl
    · exact Or.inr rfl
    · exact Or.inl rfl

/-! ## The whole command line -/

theorem initData_cmdlineArgv (host : Host) (g : InitramfsGlobals) :
    (initData host g).cmdlineArgv = g.cmdlineArgv := by
  unfold initData; dsimp only; split_ifs <;> rfl

theorem initData_rootRoStatus (host : Host) (g : InitramfsGlobals) :
    (initData host g).rootRoStatus = g.rootRoStatus := by
  unfold initData; dsimp only; split_ifs <;> rfl

theorem initData_rootfindDelay (host : Host) (g : InitramfsGlobals) :
    (initData host g).rootfindDelay = g.rootfindDelay := by
  unfold initData; dsimp only; split_ifs <;> rfl

/-- The globals after the words are read. -/
def afterWords (host : Host) (g : InitramfsGlobals) (w : ω) : ℤ × InitramfsGlobals × ω :=
  argsplitDynarrayDo (initramfsCmdlineProcessArg zramDiskSimple) g.cmdlineArgv (some "=".toList)
    (some ",".toList) (initData host g, w)

/-- A successful run reads all words and then applies the decisions. -/
theorem processCmdline_success {host : Host} {g : InitramfsGlobals} {w : ω}
    (hok : (initramfsProcessCmdline zramDiskSimple host g w).1 = 0) :
    (afterWords zramDiskSimple host g w).1 = 0 ∧
      (initramfsProcessCmdline zramDiskSimple host g w).2.1 =
        (initramfsPostprocessCmdline (afterWords zramDiskSimple host g w).2.1).2 := by
  unfold initramfsProcessCmdline at hok ⊢
  simp only [initData_cmdlineArgv] at hok ⊢
  split_ifs at hok ⊢ with h
  · exact ⟨h, rfl⟩
  · exact absurd hok h

/-- **The last word decides** about `root_ro_status`. -/
theorem processCmdline_rootRoStatus {host : Host} {g : InitramfsGlobals} {w : ω}
    (hok : (initramfsProcessCmdline zramDiskSimple host g w).1 = 0) :
    (afterWords zramDiskSimple host g w).2.1.rootRoStatus =
      ((lastRootMode g.cmdlineArgv).map RootMode.status).getD g.rootRoStatus := by
  have h := argsplitDynarrayDo_register (π := fun s => s.1.rootRoStatus)
    (processArg_flow zramDiskSimple)
    (fun arg s => processArg_rootRoStatus zramDiskSimple arg .keepGoing s) keyDelims_valid
    tail_rootRoWrite (processCmdline_success zramDiskSimple hok).1
  rw [afterWords, h, initData_rootRoStatus, lastRootMode, ← Lib.lastDecision_comp]
  simp only [head_rootRoWrite]

/-- The auto-setup and the read-only flag. -/
theorem autoset_rdonly (p : MountConfig) :
    (mountConfigAutoset p).2.flags &&& msRdonly ≠ 0#64 ↔
      (mountConfigAutoset p).2.fstype = some "squashfs".toList ∨ p.flags &&& msRdonly ≠ 0#64 := by
  rw [mountConfigAutoset_flags, (mountConfigAutoset_filledIn p).fstype]
  split_ifs with hsq
  · rw [Lib.or_self_and]
    exact iff_of_true (by decide) (Or.inl hsq)
  · exact (or_iff_right hsq).symm

/-- Applying the decisions to the root mount. -/
theorem postprocessCmdline_rdonly (g : InitramfsGlobals) :
    (initramfsPostprocessCmdline g).2.newrootMount.flags &&& msRdonly ≠ 0#64 ↔
      (mountConfigIsEnabled (initramfsPostprocessCmdline g).2.newrootMount = 0 ∧
        (initramfsPostprocessCmdline g).2.newrootMount.fstype = some "squashfs".toList) ∨
      dboolIsUndefTrue g.rootRoStatus = true := by
  simp only [initramfsPostprocessCmdline]
  set p := if dboolIsUndefTrue g.rootRoStatus = true then g.newrootMount.enableFlag msRdonly
    else g.newrootMount.disableFlag msRdonly with hp
  have hflag : p.flags &&& msRdonly ≠ 0#64 ↔ dboolIsUndefTrue g.rootRoStatus = true := by
    rw [hp]
    split_ifs with h
    · rw [MountConfig.enableFlag, Lib.or_self_and]
      exact iff_of_true (by decide) h
    · rw [MountConfig.disableFlag, Lib.clear_and]
      exact iff_of_false (not_not.2 rfl) h
  by_cases hen : mountConfigIsEnabled p = 0
  · rw [if_pos hen, autoset_rdonly, (mountConfigAutoset_filledIn p).isEnabled, hflag]
    simp only [hen, true_and]
  · rw [if_neg hen, hflag]
    exact (or_iff_right fun h => hen h.1).symm

theorem RootMode.isUndefTrue_status (m : Option RootMode) :
    dboolIsUndefTrue ((m.map RootMode.status).getD dboolUndecided) = true ↔ m ≠ some .rw := by
  rcases m with _ | _ | _ <;> decide

/-- **Whether the root is mounted read-only**: the last word that says something
    decides, and it is read-only by default; an enabled squashfs root always is. -/
theorem processCmdline_rdonly {host : Host} {g : InitramfsGlobals} {w : ω}
    (hundecided : g.rootRoStatus = dboolUndecided)
    (hok : (initramfsProcessCmdline zramDiskSimple host g w).1 = 0) :
    (initramfsProcessCmdline zramDiskSimple host g w).2.1.newrootMount.flags &&& msRdonly ≠ 0#64 ↔
      (mountConfigIsEnabled (initramfsProcessCmdline zramDiskSimple host g w).2.1.newrootMount = 0 ∧
        (initramfsProcessCmdline zramDiskSimple host g w).2.1.newrootMount.fstype =
          some "squashfs".toList) ∨
      lastRootMode g.cmdlineArgv ≠ some .rw := by
  rw [(processCmdline_success zramDiskSimple hok).2, postprocessCmdline_rdonly,
    processCmdline_rootRoStatus zramDiskSimple hok, hundecided, RootMode.isUndefTrue_status]

/-! ## The rootfind delay -/

theorem processArgRootfind_delay {g : InitramfsGlobals} (h : g.rootfindDelay ≤ 10000)
    (arg : ArgsplitData) : (processArgRootfind g arg).2.rootfindDelay ≤ 10000 := by
  unfold processArgRootfind
  dsimp only
  split_ifs with _ _ _ hlong
  · exact (by simp : 50 ≤ 10000)
  · exact h
  · exact (by simp : 50 ≤ 10000)
  · push Not at hlong
    exact Int.toNat_le.2 hlong.2.2
  · exact h

/-- **The delay that a command line configures** is at most 10000. -/
theorem afterWords_rootfindDelay {host : Host} {g : InitramfsGlobals} (w : ω)
    (h : g.rootfindDelay ≤ 10000) :
    (afterWords zramDiskSimple host g w).2.1.rootfindDelay ≤ 10000 := by
  have hcall : ∀ arg (s : InitramfsGlobals × ω), s.1.rootfindDelay ≤ 10000 →
      (initramfsCmdlineProcessArg zramDiskSimple arg .keepGoing s).2.2.1.rootfindDelay ≤ 10000 := by
    intro arg s hs
    by_cases hk : initramfsCmdlineGetIntKey arg.key = .rootfind
    · unfold initramfsCmdlineProcessArg
      rw [hk]
      exact processArgRootfind_delay hs arg
    · rw [(processArg_writes zramDiskSimple arg .keepGoing s).rootfindDelay (by simpa using hk)]
      exact hs
  have hstart : (initData host g).rootfindDelay ≤ 10000 := by
    rw [initData_rootfindDelay]; exact h
  exact argsplitDynarrayDo_preserves
    (I := fun s : InitramfsGlobals × ω => s.1.rootfindDelay ≤ 10000) hcall keyDelims_valid
    g.cmdlineArgv hstart

end

/-- A machine with 4 CPUs and 4096 MB of memory. -/
def sampleHost : Host :=
  ⟨4, some ⟨0x100000#64, 0x1000#32⟩, some ⟨"4.1.0-rc3-lv".toList, "x86_64".toList⟩⟩

/-- The initial globals with a command line. -/
def sampleGlobals (words : List String) : InitramfsGlobals :=
  { initramfsGlobalsInit sampleHost with cmdlineArgv := words.map String.toList }

/-- A run on a machine where every zram disk can be set up. -/
def sampleRun (words : List String) : ℤ × InitramfsGlobals × Unit :=
  initramfsProcessCmdline (fun _ _ _ _ w => (0, w)) sampleHost (sampleGlobals words) ()

/-- Mount flags after `ro` do not change the decision. -/
theorem processCmdline_rdonly_flags :
    (sampleRun ["root=/dev/sda1", "rw", "ro", "rootflags=rw,noatime"]).2.1.newrootMount.flags &&&
        msRdonly ≠ 0#64 ↔
      (mountConfigIsEnabled
        (sampleRun ["root=/dev/sda1", "rw", "ro", "rootflags=rw,noatime"]).2.1.newrootMount = 0 ∧
        (sampleRun ["root=/dev/sda1", "rw", "ro", "rootflags=rw,noatime"]).2.1.newrootMount.fstype =
          some "squashfs".toList) ∨
      lastRootMode (["root=/dev/sda1", "rw", "ro", "rootflags=rw,noatime"].map String.toList) ≠
        some .rw :=
  processCmdline_rdonly _ rfl (by decide +kernel)

end Fischstaebchen
