/-
  The hook that runs the hooks of a phase (`overlay/src/base/hooks/_stdmux.sh`).

  The hooks of a phase are the scripts in two directories, a dynamic and a static one; a
  script in the dynamic directory replaces the one of the same name in the static directory.
  The mount status of newroot is looked at before the first hook and restored after the last
  one.

  * `runHooks_spec`: what the loop over the hooks does.
  * `stdmux_runs`: which hooks are run, and what the exit code says.
  * `stdmuxes_restore`: several phases leave newroot mounted as it was.
-/
import Fischstaebchen.Lib.Fields
import Fischstaebchen.Overlay.RemountStatus

namespace Fischstaebchen

open Lib Lib.Shell

namespace StdMux

/-! ## Definitions -/

/-- The directories with hooks of the phase: `_RUN_HOOKDIR` and `_CFG_HOOKDIR`. -/
inductive HookDir
  | run
  | cfg
  deriving DecidableEq

/-- The mount status of newroot, and the rest of the system. -/
structure MuxState (σ : Type) where
  remount : RemountState
  sys : σ

/-- What a hook does in its subshell: operations on the mount status, a change of the rest of
    the system, and whether it returns 0. -/
structure HookOutcome (σ : Type) where
  ops : List RemountOp
  passes : Bool
  sys : σ

/-- The system: `names` are the names of the regular files `*.sh` in a directory. -/
structure MuxSystem (σ : Type) where
  isDir : HookDir → σ → Bool
  names : HookDir → σ → List (List Char)
  isFile : HookDir → List Char → σ → Bool
  script : HookDir → List Char → MuxState σ → HookOutcome σ
  collation : List Char → List Char → Bool

/-- A hook that has been run. -/
structure MuxHook where
  dir : HookDir
  name : List Char
  passed : Bool
  deriving DecidableEq

/-- What the loop over the hooks has done: `hist` are the operations on the mount status. -/
structure MuxLoop (σ : Type) where
  exitCode : ℤ
  ran : List MuxHook
  hist : List RemountStep
  state : MuxState σ

/-- The flag name of newroot. -/
def newrootFlag : String := "newroot"

section
variable {σ : Type} (M : MuxSystem σ) (O : ℕ → Bool)

/-- `_find_hooks`. -/
def findHooks (dirs : List HookDir) (s : σ) : List (List Char) :=
  ((dirs.flatMap fun dir => M.names dir s).dedup).insertionSort fun a b => M.collation a b = true

/-- The directories that are searched, and `_HOOKDIR`. -/
def hookDirs (s : σ) : List HookDir × Option HookDir :=
  if M.isDir .run s then
    if M.isDir .cfg s then ([.run, .cfg], none) else ([.run], some .run)
  else if M.isDir .cfg s then ([.cfg], some .cfg) else ([], none)

/-- `get_hookfile`, the directory of the file. -/
def getHookfile (hookdir : Option HookDir) (name : List Char) (s : σ) : HookDir :=
  hookdir.getD (if M.isFile .run name s then .run else .cfg)

/-- `loadscript_simple` in a subshell. -/
def loadHook (dir : HookDir) (name : List Char) (st : MuxState σ) : HookOutcome σ :=
  if M.isFile dir name st.sys then M.script dir name st else ⟨[], false, st.sys⟩

/-- The operations of a hook on the mount status. -/
def hookSteps (o : HookOutcome σ) (st : MuxState σ) : List RemountStep :=
  steps (RemountOp.run O newrootFlag) o.ops st.remount

/-- The state after a hook. -/
def afterHook (o : HookOutcome σ) (st : MuxState σ) : MuxState σ :=
  ⟨runOps (RemountOp.run O newrootFlag) o.ops st.remount, o.sys⟩

/-- The loop over the hooks, until one fails. -/
def runHooks (hookdir : Option HookDir) : List (List Char) → MuxState σ → MuxLoop σ
  | [], st => ⟨0, [], [], st⟩
  | name :: names, st =>
    let dir := getHookfile M hookdir name st.sys
    let o := loadHook M dir name st
    if o.passes then
      let r := runHooks hookdir names (afterHook O o st)
      ⟨r.exitCode, ⟨dir, name, true⟩ :: r.ran, hookSteps O o st ++ r.hist, r.state⟩
    else ⟨2, [⟨dir, name, false⟩], hookSteps O o st, afterHook O o st⟩

/-- The fields of `${hooks}`, which is printed with one name on each line. -/
def hookFields (names : List (List Char)) : List (List Char) := fields (['\n'].intercalate names)

/-- How a run of the hook ends: the exit code, unless it dies. -/
structure MuxRun (σ : Type) where
  exitCode : Option ℤ
  ran : List MuxHook
  hist : List RemountStep
  state : MuxState σ

/-- `_stdmux.sh`, for a known phase. -/
def stdmux (st : MuxState σ) : MuxRun σ :=
  let dirs := hookDirs M st.sys
  let hooks := hookFields (findHooks M dirs.1 st.sys)
  if hooks = [] then ⟨some 0, [], [], st⟩
  else
    -- `autodie newroot_remount_setup_flag_files`
    let st := { st with remount := remountStatusSetupFlagFiles newrootFlag st.remount }
    let r := runHooks M O dirs.2 hooks st
    -- `autodie newroot_remount_restore_status`
    let restored := RemountOp.run O newrootFlag .restoreStatus r.state.remount
    ⟨if restored.1 = some true then some r.exitCode else none, r.ran, r.hist,
      { r.state with remount := restored.2 }⟩

/-- Several phases, one after the other. -/
def stdmuxes : List (MuxSystem σ) → MuxState σ → List (MuxRun σ) × MuxState σ
  | [], st => ([], st)
  | M :: Ms, st =>
    let r := stdmux M O st
    let rest := stdmuxes Ms r.state
    (r :: rest.1, rest.2)

end

/-! ## The hooks -/

section
variable {σ : Type} {M : MuxSystem σ} {O : ℕ → Bool} {hookdir : Option HookDir}
  {names : List (List Char)} {st : MuxState σ}

/-- All hooks that have been run have passed, but maybe the last one. -/
inductive RanUntil : List (List Char) → MuxLoop σ → Prop
  | all {names : List (List Char)} {r : MuxLoop σ} : r.ran.map MuxHook.name = names →
      (∀ x ∈ r.ran, x.passed = true) → r.exitCode = 0 → RanUntil names r
  | failed {names rest : List (List Char)} {r : MuxLoop σ} {pre : List MuxHook} {last : MuxHook} :
      r.ran = pre ++ [last] → r.ran.map MuxHook.name ++ rest = names →
      (∀ x ∈ pre, x.passed = true) → last.passed = false → r.exitCode = 2 → RanUntil names r

/-- **The loop over the hooks** runs them in order, until one fails. -/
theorem runHooks_spec : RanUntil names (runHooks M O hookdir names st) := by
  induction names generalizing st with
  | nil => exact .all rfl (by simp [runHooks]) rfl
  | cons name names ih =>
    unfold runHooks
    dsimp only
    split_ifs with hpass
    · cases @ih (afterHook O (loadHook M (getHookfile M hookdir name st.sys) name st) st) with
      | all hran hpassed hcode =>
        refine .all (congrArg (name :: ·) hran) (fun x hx => ?_) hcode
        rcases List.mem_cons.1 hx with rfl | hx
        · rfl
        · exact hpassed x hx
      | @failed rest _ pre last hran hnames hpassed hlast hcode =>
        refine @RanUntil.failed σ _ rest _ (_ :: pre) last (congrArg (_ :: ·) hran)
          (congrArg (name :: ·) hnames) (fun x hx => ?_) hlast hcode
        rcases List.mem_cons.1 hx with rfl | hx
        · rfl
        · exact hpassed x hx
    · exact @RanUntil.failed σ _ names _ [] _ rfl rfl (by simp) rfl rfl

/-- Names that are words are the fields of `${hooks}`. -/
theorem hookFields_eq (h : ∀ name ∈ names, name ≠ [] ∧ Unblank name) : hookFields names = names :=
  runs_intercalate_of rfl h

theorem mem_findHooks {dirs : List HookDir} {s : σ} {name : List Char} :
    name ∈ findHooks M dirs s ↔ ∃ dir ∈ dirs, name ∈ M.names dir s := by
  rw [findHooks, (List.perm_insertionSort _ _).mem_iff, List.mem_dedup, List.mem_flatMap]

theorem mem_hookDirs {s : σ} {dir : HookDir} : dir ∈ (hookDirs M s).1 ↔ M.isDir dir s = true := by
  unfold hookDirs
  split_ifs with hrun hcfg hcfg <;> cases dir <;> simp_all

/-- The file of each hook is looked for when the hook is about to be run. -/
theorem runHooks_dir {x : MuxHook} (hx : x ∈ (runHooks M O hookdir names st).ran) :
    x.name ∈ names ∧ ∃ s, x.dir = getHookfile M hookdir x.name s := by
  induction names generalizing st with
  | nil => exact absurd hx List.not_mem_nil
  | cons name names ih =>
    unfold runHooks at hx
    dsimp only at hx
    split_ifs at hx with hpass
    · rcases List.mem_cons.1 hx with rfl | hx
      · exact ⟨List.mem_cons_self, st.sys, rfl⟩
      · obtain ⟨hname, hdir⟩ := ih hx
        exact ⟨List.mem_cons_of_mem _ hname, hdir⟩
    · rw [List.mem_singleton.1 hx]
      exact ⟨List.mem_cons_self, st.sys, rfl⟩

/-- Where the file of a hook is, if the directories do not change: a dynamic file replaces a
    static one. -/
theorem getHookfile_eq {s s' : σ} {name : List Char}
    (hfile : ∀ dir, M.isFile dir name s' = true ↔ name ∈ M.names dir s)
    (hfound : ∃ dir, M.isDir dir s = true ∧ name ∈ M.names dir s) :
    getHookfile M (hookDirs M s).2 name s' =
      if M.isDir .run s = true ∧ name ∈ M.names .run s then .run else .cfg := by
  obtain ⟨dir, hdir, hname⟩ := hfound
  by_cases hrun : M.isDir .run s = true
  · by_cases hcfg : M.isDir .cfg s = true
    · have hnone : (hookDirs M s).2 = none := by simp [hookDirs, hrun, hcfg]
      rw [hnone]
      show (if M.isFile .run name s' = true then HookDir.run else .cfg) = _
      simp only [hfile, hrun, true_and]
    · have hsome : (hookDirs M s).2 = some .run := by simp [hookDirs, hrun, hcfg]
      obtain rfl : dir = .run := by
        cases dir with
        | run => rfl
        | cfg => exact absurd hdir hcfg
      rw [hsome, if_pos ⟨hrun, hname⟩]
      rfl
  · have hcfg : M.isDir .cfg s = true := by
      cases dir with
      | run => exact absurd hdir hrun
      | cfg => exact hdir
    have hsome : (hookDirs M s).2 = some .cfg := by simp [hookDirs, hrun, hcfg]
    rw [hsome, if_neg fun h => hrun h.1]
    rfl

/-- The hooks that a run finds. -/
def muxHooks (M : MuxSystem σ) (s : σ) : List (List Char) :=
  hookFields (findHooks M (hookDirs M s).1 s)

/-- The loop of a run. -/
def muxLoop (M : MuxSystem σ) (O : ℕ → Bool) (st : MuxState σ) : MuxLoop σ :=
  runHooks M O (hookDirs M st.sys).2 (muxHooks M st.sys)
    { st with remount := remountStatusSetupFlagFiles newrootFlag st.remount }

/-- **What a run does**: nothing if there are no hooks, and otherwise the loop and what follows
    it. -/
theorem stdmux_cases (M : MuxSystem σ) (O : ℕ → Bool) (st : MuxState σ) :
    (muxHooks M st.sys = [] ∧ stdmux M O st = ⟨some 0, [], [], st⟩) ∨
      ((stdmux M O st).ran = (muxLoop M O st).ran ∧ (stdmux M O st).hist = (muxLoop M O st).hist ∧
        (stdmux M O st).state.remount =
          (RemountOp.run O newrootFlag .restoreStatus (muxLoop M O st).state.remount).2 ∧
        ((stdmux M O st).exitCode = none ∨
          (stdmux M O st).exitCode = some (muxLoop M O st).exitCode ∧
            (RemountOp.run O newrootFlag .restoreStatus (muxLoop M O st).state.remount).1 =
              some true)) := by
  by_cases hempty : muxHooks M st.sys = []
  · exact .inl ⟨hempty, if_pos hempty⟩
  · right
    have heq : stdmux M O st = _ := if_neg hempty
    rw [heq]
    refine ⟨rfl, rfl, rfl, ?_⟩
    by_cases hrestored : (RemountOp.run O newrootFlag .restoreStatus
        (muxLoop M O st).state.remount).1 = some true
    · exact .inr ⟨if_pos hrestored, hrestored⟩
    · exact .inl (if_neg hrestored)

/-- Two hooks in the static directory, and a dynamic one that replaces the first of them.  The
    static hooks make newroot writable, and the dynamic one fails. -/
def twoHookSystem : MuxSystem Unit where
  isDir _ _ := true
  names dir _ := match dir with
    | .run => ["10-a.sh".toList]
    | .cfg => ["10-a.sh".toList, "20-b.sh".toList]
  isFile dir name _ := match dir with
    | .run => name = "10-a.sh".toList
    | .cfg => name = "10-a.sh".toList || name = "20-b.sh".toList
  script dir _ _ := match dir with
    | .run => ⟨[.getRw], false, ()⟩
    | .cfg => ⟨[.getRw], true, ()⟩
  collation a b := !List.lex b a fun x y => Nat.blt x.toNat y.toNat

/-- Newroot is mounted read-only, without flags. -/
def readOnly : MuxState Unit := ⟨⟨fun _ => false, .ro, []⟩, ()⟩

/-- The invariant of the mount status is kept by all operations of a hook. -/
theorem remountInv_steps {st₀ : RemountState} : ∀ {ops : List RemountOp}
    {hist : List RemountStep} {s : RemountState}, RemountInv newrootFlag st₀ hist s →
      RemountInv newrootFlag st₀ (hist ++ steps (RemountOp.run O newrootFlag) ops s)
        (runOps (RemountOp.run O newrootFlag) ops s) := by
  intro ops
  induction ops with
  | nil =>
    intro hist s hinv
    rw [steps, List.append_nil]
    exact hinv
  | cons op ops ih =>
    intro hist s hinv
    have hrest := ih (remountStep_inv (O := O) op hinv)
    rw [List.append_assoc] at hrest
    exact hrest

/-- The loop over the hooks keeps the invariant. -/
theorem remountInv_runHooks {st₀ : RemountState} {hist : List RemountStep}
    (hinv : RemountInv newrootFlag st₀ hist st.remount) :
    RemountInv newrootFlag st₀ (hist ++ (runHooks M O hookdir names st).hist)
      (runHooks M O hookdir names st).state.remount := by
  induction names generalizing st hist with
  | nil =>
    show RemountInv newrootFlag st₀ (hist ++ []) st.remount
    rw [List.append_nil]
    exact hinv
  | cons name names ih =>
    unfold runHooks
    dsimp only
    split_ifs
    · have hrest := @ih (afterHook O (loadHook M (getHookfile M hookdir name st.sys) name st) st)
        _ (remountInv_steps hinv)
      rw [List.append_assoc] at hrest
      exact hrest
    · exact remountInv_steps hinv

/-- A restore that does not kill the process restores the mode, unless this has been
    cancelled. -/
theorem mode_of_restore {st₀ s : RemountState} {hist : List RemountStep}
    (hinv : RemountInv newrootFlag st₀ hist s)
    (hret : (RemountOp.run O newrootFlag .restoreStatus s).1 = some true) :
    (RemountOp.run O newrootFlag .restoreStatus s).2.mode = st₀.mode ∨
      cancelled hist = some true := by
  change (remountStatusRestoreMount O newrootFlag s).1 = some true at hret
  show (remountStatusRestoreMount O newrootFlag s).2.mode = st₀.mode ∨ _
  rcases @remountStatusRestoreMount_cases O newrootFlag s with
    ⟨hneed, hr⟩ | ⟨hneed, s', hr, hmode', -⟩ | ⟨-, s', hr, -⟩
  · rw [hr]
    cases hmode : st₀.mode with
    | rw => exact .inl (hinv.rw_kept hmode).1
    | ro =>
      cases hs : s.mode with
      | ro => exact .inl rfl
      | rw =>
        rcases hinv.ro_due hmode hs with hc | ⟨-, hflag⟩
        · exact .inr hc
        · rw [hneed] at hflag
          cases hflag
  · left
    rw [hr]
    refine hmode'.trans (mode_eq_ro fun hrw => ?_).symm
    rw [(hinv.rw_kept hrw).2.1] at hneed
    cases hneed
  · rw [hr] at hret
    cases hret

/-- **One phase** leaves newroot mounted as it was. -/
theorem stdmux_restores (hexit : (stdmux M O st).exitCode ≠ none)
    (hcancelled : cancelled (stdmux M O st).hist ≠ some true) :
    (stdmux M O st).state.remount.mode = st.remount.mode := by
  rcases stdmux_cases M O st with ⟨-, heq⟩ | ⟨-, hhist, hstate, hnone | ⟨-, hret⟩⟩
  · rw [heq]
  · exact absurd hnone hexit
  · have hinv : RemountInv newrootFlag (remountStatusSetupFlagFiles newrootFlag st.remount)
        (muxLoop M O st).hist (muxLoop M O st).state.remount :=
      @remountInv_runHooks σ M O _ _ _ _ [] (remountStatusSetupFlagFiles_inv st.remount)
    have hmode : (remountStatusSetupFlagFiles newrootFlag st.remount).mode = st.remount.mode := by
      rw [remountStatusSetupFlagFiles]
      split_ifs <;> rfl
    rw [hhist] at hcancelled
    rw [hstate, (mode_of_restore hinv hret).resolve_right hcancelled, hmode]

/-- **Several phases** leave newroot mounted as it was, whatever the hooks do to the mount
    status and whichever of them fail, unless a restore fails or a hook asks for no restore. -/
theorem stdmuxes_restore (O : ℕ → Bool) (Ms : List (MuxSystem σ)) (st : MuxState σ)
    (h : ∀ r ∈ (stdmuxes O Ms st).1, r.exitCode ≠ none ∧ cancelled r.hist ≠ some true) :
    (stdmuxes O Ms st).2.remount.mode = st.remount.mode := by
  induction Ms generalizing st with
  | nil => rfl
  | cons M Ms ih =>
    obtain ⟨hexit, hcancelled⟩ := h (stdmux M O st) List.mem_cons_self
    have hrest := ih (stdmux M O st).state fun r hr => h r (List.mem_cons_of_mem _ hr)
    exact hrest.trans (stdmux_restores hexit hcancelled)

theorem stdmuxes_restore_two :
    (stdmuxes (fun _ => true) [twoHookSystem, twoHookSystem] readOnly).2.remount.mode = .ro := by
  refine stdmuxes_restore (fun _ => true) [twoHookSystem, twoHookSystem] readOnly ?_
  decide +kernel

end

end StdMux

end Fischstaebchen
