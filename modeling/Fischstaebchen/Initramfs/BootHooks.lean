/-
  The hooks of the boot process (`initramfs/hacks.c`).

  A phase of the boot process has a hook file, or none.  It is run in a child process,
  and if it fails, it is run again as long as the shell that is run then returns 0.

  * `runHook_logs`: how a hook that passes has ended.
  * `inner_runHook`: a hook is told that it is run again exactly if a shell for its phase
    has returned 0 just before.
-/
import Fischstaebchen.Initramfs.Latch

namespace Fischstaebchen

open Lib

/-- `INITRAMFS_RUNDIR`. -/
def initramfsRundir : CStr := "/run/initramfs".toList

/-- `GET_INITRAMFS_RUNDIR`. -/
def getInitramfsRundir (p : String) : CStr := initramfsRundir ++ "/".toList ++ p.toList

/-- `INITRAMFS_RUN_TMPDIR`. -/
def initramfsRunTmpdir : CStr := getInitramfsRundir "tmp"

/-- `INITRAMFS_RUN_CONFDIR`. -/
def initramfsRunConfdir : CStr := getInitramfsRundir "config"

/-- `INITRAMFS_RUN_HOOKDIR`. -/
def initramfsRunHookdir : CStr := getInitramfsRundir "hooks"

/-- `INITRAMFS_AUX_MNTROOT`. -/
def initramfsAuxMntroot : CStr := "/mnt/aux".toList

section
variable {σ : Type} (S : BootSystem σ)

/-- `initramfs_get_hook_file`. -/
def initramfsGetHookFile (phase : CStr) (sys : σ) : Option CStr :=
  [initramfsRunHookdir, initramfsHookdir].map (fun dir => dir ++ "/".toList ++ phase)
    |>.find? fun file => S.executable file sys

/-- `initramfs_setup_hook_env`. -/
def initramfsSetupHookEnv (phase hookFile : CStr) (firstTry : Bool) (sys : σ) (env : Environ) :
    Environ :=
  let env := exportEnv "PHASE" (some phase) env
  let env := exportEnv "__NAME__" (some phase) env
  let env := exportEnv "__FILE__" (some hookFile) env
  let env := exportEnv "TMPDIR" (some initramfsRunTmpdir) env
  let env := exportEnv "T" (some initramfsRunTmpdir) env
  let env := exportEnv "M" (some initramfsAuxMntroot) env
  let env := exportEnv "NR" (some newrootMountpoint) env
  let env := exportEnv "__ZRAM_NEXT_FREE_IDENT" (S.nextFreeIdentifier sys) env
  exportEnvShbool "RETRY" (if firstTry then 0 else 1) env

/-- The return code of `_initramfs_do_run_hook` once the child process has been forked. -/
def hookRet : ChildResult → ℤ
  | .terminated how => wexitstatus how.status
  | _ => -1

/-- `_initramfs_do_run_hook`. -/
def initramfsDoRunHook (phase hookFile : CStr) (firstTry : Bool) : Boot σ ℤ := do
  let child ← Prog.step fun st =>
    let env := initramfsSetupHookEnv S phase hookFile firstTry st.sys st.env
    let r := S.child hookFile [hookFile, phase] env st.sys
    ((env, r.1), st.setSys r.2)
  if child.2 = .forkFailed then initramfsRunOnerrorShell S (-1) (some "failed to fork".toList)
  else do
    Prog.emit (.hook phase hookFile child.1 child.2)
    pure (hookRet child.2)

/-- An iteration of the loop of `_initramfs_do_run_hook_catch_fail`. -/
def catchFailIteration (phase hookFile : CStr) (retcode : ℤ) : Boot σ (Lib.Flow ℤ ℤ) := do
  let shret ← initramfsRunOnerrorShell S retcode (some phase)
  if shret = 0 then do
    let retcode ← initramfsDoRunHook S phase hookFile false
    pure (if retcode > 0 then .next retcode else .leave retcode)
  else if shret = initramfsFailContinue then pure (.leave 0)
  else pure (.leave shret)

/-- `_initramfs_do_run_hook_catch_fail`. -/
def initramfsDoRunHookCatchFail (phase hookFile : CStr) : Boot σ ℤ := do
  let retcode ← initramfsDoRunHook S phase hookFile true
  if retcode ≤ 0 then pure retcode
  else Prog.loop (catchFailIteration S phase hookFile) retcode

/-- The part of `initramfs_run_hook` that runs the hook file. -/
def initramfsRunHookFile (phase hookFile : CStr) (isCritical : Bool) : Boot σ ℤ :=
  if isCritical then initramfsDoRunHookCatchFail S phase hookFile
  else initramfsDoRunHook S phase hookFile true

/-- `initramfs_run_hook`, with `found_hook`. -/
def initramfsRunHook (phase : CStr) (isCritical : Bool) : Boot σ (ℤ × Bool) := do
  let hookFile ← Prog.step fun st => (initramfsGetHookFile S phase st.sys, st)
  if hookFile = none then pure (0, false)
  else do
    let retcode ← initramfsRunHookFile S phase (hookFile.getD []) isCritical
    pure (retcode, true)

end

/-! ## Running a hook once -/

/-- What running a hook once emits. -/
inductive HookTry (mask : BitVec 32) (haveNet : Option CStr) (phase hookFile : CStr)
    (firstTry : Bool) : Except Stop ℤ → List BootEvent → Prop
  | unasked (hmask : mask &&& initramfsDoshellOnerror = 0#32) :
      HookTry mask haveNet phase hookFile firstTry (.ok (-1)) []
  | unforked (hmask : mask &&& initramfsDoshellOnerror ≠ 0#32) (rc : ℤ) :
      HookTry mask haveNet phase hookFile firstTry (.ok rc)
        [.shell (-1) (some "failed to fork".toList) rc]
  | ran {env : Environ} {result : ChildResult} (hnet : env "HAVE_NET" = haveNet)
      (hretry : env "RETRY" = some shellStrTrue ↔ firstTry = false)
      (hresult : result ≠ .forkFailed) :
      HookTry mask haveNet phase hookFile firstTry (.ok (hookRet result))
        [.hook phase hookFile env result]

section
variable {σ : Type} (S : BootSystem σ) {mask : BitVec 32} {haveNet : Option CStr}

theorem setupHookEnv_haveNet (phase hookFile : CStr) (firstTry : Bool) (sys : σ) (env : Environ) :
    initramfsSetupHookEnv S phase hookFile firstTry sys env "HAVE_NET" = env "HAVE_NET" := by
  simp only [initramfsSetupHookEnv]
  rw [exportEnvShbool_of_ne (by simp), exportEnv_of_ne (by simp), exportEnv_of_ne (by simp),
    exportEnv_of_ne (by simp), exportEnv_of_ne (by simp), exportEnv_of_ne (by simp),
    exportEnv_of_ne (by simp), exportEnv_of_ne (by simp), exportEnv_of_ne (by simp)]

theorem setupHookEnv_retry (phase hookFile : CStr) (firstTry : Bool) (sys : σ) (env : Environ) :
    initramfsSetupHookEnv S phase hookFile firstTry sys env "RETRY" = some shellStrTrue ↔
      firstTry = false := by
  simp only [initramfsSetupHookEnv]
  rw [exportEnvShbool_self]
  cases firstTry <;> simp

/-- **Running a hook once.** -/
theorem doRunHook_logs (phase hookFile : CStr) (firstTry : Bool) (net : ℤ) :
    (initramfsDoRunHook S phase hookFile firstTry).Logs (Fixed mask net haveNet)
      (HookTry mask haveNet phase hookFile firstTry) := by
  intro n st r hst hrun
  unfold initramfsDoRunHook at hrun
  rw [Prog.run_step_bind] at hrun
  dsimp only at hrun
  set env := initramfsSetupHookEnv S phase hookFile firstTry st.sys st.env with henv
  have hst' : Fixed mask net haveNet (st.setSys (S.child hookFile [hookFile, phase] env st.sys).2) :=
    ⟨hst.doshell, hst.haveNetwork, hst.env⟩
  by_cases hfork : (S.child hookFile [hookFile, phase] env st.sys).1 = .forkFailed
  · rw [if_pos hfork] at hrun
    obtain ⟨hst'', ⟨hmask, hres, hes⟩ | ⟨hmask, rc, hres, hes⟩⟩ :=
      onerrorShell_logs S (-1) _ mask net haveNet n _ r hst' hrun
    · rw [hres, hes]
      exact ⟨hst'', .unasked hmask⟩
    · rw [hres, hes]
      exact ⟨hst'', .unforked hmask rc⟩
  · rw [if_neg hfork, Prog.run_emit_bind, Prog.run_pure, Option.map_some,
      Option.some.injEq] at hrun
    rw [← hrun]
    refine ⟨hst', .ran ?_ ?_ hfork⟩
    · rw [henv, setupHookEnv_haveNet]
      exact hst.env
    · rw [henv]
      exact setupHookEnv_retry S phase hookFile firstTry st.sys st.env

end

/-! ## Hooks within a phase -/

section
variable {mask : BitVec 32} {haveNet : Option CStr} {phase hookFile : CStr} {firstTry : Bool}
  {res : Except Stop ℤ} {es : List BootEvent}

theorem HookTry.not_stopped (h : HookTry mask haveNet phase hookFile firstTry res es) :
    Prog.stopped res = none := by
  cases h <;> rfl

theorem HookTry.mem (h : HookTry mask haveNet phase hookFile firstTry res es) {e : BootEvent}
    (he : e ∈ es) : e.Allowed mask haveNet ∧ ¬ e.OfPhase := by
  cases h with
  | unasked hmask => cases he
  | unforked hmask rc =>
    rw [List.mem_singleton.1 he]
    exact ⟨.inl hmask, id⟩
  | ran hnet hretry hresult =>
    rw [List.mem_singleton.1 he]
    exact ⟨hnet, id⟩

/-- The first time, a hook is told that it has not been run before. -/
theorem HookTry.retryTold_first (h : HookTry mask haveNet phase hookFile true res es)
    (hphase : phase ∉ shellReasons) : RetryTold es := by
  cases h with
  | unasked hmask => exact composes_retryTold.nil
  | unforked hmask rc =>
    refine retryTold_of_noHook (by simp) fun ret reason hlast => ?_
    cases hlast
    simp [shellReasons]
  | @ran env result hnet hretry hresult =>
    refine ⟨fun pre phase' hookFile' env' result' post h => ?_, fun pre ret reason h => ?_⟩
    · rcases List.singleton_eq_append_iff.1 h with ⟨rfl, h⟩ | ⟨rfl, h⟩
      · obtain ⟨hhook, -⟩ := List.cons.inj h
        obtain ⟨rfl, -, rfl, -⟩ := BootEvent.hook.inj hhook
        exact ⟨hphase, iff_of_false (fun h => absurd (hretry.1 h) (by simp)) (by simp)⟩
      · exact absurd h (by simp)
    · rcases List.singleton_eq_append_iff.1 h with ⟨rfl, h⟩ | ⟨rfl, h⟩
      · exact absurd (List.cons.inj h).1 (by simp)
      · exact absurd h (by simp)

/-- After a shell for its phase has returned 0, it is told that it is run again. -/
theorem HookTry.retryTold_again (h : HookTry mask haveNet phase hookFile false res es)
    (hphase : phase ∉ shellReasons) (hmask : mask &&& initramfsDoshellOnerror ≠ 0#32) (ret : ℤ) :
    RetryTold (.shell ret (some phase) 0 :: es) := by
  cases h with
  | unasked hmask' => exact absurd hmask' hmask
  | unforked hmask rc =>
    refine retryTold_of_noHook (by simp) fun ret reason hlast => ?_
    cases hlast
    simp [shellReasons]
  | @ran env result hnet hretry hresult =>
    refine ⟨fun pre phase' hookFile' env' result' post h => ?_, fun pre ret' reason h => ?_⟩
    · cases pre with
      | nil => exact absurd (List.cons.inj h).1 (by simp)
      | cons e pre =>
        obtain ⟨rfl, htail⟩ := List.cons.inj h
        rcases List.singleton_eq_append_iff.1 htail with ⟨rfl, hend⟩ | ⟨rfl, hend⟩
        · obtain ⟨hhook, -⟩ := List.cons.inj hend
          obtain ⟨rfl, -, rfl, -⟩ := BootEvent.hook.inj hhook
          exact ⟨hphase, iff_of_true (hretry.2 rfl) ⟨[], ret, rfl⟩⟩
        · exact absurd hend (by simp)
    · have hlast := congrArg List.getLast? h
      rw [List.getLast?_concat] at hlast
      exact absurd hlast (by simp)

variable {σ : Type} (S : BootSystem σ) {Q : Stop → Prop}

theorem doRunHook_ends {I : BootState σ → Prop} (phase hookFile : CStr) (firstTry : Bool) :
    (initramfsDoRunHook S phase hookFile firstTry).Ends I := by
  intro st hst
  unfold initramfsDoRunHook
  simp only [Prog.run_step_bind]
  split_ifs
  · exact onerrorShell_ends (I := fun _ => True) S _ _ _ trivial
  · exact ⟨0, _, rfl⟩

theorem inner_doRunHook (hphase : phase ∉ shellReasons) :
    Inner Q (initramfsDoRunHook S phase hookFile true) := by
  refine ⟨fun mask net haveNet => ?_, fun _ _ _ _ => doRunHook_ends S phase hookFile true⟩
  refine (doRunHook_logs S phase hookFile true net).imp fun res es h => ?_
  refine ⟨⟨fun e he => h.mem he, fun x hx => ?_⟩, h.retryTold_first hphase⟩
  rw [h.not_stopped] at hx
  cases hx

/-- A shell that does not ask for another run. -/
theorem innerEvents_shell {mask : BitVec 32} (haveNet : Option CStr)
    (hmask : mask &&& initramfsDoshellOnerror ≠ 0#32) {ret rc : ℤ} (h0 : rc ≠ 0)
    (phase : CStr) : InnerEvents mask haveNet Q none [.shell ret (some phase) rc] := by
  refine ⟨⟨?_, by intro x hx; cases hx⟩, retryTold_of_noHook (by simp) ?_⟩
  · intro e he
    rw [List.mem_singleton.1 he]
    exact ⟨.inl hmask, id⟩
  · intro ret' reason hlast
    cases hlast
    exact absurd rfl h0

/-- What an iteration emits: everything that can happen after a hook has returned `retcode`. -/
inductive CatchFail (mask : BitVec 32) (haveNet : Option CStr) (phase hookFile : CStr)
    (retcode : ℤ) : Except Stop (Lib.Flow ℤ ℤ) → List BootEvent → Prop
  | unasked (hmask : mask &&& initramfsDoshellOnerror = 0#32) :
      CatchFail mask haveNet phase hookFile retcode (.ok (.leave (-1))) []
  | gaveUp (hmask : mask &&& initramfsDoshellOnerror ≠ 0#32) {rc : ℤ} (h0 : rc ≠ 0) :
      CatchFail mask haveNet phase hookFile retcode (.ok (.leave rc))
        [.shell retcode (some phase) rc]
  | waived (hmask : mask &&& initramfsDoshellOnerror ≠ 0#32) :
      CatchFail mask haveNet phase hookFile retcode (.ok (.leave 0))
        [.shell retcode (some phase) initramfsFailContinue]
  | again (hmask : mask &&& initramfsDoshellOnerror ≠ 0#32) {ret : ℤ} {es : List BootEvent}
      (hhook : HookTry mask haveNet phase hookFile false (.ok ret) es) :
      CatchFail mask haveNet phase hookFile retcode
        (.ok (if ret > 0 then .next ret else .leave ret)) (.shell retcode (some phase) 0 :: es)

theorem catchFailIteration_logs (phase hookFile : CStr) (retcode : ℤ) (mask : BitVec 32) (net : ℤ)
    (haveNet : Option CStr) :
    (catchFailIteration S phase hookFile retcode).Logs (Fixed mask net haveNet)
      (CatchFail mask haveNet phase hookFile retcode) := by
  intro n st r hst hrun
  unfold catchFailIteration at hrun
  obtain ⟨⟨res, es, st'⟩, hshell, hrest⟩ := Prog.run_bind hrun
  obtain ⟨hst', ⟨hmask, rfl, rfl⟩ | ⟨hmask, rc, rfl, rfl⟩⟩ :=
    onerrorShell_logs S retcode _ mask net haveNet n st _ hst hshell
  · obtain ⟨_, r', ⟨⟩, hend, rfl⟩ | ⟨x, hx, -⟩ := hrest
    · rw [if_neg (by decide), if_neg (by decide), Prog.run_pure, Option.some.injEq] at hend
      rw [← hend]
      exact ⟨hst', .unasked hmask⟩
    · cases hx
  · obtain ⟨_, r', ⟨⟩, hend, rfl⟩ | ⟨x, hx, -⟩ := hrest
    · by_cases h0 : rc = 0
      · subst h0
        rw [if_pos rfl] at hend
        obtain ⟨⟨res, es, st''⟩, hhook, hleave⟩ := Prog.run_bind hend
        obtain ⟨hst'', htry⟩ := doRunHook_logs S phase hookFile false net n st' _ hst' hhook
        obtain ⟨ret, r'', hres, hpure, rfl⟩ | ⟨x, hres, rfl⟩ := hleave
        · rw [Prog.run_pure, Option.some.injEq] at hpure
          rw [← hpure]
          refine ⟨hst'', ?_⟩
          have htry' : HookTry mask haveNet phase hookFile false (.ok ret) es := by
            rw [← show res = .ok ret from hres]
            exact htry
          simpa using CatchFail.again hmask htry'
        · have hstop := htry.not_stopped
          rw [show res = .error x from hres] at hstop
          cases hstop
      · rw [if_neg h0] at hend
        by_cases h250 : rc = initramfsFailContinue
        · subst h250
          rw [if_pos rfl, Prog.run_pure, Option.some.injEq] at hend
          rw [← hend]
          exact ⟨hst', .waived hmask⟩
        · rw [if_neg h250, Prog.run_pure, Option.some.injEq] at hend
          rw [← hend]
          exact ⟨hst', .gaveUp hmask h0⟩
    · cases hx

theorem catchFailIteration_ends (phase hookFile : CStr) (retcode : ℤ) (mask : BitVec 32) (net : ℤ)
    (haveNet : Option CStr) :
    (catchFailIteration S phase hookFile retcode).Ends (Fixed mask net haveNet) := by
  refine Prog.ends_bind (onerrorShell_ends S retcode _)
    (onerrorShell_logs S retcode _ mask net haveNet) fun shret => ?_
  split_ifs
  · exact Prog.ends_bind (doRunHook_ends S phase hookFile false)
      (doRunHook_logs S phase hookFile false net) fun ret => Prog.ends_pure _
  · exact Prog.ends_pure _
  · exact Prog.ends_pure _

/-- A hook is run again only after a shell. -/
theorem CatchFail.not_next {retcode ret : ℤ}
    (h : CatchFail mask haveNet phase hookFile retcode (.ok (.next ret)) es)
    (hmask : mask &&& initramfsDoshellOnerror = 0#32) : False := by
  generalize hres : (.ok (.next ret) : Except Stop (Lib.Flow ℤ ℤ)) = res at h
  cases h with
  | again hmask' => exact hmask' hmask
  | _ => cases hres

theorem inner_catchFail (hphase : phase ∉ shellReasons) :
    Inner Q (initramfsDoRunHookCatchFail S phase hookFile) := by
  refine inner_bind (inner_doRunHook S hphase) fun retcode => ?_
  split_ifs
  · exact inner_pure _
  refine inner_loop (catchFailIteration_logs S phase hookFile)
    (fun mask haveNet retcode res es h => ?_)
    (fun retcode mask net haveNet _ => catchFailIteration_ends S phase hookFile retcode mask net
      haveNet)
    (fun mask haveNet retcode ret es hmask h => h.not_next hmask) retcode
  cases h with
  | unasked hmask => exact (composes_innerEvents mask haveNet Q).nil
  | gaveUp hmask h0 => exact innerEvents_shell haveNet hmask h0 phase
  | waived hmask => exact innerEvents_shell haveNet hmask (by decide) phase
  | again hmask hhook =>
    refine ⟨⟨fun e he => ?_, by intro x hx; cases hx⟩, hhook.retryTold_again hphase hmask retcode⟩
    rcases List.mem_cons.1 he with rfl | he
    · exact ⟨.inl hmask, id⟩
    · exact hhook.mem he

/-- **A hook is within its phase**; it is told that it is run again exactly if a shell for its
    phase has returned 0 just before. -/
theorem inner_runHook (hphase : phase ∉ shellReasons) (isCritical : Bool) :
    Inner Q (initramfsRunHook S phase isCritical) := by
  refine inner_bind (inner_step (fun _ => rfl) (fun _ => rfl) fun _ => rfl) fun hookFile => ?_
  split_ifs
  · exact inner_pure _
  · refine inner_bind ?_ fun _ => inner_pure _
    unfold initramfsRunHookFile
    split_ifs
    · exact inner_catchFail S hphase
    · exact inner_doRunHook S hphase

end

/-! ## Hooks that pass -/

section
variable {σ : Type} (S : BootSystem σ) {mask : BitVec 32} {haveNet : Option CStr}
  {phase hookFile : CStr}

/-- How a hook that passes has ended: it has exited with 0, or a shell has waived its failure,
    or has returned 0 after it could not be forked. -/
def PassedHook (phase : CStr) (es : List BootEvent) : Prop :=
  ∃ pre last, es = pre ++ [last] ∧
    ((∃ hookFile env how, last = .hook phase hookFile env (.terminated how) ∧
        (how.Success ∨ ∃ sig core, how = .signaled sig core)) ∨
      (∃ ret, last = .shell ret (some phase) initramfsFailContinue) ∨
      last = .shell (-1) (some "failed to fork".toList) 0)

theorem HookTry.passed {firstTry : Bool} {es : List BootEvent}
    (h : HookTry mask haveNet phase hookFile firstTry (.ok 0) es) : PassedHook phase es := by
  generalize hres : (.ok 0 : Except Stop ℤ) = res at h
  cases h with
  | unasked hmask => cases hres
  | unforked hmask rc =>
    cases hres
    exact ⟨[], _, rfl, .inr (.inr rfl)⟩
  | @ran env result hnet hretry hresult =>
    have hret : hookRet result = 0 := (Except.ok.inj hres).symm
    cases result with
    | forkFailed => exact absurd rfl hresult
    | waitFailed => cases hret
    | terminated how =>
      exact ⟨[], _, rfl, .inl ⟨hookFile, env, how, rfl, (wexitstatus_eq_zero_iff how).1 hret⟩⟩

theorem PassedHook.prepend {es : List BootEvent} (h : PassedHook phase es)
    (es' : List BootEvent) : PassedHook phase (es' ++ es) := by
  obtain ⟨pre, last, rfl, hlast⟩ := h
  exact ⟨es' ++ pre, last, (List.append_assoc ..).symm, hlast⟩

/-- **A critical hook passes** only if there is none, or it has exited with 0 or has been killed
    by a signal, or a shell has waived its failure, or has returned 0 after it could not be
    forked. -/
theorem runHook_logs (phase : CStr) (net : ℤ) :
    (initramfsRunHook S phase true).Logs (Fixed mask net haveNet) fun res es =>
      ∀ found, res = .ok (0, found) → (found = false ∧ es = []) ∨ PassedHook phase es := by
  have hcatch : ∀ hookFile, (initramfsDoRunHookCatchFail S phase hookFile).Logs
      (Fixed mask net haveNet) fun res es => res = .ok 0 → PassedHook phase es := by
    intro hookFile
    refine (Prog.logs_bind (doRunHook_logs S phase hookFile true net)
      (fun retcode => ?_ : ∀ retcode, Prog.Logs _ _ fun res es =>
        (retcode ≤ 0 ∧ res = .ok retcode ∧ es = []) ∨
          Prog.Loops (CatchFail mask haveNet phase hookFile) retcode res es)).imp fun res es h => ?_
    · split_ifs with hle
      · exact Prog.logs_pure (.inl ⟨hle, rfl, rfl⟩)
      · exact (Prog.logs_loop (fun retcode => catchFailIteration_logs S phase hookFile retcode mask
          net haveNet) retcode).imp fun res es h => .inr h
    · rintro rfl
      cases h with
      | @goOn retcode _ es es' htry hrest =>
        rcases hrest with ⟨-, hres, rfl⟩ | hloop
        · obtain rfl := Except.ok.inj hres
          rw [List.append_nil]
          exact htry.passed
        · refine PassedHook.prepend ?_ es
          clear htry
          generalize hres : (.ok 0 : Except Stop ℤ) = res at hloop
          induction hloop with
          | next hiter hloop ih => exact (ih hres).prepend _
          | @leave b a es hiter =>
            obtain rfl := Except.ok.inj hres
            generalize hleave : (.ok (.leave 0) : Except Stop (Lib.Flow ℤ ℤ)) = res at hiter
            cases hiter with
            | unasked hmask => cases hleave
            | gaveUp hmask h0 =>
              cases hleave
              exact absurd rfl h0
            | waived hmask => exact ⟨[], _, rfl, .inr (.inl ⟨b, rfl⟩)⟩
            | @again hmask ret es hhook =>
              have hleave' := Except.ok.inj hleave
              split_ifs at hleave' with hpos
              obtain rfl := Lib.Flow.leave.inj hleave'
              exact hhook.passed.prepend [_]
          | stop hiter => cases hres
  intro n st r hst hrun
  unfold initramfsRunHook at hrun
  rw [Prog.run_step_bind] at hrun
  split_ifs at hrun
  · rw [Prog.run_pure, Option.some.injEq] at hrun
    rw [← hrun]
    refine ⟨hst, fun found hfound => .inl ⟨?_, rfl⟩⟩
    exact (Prod.mk.inj (Except.ok.inj hfound)).2.symm
  · obtain ⟨r', hfile, ⟨retcode, r'', hres, hpure, rfl⟩ | ⟨x, hres, rfl⟩⟩ := Prog.run_bind hrun
    · obtain ⟨hst', hpassed⟩ := hcatch _ n _ r' hst hfile
      rw [Prog.run_pure, Option.some.injEq] at hpure
      rw [← hpure]
      refine ⟨hst', fun found hfound => .inr ?_⟩
      have h0 : retcode = 0 := (Prod.mk.inj (Except.ok.inj hfound)).1
      simpa using hpassed (by rw [hres, h0])
    · exact ⟨(hcatch _ n _ r' hst hfile).1, by intro found hfound; cases hfound⟩

end

end Fischstaebchen
