/-
  The latch of the boot process (`initramfs/hacks.h`) and the shells of the initramfs
  (`initramfs/initramfs.c`).

  An action that fails is reported, and a shell is run if the shell mask asks for it.
  If the shell returns 0, the action is tried once more, and 250 means that the boot
  process goes on; otherwise the function that contains the latch returns.

  * `onerrorShell_logs`, `latch_logs`: what they emit.
  * `latch_handles`: no failure is passed over.
-/
import Fischstaebchen.App.Untar
import Fischstaebchen.Initramfs.Hacks
import Fischstaebchen.Initramfs.Premount
import Fischstaebchen.Lib.Prog

namespace Fischstaebchen

open Lib

/-! ## The boot process and its surroundings -/

/-- What `fork` and `waitpid` tell about a child process. -/
inductive ChildResult
  | forkFailed
  | waitFailed
  | terminated (how : Termination)
  deriving DecidableEq

/-- What is latched: a phase of the boot process, or the loading of a module. -/
inductive Latched
  | phase (desc : CStr)
  | module (name : CStr)
  deriving DecidableEq

/-- `action_desc`. -/
def Latched.actionDesc : Latched → CStr
  | phase desc => desc
  | module name => name

@[simp]
theorem Latched.actionDesc_phase (desc : CStr) : (phase desc).actionDesc = desc := rfl

/-- `hdr`. -/
def Latched.hdr : Latched → CStr
  | phase _ => ">>>".toList
  | module _ => "    *".toList

/-- What the boot process prints and runs. -/
inductive BootEvent
  /-- `hdr action_desc` -/
  | begin (what : Latched)
  /-- `!!! action_desc returned ret` -/
  | failed (what : Latched) (ret : ℤ)
  /-- `retry action_desc` -/
  | retry (what : Latched)
  /-- `BOOT-RESUME` -/
  | resume (what : Latched)
  /-- `BOOT-FAIL action_desc` -/
  | bootFail (what : Latched)
  /-- `not using builtin %s: disabled by flagfile.` -/
  | notUsing (builtin : CStr)
  /-- a shell, with its `RETCODE` and the reason, and what it returned -/
  | shell (retcodeIn : ℤ) (reason : Option CStr) (rc : ℤ)
  /-- a hook, with its environment -/
  | hook (phase hookFile : CStr) (env : Environ) (result : ChildResult)
  /-- a command, and what it returned -/
  | command (argv : List CStr) (rc : ℤ)
  /-- `initramfs_domount` for a mountpoint, and what it returned -/
  | domount (target : Option CStr) (ret : ℤ)

/-- Why a function does not go on. -/
inductive Stop
  /-- `return` -/
  | ret (code : ℤ)
  /-- `exit` -/
  | exit (code : ℤ)
  /-- `execvp` -/
  | exec (argv : List CStr)
  deriving DecidableEq

/-- The system, for a type of states `σ` of what the boot process does not hold itself. -/
structure BootSystem (σ : Type) where
  /-- `access` with `F_OK` -/
  fileExists : CStr → σ → Bool
  /-- `access` with `X_OK` -/
  executable : CStr → σ → Bool
  /-- `check_fs_lexists` -/
  lexists : CStr → σ → Bool
  /-- a child process that executes a file with its arguments -/
  child : CStr → List CStr → Environ → σ → ChildResult × σ
  /-- whether `execvp` succeeds -/
  execvp : List CStr → σ → Bool
  /-- `get_zram_ident_str` for `zram_globals->next_free_identifier` -/
  nextFreeIdentifier : σ → Option CStr

/-- The state of the boot process: the globals that are used, the environment, and the
    state of the system with that of `premount`. -/
structure BootState (σ : Type) where
  g : InitramfsGlobals
  /-- `initramfs_globals->shell`, up to the first NULL -/
  shell : List CStr
  rootfindDevices : List CStr
  haveNetwork : ℤ
  env : Environ
  premount : PremountState σ

/-- A function of the boot process. -/
abbrev Boot (σ : Type) : Type → Type := Prog BootEvent Stop (BootState σ)

namespace BootState

variable {σ : Type}

/-- The state of the system. -/
def sys (st : BootState σ) : σ := st.premount.sys

/-- The system after a call. -/
def setSys (st : BootState σ) (sys : σ) : BootState σ :=
  { st with premount := { st.premount with sys } }

@[simp] theorem setSys_g (st : BootState σ) (sys : σ) : (st.setSys sys).g = st.g := rfl

@[simp] theorem setSys_haveNetwork (st : BootState σ) (sys : σ) :
    (st.setSys sys).haveNetwork = st.haveNetwork := rfl

@[simp] theorem setSys_env (st : BootState σ) (sys : σ) : (st.setSys sys).env = st.env := rfl

end BootState

/-! ## Functions -/

/-- A function whose body may return early. -/
def Boot.fn {σ : Type} (body : Boot σ ℤ) : Boot σ ℤ :=
  body.catchStop fun
    | .ret code => some code
    | _ => none

section
variable {σ : Type} (S : BootSystem σ)

/-- The return code of `_RUN_COMMAND_GENERIC`; the status is 0 if `waitpid` fails. -/
def commandRet : ChildResult → ℤ
  | .forkFailed => -2
  | .waitFailed => wexitstatus 0
  | .terminated how => wexitstatus how.status

/-- `run_command_argv`, `run_command_argv_with_stdin`. -/
def runCommandArgv (path : Option CStr) (argv : List CStr) : Boot σ ℤ :=
  Prog.step fun st =>
    if argv.head?.getD [] = [] then (-1, st)
    else
      let r := S.child (path.getD (argv.head?.getD [])) argv st.env st.sys
      (commandRet r.1, st.setSys r.2)

/-- `run_command`. -/
def runCommand (path : CStr) (argv : List CStr) : Boot σ ℤ := do
  let rc ← runCommandArgv S (some path) argv
  Prog.emit (.command argv rc)
  pure rc

/-- `BUSYBOX_EXE`. -/
def busyboxExe : CStr := "/bin/busybox".toList

/-! ## Shells -/

/-- `_export_failcode`; the buffer has room for 10 chars. -/
def exportFailcode (retcode : ℤ) (env : Environ) : Environ :=
  if retcode = 0 then exportEnv "RETCODE" none env
  else if (toString retcode).length ≤ 10 then
    exportEnv "RETCODE" (some (toString retcode).toList) env
  else exportEnv "RETCODE" (some "-1".toList) env

/-- The command line of the shell. -/
def shellArgv (st : BootState σ) : List CStr :=
  if st.shell = [] then
    if S.executable "/bin/run-shell".toList st.sys then ["/bin/run-shell".toList]
    else [busyboxExe, "sh".toList]
  else st.shell

/-- `initramfs_run_shell`. -/
def initramfsRunShell (retcodeIn : ℤ) (reason : Option CStr) : Boot σ ℤ := do
  let argv ← Prog.step fun st =>
    (shellArgv S st,
      { st with env := exportFailcode retcodeIn (exportEnv "WHY_SHELL" reason st.env) })
  let rc ← runCommandArgv S none argv
  Prog.emit (.shell retcodeIn reason rc)
  pure rc

/-- `initramfs_run_onerror_shell`. -/
def initramfsRunOnerrorShell (retcodeIn : ℤ) (reason : Option CStr) : Boot σ ℤ := do
  let onerror ← Prog.step fun st => (decide (st.g.doshell &&& initramfsDoshellOnerror ≠ 0#32), st)
  if onerror then initramfsRunShell S retcodeIn reason else pure (-1)

/-- `initramfs_run_user_preswitch_shell_if_requested`. -/
def initramfsRunUserPreswitchShellIfRequested : Boot σ ℤ := do
  let doshell ← Prog.step fun st => (st.g.doshell, st)
  if doshell &&& initramfsDoshellOncePreswitch ≠ 0#32 then
    initramfsRunShell S 0 (some "preswitch shell".toList)
  else pure 0

/-- `initramfs_run_user_shell_if_requested`. -/
def initramfsRunUserShellIfRequested : Boot σ ℤ := do
  let doshell ← Prog.step fun st => (st.g.doshell, st)
  if doshell &&& initramfsDoshellLoop ≠ 0#32 then
    -- there is no other way out of the loop
    Prog.loop (fun _ => do
      let rc ← initramfsRunShell S 0 none
      if rc ≥ 0 then pure (.next ()) else Prog.stop (.exit exitFailure)) ()
  else if doshell &&& initramfsDoshellOnce ≠ 0#32 then initramfsRunShell S 0 none
  else pure 0

/-! ## The latch -/

/-- `INITRAMFS_FAIL_CONTINUE`. -/
def initramfsFailContinue : ℤ := 250

/-- The end of another attempt. -/
def latchResume (what : Latched) (latchret : ℤ) : Boot σ Unit :=
  if latchret = 0 then Prog.emit (.resume what) else pure ()

/-- An iteration of the loop of `_INITRAMFS_FAIL_LATCH`. -/
def latchIteration (what : Latched) (funcCall : Boot σ ℤ) (latchret : ℤ) : Boot σ (Lib.Flow ℤ Unit) :=
  if latchret = 0 then pure (.leave ())
  else do
    Prog.emit (.failed what latchret)
    let shellret ← initramfsRunOnerrorShell S latchret (some what.actionDesc)
    if shellret = 0 then do
      Prog.emit (.retry what)
      let latchret ← funcCall
      latchResume what latchret
      pure (.next latchret)
    else if shellret = initramfsFailContinue then pure (.leave ())
    else do
      Prog.emit (.bootFail what)
      Prog.stop (.ret shellret)

/-- `_INITRAMFS_FAIL_LATCH`. -/
def initramfsFailLatch (what : Latched) (funcCall : Boot σ ℤ) : Boot σ Unit := do
  Prog.emit (.begin what)
  let latchret ← funcCall
  Prog.loop (latchIteration S what funcCall) latchret

end

/-! ## Functions within a phase -/

section
variable {σ α β : Type}

/-- What the functions within a phase keep: the shell mask, `have_network`, and what is
    exported about it. -/
structure Fixed (mask : BitVec 32) (net : ℤ) (haveNet : Option CStr) (st : BootState σ) : Prop where
  doshell : st.g.doshell = mask
  haveNetwork : st.haveNetwork = net
  env : st.env "HAVE_NET" = haveNet

namespace BootEvent

/-- A phase is latched, not a module. -/
def OfPhase : BootEvent → Prop
  | begin (.phase _) | failed (.phase _) _ | retry (.phase _) | resume (.phase _)
  | bootFail (.phase _) => True
  | _ => False

/-- Shells are run on errors only if the mask asks for it, and hooks are told whether
    there is a network. -/
def Allowed (mask : BitVec 32) (haveNet : Option CStr) : BootEvent → Prop
  | shell _ reason _ =>
    mask &&& initramfsDoshellOnerror ≠ 0#32 ∨ reason = some "preswitch shell".toList
  | hook _ _ env _ => env "HAVE_NET" = haveNet
  | _ => True

end BootEvent

/-- The reasons for which a shell is run otherwise than for a failed phase or hook. -/
def shellReasons : List CStr :=
  ["failed to fork", "essential premounts", "Failed to mount", "no init found in newroot",
    "preswitch shell"].map String.toList

/-- A hook is told that it is run again if and only if a shell for its phase has returned 0
    just before. -/
def RetryTold (es : List BootEvent) : Prop :=
  (∀ pre phase hookFile env result post, es = pre ++ .hook phase hookFile env result :: post →
    phase ∉ shellReasons ∧
      (env "RETRY" = some shellStrTrue ↔ ∃ pre' ret, pre = pre' ++ [.shell ret (some phase) 0])) ∧
    ∀ pre ret reason, es = pre ++ [.shell ret (some reason) 0] → reason ∈ shellReasons

/-- That hooks are told composes: no hook belongs to a reason of another shell. -/
theorem composes_retryTold : Prog.Composes (ξ := Stop) fun _ => RetryTold where
  nil := by
    refine ⟨fun pre phase hookFile env result post h => ?_, fun pre ret reason h => ?_⟩
    · cases pre <;> cases h
    · cases pre <;> cases h
  append := by
    intro stop es es' hes hes'
    refine ⟨fun pre phase hookFile env result post h => ?_, fun pre ret reason h => ?_⟩
    · rcases List.append_eq_append_iff.1 h with ⟨mid, rfl, hpost⟩ | ⟨mid, hpre, hpost⟩
      · obtain ⟨hphase, hretry⟩ := hes'.1 mid phase hookFile env result post hpost
        refine ⟨hphase, hretry.trans ⟨?_, ?_⟩⟩
        · rintro ⟨mid', ret, rfl⟩
          exact ⟨es ++ mid', ret, (List.append_assoc ..).symm⟩
        · rintro ⟨pre', ret, hpre⟩
          rcases List.append_eq_append_iff.1 hpre with ⟨mid', -, hmid⟩ | ⟨mid', hes'', hmid⟩
          · exact ⟨mid', ret, hmid⟩
          · cases mid' with
            | nil => exact ⟨[], ret, hmid.symm⟩
            | cons e mid' =>
              -- the shell would end the first part
              obtain ⟨rfl, hnil⟩ := List.cons.inj hmid
              obtain ⟨rfl, -⟩ := List.append_eq_nil_iff.1 hnil.symm
              exact absurd (hes.2 pre' ret phase hes'') hphase
      · cases mid with
        | nil =>
          rw [List.append_nil] at hpre
          subst hpre
          obtain ⟨hphase, hretry⟩ := hes'.1 [] phase hookFile env result post hpost.symm
          refine ⟨hphase, hretry.trans ⟨?_, ?_⟩⟩
          · rintro ⟨pre', ret, hnil⟩
            exact absurd hnil (by simp)
          · rintro ⟨pre', ret, hend⟩
            exact absurd (hes.2 pre' ret phase hend) hphase
        | cons e mid =>
          obtain ⟨rfl, -⟩ := List.cons.inj hpost
          exact hes.1 pre phase hookFile env result mid hpre
    · rcases List.append_eq_append_iff.1 h with ⟨mid, -, hmid⟩ | ⟨mid, hpre, hmid⟩
      · exact hes'.2 mid ret reason hmid
      · cases mid with
        | nil => exact hes'.2 [] ret reason hmid.symm
        | cons e mid =>
          obtain ⟨rfl, hnil⟩ := List.cons.inj hmid
          obtain ⟨rfl, -⟩ := List.append_eq_nil_iff.1 hnil.symm
          exact hes.2 pre ret reason hpre

/-- Events without hooks. -/
theorem retryTold_of_noHook {es : List BootEvent}
    (hhook : ∀ phase hookFile env result, .hook phase hookFile env result ∉ es)
    (hend : ∀ ret reason, es.getLast? = some (.shell ret (some reason) 0) →
      reason ∈ shellReasons) : RetryTold es := by
  refine ⟨?_, ?_⟩
  · rintro pre phase hookFile env result post rfl
    exact absurd (by simp) (hhook phase hookFile env result)
  · rintro pre ret reason rfl
    exact hend ret reason (List.getLast?_concat ..)

/-- What a function within a phase emits; it stops for no reason other than those with `Q`. -/
def InnerEvents (mask : BitVec 32) (haveNet : Option CStr) (Q : Stop → Prop) (stop : Option Stop)
    (es : List BootEvent) : Prop :=
  ((∀ e ∈ es, e.Allowed mask haveNet ∧ ¬ e.OfPhase) ∧ ∀ x, stop = some x → Q x) ∧ RetryTold es

/-- A function within a phase; without on-error shells it ends. -/
structure Inner (Q : Stop → Prop) (m : Boot σ α) : Prop where
  emits : ∀ mask net haveNet, m.Emits (Fixed mask net haveNet) (InnerEvents mask haveNet Q)
  ends : ∀ mask net haveNet, mask &&& initramfsDoshellOnerror = 0#32 →
    m.Ends (Fixed mask net haveNet)

variable {Q : Stop → Prop}

theorem composes_innerEvents (mask : BitVec 32) (haveNet : Option CStr) (Q : Stop → Prop) :
    Prog.Composes (InnerEvents mask haveNet Q) := (Prog.composes_each _ _).and composes_retryTold

theorem inner_pure (a : α) : Inner Q (pure a : Boot σ α) where
  emits mask _ haveNet := Prog.emits_pure (composes_innerEvents mask haveNet Q) a
  ends _ _ _ _ := Prog.ends_pure a

theorem inner_bind {m : Boot σ α} {f : α → Boot σ β} (hm : Inner Q m) (hf : ∀ a, Inner Q (f a)) :
    Inner Q (m >>= f) where
  emits mask net haveNet := Prog.emits_bind (composes_innerEvents mask haveNet Q)
    (hm.emits mask net haveNet) fun a => (hf a).emits mask net haveNet
  ends mask net haveNet hmask := Prog.ends_bind (hm.ends mask net haveNet hmask)
    (hm.emits mask net haveNet) fun a => (hf a).ends mask net haveNet hmask

theorem inner_step {f : BootState σ → α × BootState σ}
    (hmask : ∀ st, (f st).2.g.doshell = st.g.doshell)
    (hnet : ∀ st, (f st).2.haveNetwork = st.haveNetwork)
    (henv : ∀ st, (f st).2.env "HAVE_NET" = st.env "HAVE_NET") :
    Inner Q (Prog.step f : Boot σ α) where
  emits mask _ haveNet := Prog.emits_step (composes_innerEvents mask haveNet Q) fun st hst =>
    ⟨(hmask st).trans hst.doshell, (hnet st).trans hst.haveNetwork, (henv st).trans hst.env⟩
  ends _ _ _ _ := Prog.ends_step f

/-- Events of a module, and messages. -/
theorem inner_emit {e : BootEvent} (hallowed : ∀ mask haveNet, e.Allowed mask haveNet)
    (hphase : ¬ e.OfPhase) (htold : RetryTold [e]) : Inner Q (Prog.emit e : Boot σ Unit) where
  emits mask net haveNet := by
    refine Prog.logs_emit ⟨⟨?_, by intro x hx; cases hx⟩, htold⟩
    intro e' he'
    rw [List.mem_singleton.1 he']
    exact ⟨hallowed mask haveNet, hphase⟩
  ends _ _ _ _ := Prog.ends_emit e

theorem inner_stop {x : Stop} (hx : Q x) : Inner Q (Prog.stop x : Boot σ α) where
  emits mask net haveNet := by
    refine Prog.logs_stop ⟨⟨by simp, ?_⟩, composes_retryTold.nil⟩
    intro y hy
    rw [← Option.some.inj hy]
    exact hx
  ends _ _ _ _ := Prog.ends_stop x

/-- A loop that goes on only if shells are run on errors. -/
theorem inner_loop {body : β → Boot σ (Lib.Flow β α)}
    {L : BitVec 32 → Option CStr → β → Except Stop (Lib.Flow β α) → List BootEvent → Prop}
    (hbody : ∀ b mask net haveNet, (body b).Logs (Fixed mask net haveNet) (L mask haveNet b))
    (hL : ∀ mask haveNet b res es, L mask haveNet b res es →
      InnerEvents mask haveNet Q (Prog.stopped res) es)
    (hends : ∀ b mask net haveNet, mask &&& initramfsDoshellOnerror = 0#32 →
      (body b).Ends (Fixed mask net haveNet))
    (hleave : ∀ mask haveNet b b' es, mask &&& initramfsDoshellOnerror = 0#32 →
      ¬ L mask haveNet b (.ok (.next b')) es) (b : β) :
    Inner Q (Prog.loop body b) where
  emits mask net haveNet := Prog.emits_loop (composes_innerEvents mask haveNet Q)
    (fun b => (hbody b mask net haveNet).imp (hL mask haveNet b)) b
  ends mask net haveNet hmask := Prog.ends_loop (fun b => hends b mask net haveNet hmask)
    (fun b => hbody b mask net haveNet) (fun b b' es => hleave mask haveNet b b' es hmask) b

/-- The body of a function may return early. -/
theorem inner_fn {body : Boot σ ℤ} (hbody : Inner (fun x => (∃ code, x = .ret code) ∨ Q x) body) :
    Inner Q (Boot.fn body) where
  ends mask net haveNet hmask := Prog.ends_catchStop (hbody.ends mask net haveNet hmask)
  emits mask net haveNet n st r hst hrun := by
    obtain ⟨⟨res, es, st'⟩, hrun', rfl⟩ := Option.map_eq_some_iff.1 hrun
    obtain ⟨hst', ⟨hes, hstop⟩, htold⟩ := hbody.emits mask net haveNet n st _ hst hrun'
    have hother : ∀ x, Prog.stopped res = some x → (∀ code, x ≠ .ret code) → Q x := fun x hx hret =>
      (hstop x hx).resolve_left fun h => hret h.choose h.choose_spec
    cases res with
    | ok code => exact ⟨hst', ⟨hes, by intro x hx; cases hx⟩, htold⟩
    | error x =>
      cases x with
      | ret code => exact ⟨hst', ⟨hes, by intro x hx; cases hx⟩, htold⟩
      | exit code =>
        refine ⟨hst', ⟨hes, fun x hx => hother x hx ?_⟩, htold⟩
        rintro code' rfl
        cases hx
      | exec argv =>
        refine ⟨hst', ⟨hes, fun x hx => hother x hx ?_⟩, htold⟩
        rintro code' rfl
        cases hx

theorem Inner.imp {Q' : Stop → Prop} {m : Boot σ α} (hm : Inner Q m) (hQ : ∀ x, Q x → Q' x) :
    Inner Q' m where
  emits mask net haveNet := (hm.emits mask net haveNet).imp fun _ _ h =>
    ⟨⟨h.1.1, fun x hx => hQ x (h.1.2 x hx)⟩, h.2⟩
  ends := hm.ends

end

/-! ## Shells -/

section
variable {σ : Type} (S : BootSystem σ) {Q : Stop → Prop}

theorem inner_runCommand (path : CStr) (argv : List CStr) : Inner Q (runCommand S path argv) := by
  refine inner_bind ?_ fun rc => inner_bind ?_ fun _ => inner_pure rc
  · refine inner_step ?_ ?_ ?_ <;> intro st <;> dsimp only <;> split_ifs <;> rfl
  · exact inner_emit (fun _ _ => trivial) id (retryTold_of_noHook (by simp) (by simp))

theorem exportFailcode_of_ne {name : String} (h : name ≠ "RETCODE") (retcode : ℤ) (env : Environ) :
    exportFailcode retcode env name = env name := by
  unfold exportFailcode
  split_ifs
  · exact exportEnv_of_ne h _ _
  · exact exportEnv_of_ne h _ _
  · exact exportEnv_of_ne h _ _

/-- A shell is one event, with what it returned. -/
theorem runShell_logs (retcodeIn : ℤ) (reason : Option CStr) (mask : BitVec 32) (net : ℤ)
    (haveNet : Option CStr) :
    (initramfsRunShell S retcodeIn reason).Logs (Fixed mask net haveNet) fun res es =>
      ∃ rc, res = .ok rc ∧ es = [.shell retcodeIn reason rc] := by
  intro n st r hst hrun
  simp only [initramfsRunShell, runCommandArgv, Prog.run_step_bind, Prog.run_emit_bind,
    Prog.run_pure, Option.map_some, Option.some.injEq] at hrun
  subst hrun
  refine ⟨?_, _, rfl, rfl⟩
  have hst' : Fixed mask net haveNet { st with
      env := exportFailcode retcodeIn (exportEnv "WHY_SHELL" reason st.env) } := by
    refine ⟨hst.doshell, hst.haveNetwork, ?_⟩
    dsimp only
    rw [exportFailcode_of_ne (by simp), exportEnv_of_ne (by simp)]
    exact hst.env
  show Fixed mask net haveNet (Prod.snd _)
  split_ifs
  · exact hst'
  · exact ⟨hst'.doshell, hst'.haveNetwork, hst'.env⟩

/-- **What the on-error shell emits.** -/
theorem onerrorShell_logs (retcodeIn : ℤ) (reason : Option CStr) (mask : BitVec 32) (net : ℤ)
    (haveNet : Option CStr) :
    (initramfsRunOnerrorShell S retcodeIn reason).Logs (Fixed mask net haveNet) fun res es =>
      (mask &&& initramfsDoshellOnerror = 0#32 ∧ res = .ok (-1) ∧ es = []) ∨
        mask &&& initramfsDoshellOnerror ≠ 0#32 ∧
          ∃ rc, res = .ok rc ∧ es = [.shell retcodeIn reason rc] := by
  intro n st r hst hrun
  unfold initramfsRunOnerrorShell at hrun
  rw [Prog.run_step_bind] at hrun
  dsimp only at hrun
  rw [hst.doshell] at hrun
  by_cases hmask : mask &&& initramfsDoshellOnerror = 0#32
  · rw [if_neg (by simp [hmask]), Prog.run_pure, Option.some.injEq] at hrun
    rw [← hrun]
    exact ⟨hst, .inl ⟨hmask, rfl, rfl⟩⟩
  · rw [if_pos (by simp [hmask])] at hrun
    obtain ⟨hst', hrc⟩ := runShell_logs S retcodeIn reason mask net haveNet n st r hst hrun
    exact ⟨hst', .inr ⟨hmask, hrc⟩⟩

theorem runShell_ends {I : BootState σ → Prop} (retcodeIn : ℤ) (reason : Option CStr) :
    (initramfsRunShell S retcodeIn reason).Ends I := by
  intro st _
  simp only [initramfsRunShell, runCommandArgv, Prog.run_step_bind, Prog.run_emit_bind,
    Prog.run_pure, Option.map_some]
  exact ⟨0, _, rfl⟩

theorem onerrorShell_ends {I : BootState σ → Prop} (retcodeIn : ℤ) (reason : Option CStr) :
    (initramfsRunOnerrorShell S retcodeIn reason).Ends I := by
  intro st hst
  unfold initramfsRunOnerrorShell
  simp only [Prog.run_step_bind]
  split_ifs
  · exact runShell_ends S retcodeIn reason st hst
  · exact ⟨0, _, rfl⟩

/-- An on-error shell that is not followed by another attempt. -/
theorem inner_onerrorShell (retcodeIn : ℤ) {reason : CStr} (hreason : reason ∈ shellReasons) :
    Inner Q (initramfsRunOnerrorShell S retcodeIn (some reason)) := by
  refine ⟨fun mask net haveNet => ?_, fun _ _ _ _ => onerrorShell_ends S retcodeIn (some reason)⟩
  refine (onerrorShell_logs S retcodeIn _ mask net haveNet).imp fun res es h => ?_
  rcases h with ⟨-, rfl, rfl⟩ | ⟨hmask, rc, rfl, rfl⟩
  · exact (composes_innerEvents mask haveNet Q).nil
  · refine ⟨⟨?_, by intro x hx; cases hx⟩, retryTold_of_noHook (by simp) ?_⟩
    · intro e he
      rw [List.mem_singleton.1 he]
      exact ⟨.inl hmask, id⟩
    · intro ret reason' hlast
      cases hlast
      exact hreason

/-- The preswitch shell is run for its own reason. -/
theorem inner_preswitchShell : Inner Q (initramfsRunUserPreswitchShellIfRequested S) := by
  refine ⟨fun mask net haveNet n st r hst hrun => ?_, fun _ _ _ _ st hst => ?_⟩
  swap
  · unfold initramfsRunUserPreswitchShellIfRequested
    simp only [Prog.run_step_bind]
    split_ifs
    · exact runShell_ends S 0 _ st hst
    · exact ⟨0, _, rfl⟩
  unfold initramfsRunUserPreswitchShellIfRequested at hrun
  rw [Prog.run_step_bind] at hrun
  split_ifs at hrun
  · obtain ⟨hst', rc, hres, hes⟩ := runShell_logs S 0 _ mask net haveNet n _ r hst hrun
    rw [hres, hes]
    refine ⟨hst', ⟨?_, by intro x hx; cases hx⟩, retryTold_of_noHook (by simp) ?_⟩
    · intro e he
      rw [List.mem_singleton.1 he]
      exact ⟨.inr rfl, id⟩
    · intro ret reason' hlast
      cases hlast
      simp [shellReasons]
  · rw [Prog.run_pure, Option.some.injEq] at hrun
    rw [← hrun]
    exact ⟨hst, (composes_innerEvents mask haveNet Q).nil⟩

end

/-! ## Phases -/

/-- What follows when a phase has failed.  Without on-error shells, the boot process ends.
    Otherwise a shell is run: if it returns 0 there is another attempt, it may waive the
    failure, or else the boot process ends with its code. -/
def Answered (mask : BitVec 32) (desc : CStr) (ret : ℤ) (stop : Option Stop)
    (post : List BootEvent) : Prop :=
  if mask &&& initramfsDoshellOnerror = 0#32 then
    stop = some (.ret (-1)) ∧ post = [.bootFail (.phase desc)]
  else
    (∃ post', post = .shell ret (some desc) 0 :: .retry (.phase desc) :: post') ∨
      (∃ post', post = .shell ret (some desc) initramfsFailContinue :: post') ∨
      ∃ code, stop = some (.ret code) ∧
        post = [.shell ret (some desc) code, .bootFail (.phase desc)]

/-- No failure of a phase is passed over. -/
def FailuresAnswered (mask : BitVec 32) (stop : Option Stop) (es : List BootEvent) : Prop :=
  ∀ desc ret pre post, es = pre ++ .failed (.phase desc) ret :: post →
    Answered mask desc ret stop post

theorem answered_unasked {mask : BitVec 32} {desc : CStr} {ret : ℤ}
    (hmask : mask &&& initramfsDoshellOnerror = 0#32) :
    Answered mask desc ret (some (.ret (-1))) [.bootFail (.phase desc)] := by
  rw [Answered, if_pos hmask]
  exact ⟨rfl, rfl⟩

theorem answered_asked {mask : BitVec 32} {desc : CStr} {ret : ℤ} {stop : Option Stop}
    {post : List BootEvent} (hmask : mask &&& initramfsDoshellOnerror ≠ 0#32) :
    Answered mask desc ret stop post ↔
      (∃ post', post = .shell ret (some desc) 0 :: .retry (.phase desc) :: post') ∨
        (∃ post', post = .shell ret (some desc) initramfsFailContinue :: post') ∨
        ∃ code, stop = some (.ret code) ∧
          post = [.shell ret (some desc) code, .bootFail (.phase desc)] := by
  rw [Answered, if_neg hmask]

theorem Answered.append {mask : BitVec 32} {desc : CStr} {ret : ℤ} {post : List BootEvent}
    (h : Answered mask desc ret none post) (stop : Option Stop) (es : List BootEvent) :
    Answered mask desc ret stop (post ++ es) := by
  by_cases hmask : mask &&& initramfsDoshellOnerror = 0#32
  · rw [Answered, if_pos hmask] at h
    cases h.1
  rw [answered_asked hmask] at h ⊢
  rcases h with ⟨post', rfl⟩ | ⟨post', rfl⟩ | ⟨code, hstop, -⟩
  · exact .inl ⟨post' ++ es, rfl⟩
  · exact .inr (.inl ⟨post' ++ es, rfl⟩)
  · cases hstop

/-- That failures are answered composes. -/
theorem composes_failuresAnswered (mask : BitVec 32) : Prog.Composes (FailuresAnswered mask) where
  nil := by
    intro desc ret pre post h
    cases pre <;> cases h
  append := by
    intro stop es es' hes hes' desc ret pre post h
    rcases List.append_eq_append_iff.1 h with ⟨mid, rfl, hpost⟩ | ⟨mid, hpre, hpost⟩
    · exact hes' desc ret mid post hpost
    · cases mid with
      | nil => exact hes' desc ret [] post hpost.symm
      | cons e mid =>
        obtain ⟨rfl, rfl⟩ := List.cons.inj hpost
        exact (hes desc ret pre mid hpre).append stop es'

/-- Events of no phase. -/
theorem failuresAnswered_of_inner {mask : BitVec 32} {stop : Option Stop} {es : List BootEvent}
    (h : ∀ e ∈ es, ¬ e.OfPhase) : FailuresAnswered mask stop es := by
  rintro desc ret pre post rfl
  exact absurd trivial (h (.failed (.phase desc) ret) (by simp))

/-- A failure that is answered, before other events. -/
theorem failuresAnswered_cons {mask : BitVec 32} {desc : CStr} {ret : ℤ} {stop : Option Stop}
    {post : List BootEvent} (h : Answered mask desc ret stop post)
    (hpost : ∀ desc' ret', .failed (.phase desc') ret' ∉ post) :
    FailuresAnswered mask stop (.failed (.phase desc) ret :: post) := by
  intro desc' ret' pre post' hsplit
  cases pre with
  | nil =>
    obtain ⟨hhead, rfl⟩ := List.cons.inj hsplit
    obtain ⟨hphase, rfl⟩ := BootEvent.failed.inj hhead
    rw [← Latched.phase.inj hphase]
    exact h
  | cons e pre =>
    obtain ⟨-, rfl⟩ := List.cons.inj hsplit
    exact absurd (by simp) (hpost desc' ret')

/-- The phase that an event begins. -/
def BootEvent.begunPhase : BootEvent → Option CStr
  | begin (.phase desc) => some desc
  | _ => none

/-- The phases that have been begun, in order. -/
def begun (es : List BootEvent) : List CStr := es.filterMap BootEvent.begunPhase

theorem BootEvent.begunPhase_of_inner {e : BootEvent} (h : ¬ e.OfPhase) : e.begunPhase = none := by
  cases e with
  | begin what =>
    cases what with
    | phase desc => exact absurd trivial h
    | module name => rfl
  | _ => rfl

theorem begun_append (es es' : List BootEvent) : begun (es ++ es') = begun es ++ begun es' :=
  List.filterMap_append ..

theorem begun_eq_nil {es : List BootEvent} (h : ∀ e ∈ es, e.begunPhase = none) : begun es = [] :=
  List.filterMap_eq_nil_iff.2 h

/-! ## The iterations of a latch -/

/-- What an iteration emits: everything that can happen after an attempt has returned `ret`. -/
inductive LatchIteration (mask : BitVec 32) (what : Latched)
    (L : Except Stop ℤ → List BootEvent → Prop) (ret : ℤ) :
    Except Stop (Lib.Flow ℤ Unit) → List BootEvent → Prop
  | done (h : ret = 0) : LatchIteration mask what L ret (.ok (.leave ())) []
  | unasked (h : ret ≠ 0) (hmask : mask &&& initramfsDoshellOnerror = 0#32) :
      LatchIteration mask what L ret (.error (.ret (-1))) [.failed what ret, .bootFail what]
  | gaveUp (h : ret ≠ 0) (hmask : mask &&& initramfsDoshellOnerror ≠ 0#32) (rc : ℤ) (h0 : rc ≠ 0) :
      LatchIteration mask what L ret (.error (.ret rc))
        [.failed what ret, .shell ret (some what.actionDesc) rc, .bootFail what]
  | waived (h : ret ≠ 0) (hmask : mask &&& initramfsDoshellOnerror ≠ 0#32) :
      LatchIteration mask what L ret (.ok (.leave ()))
        [.failed what ret, .shell ret (some what.actionDesc) initramfsFailContinue]
  | again (h : ret ≠ 0) (hmask : mask &&& initramfsDoshellOnerror ≠ 0#32) {ret' : ℤ}
      {es es' : List BootEvent} (hact : L (.ok ret') es) (hes' : ∀ e ∈ es', e = .resume what) :
      LatchIteration mask what L ret (.ok (.next ret'))
        ([.failed what ret, .shell ret (some what.actionDesc) 0, .retry what] ++ es ++ es')
  | stopped (h : ret ≠ 0) (hmask : mask &&& initramfsDoshellOnerror ≠ 0#32) {x : Stop}
      {es : List BootEvent} (hact : L (.error x) es) :
      LatchIteration mask what L ret (.error x)
        ([.failed what ret, .shell ret (some what.actionDesc) 0, .retry what] ++ es)

section
variable {σ : Type} (S : BootSystem σ) {act : Boot σ ℤ}

/-- **What an iteration emits.** -/
theorem latchIteration_logs {L : Except Stop ℤ → List BootEvent → Prop} {mask : BitVec 32}
    {net : ℤ} {haveNet : Option CStr} (hact : act.Logs (Fixed mask net haveNet) L)
    (what : Latched) (ret : ℤ) :
    (latchIteration S what act ret).Logs (Fixed mask net haveNet)
      (LatchIteration mask what L ret) := by
  intro n st r hst hrun
  unfold latchIteration at hrun
  by_cases hret : ret = 0
  · rw [if_pos hret, Prog.run_pure, Option.some.injEq] at hrun
    rw [← hrun]
    exact ⟨hst, .done hret⟩
  rw [if_neg hret, Prog.run_emit_bind] at hrun
  obtain ⟨r, hbind, rfl⟩ := Option.map_eq_some_iff.1 hrun
  obtain ⟨⟨res, es, st'⟩, hshell, hrest⟩ := Prog.run_bind hbind
  obtain ⟨hst', ⟨hmask, rfl, rfl⟩ | ⟨hmask, rc, rfl, rfl⟩⟩ :=
    onerrorShell_logs S ret _ mask net haveNet n st _ hst hshell
  · -- no shell is run
    obtain ⟨_, r'', ⟨⟩, hend, rfl⟩ | ⟨x, hx, -⟩ := hrest
    · rw [if_neg (by decide), if_neg (by decide), Prog.run_emit_bind, Prog.run_stop,
        Option.map_some, Option.some.injEq] at hend
      rw [← hend]
      exact ⟨hst', .unasked hret hmask⟩
    · cases hx
  · obtain ⟨_, r'', ⟨⟩, hend, rfl⟩ | ⟨x, hx, -⟩ := hrest
    · by_cases h0 : rc = 0
      · subst h0
        rw [if_pos rfl, Prog.run_emit_bind] at hend
        obtain ⟨r, hretry, rfl⟩ := Option.map_eq_some_iff.1 hend
        obtain ⟨r', hact', ⟨ret', r'', hres, hresume, rfl⟩ | ⟨x, hres, rfl⟩⟩ := Prog.run_bind hretry
        · obtain ⟨hst'', hL⟩ := hact n st' r' hst' hact'
          rw [hres] at hL
          have hagain : ∀ es' : List BootEvent, (∀ e ∈ es', e = .resume what) →
              LatchIteration mask what L ret (.ok (.next ret'))
                ([.failed what ret, .shell ret (some what.actionDesc) 0, .retry what] ++
                  r'.events ++ es') := fun es' hes' => .again hret hmask hL hes'
          unfold latchResume at hresume
          split_ifs at hresume with h'
          · rw [Prog.run_emit_bind, Prog.run_pure, Option.map_some, Option.some.injEq] at hresume
            rw [← hresume]
            exact ⟨hst'', by simpa using hagain [.resume what] (by simp)⟩
          · rw [Prog.run_pure_bind, Prog.run_pure, Option.some.injEq] at hresume
            rw [← hresume]
            exact ⟨hst'', by simpa using hagain [] (by simp)⟩
        · obtain ⟨hst'', hL⟩ := hact n st' r' hst' hact'
          rw [hres] at hL
          exact ⟨hst'', .stopped hret hmask hL⟩
      · rw [if_neg h0] at hend
        by_cases h250 : rc = initramfsFailContinue
        · subst h250
          rw [if_pos rfl, Prog.run_pure, Option.some.injEq] at hend
          rw [← hend]
          exact ⟨hst', .waived hret hmask⟩
        · rw [if_neg h250, Prog.run_emit_bind, Prog.run_stop, Option.map_some,
            Option.some.injEq] at hend
          rw [← hend]
          exact ⟨hst', .gaveUp hret hmask rc h0⟩
    · cases hx

end

/-! ## Phases -/

/-- What the loop of a latch emits: failures are answered, and no phase is begun. -/
def Settles (mask : BitVec 32) (haveNet : Option CStr) (Q : Stop → Prop) (stop : Option Stop)
    (es : List BootEvent) : Prop :=
  FailuresAnswered mask stop es ∧ RetryTold es ∧
    (∀ e ∈ es, e.Allowed mask haveNet ∧ e.begunPhase = none) ∧
      ∀ x, stop = some x → (∃ code, x = .ret code) ∨ Q x

theorem composes_settles (mask : BitVec 32) (haveNet : Option CStr) (Q : Stop → Prop) :
    Prog.Composes (Settles mask haveNet Q) :=
  (composes_failuresAnswered mask).and (composes_retryTold.and (Prog.composes_each _ _))

section
variable {mask : BitVec 32} {haveNet : Option CStr} {Q : Stop → Prop} {what : Latched}
  {L : Except Stop ℤ → List BootEvent → Prop} {ret : ℤ} {res : Except Stop (Lib.Flow ℤ Unit)}
  {es : List BootEvent}

/-- Hooks are told in an iteration if they are told in an attempt. -/
theorem LatchIteration.retryTold (h : LatchIteration mask what L ret res es)
    (hL : ∀ res es, L res es → RetryTold es) : RetryTold es := by
  have happend : ∀ {es es' : List BootEvent}, RetryTold es → RetryTold es' →
      RetryTold (es ++ es') := fun h h' => composes_retryTold.append (x := none) h h'
  have hretry : RetryTold [.failed what ret, .shell ret (some what.actionDesc) 0, .retry what] :=
    retryTold_of_noHook (by simp) (by simp)
  cases h with
  | done h => exact composes_retryTold.nil
  | unasked h hmask => exact retryTold_of_noHook (by simp) (by simp)
  | gaveUp h hmask rc h0 => exact retryTold_of_noHook (by simp) (by simp)
  | waived h hmask =>
    refine retryTold_of_noHook (by simp) fun ret' reason hlast => ?_
    exact absurd hlast (by simp [initramfsFailContinue])
  | again h hmask hact hes' =>
    refine happend (happend hretry (hL _ _ hact)) (retryTold_of_noHook ?_ ?_)
    · intro phase hookFile env result hmem
      exact absurd (hes' _ hmem) (by simp)
    · intro ret reason hlast
      exact absurd (hes' _ (List.mem_of_getLast? hlast)) (by simp)
  | stopped h hmask hact => exact happend hretry (hL _ _ hact)

/-- What the events of an iteration are. -/
theorem LatchIteration.mem (h : LatchIteration mask what L ret res es) {e : BootEvent}
    (he : e ∈ es) :
    (e = .failed what ret ∨ e = .retry what ∨ e = .resume what ∨ e = .bootFail what) ∨
      (mask &&& initramfsDoshellOnerror ≠ 0#32 ∧
        ∃ rc, e = .shell ret (some what.actionDesc) rc) ∨
      ∃ res es, L res es ∧ e ∈ es := by
  cases h with
  | done h => cases he
  | unasked h hmask =>
    rcases (by simpa using he : e = .failed what ret ∨ e = .bootFail what) with rfl | rfl <;> simp
  | gaveUp h hmask rc h0 =>
    rcases (by simpa using he : e = .failed what ret ∨ e = .shell ret (some what.actionDesc) rc ∨
      e = .bootFail what) with rfl | rfl | rfl <;> simp [hmask]
  | waived h hmask =>
    rcases (by simpa using he : e = .failed what ret ∨
      e = .shell ret (some what.actionDesc) initramfsFailContinue) with rfl | rfl <;> simp [hmask]
  | @again h hmask ret' es es' hact hes' =>
    rcases (by simpa using he : e = .failed what ret ∨ e = .shell ret (some what.actionDesc) 0 ∨
      e = .retry what ∨ e ∈ es ∨ e ∈ es') with rfl | rfl | rfl | he | he
    · simp
    · simp [hmask]
    · simp
    · exact .inr (.inr ⟨_, _, hact, he⟩)
    · simp [hes' e he]
  | @stopped h hmask x es hact =>
    rcases (by simpa using he : e = .failed what ret ∨ e = .shell ret (some what.actionDesc) 0 ∨
      e = .retry what ∨ e ∈ es) with rfl | rfl | rfl | he
    · simp
    · simp [hmask]
    · simp
    · exact .inr (.inr ⟨_, _, hact, he⟩)

/-- An iteration goes on only after a shell. -/
theorem LatchIteration.not_next {ret' : ℤ}
    (h : LatchIteration mask what L ret (.ok (.next ret')) es)
    (hmask : mask &&& initramfsDoshellOnerror = 0#32) : False := by
  generalize hres : (.ok (.next ret') : Except Stop (Lib.Flow ℤ Unit)) = res at h
  cases h with
  | again h hmask' => exact hmask' hmask
  | _ => cases hres

/-- Why an iteration stops. -/
theorem LatchIteration.stop (h : LatchIteration mask what L ret res es) {x : Stop}
    (hx : Prog.stopped res = some x) : (∃ code, x = .ret code) ∨ ∃ es, L (.error x) es := by
  cases h with
  | unasked h hmask => exact .inl ⟨-1, (Option.some.inj hx).symm⟩
  | gaveUp h hmask rc h0 => exact .inl ⟨rc, (Option.some.inj hx).symm⟩
  | @stopped h hmask x' es hact =>
    rw [← Option.some.inj hx]
    exact .inr ⟨es, hact⟩
  | _ => cases hx

/-- The failure of a phase is answered in the same iteration. -/
theorem LatchIteration.answered {desc : CStr}
    (h : LatchIteration mask (.phase desc) L ret res es)
    (hL : ∀ res es, L res es → ∀ e ∈ es, ¬ e.OfPhase) :
    FailuresAnswered mask (Prog.stopped res) es := by
  have hnone : ∀ {res es}, L res es → ∀ desc' ret', .failed (.phase desc') ret' ∉ es :=
    fun hL' desc' ret' hmem => hL _ _ hL' _ hmem trivial
  cases h with
  | done h => exact (composes_failuresAnswered mask).nil
  | unasked h hmask =>
    exact failuresAnswered_cons (answered_unasked hmask) (by simp)
  | gaveUp h hmask rc h0 =>
    exact failuresAnswered_cons ((answered_asked hmask).2 (.inr (.inr ⟨rc, rfl, rfl⟩))) (by simp)
  | waived h hmask =>
    exact failuresAnswered_cons ((answered_asked hmask).2 (.inr (.inl ⟨[], rfl⟩))) (by simp)
  | @again h hmask ret' es es' hact hes' =>
    refine failuresAnswered_cons ((answered_asked hmask).2 (.inl ⟨es ++ es', rfl⟩))
      fun desc' ret' hmem => ?_
    rcases (by simpa using hmem : .failed (.phase desc') ret' ∈ es ∨
      .failed (.phase desc') ret' ∈ es') with hmem | hmem
    · exact hnone hact desc' ret' hmem
    · exact absurd (hes' _ hmem) (by simp)
  | @stopped h hmask x es hact =>
    refine failuresAnswered_cons ((answered_asked hmask).2 (.inl ⟨es, rfl⟩)) fun desc' ret' hmem => ?_
    exact hnone hact desc' ret' (by simpa using hmem)

end

section
variable {σ : Type} (S : BootSystem σ) {Q : Stop → Prop} {act : Boot σ ℤ}

theorem latchIteration_ends (hact : Inner Q act) (what : Latched) (ret : ℤ) (mask : BitVec 32)
    (net : ℤ) (haveNet : Option CStr) (hmask : mask &&& initramfsDoshellOnerror = 0#32) :
    (latchIteration S what act ret).Ends (Fixed mask net haveNet) := by
  unfold latchIteration
  split_ifs
  · exact Prog.ends_pure _
  refine Prog.ends_bind (Prog.ends_emit _) (L := fun _ _ => True)
    (fun n st r hst hrun => ?_) fun _ => ?_
  · rw [← Option.some.inj hrun]
    exact ⟨hst, trivial⟩
  refine Prog.ends_bind (onerrorShell_ends S ret _)
    (onerrorShell_logs S ret _ mask net haveNet) fun shellret => ?_
  split_ifs
  · refine Prog.ends_bind (Prog.ends_emit _) (L := fun _ _ => True)
      (fun n st r hst hrun => ?_) fun _ => ?_
    · rw [← Option.some.inj hrun]
      exact ⟨hst, trivial⟩
    refine Prog.ends_bind (hact.ends mask net haveNet hmask) (hact.emits mask net haveNet)
      fun ret' => ?_
    unfold latchResume
    split_ifs
    · exact fun st _ => ⟨0, _, rfl⟩
    · exact fun st _ => ⟨0, _, rfl⟩
  · exact Prog.ends_pure _
  · exact fun st _ => ⟨0, _, rfl⟩

/-- An iteration of the latch of a phase. -/
theorem latchIteration_settles (hact : Inner Q act) (desc : CStr) (ret : ℤ) (mask : BitVec 32)
    (net : ℤ) (haveNet : Option CStr) :
    (latchIteration S (.phase desc) act ret).Emits (Fixed mask net haveNet)
      (Settles mask haveNet Q) := by
  refine (latchIteration_logs S (hact.emits mask net haveNet) (.phase desc) ret).imp
    fun res es h => ?_
  refine ⟨h.answered fun _ _ hL e he => (hL.1.1 e he).2, h.retryTold fun _ _ hL => hL.2,
    fun e he => ?_, fun x hx => ?_⟩
  · rcases h.mem he with (rfl | rfl | rfl | rfl) | ⟨hmask, rc, rfl⟩ | ⟨res, es, hL, he⟩
    · exact ⟨trivial, rfl⟩
    · exact ⟨trivial, rfl⟩
    · exact ⟨trivial, rfl⟩
    · exact ⟨trivial, rfl⟩
    · exact ⟨.inl hmask, rfl⟩
    · exact ⟨(hL.1.1 e he).1, BootEvent.begunPhase_of_inner (hL.1.1 e he).2⟩
  · rcases h.stop hx with hret | ⟨es, hL⟩
    · exact .inl hret
    · exact .inr (hL.1.2 x rfl)

/-- **The latch of a phase** begins the phase, and answers its failures. -/
theorem latch_settles (hact : Inner Q act) (desc : CStr) (mask : BitVec 32) (net : ℤ)
    (haveNet : Option CStr) :
    (initramfsFailLatch S (.phase desc) act).Emits (Fixed mask net haveNet) fun stop es =>
      ∃ es', es = .begin (.phase desc) :: es' ∧ Settles mask haveNet Q stop es' := by
  have hloop : (act >>= Prog.loop (latchIteration S (.phase desc) act)).Emits
      (Fixed mask net haveNet) (Settles mask haveNet Q) := by
    refine Prog.emits_bind (composes_settles mask haveNet Q) ?_ fun ret => ?_
    · exact (hact.emits mask net haveNet).imp fun res es h =>
        ⟨failuresAnswered_of_inner fun e he => (h.1.1 e he).2, h.2,
          fun e he => ⟨(h.1.1 e he).1, BootEvent.begunPhase_of_inner (h.1.1 e he).2⟩,
          fun x hx => .inr (h.1.2 x hx)⟩
    · exact Prog.emits_loop (composes_settles mask haveNet Q)
        (fun ret => latchIteration_settles S hact desc ret mask net haveNet) ret
  intro n st r hst hrun
  unfold initramfsFailLatch at hrun
  rw [Prog.run_emit_bind] at hrun
  obtain ⟨r, hloopRun, rfl⟩ := Option.map_eq_some_iff.1 hrun
  obtain ⟨hst', hsettles⟩ := hloop n st r hst hloopRun
  exact ⟨hst', r.events, rfl, hsettles⟩

theorem latch_ends (hact : Inner Q act) (desc : CStr) (mask : BitVec 32) (net : ℤ)
    (haveNet : Option CStr) (hmask : mask &&& initramfsDoshellOnerror = 0#32) :
    (initramfsFailLatch S (.phase desc) act).Ends (Fixed mask net haveNet) := by
  refine Prog.ends_bind (Prog.ends_emit _) (L := fun _ _ => True)
    (fun n st r hst hrun => ?_) fun _ => ?_
  · rw [← Option.some.inj hrun]
    exact ⟨hst, trivial⟩
  exact Prog.ends_bind (hact.ends mask net haveNet hmask) (hact.emits mask net haveNet) fun ret =>
    Prog.ends_loop (fun ret => latchIteration_ends S hact _ ret mask net haveNet hmask)
      (fun ret => latchIteration_logs S (hact.emits mask net haveNet) (.phase desc) ret)
      (fun _ _ _ h => h.not_next hmask) ret

/-- **The latch of a module** is within a phase; it returns early if the failure is neither
    repaired nor waived. -/
theorem inner_moduleLatch (hact : Inner Q act) (name : CStr) :
    Inner (fun x => (∃ code, x = .ret code) ∨ Q x) (initramfsFailLatch S (.module name) act) := by
  have hact' : Inner (fun x => (∃ code, x = .ret code) ∨ Q x) act := hact.imp fun x hx => .inr hx
  refine inner_bind (inner_emit (fun _ _ => trivial) id (retryTold_of_noHook (by simp) (by simp)))
    fun _ => inner_bind hact' fun ret => inner_loop
      (fun latchret mask net haveNet =>
        latchIteration_logs S (hact.emits mask net haveNet) (.module name) latchret)
      (fun mask haveNet latchret res es h => ?_)
      (fun latchret mask net haveNet => latchIteration_ends S hact _ latchret mask net haveNet)
      (fun mask haveNet latchret ret es hmask h => h.not_next hmask) ret
  refine ⟨⟨fun e he => ?_, fun x hx => ?_⟩, h.retryTold fun _ _ hL => hL.2⟩
  · rcases h.mem he with (rfl | rfl | rfl | rfl) | ⟨hmask, rc, rfl⟩ | ⟨res, es, hL, he⟩
    · exact ⟨trivial, id⟩
    · exact ⟨trivial, id⟩
    · exact ⟨trivial, id⟩
    · exact ⟨trivial, id⟩
    · exact ⟨.inl hmask, id⟩
    · exact hL.1.1 e he
  · rcases h.stop hx with hret | ⟨es, hL⟩
    · exact .inl hret
    · exact .inr (hL.1.2 x rfl)

end

end Fischstaebchen
