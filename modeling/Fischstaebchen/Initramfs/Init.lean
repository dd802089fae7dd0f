/-
  The programs of the initramfs: `init` (`initramfs/main/init.c`), which runs the boot
  process, and `preinit` (`initramfs/main/preinit.c`), which mounts newroot and executes
  a script.

  * `initMain_outcome`: `init` hands over to newroot only after all phases, and otherwise
    fails.
  * `preinitMain_fails`: `preinit` never hands over: it picks a script that may not be
    executed.
-/
import Fischstaebchen.Initramfs.Boot

namespace Fischstaebchen

open Lib

/-- What the programs start with. -/
structure InitParts (σ : Type) extends BootParts σ where
  /-- `init_initramfs` -/
  initInitramfs : BootState σ → ℤ × BootState σ
  /-- `initramfs_process_cmdline` -/
  initramfsProcessCmdline : BootState σ → ℤ × BootState σ
  /-- `initramfs_autoswap` -/
  initramfsAutoswap : BootState σ → ℤ × BootState σ

section
variable {σ : Type} (S : InitParts σ) (host : Host)

/-! ## Functions -/

/-- `_default_initramfs_start`. -/
def defaultInitramfsStartParts : Boot σ ℤ := do
  let ret ← Prog.step S.initramfsProcessCmdline
  if ret ≠ 0 then pure (-1)
  else do
    let ret ← Prog.step S.initramfsAutoswap
    if ret ≠ 0 then pure (-1)
    else do
      let ret ← initramfsRunUserShellIfRequested S.toBootSystem
      pure (if ret ≠ 0 then -1 else 0)

/-- `default_initramfs_start`. -/
def defaultInitramfsStart : Boot σ ℤ := do
  let ret ← Prog.step S.initInitramfs
  if ret ≠ 0 then pure (-1)
  else do
    let retcode ← defaultInitramfsStartParts S
    if retcode ≠ 0 then initramfsRunOnerrorShell S.toBootSystem retcode none else pure retcode

/-- `main_init`. -/
def mainInit : Boot σ ℤ :=
  Boot.fn do
    let ret ← defaultInitramfsStart S
    if ret ≠ 0 then pure exitFailure else mainBoot S.toBootParts host

/-- `main` of `init`. -/
def initMain : Boot σ ℤ := do
  let _ ← mainInit S host
  let _ ← initramfsEjectMounts S.toBootParts
  pure exitFailure

/-- `initramfs_mount_newroot`. -/
def initramfsMountNewroot : Boot σ ℤ := do
  let retcode ← initramfsMountNewrootRoot S.toBootParts
  if retcode ≠ 0 then pure retcode else initramfsMountNewrootUsr S.toBootParts

/-- `get_any_exe`; `access` returns 0 for a file that may be executed. -/
def getAnyExe (cands : List CStr) (sys : σ) : Option CStr :=
  cands.find? fun cand => S.executable cand sys = false

/-- The scripts that `preinit` looks for. -/
def preinitCandidates : List CStr :=
  ["/init.d/doinit".toList, "/init.sh".toList, "/_init.sh".toList]

/-- The part of `main` of `preinit` after newroot has been mounted. -/
def preinitExec : Boot σ ℤ := do
  let exe ← Prog.step fun st => (getAnyExe S preinitCandidates st.sys, st)
  if exe = none then
    initramfsRunOnerrorShell S.toBootSystem 0 (some "no init found".toList)
  else do
    let execd ← Prog.step fun st => (S.execvp [exe.getD []] st.sys, st)
    if execd then Prog.stop (.exec [exe.getD []]) else pure exitFailure

/-- `main` of `preinit`. -/
def preinitMain : Boot σ ℤ := do
  let ret ← defaultInitramfsStart S
  if ret ≠ 0 then pure exitFailure
  else do
    let ret ← initramfsWaitforDiskDevices S.toBootParts
    if ret ≠ 0 then
      initramfsRunOnerrorShell S.toBootSystem (-1)
        (some "Failed to wait for disk devices.".toList)
    else do
      let ret ← initramfsMountNewroot S
      if ret ≠ 0 then pure exitFailure else preinitExec S

end

/-! ## What is no phase -/

/-- No phase is begun, and the program is left only with a failure. -/
def Silent (stop : Option Stop) (es : List BootEvent) : Prop :=
  begun es = [] ∧ ∀ x, stop = some x → x = .exit exitFailure

theorem composes_silent : Prog.Composes Silent where
  nil := ⟨rfl, by simp⟩
  append {x es es'} h h' := ⟨by rw [begun_append, h.1, h'.1, List.append_nil], h'.2⟩

section
variable {σ α : Type}

theorem silent_of_fixed {m : Boot σ α} {L : Except Stop α → List BootEvent → Prop}
    (h : ∀ mask net haveNet, m.Logs (Fixed mask net haveNet) fun res es => L res es)
    (hL : ∀ res es, L res es → Silent (Prog.stopped res) es) :
    m.Emits (fun _ => True) Silent := by
  intro n st r _ hrun
  obtain ⟨-, hlog⟩ := h st.g.doshell st.haveNetwork (st.env "HAVE_NET") n st r ⟨rfl, rfl, rfl⟩ hrun
  exact ⟨trivial, hL _ _ hlog⟩

theorem Inner.silent {m : Boot σ α} (hm : Inner (fun _ => False) m) :
    m.Emits (fun _ => True) Silent := by
  intro n st r _ hrun
  obtain ⟨-, ⟨hes, hstop⟩, -⟩ :=
    hm.emits st.g.doshell st.haveNetwork (st.env "HAVE_NET") n st r ⟨rfl, rfl, rfl⟩ hrun
  refine ⟨trivial, begun_eq_nil fun e he => BootEvent.begunPhase_of_inner (hes e he).2, ?_⟩
  exact fun x hx => (hstop x hx).elim

variable (S : BootSystem σ)

theorem silent_runShell (retcodeIn : ℤ) (reason : Option CStr) :
    (initramfsRunShell S retcodeIn reason).Emits (fun _ => True) Silent :=
  silent_of_fixed (runShell_logs S retcodeIn reason) fun res es h => by
    obtain ⟨rc, rfl, rfl⟩ := h
    exact ⟨rfl, by intro x hx; cases hx⟩

theorem silent_onerrorShell (retcodeIn : ℤ) (reason : Option CStr) :
    (initramfsRunOnerrorShell S retcodeIn reason).Emits (fun _ => True) Silent := by
  refine Prog.emits_bind composes_silent (Prog.emits_step composes_silent fun _ _ => trivial)
    fun onerror => ?_
  split_ifs
  · exact silent_runShell S retcodeIn reason
  · exact Prog.emits_pure composes_silent _

theorem silent_userShell :
    (initramfsRunUserShellIfRequested S).Emits (fun _ => True) Silent := by
  refine Prog.emits_bind composes_silent (Prog.emits_step composes_silent fun _ _ => trivial)
    fun doshell => ?_
  split_ifs
  · refine Prog.emits_loop composes_silent (fun _ => Prog.emits_bind composes_silent
      (silent_runShell S 0 none) fun rc => ?_) ()
    split_ifs
    · exact Prog.emits_pure composes_silent _
    · exact Prog.logs_stop ⟨rfl, by intro x hx; exact (Option.some.inj hx).symm⟩
  · exact silent_runShell S 0 none
  · exact Prog.emits_pure composes_silent _

end

section
variable {σ : Type} (S : InitParts σ) (host : Host)

theorem silent_start : (defaultInitramfsStart S).Emits (fun _ => True) Silent := by
  have hstep : ∀ f : BootState σ → ℤ × BootState σ,
      (Prog.step f : Boot σ ℤ).Emits (fun _ => True) Silent :=
    fun f => Prog.emits_step composes_silent fun _ _ => trivial
  have hparts : (defaultInitramfsStartParts S).Emits (fun _ => True) Silent := by
    refine Prog.emits_bind composes_silent (hstep _) fun ret => ?_
    split_ifs
    · exact Prog.emits_pure composes_silent _
    · refine Prog.emits_bind composes_silent (hstep _) fun ret => ?_
      split_ifs
      · exact Prog.emits_pure composes_silent _
      · exact Prog.emits_bind composes_silent (silent_userShell _) fun ret =>
          Prog.emits_pure composes_silent _
  refine Prog.emits_bind composes_silent (hstep _) fun ret => ?_
  split_ifs
  · exact Prog.emits_pure composes_silent _
  · refine Prog.emits_bind composes_silent hparts fun retcode => ?_
    split_ifs
    · exact silent_onerrorShell _ _ _
    · exact Prog.emits_pure composes_silent _

theorem silent_ejectMounts : (initramfsEjectMounts S.toBootParts).Emits (fun _ => True) Silent :=
  Inner.silent (inner_bind (inner_sysCall _) fun _ => inner_bind (inner_sysCall _) fun _ =>
    inner_bind (inner_ejectAuxMounts _) fun _ => inner_pure 0)

variable {S host}

/-- The candidate of `get_any_exe` cannot be executed. -/
theorem silent_preinitExec
    (hexecvp : ∀ prog args sys, S.execvp (prog :: args) sys = true → S.executable prog sys = true) :
    (preinitExec S).Emits (fun _ => True) Silent := by
  intro n st r _ hrun
  unfold preinitExec at hrun
  rw [Prog.run_step_bind] at hrun
  dsimp only at hrun
  split_ifs at hrun with hexe
  · exact silent_onerrorShell _ _ _ n st r trivial hrun
  · obtain ⟨exe, hfind⟩ := Option.ne_none_iff_exists'.1 hexe
    have hnot : S.executable exe st.sys = false := by
      simpa using List.find?_some hfind
    have hfails : S.execvp [exe] st.sys = false := by
      cases hexec : S.execvp [exe] st.sys with
      | false => rfl
      | true => exact absurd (hexecvp exe [] st.sys hexec) (by simp [hnot])
    rw [hfind, Option.getD_some, Prog.run_step_bind, hfails, if_neg (by simp), Prog.run_pure,
      Option.some.injEq] at hrun
    rw [← hrun]
    exact ⟨trivial, rfl, by intro x hx; cases hx⟩

variable {n : ℕ} {st : BootState σ} {r : Run BootEvent Stop (BootState σ) ℤ}

/-- How `main_init` is left, other than by a return. -/
theorem mainInit_stop (h : (mainInit S host).run n st = some r) {x : Stop}
    (hstop : r.res = .error x) :
    x = .exit exitFailure ∨ x.SwitchesRoot ∧ Follows bootSchedule (begun r.events) := by
  obtain ⟨r', hbody, rfl⟩ := Option.map_eq_some_iff.1 h
  obtain ⟨hres, hnone⟩ := Prog.caught_error hstop
  have hret : ∀ code, x ≠ .ret code := by
    rintro code rfl
    cases hnone
  obtain ⟨r₁, hstart, ⟨ret, r₂, hres₁, hboot, rfl⟩ | ⟨y, hres₁, rfl⟩⟩ := Prog.run_bind hbody
  · have hsilent : begun r₁.events = [] := (silent_start S n st r₁ trivial hstart).2.1
    split_ifs at hboot
    · rw [Prog.run_pure, Option.some.injEq] at hboot
      rw [← hboot] at hres
      cases hres
    · have hlog := (boots_mainBoot S.toBootParts host).emits r₁.state.g.doshell n r₁.state r₂ rfl hboot
      have hstopped : Prog.stopped r₂.res = some x := by
        have hres₂ : r₂.res = .error x := hres
        rw [hres₂]
        rfl
      refine .inr ⟨?_, ?_⟩
      · exact (hlog.2.2 x hstopped).resolve_left fun ⟨code, hx⟩ => hret code hx
      · rw [Prog.caught_events, Run.after_events, begun_append, hsilent, List.nil_append]
        refine hlog.2.1.complete fun code hcode => ?_
        rw [hstopped] at hcode
        exact hret code (Option.some.inj hcode)
  · obtain rfl : y = x := Except.error.inj hres
    have hexit := (silent_start S n st r₁ trivial hstart).2.2 y (by rw [hres₁]; rfl)
    exact .inl hexit

/-- The bare system of the boot process, which starts without a failure. -/
def bareInit : InitParts Unit where
  toBootParts := bareParts false 0
  initInitramfs st := (0, st)
  initramfsProcessCmdline st := (0, st)
  initramfsAutoswap st := (0, st)

/-- **`preinit` never hands over** to a script: if only files that may be executed can be
    executed, it returns or exits.  The candidate that it picks is one that may not be. -/
theorem preinitMain_fails
    (hexecvp : ∀ prog args sys, S.execvp (prog :: args) sys = true → S.executable prog sys = true)
    (h : (preinitMain S).run n st = some r) (argv : List CStr) : r.res ≠ .error (.exec argv) := by
  have hsilent : (preinitMain S).Emits (fun _ => True) Silent := by
    refine Prog.emits_bind composes_silent (silent_start S) fun ret => ?_
    split_ifs
    · exact Prog.emits_pure composes_silent _
    refine Prog.emits_bind composes_silent (inner_waitforDiskDevices _).silent fun ret => ?_
    split_ifs
    · exact silent_onerrorShell _ _ _
    refine Prog.emits_bind composes_silent (Prog.emits_bind composes_silent
      (inner_mountNewrootRoot _).silent fun retcode => ?_) fun ret => ?_
    · split_ifs
      · exact Prog.emits_pure composes_silent _
      · exact (inner_mountNewrootUsr _).silent
    split_ifs
    · exact Prog.emits_pure composes_silent _
    · exact silent_preinitExec hexecvp
  intro hexec
  have hexit := (hsilent n st r trivial h).2.2 (.exec argv) (by rw [hexec]; rfl)
  cases hexit

/-- A system that executes `/init.sh` only. -/
def scriptInit : InitParts Unit where
  toBootParts := { bareParts true 0 with
    executable := fun path _ => decide (path = "/init.sh".toList)
    execvp := fun argv _ => decide (argv.head? = some "/init.sh".toList) }
  initInitramfs st := (0, st)
  initramfsProcessCmdline st := (0, st)
  initramfsAutoswap st := (0, st)

theorem preinitMain_fails_script :
    ∃ r, (preinitMain scriptInit).run 1 (bareState 0#32) = some r ∧ r.res = .ok exitFailure ∧
      r.res ≠ .error (.exec ["/init.sh".toList]) := by
  obtain ⟨r, hrun, hres⟩ : ∃ r, (preinitMain scriptInit).run 1 (bareState 0#32) = some r ∧
      r.res = .ok exitFailure := ⟨_, rfl, rfl⟩
  have hexecvp : ∀ (prog : CStr) (args : List CStr) (sys : Unit),
      scriptInit.execvp (prog :: args) sys = true → scriptInit.executable prog sys = true := by
    intro prog args sys h
    have hprog : some prog = some "/init.sh".toList := of_decide_eq_true h
    exact decide_eq_true (Option.some.inj hprog)
  exact ⟨r, hrun, hres, preinitMain_fails hexecvp hrun _⟩

end

end Fischstaebchen
