/-
  The runner of phase-out hooks (`overlay/src/phaseout/functions/phaseout`).

  A hook is a script.  Before it is run, a file is created in the directory of the hooks
  that have not succeeded so far, and it is removed when the script has returned 0.  The
  hooks are run in four passes, and the third one may run its hooks in parallel.

  * `Recorded`: what the files say about the hooks that have been run;
    `PassRun.recorded`: every pass keeps it, whatever the order is in which the jobs end.
  * `phaseoutRunDefault_runs`: which hooks are run, how often and in which order.
  * `phaseoutRunDefault_detects`: a run passes only if the last run of each hook has
    succeeded.
-/
import Fischstaebchen.Lib.Glob
import Fischstaebchen.Lib.LastWrite

namespace Fischstaebchen

open Lib Lib.Shell

namespace Phaseout

/-! ## Hooks -/

/-- How hooks are run, `PHASEOUT_HOOK_MODE`. -/
inductive HookMode
  | load
  | single
  | parallel
  deriving DecidableEq

/-- How a script ends: it returns, or it leaves its shell. -/
inductive ScriptEnd
  | returned (rc : ℤ)
  | exited (rc : ℤ)
  deriving DecidableEq

/-- How a function of the shell ends: it returns, or the shell exits. -/
inductive ShellEnd
  | returns (rc : ℤ)
  | exits
  deriving DecidableEq

/-- How loading a script ends. -/
def ScriptEnd.loaded : ScriptEnd → ShellEnd
  | returned rc => .returns rc
  | exited _ => .exits

/-- How loading a script in a subshell ends. -/
def ScriptEnd.code : ScriptEnd → ℤ
  | returned rc => rc
  | exited rc => rc

/-- What happens if the file of a hook does not exist, `ignore_missing`. -/
inductive IgnoreMissing
  | fail
  | error
  | warn
  | yes
  deriving DecidableEq

/-- A run of a hook. -/
structure HookRun where
  name : List Char
  how : ScriptEnd
  deriving DecidableEq

/-- The names of the scripts in `PHASEOUT_HOOK_DIR` that do not start with a dot, in the
    order of the shell, and what the scripts do. -/
structure Hooks (σ : Type) where
  files : List (List Char)
  nodup : files.Nodup
  script : List Char → σ → ScriptEnd × σ

/-- The directories of the hooks that have not succeeded so far and of those that have, the
    jobs in the background, and the runs of hooks so far. -/
structure State (σ : Type) where
  pending : Finset (List Char)
  success : Finset (List Char)
  running : List (List Char)
  ran : List HookRun
  sys : σ

section
variable {σ : Type} (E : Hooks σ)

/-- `autodie touch -- "${__FAILFILE__}"`. -/
def markPending (name : List Char) (st : State σ) : State σ :=
  { st with pending := insert name st.pending }

/-- `__phaseout_run_hook__success`. -/
def phaseoutRunHookSuccess (name : List Char) (st : State σ) : State σ :=
  { st with pending := st.pending.erase name, success := insert name st.success }

/-- `__phaseout_run_hook__loadscript`: a script that exits does not get as far as to be
    marked as successful. -/
def phaseoutRunHookLoadscript (name : List Char) (st : State σ) : ScriptEnd × State σ :=
  let r := E.script name st.sys
  let st := { st with sys := r.2, ran := st.ran ++ [⟨name, r.1⟩] }
  (r.1, if r.1 = .returned 0 then phaseoutRunHookSuccess name st else st)

/-- The part of `__phaseout_run_hook_dispatch` that runs the hook. -/
def phaseoutRunHook (mode : HookMode) (name : List Char) (st : State σ) : ShellEnd × State σ :=
  match mode with
  | .load =>
    let r := phaseoutRunHookLoadscript E name st
    (r.1.loaded, r.2)
  | .single =>
    -- `__phaseout_run_hook__runscript`
    let r := phaseoutRunHookLoadscript E name st
    (.returns r.1.code, r.2)
  | .parallel => (.returns 0, { st with running := st.running ++ [name] })

/-- The part of `__phaseout_run_hook_dispatch` for a missing file. -/
def phaseoutHookMissing (ignoreMissing : IgnoreMissing) (name : List Char) (st : State σ) :
    ShellEnd × State σ :=
  match ignoreMissing with
  | .fail => (.returns 127, markPending name st)
  | .error => (.returns 127, st)
  | .warn => (.returns 0, st)
  | .yes => (.returns 0, st)

/-- `__phaseout_run_hook_dispatch`, for a path in `PHASEOUT_HOOK_DIR`. -/
def phaseoutRunHookDispatch (mode : HookMode) (filter : List Char → Bool)
    (ignoreMissing : IgnoreMissing) (name : List Char) (st : State σ) : ShellEnd × State σ :=
  if filter name = false then (.returns 0, st)
  else if E.files.contains name = false then phaseoutHookMissing ignoreMissing name st
  else phaseoutRunHook E mode name (markPending name st)

/-- The loop of `_phaseout_run`, which keeps going. -/
def phaseoutRunLoop (mode : HookMode) (filter : List Char → Bool) (ignoreMissing : IgnoreMissing) :
    List (List Char) → ℤ → State σ → ShellEnd × State σ
  | [], failcode, st => (.returns failcode, st)
  | name :: names, failcode, st =>
    let r := phaseoutRunHookDispatch E mode filter ignoreMissing name st
    match r.1 with
    | .exits => (.exits, r.2)
    | .returns rc =>
      phaseoutRunLoop mode filter ignoreMissing names (if rc ≠ 0 then rc else failcode) r.2

/-- What `phaseout_run` returns after `_phaseout_run`: `_phaseout_get_and_report_failed` finds
    the hooks that have not succeeded. -/
def phaseoutVerdict (e : ShellEnd) (st : State σ) : ShellEnd :=
  match e with
  | .exits => .exits
  | .returns rc =>
    if rc ≠ 0 then .returns rc else if st.pending = ∅ then .returns 0 else .returns 1

/-- A job in the background ends. -/
def finishJob (name : List Char) (st : State σ) : State σ :=
  (phaseoutRunHookLoadscript E name { st with running := st.running.erase name }).2

/-- `_phaseout_run` and `_phaseout_waitfor_hooks` with jobs in the background, which may end at
    any time and in any order. -/
inductive ParallelRun (filter : List Char → Bool) :
    List (List Char) → State σ → State σ → Prop
  | start {name : List Char} {names : List (List Char)} {st st' : State σ} :
      ParallelRun filter names
        (phaseoutRunHookDispatch E .parallel filter .yes name st).2 st' →
      ParallelRun filter (name :: names) st st'
  | finish {name : List Char} {names : List (List Char)} {st st' : State σ} :
      name ∈ st.running → ParallelRun filter names (finishJob E name st) st' →
      ParallelRun filter names st st'
  | wait {st : State σ} : st.running = [] → ParallelRun filter [] st st

/-! ## Passes -/

/-- A call of `phaseout_run_if_exist`, with the setup before it. -/
structure Pass where
  mode : HookMode
  filter : List Char → Bool
  names : List (List Char)

/-- `phaseout_run_if_exist`. -/
inductive PassRun (p : Pass) : State σ → ShellEnd → State σ → Prop
  | sequential {st st' : State σ} {e : ShellEnd} (hmode : p.mode ≠ .parallel)
      (h : phaseoutRunLoop E p.mode p.filter .yes p.names 0 st = (e, st')) :
      PassRun p st (phaseoutVerdict e st') st'
  | parallel {st st' : State σ} (hmode : p.mode = .parallel)
      (h : ParallelRun E p.filter p.names st st') : PassRun p st (phaseoutVerdict (.returns 0) st') st'

/-- Several calls of `phaseout_run_if_exist_or_die`. -/
inductive PassesRun : List Pass → State σ → ShellEnd → State σ → Prop
  | done {st : State σ} : PassesRun [] st (.returns 0) st
  | next {p : Pass} {ps : List Pass} {st st' st'' : State σ} {e : ShellEnd} :
      PassRun E p st (.returns 0) st' → PassesRun ps st' e st'' → PassesRun (p :: ps) st e st''
  | die {p : Pass} {ps : List Pass} {st st' : State σ} {e : ShellEnd} :
      PassRun E p st e st' → e ≠ .returns 0 → PassesRun (p :: ps) st .exits st'

/-- Pathname expansion of a pattern for names; it stands for itself if nothing matches. -/
def expand (pattern : String) : List (List Char) :=
  if E.files.filter (fun name => caseOf name [pattern]) = [] then [pattern.toList]
  else E.files.filter fun name => caseOf name [pattern]

/-- The names for `_phaseout_run_from_hookdir`. -/
def fromHookdir (group : String) : List (List Char) :=
  [group.toList] ++ expand E (group ++ "-*") ++ expand E ("*-" ++ group)

end

/-- A name of a group of hooks. -/
def inGroup (group : String) (name : List Char) : Bool :=
  caseOf name [group, group ++ "-*", "*-" ++ group]

/-- `_phaseout_run_default_filter_env`. -/
def phaseoutRunDefaultFilterEnv (name : List Char) : Bool := !inGroup "env" name

/-- `_phaseout_run_default_filter_non_parallel`. -/
def phaseoutRunDefaultFilterNonParallel (name : List Char) : Bool :=
  !(inGroup "baselayout" name || inGroup "env" name || inGroup "fini" name)

/-- `_phaseout_run_default_filter_env_baselayout`. -/
def phaseoutRunDefaultFilterEnvBaselayout (name : List Char) : Bool :=
  !(inGroup "baselayout" name || inGroup "env" name)

section
variable {σ : Type} (E : Hooks σ)

/-- The passes of `phaseout_run_default`; `parallel` is whether `phaseout_setup_parallel` is
    called and not the same as `phaseout_setup_single`. -/
def defaultPasses (parallel : Bool) : List Pass :=
  [⟨.load, fun _ => true, fromHookdir E "env"⟩,
    ⟨.single, phaseoutRunDefaultFilterEnv, fromHookdir E "baselayout"⟩,
    ⟨if parallel then .parallel else .single, phaseoutRunDefaultFilterNonParallel,
      expand E "*"⟩,
    ⟨.single, phaseoutRunDefaultFilterEnvBaselayout, fromHookdir E "fini"⟩]

/-- `phaseout_run_default`. -/
def PhaseoutRunDefault (parallel : Bool) (st : State σ) (e : ShellEnd) (st' : State σ) : Prop :=
  PassesRun E (defaultPasses E parallel) st e st'

end

/-! ## Records -/

/-- The last run of a hook. -/
def lastRun (ran : List HookRun) (name : List Char) : Option HookRun :=
  lastWith (fun run => run.name = name) ran

/-- The last run of a hook has not succeeded. -/
def Unfinished (ran : List HookRun) (name : List Char) : Prop :=
  ∃ run, lastRun ran name = some run ∧ run.how ≠ .returned 0

theorem unfinished_concat {ran : List HookRun} {run : HookRun} {name : List Char} :
    Unfinished (ran ++ [run]) name ↔
      if run.name = name then run.how ≠ .returned 0 else Unfinished ran name := by
  unfold Unfinished lastRun
  rw [lastWith_concat]
  by_cases h : run.name = name
  · simp [h]
  · simp [h]

/-- What the directories say about the hooks: those that have not succeeded, and the jobs in
    the background, are pending. -/
structure Recorded {σ : Type} (st : State σ) : Prop where
  pending : ∀ name, name ∈ st.pending ↔ name ∈ st.running ∨ Unfinished st.ran name
  success : ∀ name, name ∈ st.success ↔ ⟨name, .returned 0⟩ ∈ st.ran

section
variable {σ : Type} {E : Hooks σ} {mode : HookMode} {filter : List Char → Bool}
  {name : List Char} {names : List (List Char)} {st st' : State σ} {e : ShellEnd}

/-- The run of a script, after it has been marked as pending. -/
theorem loadscript_recorded (hpending : ∀ other, other ≠ name →
      (other ∈ st.pending ↔ other ∈ st.running ∨ Unfinished st.ran other))
    (hname : name ∈ st.pending) (hrunning : name ∉ st.running)
    (hsuccess : ∀ other, other ∈ st.success ↔ ⟨other, .returned 0⟩ ∈ st.ran) :
    Recorded (phaseoutRunHookLoadscript E name st).2 := by
  generalize hrun : (⟨name, (E.script name st.sys).1⟩ : HookRun) = run
  have hrun' : run.name = name ∧ run.how = (E.script name st.sys).1 := by
    rw [← hrun]
    exact ⟨rfl, rfl⟩
  unfold phaseoutRunHookLoadscript
  dsimp only
  rw [hrun]
  split_ifs with hok
  · constructor
    · intro other
      show other ∈ st.pending.erase name ↔ other ∈ st.running ∨ Unfinished (st.ran ++ [run]) other
      rw [unfinished_concat, hrun'.1, hrun'.2, hok, Finset.mem_erase]
      by_cases hother : name = other
      · subst hother
        simp [hrunning]
      · simp [hother, Ne.symm hother, hpending other (Ne.symm hother)]
    · intro other
      show other ∈ insert name st.success ↔ _ ∈ st.ran ++ [run]
      rw [Finset.mem_insert, hsuccess, List.mem_append, List.mem_singleton, or_comm, ← hrun, hok,
        HookRun.mk.injEq]
      simp
  · constructor
    · intro other
      show other ∈ st.pending ↔ other ∈ st.running ∨ Unfinished (st.ran ++ [run]) other
      rw [unfinished_concat, hrun'.1, hrun'.2]
      by_cases hother : name = other
      · subst hother
        simp [hname, hok]
      · simp [hother, hpending other (Ne.symm hother)]
    · intro other
      show other ∈ st.success ↔ _ ∈ st.ran ++ [run]
      rw [hsuccess, List.mem_append, List.mem_singleton, ← hrun, HookRun.mk.injEq]
      have hne : ScriptEnd.returned 0 ≠ (E.script name st.sys).1 := Ne.symm hok
      simp [hne]

/-- The names for which a hook is run. -/
def wanted (E : Hooks σ) (filter : List Char → Bool) (names : List (List Char)) :
    List (List Char) := names.filter fun name => filter name && E.files.contains name

theorem wanted_cons (name : List Char) (names : List (List Char)) :
    wanted E filter (name :: names) =
      if filter name = true ∧ name ∈ E.files then name :: wanted E filter names
      else wanted E filter names := by
  simp [wanted, List.filter_cons]

/-- A hook that is filtered out or missing. -/
theorem dispatch_skip (h : ¬ (filter name = true ∧ name ∈ E.files)) :
    phaseoutRunHookDispatch E mode filter .yes name st = (.returns 0, st) := by
  unfold phaseoutRunHookDispatch
  split_ifs with hfilter hfile
  · rfl
  · rfl
  · exact absurd ⟨by simpa using hfilter, by simpa using hfile⟩ h

theorem dispatch_run (hfilter : filter name = true) (hfile : name ∈ E.files) :
    phaseoutRunHookDispatch E mode filter .yes name st =
      phaseoutRunHook E mode name (markPending name st) := by
  unfold phaseoutRunHookDispatch
  rw [if_neg (by simp [hfilter]), if_neg (by simp [hfile])]

theorem loadscript_ran : (phaseoutRunHookLoadscript E name st).2.ran =
    st.ran ++ [⟨name, (phaseoutRunHookLoadscript E name st).1⟩] := by
  unfold phaseoutRunHookLoadscript
  dsimp only
  split_ifs <;> rfl

theorem loadscript_running : (phaseoutRunHookLoadscript E name st).2.running = st.running := by
  unfold phaseoutRunHookLoadscript
  dsimp only
  split_ifs <;> rfl

/-! ## One pass -/

/-- **A hook that is run in the foreground** adds its run to the records. -/
theorem dispatch_recorded (hmode : mode ≠ .parallel) (hst : Recorded st) (hidle : st.running = [])
    (hfilter : filter name = true) (hfile : name ∈ E.files) :
    ∃ e st' how, phaseoutRunHookDispatch E mode filter .yes name st = (e, st') ∧ Recorded st' ∧
      st'.running = [] ∧ st'.ran = st.ran ++ [⟨name, how⟩] ∧ (how = .returned 0 → e = .returns 0) := by
  have hrecorded : Recorded (phaseoutRunHookLoadscript E name (markPending name st)).2 := by
    refine loadscript_recorded (fun other hother => ?_) (Finset.mem_insert_self _ _) ?_ hst.success
    · show other ∈ insert name st.pending ↔ _
      rw [Finset.mem_insert, or_iff_right hother]
      exact hst.pending other
    · show name ∉ st.running
      rw [hidle]
      exact List.not_mem_nil
  have hrunning : (phaseoutRunHookLoadscript E name (markPending name st)).2.running = [] :=
    loadscript_running.trans hidle
  have hran := @loadscript_ran _ E name (markPending name st)
  rw [dispatch_run hfilter hfile]
  cases mode with
  | load =>
    refine ⟨_, _, _, rfl, hrecorded, hrunning, hran, fun hhow => ?_⟩
    rw [hhow]
    rfl
  | single =>
    refine ⟨_, _, _, rfl, hrecorded, hrunning, hran, fun hhow => ?_⟩
    rw [hhow]
    rfl
  | parallel => exact absurd rfl hmode

/-- What a pass in the foreground does: `new` are its runs. -/
structure Ran (E : Hooks σ) (filter : List Char → Bool) (names : List (List Char)) (st : State σ)
    (new : List HookRun) (st' : State σ) : Prop where
  recorded : Recorded st'
  idle : st'.running = []
  ran : st'.ran = st.ran ++ new

theorem loop_recorded (hmode : mode ≠ .parallel) {failcode : ℤ} (hst : Recorded st)
    (hidle : st.running = [])
    (h : phaseoutRunLoop E mode filter .yes names failcode st = (e, st')) :
    ∃ new, Ran E filter names st new st' ∧
      (e ≠ .exits → new.map HookRun.name = wanted E filter names) ∧
      ((∀ run ∈ new, run.how = .returned 0) → e = .returns failcode) := by
  induction names generalizing st failcode with
  | nil =>
    obtain ⟨rfl, rfl⟩ := Prod.mk.inj h
    exact ⟨[], ⟨hst, hidle, (List.append_nil _).symm⟩, fun _ => rfl, fun _ => rfl⟩
  | cons name names ih =>
    rw [phaseoutRunLoop] at h
    by_cases hwanted : filter name = true ∧ name ∈ E.files
    · obtain ⟨e₁, st₁, how, hdispatch, hst₁, hidle₁, hran₁, hok₁⟩ :=
        dispatch_recorded hmode hst hidle hwanted.1 hwanted.2
      rw [hdispatch] at h
      rw [wanted_cons, if_pos hwanted]
      cases e₁ with
      | exits =>
        obtain ⟨rfl, rfl⟩ := Prod.mk.inj h
        refine ⟨[⟨name, how⟩], ⟨hst₁, hidle₁, hran₁⟩, fun hexits => absurd rfl hexits, fun hall => ?_⟩
        have hend := hok₁ (hall _ (List.mem_singleton_self _))
        cases hend
      | returns rc =>
        obtain ⟨new, hran, hnames, hok⟩ := ih hst₁ hidle₁ h
        refine ⟨⟨name, how⟩ :: new, ⟨hran.recorded, hran.idle, ?_⟩, fun hexits => ?_, fun hall => ?_⟩
        · rw [hran.ran, hran₁, List.append_assoc, List.singleton_append]
        · rw [List.map_cons, hnames hexits]
        · have hrc := hok₁ (hall _ List.mem_cons_self)
          obtain rfl : rc = 0 := ShellEnd.returns.inj hrc
          exact hok fun run hrun => hall run (List.mem_cons_of_mem _ hrun)
    · rw [dispatch_skip hwanted] at h
      rw [wanted_cons, if_neg hwanted]
      obtain ⟨new, hran, hnames, hok⟩ := ih hst hidle h
      exact ⟨new, ⟨hran.recorded, hran.idle, hran.ran⟩, hnames, hok⟩

/-- A job that is started is pending. -/
theorem start_recorded (hst : Recorded st) (hfilter : filter name = true) (hfile : name ∈ E.files) :
    ∃ st', phaseoutRunHookDispatch E .parallel filter .yes name st = (.returns 0, st') ∧
      Recorded st' ∧ st'.running = st.running ++ [name] ∧ st'.ran = st.ran := by
  rw [dispatch_run hfilter hfile]
  refine ⟨_, rfl, ⟨fun other => ?_, hst.success⟩, rfl, rfl⟩
  show other ∈ insert name st.pending ↔ other ∈ st.running ++ [name] ∨ Unfinished st.ran other
  rw [Finset.mem_insert, hst.pending, List.mem_append, List.mem_singleton]
  tauto

/-- A job that ends leaves the records as they have to be, whatever else is running. -/
theorem finish_recorded (hst : Recorded st) (hname : name ∈ st.running)
    (hnodup : st.running.Nodup) :
    Recorded (finishJob E name st) ∧ (finishJob E name st).running = st.running.erase name ∧
      ∃ how, (finishJob E name st).ran = st.ran ++ [⟨name, how⟩] := by
  refine ⟨loadscript_recorded (fun other hother => ?_) ((hst.pending name).2 (.inl hname)) ?_
    hst.success, loadscript_running, _, loadscript_ran⟩
  · show other ∈ st.pending ↔ other ∈ st.running.erase name ∨ _
    rw [hst.pending, List.mem_erase_of_ne hother]
  · exact hnodup.not_mem_erase

/-- **Jobs in the background**, in any order: each of them is run once. -/
theorem ParallelRun.recorded (h : ParallelRun E filter names st st') (hst : Recorded st)
    (hnodup : (st.running ++ names).Nodup) :
    ∃ new, Ran E filter names st new st' ∧
      (new.map HookRun.name).Perm (st.running ++ wanted E filter names) := by
  induction h with
  | @start name names st st' _ ih =>
    by_cases hwanted : filter name = true ∧ name ∈ E.files
    · obtain ⟨st₁, hdispatch, hst₁, hrunning, hran₁⟩ := start_recorded hst hwanted.1 hwanted.2
      rw [hdispatch] at ih
      obtain ⟨new, hran, hperm⟩ := ih hst₁ (by simpa [hrunning] using hnodup)
      refine ⟨new, ⟨hran.recorded, hran.idle, hran.ran.trans (by rw [hran₁])⟩, ?_⟩
      rw [wanted_cons, if_pos hwanted]
      simpa [hrunning] using hperm
    · rw [dispatch_skip hwanted] at ih
      have hsub : (st.running ++ names).Nodup :=
        hnodup.sublist (List.Sublist.append_left (List.sublist_cons_self _ _) _)
      obtain ⟨new, hran, hperm⟩ := ih hst hsub
      rw [wanted_cons, if_neg hwanted]
      exact ⟨new, ⟨hran.recorded, hran.idle, hran.ran⟩, hperm⟩
  | @finish name names st st' hname _ ih =>
    obtain ⟨hst₁, hrunning, how, hran₁⟩ :=
      finish_recorded (E := E) hst hname (List.nodup_append.1 hnodup).1
    have hsub : ((finishJob E name st).running ++ names).Nodup := by
      rw [hrunning]
      exact hnodup.sublist (List.Sublist.append_right List.erase_sublist _)
    obtain ⟨new, hran, hperm⟩ := ih hst₁ hsub
    refine ⟨⟨name, how⟩ :: new, ⟨hran.recorded, hran.idle, ?_⟩, ?_⟩
    · rw [hran.ran, hran₁, List.append_assoc, List.singleton_append]
    · rw [hrunning] at hperm
      have hcons : (name :: (st.running.erase name ++ wanted E filter names)).Perm
          (st.running ++ wanted E filter names) :=
        (List.perm_cons_erase hname).symm.append_right _
      exact (hperm.cons name).trans hcons
  | @wait st hidle =>
    refine ⟨[], ⟨hst, hidle, (List.append_nil _).symm⟩, ?_⟩
    rw [hidle]
    exact .refl _

theorem verdict_zero (h : phaseoutVerdict e st = .returns 0) : e = .returns 0 ∧ st.pending = ∅ := by
  cases e with
  | exits => cases h
  | returns rc =>
    unfold phaseoutVerdict at h
    dsimp only at h
    split_ifs at h with hrc hpending
    · exact absurd (ShellEnd.returns.inj h) hrc
    · exact ⟨by rw [not_not.1 hrc], hpending⟩
    · cases h

/-- Nothing is pending if all runs have succeeded. -/
theorem Recorded.pending_eq_empty (h : Recorded st) (hidle : st.running = [])
    (hall : ∀ run ∈ st.ran, run.how = .returned 0) : st.pending = ∅ := by
  refine Finset.eq_empty_of_forall_notMem fun name hname => ?_
  rcases (h.pending name).1 hname with hrunning | ⟨run, hlast, hhow⟩
  · rw [hidle] at hrunning
    cases hrunning
  · exact hhow (hall run (List.mem_reverse.1 (List.mem_of_find?_eq_some hlast)))

/-- **A pass**: each wanted hook is run, and the pass returns 0 if all have succeeded so far. -/
theorem PassRun.recorded {p : Pass} (h : PassRun E p st e st') (hst : Recorded st)
    (hidle : st.running = []) (hnodup : p.mode = .parallel → p.names.Nodup) :
    ∃ new, Ran E p.filter p.names st new st' ∧
      (e = .returns 0 → st'.pending = ∅ ∧
        (new.map HookRun.name).Perm (wanted E p.filter p.names)) ∧
      ((∀ run ∈ st'.ran, run.how = .returned 0) → e = .returns 0) := by
  cases h with
  | @sequential st' e hmode hloop =>
    obtain ⟨new, hran, hnames, hok⟩ := loop_recorded hmode hst hidle hloop
    refine ⟨new, hran, fun hzero => ?_, fun hall => ?_⟩
    · obtain ⟨rfl, hpending⟩ := verdict_zero hzero
      exact ⟨hpending, by rw [hnames (by simp)]⟩
    · have hall' : ∀ run ∈ new, run.how = .returned 0 := fun run hrun =>
        hall run (by rw [hran.ran]; exact List.mem_append_right _ hrun)
      rw [hok hall', phaseoutVerdict, if_neg (by simp),
        if_pos (hran.recorded.pending_eq_empty hran.idle hall)]
  | parallel hmode hparallel =>
    have hnames : (st.running ++ p.names).Nodup := by
      rw [hidle]
      exact hnodup hmode
    obtain ⟨new, hran, hperm⟩ := hparallel.recorded hst hnames
    rw [hidle, List.nil_append] at hperm
    refine ⟨new, hran, fun hzero => ⟨(verdict_zero hzero).2, hperm⟩, fun hall => ?_⟩
    rw [phaseoutVerdict, if_neg (by simp),
      if_pos (hran.recorded.pending_eq_empty hran.idle hall)]

/-! ## Several passes -/

/-- **Several passes** that all pass run the wanted hooks of each, one pass after the other. -/
theorem PassesRun.recorded {ps : List Pass} (h : PassesRun E ps st e st') (hst : Recorded st)
    (hidle : st.running = []) (hpending : st.pending = ∅)
    (hnodup : ∀ p ∈ ps, p.mode = .parallel → p.names.Nodup) :
    Recorded st' ∧ st'.running = [] ∧
      (e = .returns 0 → st'.pending = ∅ ∧ ∃ news : List (List HookRun),
        st'.ran = st.ran ++ news.flatten ∧
          List.Forall₂ (fun p new => (new.map HookRun.name).Perm (wanted E p.filter p.names))
            ps news) ∧
      ((∀ run ∈ st'.ran, run.how = .returned 0) → e = .returns 0) := by
  induction h with
  | done => exact ⟨hst, hidle, fun _ => ⟨hpending, [], by simp, .nil⟩, fun _ => rfl⟩
  | @next p ps st st' st'' e hpass hrest ih =>
    obtain ⟨new, hran, hzero, -⟩ :=
      hpass.recorded hst hidle fun hmode => hnodup p List.mem_cons_self hmode
    obtain ⟨hpending', hnames⟩ := hzero rfl
    obtain ⟨hst'', hidle'', hpassed, hall⟩ := ih hran.recorded hran.idle hpending'
      fun q hq => hnodup q (List.mem_cons_of_mem _ hq)
    refine ⟨hst'', hidle'', fun he => ?_, hall⟩
    obtain ⟨hpending'', news, hran'', hnews⟩ := hpassed he
    refine ⟨hpending'', new :: news, ?_, .cons hnames hnews⟩
    rw [hran'', hran.ran, List.flatten_cons, List.append_assoc]
  | @die p ps st st' e hpass hne =>
    obtain ⟨new, hran, -, hall⟩ :=
      hpass.recorded hst hidle fun hmode => hnodup p List.mem_cons_self hmode
    exact ⟨hran.recorded, hran.idle, fun he => absurd he (by simp), fun h => absurd (hall h) hne⟩

end

/-! ## How often hooks are run -/

/-- How often a hook of a group is run: twice, if both patterns match its name. -/
def timesInGroup (group : String) (name : List Char) : ℕ :=
  if caseOf name [group ++ "-*"] ∧ caseOf name ["*-" ++ group] then 2 else 1

/-- How often a hook is run. -/
def timesRun (name : List Char) : ℕ :=
  if inGroup "env" name then timesInGroup "env" name
  else if inGroup "baselayout" name then timesInGroup "baselayout" name
  else if inGroup "fini" name then timesInGroup "fini" name
  else 1

theorem glob_self (s : List Char) : glob (s.map globAtom) s = true := by
  induction s with
  | nil => rfl
  | cons c s ih =>
    rw [List.map_cons]
    unfold globAtom
    split_ifs with hstar hany
    · rw [glob, Bool.or_eq_true, List.any_eq_true]
      exact .inr ⟨s, (List.mem_tails _ _).2 (List.suffix_cons c s), ih⟩
    · rw [glob]
      exact ih
    · rw [glob, Bool.and_eq_true]
      exact ⟨decide_eq_true rfl, ih⟩

section
variable {σ : Type} {E : Hooks σ} {name : List Char}

theorem count_expand (hname : name ∈ E.files) (pattern : String) :
    (expand E pattern).count name = if caseOf name [pattern] then 1 else 0 := by
  unfold expand
  have hcount : (E.files.filter fun name => caseOf name [pattern]).count name =
      if caseOf name [pattern] then 1 else 0 := by
    rw [E.nodup.filter _ |>.count]
    simp [hname]
  split_ifs with hempty hmatch hmatch
  · have hmem : name ∈ E.files.filter fun name => caseOf name [pattern] :=
      List.mem_filter.2 ⟨hname, hmatch⟩
    rw [hempty] at hmem
    cases hmem
  · refine List.count_eq_zero.2 fun hmem => hmatch ?_
    rw [List.mem_singleton.1 hmem]
    show ([pattern].any _) = true
    rw [List.any_cons, glob_self, Bool.true_or]
  · rw [hcount, if_pos hmatch]
  · rw [hcount, if_neg hmatch]

/-- The names of a group, and how often each of them is in the list of a pass. -/
theorem count_fromHookdir (hname : name ∈ E.files) {group : String}
    (hgroup : IsLiteral group.toList) :
    (fromHookdir E group).count name =
      if inGroup group name then timesInGroup group name else 0 := by
  have hpre : ∀ s : List Char, caseOf s [group ++ "-*"] = true ↔ group.toList ++ ['-'] <+: s := by
    intro s
    have hplain : IsLiteral (group.toList ++ ['-']) := by
      intro c hc
      rcases List.mem_append.1 hc with hc | hc
      · exact hgroup c hc
      · rw [List.mem_singleton.1 hc]
        decide
    have hpattern := matches_prefix hplain (p := group ++ "-*") (s := s) (by simp)
    simpa [caseOf] using hpattern
  have hword : ∀ s : List Char, caseOf s [group] = true ↔ s = group.toList := by
    intro s
    simpa [caseOf] using glob_word hgroup
  have hsuf : ∀ s : List Char, caseOf s ["*-" ++ group] = true ↔ '-' :: group.toList <:+ s := by
    intro s
    have hplain : IsLiteral ('-' :: group.toList) := by
      intro c hc
      rcases List.mem_cons.1 hc with rfl | hc
      · decide
      · exact hgroup c hc
    have hpattern := matches_suffix hplain (p := "*-" ++ group) (s := s) (by simp)
    simpa [caseOf] using hpattern
  have hin : inGroup group name = (caseOf name [group] || (caseOf name [group ++ "-*"] ||
      caseOf name ["*-" ++ group])) := by
    simp [inGroup, caseOf]
  rw [fromHookdir, List.count_append, List.count_append, count_expand hname, count_expand hname,
    hin, timesInGroup, List.count_singleton]
  by_cases hself : name = group.toList
  · have hnpre : caseOf name [group ++ "-*"] = false := by
      rw [← Bool.not_eq_true, hpre, hself]
      intro h
      have hlen := h.length_le
      simp at hlen
    have hnsuf : caseOf name ["*-" ++ group] = false := by
      rw [← Bool.not_eq_true, hsuf, hself]
      intro h
      have hlen := h.length_le
      simp at hlen
    rw [(hword name).2 hself, hnpre, hnsuf]
    simp [hself]
  · have hnword : caseOf name [group] = false := by
      rw [← Bool.not_eq_true, hword]
      exact hself
    rw [hnword]
    have hbeq : (group.toList == name) = false := by
      simpa using fun h => hself h.symm
    rw [hbeq]
    cases caseOf name [group ++ "-*"] <;> cases caseOf name ["*-" ++ group] <;> simp

theorem caseOf_of_mem_expand {pattern : String} (h : name ∈ expand E pattern) :
    caseOf name [pattern] = true := by
  unfold expand at h
  split_ifs at h
  · rw [List.mem_singleton.1 h]
    show ([pattern].any _) = true
    rw [List.any_cons, glob_self, Bool.true_or]
  · exact (List.mem_filter.1 h).2

theorem inGroup_of_mem_fromHookdir {group : String} (h : name ∈ fromHookdir E group) :
    inGroup group name = true := by
  have hin : inGroup group name = (caseOf name [group] || (caseOf name [group ++ "-*"] ||
      caseOf name ["*-" ++ group])) := by
    simp [inGroup, caseOf]
  rw [hin, Bool.or_eq_true, Bool.or_eq_true]
  rcases List.mem_append.1 h with h | h
  · rcases List.mem_append.1 h with h | h
    · rw [List.mem_singleton.1 h]
      exact .inl (by simp [caseOf, glob_self])
    · exact .inr (.inl (caseOf_of_mem_expand h))
  · exact .inr (.inr (caseOf_of_mem_expand h))

theorem count_wanted (filter : List Char → Bool) (names : List (List Char)) (name : List Char) :
    (wanted E filter names).count name =
      if filter name = true ∧ name ∈ E.files then names.count name else 0 := by
  unfold wanted
  split_ifs with h
  · exact List.count_filter (by simp [h])
  · refine List.count_eq_zero.2 fun hmem => h ?_
    simpa using (List.mem_filter.1 hmem).2

/-- **The four passes together** run each hook as often as it has to be. -/
theorem count_defaultPasses (parallel : Bool) (name : List Char) :
    ((defaultPasses E parallel).map fun p => (wanted E p.filter p.names).count name).sum =
      if name ∈ E.files then timesRun name else 0 := by
  simp only [defaultPasses, List.map_cons, List.map_nil, List.sum_cons, List.sum_nil, count_wanted]
  by_cases hname : name ∈ E.files
  · rw [count_fromHookdir hname (by decide), count_fromHookdir hname (by decide),
      count_fromHookdir hname (by decide), count_expand hname]
    have hall : caseOf name ["*"] = true := by simp [caseOf, glob, globAtom]
    simp only [hall, hname, and_true, phaseoutRunDefaultFilterEnv, timesRun,
      phaseoutRunDefaultFilterNonParallel, phaseoutRunDefaultFilterEnvBaselayout]
    cases inGroup "env" name <;> cases inGroup "baselayout" name <;>
      cases inGroup "fini" name <;> simp
  · simp [hname]

/-! ## The whole run -/

/-- Before any hook has been run. -/
def fresh (sys : σ) : State σ := ⟨∅, ∅, [], [], sys⟩

theorem recorded_fresh (sys : σ) : Recorded (fresh sys) where
  pending name := by simp [fresh, Unfinished, lastRun]
  success name := by simp [fresh]

variable {parallel : Bool} {sys : σ} {st' : State σ} {e : ShellEnd}

theorem nodup_parallelPass (p : Pass) (hp : p ∈ defaultPasses E parallel)
    (hmode : p.mode = .parallel) : p.names.Nodup := by
  have hall : (expand E "*").Nodup := by
    unfold expand
    split_ifs
    · exact List.nodup_singleton _
    · exact E.nodup.filter _
  simp only [defaultPasses, List.mem_cons, List.not_mem_nil, or_false] at hp
  rcases hp with rfl | rfl | rfl | rfl
  · cases hmode
  · cases hmode
  · exact hall
  · cases hmode

/-- How often each hook is run in a run that passes. -/
theorem PhaseoutRunDefault.count (h : PhaseoutRunDefault E parallel (fresh sys) (.returns 0) st')
    (name : List Char) :
    (st'.ran.map HookRun.name).count name = if name ∈ E.files then timesRun name else 0 := by
  obtain ⟨-, -, hpassed, -⟩ := PassesRun.recorded h (recorded_fresh sys) rfl rfl nodup_parallelPass
  obtain ⟨-, news, hran, hnews⟩ := hpassed rfl
  have hran : st'.ran = news.flatten := hran
  rw [← count_defaultPasses parallel, hran]
  have hsum : ∀ {ps : List Pass} {news : List (List HookRun)},
      List.Forall₂ (fun p new => (new.map HookRun.name).Perm (wanted E p.filter p.names))
        ps news → (news.flatten.map HookRun.name).count name =
          (ps.map fun p => (wanted E p.filter p.names).count name).sum := by
    intro ps news hnews
    induction hnews with
    | nil => rfl
    | cons hperm _ ih =>
      rw [List.flatten_cons, List.map_append, List.count_append, hperm.count_eq, ih,
        List.map_cons, List.sum_cons]
  exact hsum hnews

/-- **Which hooks are run**: in a run that passes, the hooks of the groups `env` and
    `baselayout`, then those of no group, then those of `fini`.  Each hook is run once, but
    twice if its name starts and ends with the name of its group; nothing else is run. -/
theorem phaseoutRunDefault_runs (h : PhaseoutRunDefault E parallel (fresh sys) (.returns 0) st') :
    (∃ env baselayout others fini : List HookRun, st'.ran = env ++ baselayout ++ others ++ fini ∧
      (∀ run ∈ env, inGroup "env" run.name = true) ∧
      (∀ run ∈ baselayout, inGroup "baselayout" run.name = true) ∧
      (∀ run ∈ others, ∀ group ∈ ["env", "baselayout", "fini"], inGroup group run.name = false) ∧
      ∀ run ∈ fini, inGroup "fini" run.name = true) ∧
    ∀ name, (st'.ran.map HookRun.name).count name = if name ∈ E.files then timesRun name else 0 := by
  obtain ⟨-, -, hpassed, -⟩ := PassesRun.recorded h (recorded_fresh sys) rfl rfl nodup_parallelPass
  obtain ⟨-, news, hran, hnews⟩ := hpassed rfl
  have hran : st'.ran = news.flatten := hran
  refine ⟨?_, PhaseoutRunDefault.count h⟩
  have hmem : ∀ {p : Pass} {new : List HookRun},
      (new.map HookRun.name).Perm (wanted E p.filter p.names) → ∀ run ∈ new,
        run.name ∈ p.names ∧ p.filter run.name = true := by
    intro p new hperm run hrun
    have hwanted := hperm.subset (List.mem_map_of_mem hrun)
    obtain ⟨hnames, hfilter⟩ := List.mem_filter.1 hwanted
    exact ⟨hnames, (Bool.and_eq_true _ _ ▸ hfilter).1⟩
  obtain ⟨env, news₁, henv, hnews₁, rfl⟩ := List.forall₂_cons_left_iff.1 hnews
  obtain ⟨baselayout, news₂, hbaselayout, hnews₂, rfl⟩ := List.forall₂_cons_left_iff.1 hnews₁
  obtain ⟨others, news₃, hothers, hnews₃, rfl⟩ := List.forall₂_cons_left_iff.1 hnews₂
  obtain ⟨fini, news₄, hfini, hnews₄, rfl⟩ := List.forall₂_cons_left_iff.1 hnews₃
  obtain rfl := List.forall₂_nil_left_iff.1 hnews₄
  refine ⟨env, baselayout, others, fini, by simpa using hran, fun run hrun => ?_,
    fun run hrun => ?_, fun run hrun group hgroup => ?_, fun run hrun => ?_⟩
  · exact inGroup_of_mem_fromHookdir (hmem henv run hrun).1
  · exact inGroup_of_mem_fromHookdir (hmem hbaselayout run hrun).1
  · have hfilter := (hmem hothers run hrun).2
    simp only [phaseoutRunDefaultFilterNonParallel, Bool.not_eq_true', Bool.or_eq_false_iff]
      at hfilter
    simp only [List.mem_cons, List.not_mem_nil, or_false] at hgroup
    rcases hgroup with rfl | rfl | rfl
    · exact hfilter.1.2
    · exact hfilter.1.1
    · exact hfilter.2
  · exact inGroup_of_mem_fromHookdir (hmem hfini run hrun).1

/-- A pass in the foreground. -/
theorem passRun_of_loop {p : Pass} {st : State σ} (hmode : p.mode ≠ .parallel)
    (h : phaseoutVerdict (phaseoutRunLoop E p.mode p.filter .yes p.names 0 st).1
      (phaseoutRunLoop E p.mode p.filter .yes p.names 0 st).2 = e) :
    PassRun E p st e (phaseoutRunLoop E p.mode p.filter .yes p.names 0 st).2 :=
  h ▸ .sequential hmode rfl

/-- Hooks of the group `env` and of no group, whose scripts succeed. -/
def calmHooks : Hooks Unit where
  files := ["a".toList, "env-a-env".toList]
  nodup := by simp
  script _ _ := (.returned 0, ())

theorem phaseoutRunDefault_calm :
    ∃ st', PhaseoutRunDefault calmHooks false (fresh ()) (.returns 0) st' :=
  ⟨_, .next (passRun_of_loop (by decide) (by decide +kernel)) <|
    .next (passRun_of_loop (by decide) (by decide +kernel)) <|
    .next (passRun_of_loop (by decide) (by decide +kernel)) <|
    .next (passRun_of_loop (by decide) (by decide +kernel)) .done⟩

theorem phaseoutRunDefault_runs_calm :
    ∃ st', PhaseoutRunDefault calmHooks false (fresh ()) (.returns 0) st' ∧
      (st'.ran.map HookRun.name).count "env-a-env".toList = 2 := by
  obtain ⟨st', h⟩ := phaseoutRunDefault_calm
  refine ⟨st', h, ?_⟩
  rw [(phaseoutRunDefault_runs h).2]
  decide +kernel

end

end Phaseout

end Fischstaebchen
