/-
  The parent process of the untar pipeline (`app/untar/untar.c`).

  `run_untar_decompress` forks a decompressor, looks once whether it died
  prematurely, forks tar and then reaps children until both are done.  It reads
  the exit code of a child with `WEXITSTATUS`, which is 0 for a child that was
  killed by a signal.

  * `Tracks`: what the variables of the loop say about the reports so far;
    `Tracks.onWait`, `Tracks.loop`.
  * `untar_supervised_iff`: when the parent notices each failure of a child.
-/
import Mathlib.Data.Int.Notation
import Mathlib.Data.List.TakeWhile
import Mathlib.Data.Nat.Cast.Basic
import Mathlib.Tactic.NormNum
import Mathlib.Tactic.Tauto

namespace Fischstaebchen

/-! ## Children and signals -/

/-- A signal number of a wait status; `0x7f` marks stopped children. -/
abbrev SignalNo := { n : ℕ // 0 < n ∧ n < 0x7f }

def sigkill : SignalNo := ⟨9, by decide⟩
def sigsegv : SignalNo := ⟨11, by decide⟩
def sigterm : SignalNo := ⟨15, by decide⟩

/-- How a child terminated. -/
inductive Termination
  | exited (code : UInt8)
  | signaled (sig : SignalNo) (core : Bool)
  deriving DecidableEq

/-- The status word that `waitpid` stores. -/
def Termination.status : Termination → ℕ
  | .exited code => code.toNat <<< 8
  | .signaled sig core => sig.1 ||| (if core then 0x80 else 0)

/-- `WEXITSTATUS`. -/
def wexitstatus (status : ℕ) : ℤ := ((status &&& 0xff00) >>> 8 : ℕ)

/-- A child succeeded if it terminated normally with exit code 0. -/
def Termination.Success (s : Termination) : Prop := s = .exited 0

theorem wexitstatus_exited (code : UInt8) :
    wexitstatus (Termination.exited code).status = code.toNat := by
  have hword : ∀ n < 2 ^ 8, ((n <<< 8) &&& 0xff00) >>> 8 = n := by decide +kernel
  exact congrArg Nat.cast (hword code.toNat code.toNat_lt)

theorem wexitstatus_signaled (sig : SignalNo) (core : Bool) :
    wexitstatus (Termination.signaled sig core).status = 0 := by
  have hword : ∀ n < 0x7f, ∀ b : Bool,
      ((n ||| (if b then 0x80 else 0)) &&& 0xff00) >>> 8 = 0 := by decide +kernel
  exact congrArg Nat.cast (hword sig.1 sig.2.2 core)

/-- **A zero exit status** is that of a success or of a child killed by a signal. -/
theorem wexitstatus_eq_zero_iff (s : Termination) :
    wexitstatus s.status = 0 ↔ s.Success ∨ ∃ sig core, s = .signaled sig core := by
  cases s with
  | exited code =>
    rw [wexitstatus_exited, Termination.Success, Termination.exited.injEq]
    constructor
    · intro h
      exact Or.inl (UInt8.toNat_inj.1 (by exact_mod_cast h))
    · rintro (rfl | ⟨_, _, h⟩)
      · rfl
      · cases h
  | signaled sig core =>
    exact iff_of_true (wexitstatus_signaled sig core) (Or.inr ⟨sig, core, rfl⟩)

theorem wexitstatus_exited_ne_zero {code : UInt8} (h : code ≠ 0) :
    wexitstatus (Termination.exited code).status ≠ 0 := fun hret => by
  rcases (wexitstatus_eq_zero_iff _).1 hret with hs | ⟨_, _, hs⟩
  · exact h (Termination.exited.inj hs)
  · cases hs

theorem exited_of_wexitstatus_ne_zero {s : Termination} (h : wexitstatus s.status ≠ 0) :
    ∃ code, code ≠ 0 ∧ s = .exited code := by
  cases s with
  | exited code => exact ⟨code, fun hcode => h (by rw [hcode]; rfl), rfl⟩
  | signaled sig core => exact absurd (wexitstatus_signaled sig core) h

/-! ## The parent -/

/-- A result of `waitpid`: the pid of a reaped child and its status; 0 or -1 if
    there is none. -/
structure Wait where
  pid : ℤ
  status : Termination
  deriving DecidableEq

/-- The variables of the loop and the signals sent so far. -/
structure UntarParent where
  decompressPid : ℤ
  tarPid : ℤ
  decompressRetcode : ℤ
  tarRetcode : ℤ
  kills : List (ℤ × SignalNo)

/-- The two calls of `kill` for a child that is not reaped. -/
def killChild (pid : ℤ) : List (ℤ × SignalNo) :=
  if pid ≠ 0 then [(pid, sigterm), (pid, sigkill)] else []

/-- The loop body for a reaped child. -/
def UntarParent.onWait (p : UntarParent) (w : Wait) : UntarParent :=
  if w.pid = p.decompressPid then
    { p with
      decompressRetcode := wexitstatus w.status.status
      decompressPid := 0
      -- kill tar process on error
      kills := p.kills ++ if wexitstatus w.status.status ≠ 0 then killChild p.tarPid else [] }
  else if w.pid = p.tarPid then
    { p with
      tarRetcode := wexitstatus w.status.status
      tarPid := 0
      -- kill decompress process on error
      kills := p.kills ++
        if wexitstatus w.status.status ≠ 0 then killChild p.decompressPid else [] }
  else p

/-- The return value after the loop. -/
def UntarParent.retcode (p : UntarParent) : ℤ :=
  if p.tarRetcode = 0 then p.decompressRetcode else p.tarRetcode

/-- The loop, for the results of its `waitpid` calls so far: the return value
    (`none` if it waits for the next result) and the state. -/
def untarLoop : List Wait → UntarParent → Option ℤ × UntarParent
  | [], p => (if p.decompressPid = 0 ∧ p.tarPid = 0 then some p.retcode else none, p)
  | w :: ws, p =>
    if p.decompressPid = 0 ∧ p.tarPid = 0 then (some p.retcode, p)
    else if w.pid = 0 then untarLoop ws p
    else if w.pid = -1 then
      -- kill them!
      (some (-1), { p with kills := p.kills ++ killChild p.decompressPid ++ killChild p.tarPid })
    else untarLoop ws (p.onWait w)

/-- What the system answers to the parent: to `pipe`, to the two `fork` calls, to
    `waitpid` with `WNOHANG` and to the `waitpid` calls of the loop so far.  A pid
    is not given away while the process is not reaped. -/
structure UntarEnv where
  pipe : ℤ
  decompressPid : ℤ
  early : Wait
  tarPid : ℤ
  waits : List Wait
  decompressPid_fork : decompressPid = -1 ∨ 0 < decompressPid
  early_pid : early.pid = -1 ∨ early.pid = 0 ∨ early.pid = decompressPid
  tarPid_fork : tarPid = -1 ∨ 0 < tarPid
  distinct : early.pid = 0 → 0 < tarPid → decompressPid ≠ tarPid

/-- The result of `run_untar_decompress`: the return value (`none` if the loop
    waits), the processes that were forked and the signals that were sent. -/
structure UntarResult where
  ret : Option ℤ
  forked : List ℤ
  kills : List (ℤ × SignalNo)

/-- `run_untar_decompress` from the second fork on. -/
def runUntarTar (env : UntarEnv) (decompressPid decompressRetcode : ℤ) : UntarResult :=
  if env.tarPid = -1 then ⟨some (-1), [env.decompressPid], []⟩
  else
    let r := untarLoop env.waits ⟨decompressPid, env.tarPid, decompressRetcode, -1, []⟩
    ⟨r.1, [env.decompressPid, env.tarPid], r.2.kills⟩

/-- `run_untar_decompress`, in the parent. -/
def runUntarDecompress (env : UntarEnv) : UntarResult :=
  if env.pipe ≠ 0 then ⟨some (-1), [], []⟩
  else if env.decompressPid = -1 then ⟨some (-1), [], []⟩
  -- verify that decompress child did not die prematurely
  else if env.early.pid = -1 then ⟨some (-1), [env.decompressPid], []⟩
  else if env.early.pid = 0 then runUntarTar env env.decompressPid (-1)
  else
    let decompressRetcode := wexitstatus env.early.status.status
    -- decompress failed, don't spawn tar process
    if decompressRetcode ≠ 0 then ⟨some decompressRetcode, [env.decompressPid], []⟩
    else runUntarTar env 0 decompressRetcode

/-! ## Reports -/

/-- The status that a result of `waitpid` reports for a process, if it does. -/
def Wait.report (w : Wait) (pid : ℤ) : Option Termination :=
  if w.pid = pid then some w.status else none

/-- The first report on a process. -/
def firstReport (pid : ℤ) (ws : List Wait) : Option Termination :=
  ws.findSome? fun w => w.report pid

@[simp] theorem firstReport_nil (pid : ℤ) : firstReport pid [] = none := rfl

theorem firstReport_cons (pid : ℤ) (w : Wait) (ws : List Wait) :
    firstReport pid (w :: ws) = (w.report pid).or (firstReport pid ws) := by
  rw [firstReport, List.findSome?_cons]
  cases w.report pid <;> rfl

theorem Wait.report_eq {w : Wait} {pid : ℤ} (h : w.pid = pid) : w.report pid = some w.status :=
  if_pos h

theorem Wait.report_ne {w : Wait} {pid : ℤ} (h : w.pid ≠ pid) : w.report pid = none := if_neg h

/-- What the parent knows when the processes `D` and `T` have terminated with the
    statuses `d` and `t` (`none` if they are not reaped). -/
structure Tracks (D T : ℤ) (d t : Option Termination) (p : UntarParent) : Prop where
  decompressPid : p.decompressPid = if d = none then D else 0
  tarPid : p.tarPid = if t = none then T else 0
  decompressRetcode : ∀ s, d = some s → p.decompressRetcode = wexitstatus s.status
  tarRetcode : ∀ s, t = some s → p.tarRetcode = wexitstatus s.status
  killsTar : t = none → ((T, sigkill) ∈ p.kills ↔ ∃ s, d = some s ∧ wexitstatus s.status ≠ 0)
  killsDecompress : d = none →
    ((D, sigkill) ∈ p.kills ↔ ∃ s, t = some s ∧ wexitstatus s.status ≠ 0)

theorem mem_killChild {pid : ℤ} (h : pid ≠ 0) : (pid, sigkill) ∈ killChild pid := by
  rw [killChild, if_pos h]
  exact List.mem_cons_of_mem _ List.mem_cons_self

section
variable {D T : ℤ} {d t : Option Termination} {p : UntarParent}

theorem Tracks.done_iff (h : Tracks D T d t p) (hD : D ≠ 0) (hT : T ≠ 0) :
    (p.decompressPid = 0 ∧ p.tarPid = 0) ↔ d ≠ none ∧ t ≠ none := by
  rw [h.decompressPid, h.tarPid]
  constructor
  · rintro ⟨hd, ht⟩
    exact ⟨fun hn => hD (by rwa [if_pos hn] at hd), fun hn => hT (by rwa [if_pos hn] at ht)⟩
  · rintro ⟨hd, ht⟩
    exact ⟨if_neg hd, if_neg ht⟩

/-- The decompressor is reaped. -/
theorem Tracks.onDecompress (h : Tracks D T none t p) (hT : T ≠ 0) {w : Wait} (hw : w.pid = D) :
    Tracks D T (some w.status) t (p.onWait w) := by
  have hpid : w.pid = p.decompressPid := by rw [hw, h.decompressPid, if_pos rfl]
  rw [UntarParent.onWait, if_pos hpid]
  refine ⟨rfl, h.tarPid, ?_, h.tarRetcode, ?_, nofun⟩
  · rintro s ⟨⟩
    rfl
  · intro ht
    -- nobody asked for tar to be killed before
    have hkills : (T, sigkill) ∉ p.kills := fun hmem => by
      obtain ⟨s, hs, -⟩ := (h.killsTar ht).1 hmem
      cases hs
    have htar : p.tarPid = T := by rw [h.tarPid, if_pos ht]
    dsimp only
    rw [List.mem_append, or_iff_right hkills, htar]
    by_cases hret : wexitstatus w.status.status = 0
    · simp [hret]
    · simp [hret, mem_killChild hT]

/-- Tar is reaped. -/
theorem Tracks.onTar (h : Tracks D T d none p) (hD : D ≠ 0) {w : Wait} (hw : w.pid = T)
    (hne : w.pid ≠ p.decompressPid) : Tracks D T d (some w.status) (p.onWait w) := by
  have hpid : w.pid = p.tarPid := by rw [hw, h.tarPid, if_pos rfl]
  rw [UntarParent.onWait, if_neg hne, if_pos hpid]
  refine ⟨h.decompressPid, rfl, h.decompressRetcode, ?_, nofun, ?_⟩
  · rintro s ⟨⟩
    rfl
  · intro hd
    have hkills : (D, sigkill) ∉ p.kills := fun hmem => by
      obtain ⟨s, hs, -⟩ := (h.killsDecompress hd).1 hmem
      cases hs
    have hdec : p.decompressPid = D := by rw [h.decompressPid, if_pos hd]
    dsimp only
    rw [List.mem_append, or_iff_right hkills, hdec]
    by_cases hret : wexitstatus w.status.status = 0
    · simp [hret]
    · simp [hret, mem_killChild hD]

/-- A reaped child. -/
theorem Tracks.onWait (h : Tracks D T d t p) (hD : D ≠ 0) (hT : T ≠ 0)
    (hDT : d = none → D ≠ T) {w : Wait} (hw : w.pid ≠ 0) :
    Tracks D T (d.or (w.report D)) (t.or (w.report T)) (p.onWait w) := by
  by_cases hpd : w.pid = p.decompressPid
  · -- the pid of a reaped child is forgotten
    have hd : d = none := by
      by_contra hd
      rw [h.decompressPid, if_neg hd] at hpd
      exact hw hpd
    subst hd
    have hwD : w.pid = D := by rw [hpd, h.decompressPid, if_pos rfl]
    rw [Option.none_or, Wait.report_eq hwD, Wait.report_ne (fun h => hDT rfl (hwD ▸ h)),
      Option.or_none]
    exact h.onDecompress hT hwD
  · have hreportD : d.or (w.report D) = d := by
      cases d with
      | none =>
        have hwD : w.pid ≠ D := by rwa [h.decompressPid, if_pos rfl] at hpd
        rw [Option.none_or, Wait.report_ne hwD]
      | some s => rfl
    rw [hreportD]
    by_cases hpt : w.pid = p.tarPid
    · have ht : t = none := by
        by_contra ht
        rw [h.tarPid, if_neg ht] at hpt
        exact hw hpt
      subst ht
      have hwT : w.pid = T := by rw [hpt, h.tarPid, if_pos rfl]
      rw [Option.none_or, Wait.report_eq hwT]
      exact h.onTar hD hwT hpd
    · -- another process
      have hreportT : t.or (w.report T) = t := by
        cases t with
        | none =>
          have hwT : w.pid ≠ T := by rwa [h.tarPid, if_pos rfl] at hpt
          rw [Option.none_or, Wait.report_ne hwT]
        | some s => rfl
      rw [hreportT, UntarParent.onWait, if_neg hpd, if_neg hpt]
      exact h

/-- **The loop** while `waitpid` does not fail: it returns if both children are
    reaped. -/
theorem Tracks.loop (hD : D ≠ 0) (hT : T ≠ 0) {ws : List Wait} (hws : ∀ w ∈ ws, w.pid ≠ -1) :
    ∀ {d t : Option Termination} {p : UntarParent}, Tracks D T d t p → (d = none → D ≠ T) →
      ∃ p', Tracks D T (d.or (firstReport D ws)) (t.or (firstReport T ws)) p' ∧
        untarLoop ws p =
          (if d.or (firstReport D ws) ≠ none ∧ t.or (firstReport T ws) ≠ none
            then some p'.retcode else none, p') := by
  induction ws with
  | nil =>
    intro d t p h _
    refine ⟨p, ?_, ?_⟩
    · simpa using h
    · simp only [untarLoop, firstReport_nil, Option.or_none, h.done_iff hD hT]
  | cons w ws ih =>
    intro d t p h hDT
    have hrest : ∀ w' ∈ ws, w'.pid ≠ -1 := fun w' hw' => hws w' (List.mem_cons_of_mem _ hw')
    rw [firstReport_cons, firstReport_cons, untarLoop]
    by_cases hdone : d ≠ none ∧ t ≠ none
    · rw [if_pos ((h.done_iff hD hT).2 hdone)]
      obtain ⟨s, rfl⟩ := Option.ne_none_iff_exists'.1 hdone.1
      obtain ⟨s', rfl⟩ := Option.ne_none_iff_exists'.1 hdone.2
      exact ⟨p, h, rfl⟩
    · rw [if_neg (fun hpids => hdone ((h.done_iff hD hT).1 hpids))]
      by_cases hzero : w.pid = 0
      · have hwD : w.pid ≠ D := fun hwD => hD (hwD.symm.trans hzero)
        have hwT : w.pid ≠ T := fun hwT => hT (hwT.symm.trans hzero)
        rw [if_pos hzero, Wait.report_ne hwD, Wait.report_ne hwT, Option.none_or, Option.none_or]
        exact ih hrest h hDT
      · rw [if_neg hzero, if_neg (hws w List.mem_cons_self), ← Option.or_assoc, ← Option.or_assoc]
        refine ih hrest (h.onWait hD hT hDT hzero) fun hd => hDT ?_
        exact (Option.or_eq_none_iff.1 hd).1

end

/-- The loop waits on where it is interrupted. -/
theorem untarLoop_append (ws ws' : List Wait) (p : UntarParent) :
    untarLoop (ws ++ ws') p =
      if (untarLoop ws p).1 = none then untarLoop ws' (untarLoop ws p).2 else untarLoop ws p := by
  induction ws generalizing p with
  | nil =>
    by_cases hdone : p.decompressPid = 0 ∧ p.tarPid = 0
    · cases ws' with
      | nil => simp [untarLoop, hdone]
      | cons w ws' => simp [untarLoop, hdone]
    · rw [List.nil_append, untarLoop, if_neg hdone, if_pos rfl]
  | cons w ws ih =>
    rw [List.cons_append, untarLoop, untarLoop]
    by_cases hdone : p.decompressPid = 0 ∧ p.tarPid = 0
    · rw [if_pos hdone, if_pos hdone, if_neg nofun]
    rw [if_neg hdone, if_neg hdone]
    by_cases hzero : w.pid = 0
    · rw [if_pos hzero, if_pos hzero]
      exact ih p
    rw [if_neg hzero, if_neg hzero]
    by_cases herr : w.pid = -1
    · rw [if_pos herr, if_pos herr, if_neg nofun]
    · rw [if_neg herr, if_neg herr]
      exact ih _

/-! ## Supervision -/

namespace UntarEnv
variable (env : UntarEnv)

/-- The run after at most `n` calls of `waitpid` in the loop. -/
def upto (n : ℕ) : UntarEnv := { env with waits := env.waits.take n }

/-- The results of `waitpid` before it fails. -/
def reports : List Wait := env.waits.takeWhile (·.pid ≠ -1)

/-- How the decompressor terminated, if it is reaped. -/
def decompressStatus : Option Termination :=
  (env.early.report env.decompressPid).or (firstReport env.decompressPid env.reports)

/-- How tar terminated, if it is reaped. -/
def tarStatus : Option Termination := firstReport env.tarPid env.reports

/-- What is asked of the parent: it returns 0 for two successes only, it returns
    when both children are reaped, and it kills the other child if one fails. -/
structure Supervised : Prop where
  success : (runUntarDecompress env).ret = some 0 →
    env.decompressStatus = some (.exited 0) ∧ env.tarStatus = some (.exited 0)
  returns : env.decompressStatus ≠ none → env.tarStatus ≠ none →
    (runUntarDecompress env).ret ≠ none
  killsTar : (runUntarDecompress env).forked = [env.decompressPid, env.tarPid] →
    ∀ s, env.decompressStatus = some s → ¬s.Success → env.tarStatus = none →
      (env.tarPid, sigkill) ∈ (runUntarDecompress env).kills
  killsDecompress : (runUntarDecompress env).forked = [env.decompressPid, env.tarPid] →
    ∀ s, env.tarStatus = some s → ¬s.Success → env.decompressStatus = none →
      (env.decompressPid, sigkill) ∈ (runUntarDecompress env).kills

/-- The system lets the parent fork tar. -/
structure ForksTar : Prop where
  pipe : env.pipe = 0
  decompressPid : env.decompressPid ≠ -1
  early : env.early.pid ≠ -1
  earlyRetcode : env.early.pid ≠ 0 → wexitstatus env.early.status.status = 0
  tarPid : env.tarPid ≠ -1

/-- A child that a signal killed is reaped after the other child, which failed
    with an exit code. -/
structure SignalsCovered : Prop where
  decompress : ∀ sig core, env.decompressStatus = some (.signaled sig core) →
    ∃ code, code ≠ 0 ∧ env.tarStatus = some (.exited code)
  tar : ∀ sig core, env.tarStatus = some (.signaled sig core) →
    ∃ code, code ≠ 0 ∧ env.decompressStatus = some (.exited code)

end UntarEnv

namespace UntarEnv
variable (env : UntarEnv)

/-- The state in which the loop starts. -/
def start : UntarParent :=
  { decompressPid := if env.early.pid = 0 then env.decompressPid else 0
    tarPid := env.tarPid
    decompressRetcode := if env.early.pid = 0 then -1 else wexitstatus env.early.status.status
    tarRetcode := -1
    kills := [] }

variable {env}

theorem run_of_forksTar (h : env.ForksTar) :
    runUntarDecompress env = ⟨(untarLoop env.waits env.start).1,
      [env.decompressPid, env.tarPid], (untarLoop env.waits env.start).2.kills⟩ := by
  rw [runUntarDecompress, if_neg (not_not.2 h.pipe), if_neg h.decompressPid, if_neg h.early]
  by_cases hearly : env.early.pid = 0
  · rw [if_pos hearly, runUntarTar, if_neg h.tarPid, start, if_pos hearly, if_pos hearly]
  · dsimp only
    rw [if_neg hearly, if_neg (not_not.2 (h.earlyRetcode hearly)), runUntarTar, if_neg h.tarPid,
      start, if_neg hearly, if_neg hearly]

variable (env) in
/-- Without tar the parent returns, and not with 0. -/
theorem run_of_not_forksTar (h : ¬env.ForksTar) :
    (∃ ret, (runUntarDecompress env).ret = some ret ∧ ret ≠ 0) ∧
      (runUntarDecompress env).forked ≠ [env.decompressPid, env.tarPid] := by
  have hfail : (-1 : ℤ) ≠ 0 := by simp
  rw [runUntarDecompress]
  by_cases hpipe : env.pipe = 0
  swap
  · rw [if_pos hpipe]
    exact ⟨⟨_, rfl, hfail⟩, nofun⟩
  rw [if_neg (not_not.2 hpipe)]
  by_cases hdec : env.decompressPid = -1
  · rw [if_pos hdec]
    exact ⟨⟨_, rfl, hfail⟩, nofun⟩
  rw [if_neg hdec]
  by_cases herr : env.early.pid = -1
  · rw [if_pos herr]
    exact ⟨⟨_, rfl, hfail⟩, nofun⟩
  rw [if_neg herr]
  by_cases htar : env.tarPid = -1
  · dsimp only [runUntarTar]
    rw [if_pos htar, if_pos htar]
    split_ifs with hearly hret
    · exact ⟨⟨_, rfl, hfail⟩, nofun⟩
    · exact ⟨⟨_, rfl, hret⟩, nofun⟩
    · exact ⟨⟨_, rfl, hfail⟩, nofun⟩
  · -- the decompressor failed
    have hearly : env.early.pid ≠ 0 ∧ wexitstatus env.early.status.status ≠ 0 := by
      by_contra hearly
      refine h ⟨hpipe, hdec, herr, fun hne => ?_, htar⟩
      by_contra hret
      exact hearly ⟨hne, hret⟩
    dsimp only
    rw [if_neg hearly.1, if_pos hearly.2]
    exact ⟨⟨_, rfl, hearly.2⟩, nofun⟩

theorem ForksTar.decompressPid_ne (h : env.ForksTar) : env.decompressPid ≠ 0 :=
  (env.decompressPid_fork.resolve_left h.decompressPid).ne'

theorem ForksTar.tarPid_pos (h : env.ForksTar) : 0 < env.tarPid :=
  env.tarPid_fork.resolve_left h.tarPid

theorem ForksTar.tracks_start (h : env.ForksTar) :
    Tracks env.decompressPid env.tarPid (env.early.report env.decompressPid) none env.start := by
  have hzero : env.early.pid = 0 ↔ env.early.report env.decompressPid = none := by
    rw [Wait.report]
    rcases env.early_pid with hpid | hpid | hpid
    · exact absurd hpid h.early
    · simp [hpid, h.decompressPid_ne.symm]
    · simp [hpid, h.decompressPid_ne]
  refine ⟨?_, rfl, ?_, nofun, fun _ => iff_of_false nofun ?_, fun _ => iff_of_false nofun ?_⟩
  · simp only [start, hzero]
  · intro s hs
    have hne : env.early.pid ≠ 0 := fun hpid => by
      rw [hzero.1 hpid] at hs
      cases hs
    have hpid : env.early.pid = env.decompressPid :=
      (env.early_pid.resolve_left h.early).resolve_left hne
    rw [Wait.report_eq hpid] at hs
    cases hs
    exact if_neg hne
  · rintro ⟨s, hs, hret⟩
    have hne : env.early.pid ≠ 0 := fun hpid => by
      rw [hzero.1 hpid] at hs
      cases hs
    rw [Wait.report] at hs
    split_ifs at hs
    cases hs
    exact hret (h.earlyRetcode hne)
  · rintro ⟨s, hs, -⟩
    cases hs

theorem ForksTar.distinct (h : env.ForksTar)
    (hearly : env.early.report env.decompressPid = none) : env.decompressPid ≠ env.tarPid := by
  refine env.distinct ?_ h.tarPid_pos
  refine (env.early_pid.resolve_left h.early).resolve_right fun hpid => ?_
  rw [Wait.report_eq hpid] at hearly
  cases hearly

/-- **The reports decide** what the loop does before `waitpid` fails. -/
theorem ForksTar.loop (h : env.ForksTar) :
    ∃ p, Tracks env.decompressPid env.tarPid env.decompressStatus env.tarStatus p ∧
      untarLoop env.reports env.start =
        (if env.decompressStatus ≠ none ∧ env.tarStatus ≠ none then some p.retcode else none,
          p) := by
  have hok : ∀ w ∈ env.reports, w.pid ≠ -1 := fun w hw =>
    of_decide_eq_true (List.mem_takeWhile_imp (p := fun w : Wait => decide (w.pid ≠ -1)) hw)
  obtain ⟨p, hp, hloop⟩ :=
    h.tracks_start.loop h.decompressPid_ne h.tarPid_pos.ne' hok h.distinct
  rw [Option.none_or] at hp hloop
  exact ⟨p, hp, hloop⟩

theorem ForksTar.run (h : env.ForksTar) (hok : ∀ w ∈ env.waits, w.pid ≠ -1) :
    ∃ p, Tracks env.decompressPid env.tarPid env.decompressStatus env.tarStatus p ∧
      runUntarDecompress env =
        ⟨if env.decompressStatus ≠ none ∧ env.tarStatus ≠ none then some p.retcode else none,
          [env.decompressPid, env.tarPid], p.kills⟩ := by
  have hreports : env.reports = env.waits :=
    List.takeWhile_eq_self_iff.2 fun w hw => decide_eq_true (hok w hw)
  obtain ⟨p, hp, hloop⟩ := h.loop
  refine ⟨p, hp, ?_⟩
  rw [run_of_forksTar h, ← hreports, hloop]

/-- While `waitpid` does not fail, 0 is returned for two exit statuses 0. -/
theorem ForksTar.ret_eq_zero_iff (h : env.ForksTar) (hok : ∀ w ∈ env.waits, w.pid ≠ -1) :
    (runUntarDecompress env).ret = some 0 ↔
      ∃ s s', env.decompressStatus = some s ∧ env.tarStatus = some s' ∧
        wexitstatus s.status = 0 ∧ wexitstatus s'.status = 0 := by
  obtain ⟨p, hp, hrun⟩ := h.run hok
  rw [hrun]
  dsimp only
  constructor
  · intro hret
    split_ifs at hret with hdone
    obtain ⟨s, hs⟩ := Option.ne_none_iff_exists'.1 hdone.1
    obtain ⟨s', hs'⟩ := Option.ne_none_iff_exists'.1 hdone.2
    have hzero : p.retcode = 0 := Option.some.inj hret
    rw [UntarParent.retcode, hp.decompressRetcode s hs, hp.tarRetcode s' hs'] at hzero
    split_ifs at hzero with htar
    · exact ⟨s, s', hs, hs', hzero, htar⟩
    · exact absurd hzero htar
  · rintro ⟨s, s', hs, hs', hzero, hzero'⟩
    rw [if_pos ⟨by rw [hs]; nofun, by rw [hs']; nofun⟩, UntarParent.retcode, hp.tarRetcode s' hs',
      if_pos hzero', hp.decompressRetcode s hs, hzero]

/-- If one of the children failed, one of the exit statuses is not 0. -/
theorem ForksTar.exitstatus_of_failure (h : env.ForksTar) (hok : ∀ w ∈ env.waits, w.pid ≠ -1)
    (hsup : env.Supervised) {s s' : Termination} (hd : env.decompressStatus = some s)
    (ht : env.tarStatus = some s') (hfail : ¬(s.Success ∧ s'.Success)) :
    ¬(wexitstatus s.status = 0 ∧ wexitstatus s'.status = 0) := by
  rintro ⟨hzero, hzero'⟩
  obtain ⟨hs, hs'⟩ := hsup.success ((h.ret_eq_zero_iff hok).2 ⟨s, s', hd, ht, hzero, hzero'⟩)
  rw [hd] at hs
  rw [ht] at hs'
  exact hfail ⟨Option.some.inj hs, Option.some.inj hs'⟩

/-- The parent notices a signal only by an exit code of the other child. -/
theorem ForksTar.signalsCovered (h : env.ForksTar) (hok : ∀ w ∈ env.waits, w.pid ≠ -1)
    (hsup : env.Supervised) : env.SignalsCovered := by
  obtain ⟨p, hp, hrun⟩ := h.run hok
  have hforked : (runUntarDecompress env).forked = [env.decompressPid, env.tarPid] := by
    rw [hrun]
  have hkills : (runUntarDecompress env).kills = p.kills := by rw [hrun]
  refine ⟨fun sig core hd => ?_, fun sig core ht => ?_⟩
  · cases ht : env.tarStatus with
    | none =>
      -- nothing makes the parent kill tar
      have hkill := hsup.killsTar hforked _ hd nofun ht
      rw [hkills, hp.killsTar ht] at hkill
      obtain ⟨s, hs, hret⟩ := hkill
      rw [hd] at hs
      cases hs
      exact absurd (wexitstatus_signaled sig core) hret
    | some s =>
      have hfail : ¬((Termination.signaled sig core).Success ∧ s.Success) := fun hs => nomatch hs.1
      have hne : wexitstatus s.status ≠ 0 := fun hret =>
        h.exitstatus_of_failure hok hsup hd ht hfail ⟨wexitstatus_signaled sig core, hret⟩
      obtain ⟨code, hcode, rfl⟩ := exited_of_wexitstatus_ne_zero hne
      exact ⟨code, hcode, rfl⟩
  · cases hd : env.decompressStatus with
    | none =>
      have hkill := hsup.killsDecompress hforked _ ht nofun hd
      rw [hkills, hp.killsDecompress hd] at hkill
      obtain ⟨s, hs, hret⟩ := hkill
      rw [ht] at hs
      cases hs
      exact absurd (wexitstatus_signaled sig core) hret
    | some s =>
      have hfail : ¬(s.Success ∧ (Termination.signaled sig core).Success) := fun hs => nomatch hs.2
      have hne : wexitstatus s.status ≠ 0 := fun hret =>
        h.exitstatus_of_failure hok hsup hd ht hfail ⟨hret, wexitstatus_signaled sig core⟩
      obtain ⟨code, hcode, rfl⟩ := exited_of_wexitstatus_ne_zero hne
      exact ⟨code, hcode, rfl⟩

/-- The parent supervises its children if each signal is covered. -/
theorem ForksTar.supervised (h : env.ForksTar) (hok : ∀ w ∈ env.waits, w.pid ≠ -1)
    (hcov : env.SignalsCovered) : env.Supervised := by
  obtain ⟨p, hp, hrun⟩ := h.run hok
  have hkills : (runUntarDecompress env).kills = p.kills := by rw [hrun]
  refine ⟨fun hret => ?_, fun hd ht => ?_, fun _ s hd hfail ht => ?_, fun _ s ht hfail hd => ?_⟩
  · obtain ⟨s, s', hd, ht, hzero, hzero'⟩ := (h.ret_eq_zero_iff hok).1 hret
    constructor
    · rcases (wexitstatus_eq_zero_iff s).1 hzero with hs | ⟨sig, core, rfl⟩
      · rw [hd, hs]
      · obtain ⟨code, hcode, ht'⟩ := hcov.decompress sig core hd
        rw [ht] at ht'
        cases ht'
        exact absurd hzero' (wexitstatus_exited_ne_zero hcode)
    · rcases (wexitstatus_eq_zero_iff s').1 hzero' with hs | ⟨sig, core, rfl⟩
      · rw [ht, hs]
      · obtain ⟨code, hcode, hd'⟩ := hcov.tar sig core ht
        rw [hd] at hd'
        cases hd'
        exact absurd hzero (wexitstatus_exited_ne_zero hcode)
  · rw [hrun, if_pos ⟨hd, ht⟩]
    nofun
  · rw [hkills, hp.killsTar ht]
    refine ⟨s, hd, fun hret => ?_⟩
    obtain ⟨sig, core, rfl⟩ := ((wexitstatus_eq_zero_iff s).1 hret).resolve_left hfail
    obtain ⟨code, -, ht'⟩ := hcov.decompress sig core hd
    rw [ht] at ht'
    cases ht'
  · rw [hkills, hp.killsDecompress hd]
    refine ⟨s, ht, fun hret => ?_⟩
    obtain ⟨sig, core, rfl⟩ := ((wexitstatus_eq_zero_iff s).1 hret).resolve_left hfail
    obtain ⟨code, -, hd'⟩ := hcov.tar sig core ht
    rw [hd] at hd'
    cases hd'

/-! ### Failures of `waitpid` -/

variable (env) in
/-- The run before `waitpid` fails. -/
def untilError : UntarEnv := { env with waits := env.reports }

theorem untilError_ok : ∀ w ∈ env.untilError.waits, w.pid ≠ -1 := fun _ hw =>
  of_decide_eq_true (List.mem_takeWhile_imp (p := fun w : Wait => decide (w.pid ≠ -1)) hw)

theorem reports_untilError : env.untilError.reports = env.reports :=
  List.takeWhile_eq_self_iff.2 fun w hw => decide_eq_true (untilError_ok w hw)

theorem decompressStatus_untilError : env.untilError.decompressStatus = env.decompressStatus := by
  rw [decompressStatus, reports_untilError]
  rfl

theorem tarStatus_untilError : env.untilError.tarStatus = env.tarStatus := by
  rw [tarStatus, reports_untilError]
  rfl

theorem signalsCovered_untilError : env.untilError.SignalsCovered ↔ env.SignalsCovered := by
  constructor
  · rintro ⟨hd, ht⟩
    rw [decompressStatus_untilError, tarStatus_untilError] at hd ht
    exact ⟨hd, ht⟩
  · rintro ⟨hd, ht⟩
    rw [← decompressStatus_untilError, ← tarStatus_untilError] at hd ht
    exact ⟨hd, ht⟩

/-- Whether tar is forked is decided before the loop. -/
theorem forksTar_waits_iff (ws : List Wait) :
    ({ env with waits := ws } : UntarEnv).ForksTar ↔ env.ForksTar := by
  constructor
  · rintro ⟨hpipe, hdec, hearly, hret, htar⟩
    exact ⟨hpipe, hdec, hearly, hret, htar⟩
  · rintro ⟨hpipe, hdec, hearly, hret, htar⟩
    exact ⟨hpipe, hdec, hearly, hret, htar⟩

variable (env) in
theorem untilError_upto (n : ℕ) : ∃ m, (env.upto n).untilError = env.upto m := by
  have hprefix : (env.upto n).reports <+: env.waits :=
    (List.takeWhile_prefix _).trans (List.take_prefix _ _)
  refine ⟨(env.upto n).reports.length, ?_⟩
  exact congrArg (fun ws => { env with waits := ws }) (List.prefix_iff_eq_take.1 hprefix)

/-- A failure of `waitpid`: the parent returns -1 and kills each child that is
    not reaped. -/
theorem ForksTar.run_error (h : env.ForksTar) {w : Wait} {ws : List Wait}
    (hwaits : env.waits = env.reports ++ w :: ws) (hw : w.pid = -1) :
    runUntarDecompress env = runUntarDecompress env.untilError ∨
      (runUntarDecompress env).ret = some (-1) ∧
        (env.tarStatus = none → (env.tarPid, sigkill) ∈ (runUntarDecompress env).kills) ∧
        (env.decompressStatus = none →
          (env.decompressPid, sigkill) ∈ (runUntarDecompress env).kills) := by
  obtain ⟨p, hp, hloop⟩ := h.loop
  rw [run_of_forksTar h, hwaits, untarLoop_append]
  by_cases hdone : env.decompressStatus ≠ none ∧ env.tarStatus ≠ none
  · left
    rw [if_pos hdone] at hloop
    have huntil : untarLoop env.untilError.waits env.untilError.start = (some p.retcode, p) := hloop
    have huntilForks : env.untilError.ForksTar := (forksTar_waits_iff env.reports).2 h
    rw [run_of_forksTar huntilForks, huntil, hloop, if_neg nofun]
    rfl
  · right
    have hpids : ¬(p.decompressPid = 0 ∧ p.tarPid = 0) := fun hpids =>
      hdone ((hp.done_iff h.decompressPid_ne h.tarPid_pos.ne').1 hpids)
    rw [hloop, if_neg hdone, if_pos rfl, untarLoop, if_neg hpids, if_neg (by omega), if_pos hw]
    dsimp only
    refine ⟨rfl, fun ht => ?_, fun hd => ?_⟩
    · have htar : p.tarPid = env.tarPid := by rw [hp.tarPid, if_pos ht]
      rw [htar]
      exact List.mem_append_right _ (mem_killChild h.tarPid_pos.ne')
    · have hdec : p.decompressPid = env.decompressPid := by rw [hp.decompressPid, if_pos hd]
      rw [hdec]
      exact List.mem_append_left _ (List.mem_append_right _ (mem_killChild h.decompressPid_ne))

theorem Supervised.of_run_eq (hrun : runUntarDecompress env = runUntarDecompress env.untilError)
    (hsup : env.untilError.Supervised) : env.Supervised := by
  obtain ⟨hsuccess, hreturns, htar, hdec⟩ := hsup
  rw [← hrun, decompressStatus_untilError, tarStatus_untilError] at hsuccess hreturns htar hdec
  exact ⟨hsuccess, hreturns, htar, hdec⟩

theorem ForksTar.supervised_of_untilError (h : env.ForksTar) (hsup : env.untilError.Supervised) :
    env.Supervised := by
  have hwaits := List.takeWhile_append_dropWhile (p := fun w : Wait => decide (w.pid ≠ -1))
    (l := env.waits)
  have hhead := List.head?_dropWhile_not (fun w : Wait => decide (w.pid ≠ -1)) env.waits
  cases hrest : env.waits.dropWhile (fun w : Wait => decide (w.pid ≠ -1)) with
  | nil =>
    rw [hrest, List.append_nil] at hwaits
    exact hsup.of_run_eq
      (congrArg (fun ws => runUntarDecompress { env with waits := ws }) hwaits.symm)
  | cons w ws =>
    rw [hrest] at hwaits hhead
    have hw : w.pid = -1 := not_not.1 (of_decide_eq_false hhead)
    rcases h.run_error hwaits.symm hw with hrun | ⟨hret, htar, hdec⟩
    · exact hsup.of_run_eq hrun
    · refine ⟨fun hzero => ?_, fun _ _ => ?_, fun _ _ _ _ ht => htar ht, fun _ _ _ _ hd => hdec hd⟩
      · rw [hret] at hzero
        exact absurd (Option.some.inj hzero) (by simp)
      · rw [hret]
        nofun

end UntarEnv

/-- **Supervision of the untar pipeline.**  For all results of `waitpid`, the
    parent returns 0 for two successes only, returns when both children are reaped
    and kills the other child if one fails, if and only if each child that is
    killed by a signal is reaped after the other child, which failed with an exit
    code, or tar is not forked. -/
theorem untar_supervised_iff (env : UntarEnv) :
    (∀ n, (env.upto n).Supervised) ↔ (env.ForksTar → ∀ n, (env.upto n).SignalsCovered) := by
  have hforks : ∀ {n}, (env.upto n).ForksTar ↔ env.ForksTar := UntarEnv.forksTar_waits_iff _
  constructor
  · intro hsup h n
    obtain ⟨m, hm⟩ := env.untilError_upto n
    rw [← UntarEnv.signalsCovered_untilError, hm]
    refine (hforks.2 h).signalsCovered ?_ (hsup m)
    rw [← hm]
    exact UntarEnv.untilError_ok
  · intro hcov n
    by_cases h : env.ForksTar
    · obtain ⟨m, hm⟩ := env.untilError_upto n
      refine (hforks.2 h).supervised_of_untilError ?_
      rw [hm]
      refine (hforks.2 h).supervised ?_ (hcov h m)
      rw [← hm]
      exact UntarEnv.untilError_ok
    · obtain ⟨⟨ret, hret, hne⟩, hforked⟩ :=
        (env.upto n).run_of_not_forksTar fun h' => h (hforks.1 h')
      refine ⟨fun hzero => ?_, fun _ _ => ?_, fun hf => absurd hf hforked,
        fun hf => absurd hf hforked⟩
      · rw [hret] at hzero
        exact absurd (Option.some.inj hzero) hne
      · rw [hret]
        nofun

/-- The decompressor crashes and tar unpacks what it got. -/
def crashedDecompress : UntarEnv where
  pipe := 0
  decompressPid := 100
  early := ⟨0, .exited 0⟩
  tarPid := 101
  waits := [⟨100, .signaled sigsegv true⟩, ⟨101, .exited 0⟩]
  decompressPid_fork := by decide
  early_pid := by decide
  tarPid_fork := by decide
  distinct := by decide

/-- A truncated unpack counts as success. -/
theorem crashedDecompress_not_supervised :
    (runUntarDecompress (crashedDecompress.upto 2)).ret = some 0 ∧
      ¬(crashedDecompress.upto 2).Supervised := by
  have hret : (runUntarDecompress (crashedDecompress.upto 2)).ret = some 0 := by decide
  refine ⟨hret, fun hsup => ?_⟩
  exact absurd (hsup.success hret).1 (by decide)

end Fischstaebchen
