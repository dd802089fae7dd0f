/-
  Running a command until it succeeds (`common/misc/run_command.c`).

  `run_command_until_success_tickrate_argv` sleeps for some ticks of a tenth of a second
  after each failed attempt, until its budget is used up.

  * `retryLoop_stop`, `retryLoop_next`: what one iteration does.
  * `retryLoop_ends`: where the loop ends in any case.
  * `keepsBudget_iff`: when the budget is kept.
-/
import Mathlib.Algebra.Order.Floor.Div
import Fischstaebchen.App.Filescan

namespace Fischstaebchen

/-- `EX_OSERR`. -/
def exOserr : ℤ := 71

/-- The messages, after the first one. -/
inductive RetryMessage
  /-- `Waiting for` and the name of what is waited for -/
  | waiting (name : Arg)
  /-- `.` -/
  | dot
  /-- `done` -/
  | finished
  /-- `OSFAIL` -/
  | osfail
  /-- `giving up` -/
  | givingUp
  deriving DecidableEq

/-- What the attempts return, one after the other, and whether `nanosleep` succeeds. -/
structure RetryWorld where
  outcome : ℕ → ℤ
  nanosleep : ℕ → Bool

/-- The numbers of attempts and of sleeps, the sum of the sleep times in nanoseconds, and
    what is written to the stream. -/
structure RetryState where
  attempts : ℕ
  sleeps : ℕ
  slept : ℕ
  out : List RetryMessage

/-- How a call ends. -/
inductive RetryEnd
  | returned (retcode : ℤ) (st : RetryState)
  | nullWrite (st : RetryState)

/-- A message, if there is a stream. -/
def RetryState.say (st : RetryState) (stream : Bool) (message : RetryMessage) : RetryState :=
  if stream then { st with out := st.out ++ [message] } else st

/-- `_do_run_command_argv`. -/
def RetryState.attempt (st : RetryState) : RetryState := { st with attempts := st.attempts + 1 }

/-- `nanosleep`, for a number of nanoseconds. -/
def RetryState.sleep (st : RetryState) (nsec : Unsigned) : RetryState :=
  { st with sleeps := st.sleeps + 1, slept := st.slept + nsec.toNat }

/-- The number of ticks of the next sleep. -/
def nextTicks (numticks dsRem : Unsigned) : Unsigned := if dsRem < numticks then dsRem else numticks

/-- What remains after it. -/
def nextRem (numticks dsRem : Unsigned) : Unsigned :=
  if dsRem < numticks then 0 else dsRem - numticks

section
variable (world : RetryWorld) (stream : Bool) (numticks : Unsigned)

/-- The loop of `run_command_until_success_tickrate_argv`, with its `retcode`; `none` if the
    fuel does not suffice. -/
def retryLoop : ℕ → Unsigned → ℤ → RetryState → Option RetryEnd
  | 0, _, _, _ => none
  | fuel + 1, dsRem, retcode, st =>
    if dsRem > 0 then
      let nanosleep := world.nanosleep st.sleeps
      let st := st.sleep (nextTicks numticks dsRem * 100000000)
      let dsRem := nextRem numticks dsRem
      if ¬ nanosleep then some (.returned (-10) st)
      else
        let retcode := world.outcome st.attempts
        let st := st.attempt
        if retcode = 0 then some (.returned retcode (st.say stream .finished))
        else if retcode < 0 ∨ retcode = exOserr then
          some (.returned retcode (st.say stream .osfail))
        else if ¬ stream then some (.nullWrite st)
        else retryLoop fuel dsRem retcode (st.say stream .dot)
    else some (.returned retcode st)

/-- The end of the call. -/
def giveUp : RetryEnd → RetryEnd
  | .returned retcode st =>
    .returned retcode
      (if retcode > 0 ∧ retcode ≠ exOserr then st.say stream .givingUp else st)
  | .nullWrite st => .nullWrite st

/-- `run_command_until_success_tickrate_argv`. -/
def runCommandUntilSuccessTickrateArgv (fuel : ℕ) (argv : List Arg) (message : Option Arg)
    (timeoutDecisecs : Unsigned) : Option RetryEnd :=
  let st : RetryState := ⟨0, 0, 0, []⟩
  if argv.headD [] = [] then some (.returned (-1) st)
  else if numticks > 9 then some (.returned (-1) st)
  else
    let retcode := world.outcome st.attempts
    let st := st.attempt
    if retcode ≤ 0 ∨ retcode = exOserr then some (.returned retcode st)
    else
      let st := st.say stream (.waiting (message.getD (argv.headD [])))
      (retryLoop world stream numticks fuel (timeoutDecisecs + 1) retcode st).map (giveUp stream)

end

/-! ## One iteration -/

/-- A failure after which there is another attempt. -/
def Ordinary (retcode : ℤ) : Prop := 0 < retcode ∧ retcode ≠ exOserr

/-- The state after a sleep and an attempt. -/
def RetryState.next (st : RetryState) (numticks dsRem : Unsigned) : RetryState :=
  (st.sleep (nextTicks numticks dsRem * 100000000)).attempt

section
variable {world : RetryWorld} {stream : Bool} {numticks dsRem : Unsigned} {fuel : ℕ}
  {retcode : ℤ} {st : RetryState}

@[simp] theorem RetryState.say_attempts (st : RetryState) (stream : Bool) (m : RetryMessage) :
    (st.say stream m).attempts = st.attempts := by
  rw [RetryState.say]
  split_ifs <;> rfl

@[simp] theorem RetryState.say_sleeps (st : RetryState) (stream : Bool) (m : RetryMessage) :
    (st.say stream m).sleeps = st.sleeps := by
  rw [RetryState.say]
  split_ifs <;> rfl

@[simp] theorem RetryState.say_slept (st : RetryState) (stream : Bool) (m : RetryMessage) :
    (st.say stream m).slept = st.slept := by
  rw [RetryState.say]
  split_ifs <;> rfl

@[simp] theorem RetryState.next_attempts (st : RetryState) (numticks dsRem : Unsigned) :
    (st.next numticks dsRem).attempts = st.attempts + 1 := rfl

@[simp] theorem RetryState.next_sleeps (st : RetryState) (numticks dsRem : Unsigned) :
    (st.next numticks dsRem).sleeps = st.sleeps + 1 := rfl

theorem retryLoop_zero (world : RetryWorld) (stream : Bool) (numticks : Unsigned) (fuel : ℕ)
    (retcode : ℤ) (st : RetryState) :
    retryLoop world stream numticks (fuel + 1) 0 retcode st = some (.returned retcode st) := rfl

/-- A sleep that fails. -/
theorem retryLoop_nosleep (hpos : 0 < dsRem) (hsleep : world.nanosleep st.sleeps = false) :
    retryLoop world stream numticks (fuel + 1) dsRem retcode st =
      some (.returned (-10) (st.sleep (nextTicks numticks dsRem * 100000000))) := by
  rw [retryLoop, if_pos hpos]
  simp [hsleep]

/-- An attempt that ends the loop. -/
theorem retryLoop_stop (stream : Bool) (numticks : Unsigned) (fuel : ℕ) (retcode : ℤ)
    (hpos : 0 < dsRem) (hsleep : world.nanosleep st.sleeps = true)
    (hstop : ¬ Ordinary (world.outcome st.attempts)) :
    ∃ message, retryLoop world stream numticks (fuel + 1) dsRem retcode st =
      some (.returned (world.outcome st.attempts)
        ((st.next numticks dsRem).say stream message)) := by
  rw [retryLoop, if_pos hpos]
  simp only [hsleep, not_true, if_false]
  by_cases hzero : world.outcome st.attempts = 0
  · refine ⟨.finished, ?_⟩
    exact if_pos hzero
  · have hfail : world.outcome st.attempts < 0 ∨ world.outcome st.attempts = exOserr := by
      by_contra hnot
      rw [not_or] at hnot
      exact hstop ⟨by omega, hnot.2⟩
    refine ⟨.osfail, ?_⟩
    exact (if_neg hzero).trans (if_pos hfail)

/-- Another failure. -/
theorem retryLoop_next (hpos : 0 < dsRem) (hsleep : world.nanosleep st.sleeps = true)
    (hord : Ordinary (world.outcome st.attempts)) :
    retryLoop world stream numticks (fuel + 1) dsRem retcode st =
      if ¬ stream then some (.nullWrite (st.next numticks dsRem))
      else retryLoop world stream numticks fuel (nextRem numticks dsRem)
        (world.outcome st.attempts) ((st.next numticks dsRem).say stream .dot) := by
  have hzero : ¬ world.outcome st.attempts = 0 := by
    have hlt := hord.1
    omega
  have hfail : ¬ (world.outcome st.attempts < 0 ∨ world.outcome st.attempts = exOserr) := by
    rintro (hneg | herr)
    · have hlt := hord.1
      omega
    · exact hord.2 herr
  rw [retryLoop, if_pos hpos]
  simp only [hsleep, not_true, if_false]
  exact (if_neg hzero).trans (if_neg hfail)

/-- The ticks of one sleep. -/
theorem nextTicks_nsec (h : numticks.toNat ≤ 9) :
    (nextTicks numticks dsRem * 100000000).toNat = min dsRem.toNat numticks.toNat * 100000000 := by
  have hticks : (nextTicks numticks dsRem).toNat = min dsRem.toNat numticks.toNat := by
    rw [nextTicks]
    by_cases hlt : dsRem < numticks
    · rw [if_pos hlt]
      exact (min_eq_left (Nat.le_of_lt (BitVec.lt_def.1 hlt))).symm
    · rw [if_neg hlt]
      exact (min_eq_right (Nat.le_of_not_lt fun h => hlt (BitVec.lt_def.2 h))).symm
  have hfac : (100000000 : Unsigned).toNat = 100000000 := rfl
  rw [BitVec.toNat_mul, hticks, hfac]
  have hle := min_le_right dsRem.toNat numticks.toNat
  exact Nat.mod_eq_of_lt (by omega)

theorem nextRem_toNat : (nextRem numticks dsRem).toNat = dsRem.toNat - numticks.toNat := by
  rw [nextRem]
  by_cases hlt : dsRem < numticks
  · rw [if_pos hlt]
    have hle := BitVec.lt_def.1 hlt
    exact (Nat.sub_eq_zero_of_le (Nat.le_of_lt hle)).symm
  · rw [if_neg hlt]
    exact BitVec.toNat_sub_of_le
      (BitVec.le_def.2 (Nat.le_of_not_lt fun h => hlt (BitVec.lt_def.2 h)))

/-- One more sleep. -/
theorem ceilDiv_sub {d n : ℕ} (hn : 0 < n) (hd : 0 < d) : d ⌈/⌉ n = (d - n) ⌈/⌉ n + 1 := by
  rw [Nat.ceilDiv_eq_add_pred_div, Nat.ceilDiv_eq_add_pred_div]
  by_cases hle : n ≤ d
  · have heq : d + n - 1 = (d - n + n - 1) + n := by omega
    rw [heq, Nat.add_div_right _ hn]
  · have hzero : d - n + n - 1 = n - 1 := by omega
    have hone : d + n - 1 = (d - 1) + n := by omega
    rw [hzero, hone, Nat.add_div_right _ hn, Nat.div_eq_of_lt (show n - 1 < n by omega),
      Nat.div_eq_of_lt (show d - 1 < n by omega)]

/-! ## All iterations -/

/-- Where the loop ends: all attempts but the last one are ordinary failures, the last one is
    returned if it is none, and the loop ends with a failure only if the budget is used up. -/
structure LoopEnds (world : RetryWorld) (numticks dsRem : Unsigned) (retcode : ℤ)
    (st : RetryState) (retcode' : ℤ) (st' : RetryState) : Prop where
  attempts_le : st.attempts ≤ st'.attempts
  ordinary : ∀ j, st.attempts ≤ j → j + 1 < st'.attempts → Ordinary (world.outcome j)
  last : st.attempts < st'.attempts → ¬ Ordinary (world.outcome (st'.attempts - 1)) →
    retcode' = world.outcome (st'.attempts - 1)
  none : st'.attempts = st.attempts → retcode' = retcode ∨ retcode' = -10
  spent : (∀ k, world.nanosleep k = true) → Ordinary retcode' →
    st'.slept = st.slept + dsRem.toNat * 100000000 ∧
      st'.attempts = st.attempts + dsRem.toNat ⌈/⌉ numticks.toNat
  fails : (∀ k, world.nanosleep k = true) → (∀ k, Ordinary (world.outcome k)) →
    Ordinary retcode → Ordinary retcode'

theorem LoopEnds.refl (world : RetryWorld) (numticks : Unsigned) (retcode : ℤ) (st : RetryState) :
    LoopEnds world numticks 0 retcode st retcode st where
  attempts_le := le_rfl
  ordinary j hle hlt := absurd hlt (by omega)
  last hlt := absurd hlt (Nat.lt_irrefl _)
  none _ := .inl rfl
  spent _ _ := by simp
  fails _ _ hord := hord

/-- A sleep that fails ends the loop. -/
theorem LoopEnds.nosleep (hsleep : world.nanosleep st.sleeps = false) (nsec : Unsigned) :
    LoopEnds world numticks dsRem retcode st (-10) (st.sleep nsec) where
  attempts_le := le_rfl
  ordinary j hle hlt := by
    have hlt : j + 1 < st.attempts := hlt
    omega
  last hlt := absurd hlt (Nat.lt_irrefl _)
  none _ := .inr rfl
  spent hall _ := by
    rw [hall] at hsleep
    cases hsleep
  fails hall _ _ := by
    rw [hall] at hsleep
    cases hsleep

/-- An attempt that ends the loop. -/
theorem LoopEnds.stop (hstop : ¬ Ordinary (world.outcome st.attempts)) (message : RetryMessage) :
    LoopEnds world numticks dsRem retcode st (world.outcome st.attempts)
      ((st.next numticks dsRem).say stream message) where
  attempts_le := by simp
  ordinary j hle hlt := by
    simp at hlt
    omega
  last _ _ := by simp
  none heq := by simp at heq
  spent _ hord := absurd hord hstop
  fails _ hall _ := absurd (hall st.attempts) hstop

/-- Another failure. -/
theorem LoopEnds.next (hpos : 0 < numticks.toNat) (hle : numticks.toNat ≤ 9) (hrem : 0 < dsRem)
    (hord : Ordinary (world.outcome st.attempts)) {retcode' : ℤ} {st' : RetryState}
    (h : LoopEnds world numticks (nextRem numticks dsRem) (world.outcome st.attempts)
      ((st.next numticks dsRem).say stream .dot) retcode' st') :
    LoopEnds world numticks dsRem retcode st retcode' st' where
  attempts_le := by
    have hattempts := h.attempts_le
    simp at hattempts
    omega
  ordinary j hj hlt := by
    by_cases heq : j = st.attempts
    · rw [heq]
      exact hord
    · refine h.ordinary j ?_ hlt
      simp
      omega
  last hlt hlast := by
    have hattempts := h.attempts_le
    simp at hattempts
    by_cases heq : st'.attempts = st.attempts + 1
    · rw [heq, Nat.add_sub_cancel] at hlast
      exact absurd hord hlast
    · refine h.last ?_ hlast
      simp
      omega
  none heq := by
    have hattempts := h.attempts_le
    simp at hattempts
    omega
  spent hall hord' := by
    obtain ⟨hslept, hattempts⟩ := h.spent hall hord'
    have hdpos : 0 < dsRem.toNat := BitVec.lt_def.1 hrem
    have hsplit : min dsRem.toNat numticks.toNat + (dsRem.toNat - numticks.toNat) =
        dsRem.toNat := by omega
    have hnext : (st.next numticks dsRem).slept =
        st.slept + min dsRem.toNat numticks.toNat * 100000000 :=
      congrArg (st.slept + ·) (nextTicks_nsec hle)
    rw [nextRem_toNat] at hslept hattempts
    simp only [RetryState.say_slept, RetryState.say_attempts, RetryState.next_attempts,
      hnext] at hslept hattempts
    refine ⟨?_, ?_⟩
    · rw [hslept]
      omega
    · rw [hattempts, ceilDiv_sub hpos hdpos]
      omega
  fails hall hords hret := h.fails hall hords (hords st.attempts)

/-- **The loop ends** if a sleep is longer than no tick and there is a stream. -/
theorem retryLoop_ends (hpos : 0 < numticks.toNat) (hle : numticks.toNat ≤ 9) (world : RetryWorld)
    (fuel : ℕ) (dsRem : Unsigned) (retcode : ℤ) (st : RetryState) (hfuel : dsRem.toNat < fuel) :
    ∃ retcode' st', retryLoop world true numticks fuel dsRem retcode st =
        some (.returned retcode' st') ∧
      LoopEnds world numticks dsRem retcode st retcode' st' := by
  induction fuel generalizing dsRem retcode st with
  | zero => exact absurd hfuel (Nat.not_lt_zero _)
  | succ fuel ih =>
    by_cases hzero : dsRem = 0
    · subst hzero
      exact ⟨retcode, st, retryLoop_zero _ _ _ _ _ _, LoopEnds.refl world numticks retcode st⟩
    have hrem : 0 < dsRem := (BitVec.pos_iff_ne_zero dsRem).2 hzero
    have hdpos : 0 < dsRem.toNat := BitVec.lt_def.1 hrem
    cases hsleep : world.nanosleep st.sleeps with
    | false => exact ⟨-10, _, retryLoop_nosleep hrem hsleep, LoopEnds.nosleep hsleep _⟩
    | true =>
      by_cases hord : Ordinary (world.outcome st.attempts)
      · have hless : (nextRem numticks dsRem).toNat < fuel := by
          rw [nextRem_toNat]
          omega
        obtain ⟨retcode', st', hrun, hends⟩ := ih (nextRem numticks dsRem)
          (world.outcome st.attempts) ((st.next numticks dsRem).say true .dot) hless
        refine ⟨retcode', st', ?_, LoopEnds.next hpos hle hrem hord hends⟩
        rw [retryLoop_next hrem hsleep hord, if_neg (by simp), hrun]
      · obtain ⟨message, hrun⟩ := retryLoop_stop true numticks fuel retcode
          hrem hsleep hord
        exact ⟨_, _, hrun, LoopEnds.stop hord message⟩

end

/-! ## The budget -/

/-- **The budget is kept**: if all attempts fail and all sleeps succeed, the call returns after
    `timeout_decisecs` + 1 tenths of a second and one attempt for each sleep; and in any case it
    returns after the first attempt that is no ordinary failure. -/
structure KeepsBudget (stream : Bool) (numticks timeoutDecisecs : Unsigned) : Prop where
  budget : ∀ world argv message, argv.headD [] ≠ [] → (∀ k, world.nanosleep k = true) →
    (∀ k, Ordinary (world.outcome k)) →
    ∃ fuel retcode st, runCommandUntilSuccessTickrateArgv world stream numticks fuel argv message
        timeoutDecisecs = some (.returned retcode st) ∧
      st.slept = (timeoutDecisecs.toNat + 1) * 100000000 ∧
      (1 ≤ numticks.toNat → st.attempts = 1 + (timeoutDecisecs.toNat + 1) ⌈/⌉ numticks.toNat)
  stops : ∀ world argv message, argv.headD [] ≠ [] →
    ∃ fuel retcode st, runCommandUntilSuccessTickrateArgv world stream numticks fuel argv message
        timeoutDecisecs = some (.returned retcode st) ∧
      0 < st.attempts ∧ (∀ j, j + 1 < st.attempts → Ordinary (world.outcome j)) ∧
      (¬ Ordinary (world.outcome (st.attempts - 1)) →
        retcode = world.outcome (st.attempts - 1))

section
variable {world : RetryWorld} {stream : Bool} {numticks timeoutDecisecs : Unsigned} {fuel : ℕ}
  {argv : List Arg} {message : Option Arg}

theorem accepted (hle : numticks.toNat ≤ 9) : ¬ numticks > 9 := fun hgt =>
  absurd (BitVec.lt_def.1 hgt) (Nat.not_lt.2 hle)

/-- The first attempt ends the call. -/
theorem run_first (hargv : argv.headD [] ≠ []) (hle : numticks.toNat ≤ 9)
    (hstop : ¬ Ordinary (world.outcome 0)) :
    runCommandUntilSuccessTickrateArgv world stream numticks fuel argv message timeoutDecisecs =
      some (.returned (world.outcome 0) ⟨1, 0, 0, []⟩) := by
  have hend : world.outcome 0 ≤ 0 ∨ world.outcome 0 = exOserr := by
    by_contra hnot
    rw [not_or, Int.not_le] at hnot
    exact hstop hnot
  rw [runCommandUntilSuccessTickrateArgv, if_neg hargv, if_neg (accepted hle)]
  exact if_pos hend

/-- The loop is entered. -/
theorem run_loop (stream : Bool) (message : Option Arg) (timeoutDecisecs : Unsigned)
    (hargv : argv.headD [] ≠ []) (hle : numticks.toNat ≤ 9)
    (hord : Ordinary (world.outcome 0)) (fuel : ℕ) :
    ∃ out, runCommandUntilSuccessTickrateArgv world stream numticks fuel argv message
        timeoutDecisecs = (retryLoop world stream numticks fuel (timeoutDecisecs + 1)
          (world.outcome 0) ⟨1, 0, 0, out⟩).map (giveUp stream) := by
  have hgo : ¬ (world.outcome 0 ≤ 0 ∨ world.outcome 0 = exOserr) := by
    rw [not_or, Int.not_le]
    exact hord
  refine ⟨((⟨1, 0, 0, []⟩ : RetryState).say stream
    (.waiting (message.getD (argv.headD [])))).out, ?_⟩
  have hsay : (⟨1, 0, 0, []⟩ : RetryState).say stream (.waiting (message.getD (argv.headD []))) =
      ⟨1, 0, 0, ((⟨1, 0, 0, []⟩ : RetryState).say stream
        (.waiting (message.getD (argv.headD [])))).out⟩ := by
    rw [RetryState.say]
    split_ifs <;> rfl
  rw [runCommandUntilSuccessTickrateArgv, if_neg hargv, if_neg (accepted hle), ← hsay]
  exact if_neg hgo

/-- The end of the call changes neither the counts nor the return code. -/
theorem giveUp_returned (stream : Bool) (retcode : ℤ) (st : RetryState) :
    ∃ st', giveUp stream (.returned retcode st) = .returned retcode st' ∧
      st'.attempts = st.attempts ∧ st'.slept = st.slept := by
  rw [giveUp]
  split_ifs
  · exact ⟨_, rfl, by simp, by simp⟩
  · exact ⟨_, rfl, rfl, rfl⟩

/-- The call after the loop has ended. -/
theorem run_ends (message : Option Arg) (hargv : argv.headD [] ≠ []) (hpos : 1 ≤ numticks.toNat)
    (hle : numticks.toNat ≤ 9) (hord : Ordinary (world.outcome 0)) :
    ∃ fuel retcode st st₀ st₁, runCommandUntilSuccessTickrateArgv world true numticks fuel argv
        message timeoutDecisecs = some (.returned retcode st) ∧
      st.attempts = st₁.attempts ∧ st.slept = st₁.slept ∧ st₀.attempts = 1 ∧ st₀.slept = 0 ∧
      LoopEnds world numticks (timeoutDecisecs + 1) (world.outcome 0) st₀ retcode st₁ := by
  obtain ⟨out, hrun⟩ := run_loop true message timeoutDecisecs hargv hle hord
    ((timeoutDecisecs + 1).toNat + 1)
  obtain ⟨retcode, st₁, hloop, hends⟩ := retryLoop_ends hpos hle world _ (timeoutDecisecs + 1)
    (world.outcome 0) ⟨1, 0, 0, out⟩ (Nat.lt_succ_self _)
  obtain ⟨st, hgive, hattempts, hslept⟩ := giveUp_returned true retcode st₁
  rw [hloop] at hrun
  exact ⟨_, retcode, st, _, st₁, hrun.trans (congrArg some hgive), hattempts, hslept, rfl, rfl,
    hends⟩

theorem toNat_add_one (hfit : timeoutDecisecs.toNat + 1 < 2 ^ 32) :
    (timeoutDecisecs + 1).toNat = timeoutDecisecs.toNat + 1 := by
  have hone : (1 : Unsigned).toNat = 1 := rfl
  rw [BitVec.toNat_add, hone]
  exact Nat.mod_eq_of_lt hfit

/-- The budget is kept for a positive number of ticks, a timeout that is not the greatest
    one, and a stream. -/
theorem keepsBudget (hpos : 1 ≤ numticks.toNat) (hle : numticks.toNat ≤ 9)
    (hfit : timeoutDecisecs.toNat + 1 < 2 ^ 32) : KeepsBudget true numticks timeoutDecisecs where
  budget := by
    intro world argv message hargv hsleep hords
    obtain ⟨fuel, retcode, st, st₀, st₁, hrun, hattempts, hslept, h₀, hs₀, hends⟩ :=
      run_ends message hargv hpos hle (hords 0)
    obtain ⟨hsum, hcount⟩ := hends.spent hsleep (hends.fails hsleep hords (hords 0))
    rw [toNat_add_one hfit] at hsum hcount
    refine ⟨fuel, retcode, st, hrun, ?_, fun _ => ?_⟩
    · rw [hslept, hsum, hs₀, Nat.zero_add]
    · rw [hattempts, hcount, h₀]
  stops := by
    intro world argv message hargv
    by_cases hord : Ordinary (world.outcome 0)
    · obtain ⟨fuel, retcode, st, st₀, st₁, hrun, hattempts, -, h₀, -, hends⟩ :=
        run_ends message hargv hpos hle hord
      have hmono := hends.attempts_le
      refine ⟨fuel, retcode, st, hrun, by omega, fun j hj => ?_, fun hlast => ?_⟩
      · rcases Nat.eq_zero_or_pos j with rfl | hjpos
        · exact hord
        · exact hends.ordinary j (by omega) (by omega)
      · rw [hattempts] at hlast ⊢
        refine hends.last ?_ hlast
        by_contra hnot
        have hone : st₁.attempts - 1 = 0 := by omega
        rw [hone] at hlast
        exact hlast hord
    · exact ⟨0, _, _, run_first hargv hle hord, Nat.one_pos, fun j hj => absurd hj (by simp),
        fun _ => rfl⟩

/-- All attempts fail, and all sleeps succeed. -/
def failingWorld : RetryWorld := ⟨fun _ => 1, fun _ => true⟩

theorem failingWorld_ordinary (k : ℕ) : Ordinary (failingWorld.outcome k) :=
  ⟨one_pos, by simp [failingWorld, exOserr]⟩

/-- Sleeps of no tick, or failures that are reported to no stream, do not use up the budget. -/
theorem retryLoop_stuck (hbad : numticks.toNat = 0 ∨ stream = false) (fuel : ℕ) (dsRem : Unsigned)
    (hrem : 0 < dsRem) (retcode : ℤ) (st : RetryState) (retcode' : ℤ) (st' : RetryState) :
    retryLoop failingWorld stream numticks fuel dsRem retcode st ≠
      some (.returned retcode' st') := by
  induction fuel generalizing dsRem retcode st with
  | zero => exact nofun
  | succ fuel ih =>
    rw [retryLoop_next hrem rfl (failingWorld_ordinary _)]
    by_cases hstream : stream = true
    · rw [if_neg (by simp [hstream])]
      refine ih _ ?_ _ _
      have hzero : numticks.toNat = 0 := hbad.resolve_right (by simp [hstream])
      rw [BitVec.lt_def, nextRem_toNat, hzero]
      exact BitVec.lt_def.1 hrem
    · rw [if_pos hstream]
      exact nofun

theorem giveUp_eq_returned {r : RetryEnd} {retcode : ℤ} {st : RetryState}
    (h : giveUp stream r = .returned retcode st) :
    ∃ retcode' st', r = .returned retcode' st' ∧ st.slept = st'.slept := by
  cases r with
  | nullWrite st' => cases h
  | returned retcode' st' =>
    obtain ⟨st'', hgive, -, hslept⟩ := giveUp_returned stream retcode' st'
    rw [hgive] at h
    cases h
    exact ⟨_, st', rfl, hslept⟩

/-- What follows if the budget is kept. -/
theorem KeepsBudget.bounds (hkeeps : KeepsBudget stream numticks timeoutDecisecs)
    (h : numticks.toNat ≤ 9) :
    1 ≤ numticks.toNat ∧ timeoutDecisecs.toNat + 1 < 2 ^ 32 ∧ stream = true := by
  obtain ⟨fuel, retcode, st, hrun, hslept, -⟩ := hkeeps.budget failingWorld [[0x61]] none
    (by simp) (fun _ => rfl) failingWorld_ordinary
  obtain ⟨out, hloop⟩ := run_loop stream none timeoutDecisecs
    (show [[0x61]].headD [] ≠ [] by simp) h (failingWorld_ordinary 0) fuel
  rw [hrun] at hloop
  obtain ⟨r, hr, hgive⟩ := Option.map_eq_some_iff.1 hloop.symm
  obtain ⟨retcode', st', rfl, hsame⟩ := giveUp_eq_returned hgive
  by_cases hrem : 0 < timeoutDecisecs + 1
  · have hgood : ¬ (numticks.toNat = 0 ∨ stream = false) := fun hbad =>
      retryLoop_stuck hbad fuel _ hrem _ _ _ _ hr
    rw [not_or] at hgood
    refine ⟨Nat.pos_of_ne_zero hgood.1, ?_, Bool.eq_true_of_not_eq_false hgood.2⟩
    by_contra hnot
    have hmax : timeoutDecisecs.toNat + 1 = 2 ^ 32 :=
      Nat.le_antisymm timeoutDecisecs.isLt (Nat.le_of_not_lt hnot)
    have hone : (1 : Unsigned).toNat = 1 := rfl
    rw [BitVec.lt_def, BitVec.toNat_add, hone, hmax, Nat.mod_self] at hrem
    exact absurd hrem (Nat.not_lt_zero _)
  · -- the sum has wrapped, and the loop is not entered
    have hzero : timeoutDecisecs + 1 = 0 := not_not.1 (mt (BitVec.pos_iff_ne_zero _).2 hrem)
    rw [hzero] at hr
    cases fuel with
    | zero => cases hr
    | succ fuel =>
      rw [retryLoop_zero] at hr
      cases hr
      rw [hsame] at hslept
      simp at hslept

/-- **When the budget is kept.** -/
theorem keepsBudget_iff (h : numticks.toNat ≤ 9) :
    KeepsBudget stream numticks timeoutDecisecs ↔
      1 ≤ numticks.toNat ∧ timeoutDecisecs.toNat + 1 < 2 ^ 32 ∧ stream = true := by
  constructor
  · exact fun hkeeps => hkeeps.bounds h
  · rintro ⟨hpos, hfit, rfl⟩
    exact keepsBudget hpos h hfit

/-- Two ticks for each sleep, as in all calls of the program. -/
theorem keepsBudget_two : KeepsBudget true 2 10 :=
  (keepsBudget_iff (by simp)).2 ⟨by simp, by simp, rfl⟩

/-- Without a stream, the first failure after a sleep is written to a null pointer. -/
theorem no_stream : ¬ KeepsBudget false 2 10 := by
  intro hkeeps
  cases (hkeeps.bounds (by simp)).2.2

end

end Fischstaebchen
