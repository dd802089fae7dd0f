/-
  The loops of `_zram_do_autoswap` (`zram/autoswap.c`) and the devices they pass
  to `zram_mkswap` and `zram_swapon`.

  The number of devices is an `int`, which is passed on as a `size_t`, the loops
  count with an `ushort`, and `zram_claim_several_next_free` gets an `uint8_t`.

  * `zramDoAutoswapRun_eq`: with an `ushort` count, the loops end, with the
    result of `zramDoAutoswapUnchecked`.
  * `zramDoAutoswapRun_endless`: with any other count, the first loop has no end.
  * `autoswapInBounds_iff`: for which counts the calls are those they should be.
-/
import Fischstaebchen.Lib.CountLoop
import Fischstaebchen.Zram.Autoswap

namespace Fischstaebchen

/-! ## The loops -/

/-- A call of `zram_mkswap` or `zram_swapon`, with the identifier of the device
    or NULL. -/
inductive SwapCall
  | mkswap (dev : Option UInt8)
  | swapon (dev : Option UInt8)
deriving DecidableEq

/-- The array `devices`, the calls so far, and the state of the system. -/
structure SwapRun where
  devices : List (Option ZramDevInfo)
  calls : List SwapCall
  st : ZramState

/-- The identifier of a device, or NULL. -/
def devIdent (dev : Option ZramDevInfo) : Option UInt8 := dev.map ZramDevInfo.identifier

def SwapRun.get (run : SwapRun) (k : ℕ) : Option ZramDevInfo := run.devices.getD k none

def SwapRun.call (run : SwapRun) (c : SwapCall) : SwapRun := { run with calls := run.calls ++ [c] }

section
variable (F : Faults)

/-- An iteration of `_zram_do_autoswap_mkswap`. -/
def autoswapMkswapBody (k : ℕ) (run : SwapRun) :
    Lib.Flow SwapRun (Except Undefined ℤ × SwapRun) :=
  let run := run.call (.mkswap (devIdent (run.get k)))
  match run.get k with
  | none => .leave (.error .nullPointer, run)
  | some dev =>
    let r := zramMkswap F dev run.st
    let devices := run.devices.set k (some r.2.1)
    if r.1 ≠ 0 then
      let rel := zramReleaseDevices (UInt8.ofNat k) devices 1 r.2.2
      .leave (.ok (-1), { run with devices := rel.2.1, st := rel.2.2 })
    else .next { run with devices := devices, st := r.2.2 }

/-- An iteration of `_zram_do_autoswap_swapon`; in the loop over `zram_swapoff`,
    the index and its limit are both `ushort`. -/
def autoswapSwaponBody (numSwaps : ℕ) (k : ℕ) (run : SwapRun) :
    Lib.Flow SwapRun (Except Undefined ℤ × SwapRun) :=
  let run := run.call (.swapon (devIdent (run.get k)))
  match run.get k with
  | none => .leave (.error .nullPointer, run)
  | some dev =>
    let r := zramSwapon F dev run.st
    let devices := run.devices.set k (some r.2.1)
    if r.1 ≠ 0 then
      match autoswapSwapoffLoop k 0 devices r.2.2 with
      | .error e => .leave (.error e, { run with devices := devices, st := r.2.2 })
      | .ok (devices, st) =>
        let rel := zramReleaseDevices (UInt8.ofNat numSwaps) devices 0 st
        .leave (.ok (-1), { run with devices := rel.2.1, st := rel.2.2 })
    else .next { run with devices := devices, st := r.2.2 }

/-- The result of a phase: 0 if its loop has ended without one. -/
def phaseResult : Lib.Flow SwapRun (Except Undefined ℤ × SwapRun) → Except Undefined ℤ × SwapRun
  | .next run => (.ok 0, run)
  | .leave r => r

/-- `for ( k = 0; k < num_swaps; k++ )`, where `k` is an `ushort`. -/
def ushortLoop {σ ρ : Type} (fuel numSwaps : ℕ) (body : ℕ → σ → Lib.Flow σ ρ) (s : σ) :
    Option (Lib.Flow σ ρ) :=
  Lib.countLoop numSwaps body fuel (0 : BitVec 16) s

/-- `_zram_do_autoswap_mkswap`. -/
def zramDoAutoswapMkswap (fuel numSwaps : ℕ) (run : SwapRun) :
    Option (Except Undefined ℤ × SwapRun) :=
  (ushortLoop fuel numSwaps (autoswapMkswapBody F) run).map phaseResult

/-- `_zram_do_autoswap_swapon`. -/
def zramDoAutoswapSwapon (fuel numSwaps : ℕ) (run : SwapRun) :
    Option (Except Undefined ℤ × SwapRun) :=
  (ushortLoop fuel numSwaps (autoswapSwaponBody F numSwaps) run).map phaseResult

/-- The mkswap phase and, if it returns 0, the swapon phase. -/
def autoswapPhases (fuel numSwaps : ℕ) (run : SwapRun) : Option (Except Undefined ℤ × SwapRun) :=
  match zramDoAutoswapMkswap F fuel numSwaps run with
  | some (.ok ret, run) =>
    if ret ≠ 0 then some (.ok (-1), run)
    else
      match zramDoAutoswapSwapon F fuel numSwaps run with
      | some (.ok ret, run) => if ret ≠ 0 then some (.ok (-1), run) else some (.ok 0, run)
      | r => r
  | r => r

/-- The loop over `zram_dev_info_free` at the end of `_zram_do_autoswap`. -/
def autoswapFree (fuel numSwaps : ℕ) (run : SwapRun) : Option SwapRun :=
  match ushortLoop (ρ := Empty) fuel numSwaps (fun k devs => .next (devs.set k none))
    run.devices with
  | some (.next devices) => some { run with devices := devices }
  | some (.leave e) => e.elim
  | none => none

/-- `_zram_do_autoswap`, where `junk` is in the array at first: the return code
    and the calls, or `none` if the fuel does not suffice for a loop. -/
def zramDoAutoswapRun (fuel numSwaps : ℕ) (swapSize : UInt64) (junk : List (Option ZramDevInfo))
    (st : ZramState) : Option (Except Undefined ℤ × SwapRun) :=
  match ushortLoop (ρ := Empty) fuel numSwaps (fun k devs => .next (devs.set k none)) junk with
  | none => none
  | some (.leave e) => e.elim
  | some (.next devices) =>
    let r := zramClaimSeveralNextFree F (UInt8.ofNat numSwaps) swapSize st
    let run : SwapRun := ⟨r.2.1 ++ devices.drop r.2.1.length, [], r.2.2⟩
    match if r.1 ≠ 0 then some (.ok (-1), run) else autoswapPhases F fuel numSwaps run with
    | none => none
    | some (.error e, run) => some (.error e, run)
    | some (.ok ret, run) => (autoswapFree fuel numSwaps run).map fun run => (.ok ret, run)

end

/-! ## Which loops end -/

section
variable {σ ρ : Type} {fuel numSwaps : ℕ}

/-- A loop with an `ushort` count. -/
theorem ushortLoop_eq (hmax : numSwaps ≤ 65535) (hfuel : numSwaps < fuel)
    (body : ℕ → σ → Lib.Flow σ ρ) (s : σ) :
    ushortLoop fuel numSwaps body s = some (Lib.iterate body numSwaps 0 s) :=
  Lib.countLoop_eq_iterate (by omega) numSwaps fuel 0 s (by simp) hfuel

/-- The loop that sets all entries to NULL. -/
theorem ushortLoop_null (hmax : numSwaps ≤ 65535) (hfuel : numSwaps < fuel)
    {devs : List (Option ZramDevInfo)} (hlen : devs.length = numSwaps) :
    ushortLoop (ρ := ρ) fuel numSwaps (fun k devs => .next (devs.set k none)) devs =
      some (.next (List.replicate numSwaps none)) := by
  have hset := Lib.iterate_set (ρ := ρ) (none : Option ZramDevInfo) [] devs
  rw [List.nil_append, List.nil_append, List.length_nil, hlen] at hset
  rw [ushortLoop_eq hmax hfuel, hset]

/-- **A count that is no `ushort`**: the first loop has no end. -/
theorem zramDoAutoswapRun_endless (F : Faults) (hmin : 65536 ≤ numSwaps) (fuel : ℕ)
    (swapSize : UInt64) (junk : List (Option ZramDevInfo)) (st : ZramState) :
    zramDoAutoswapRun F fuel numSwaps swapSize junk st = none := by
  have hloop : ushortLoop (ρ := Empty) fuel numSwaps (fun k devs => .next (devs.set k none)) junk =
      none := Lib.countLoop_endless (by omega) (fun k devs => ⟨_, rfl⟩) fuel 0 junk
  rw [zramDoAutoswapRun, hloop]

end

section
variable (F : Faults)

/-- A result of a phase without its calls. -/
def phaseOutcome (r : Except Undefined ℤ × SwapRun) :
    Except Undefined (ℤ × List (Option ZramDevInfo) × ZramState) :=
  r.1.map fun ret => (ret, r.2.devices, r.2.st)

theorem autoswapMkswap_outcome : ∀ (n k : ℕ) (run : SwapRun),
    phaseOutcome (phaseResult (Lib.iterate (autoswapMkswapBody F) n k run)) =
      autoswapMkswapLoop F n k run.devices run.st
  | 0, _, _ => rfl
  | n + 1, k, run => by
    rw [Lib.iterate, autoswapMkswapLoop, autoswapMkswapBody]
    dsimp only [SwapRun.get, SwapRun.call]
    cases run.devices.getD k none with
    | none => rfl
    | some dev =>
      dsimp only
      split_ifs
      · rfl
      · exact autoswapMkswap_outcome n (k + 1) _

theorem autoswapSwapon_outcome (numSwaps : ℕ) : ∀ (n k : ℕ) (run : SwapRun),
    phaseOutcome (phaseResult (Lib.iterate (autoswapSwaponBody F numSwaps) n k run)) =
      autoswapSwaponLoop F numSwaps n k run.devices run.st
  | 0, _, _ => rfl
  | n + 1, k, run => by
    rw [Lib.iterate, autoswapSwaponLoop, autoswapSwaponBody]
    dsimp only [SwapRun.get, SwapRun.call]
    cases run.devices.getD k none with
    | none => rfl
    | some dev =>
      dsimp only
      split_ifs
      · cases autoswapSwapoffLoop k 0 (run.devices.set k (some (zramSwapon F dev run.st).2.1))
          (zramSwapon F dev run.st).2.2 <;> rfl
      · exact autoswapSwapon_outcome numSwaps n (k + 1) _

/-- A phase whose outcome is known. -/
theorem phaseOutcome_eq_ok {r : Except Undefined ℤ × SwapRun} {ret : ℤ}
    {devices : List (Option ZramDevInfo)} {st : ZramState}
    (h : phaseOutcome r = .ok (ret, devices, st)) :
    ∃ calls, r = (.ok ret, ⟨devices, calls, st⟩) := by
  obtain ⟨_ | ret', run⟩ := r
  · simp [phaseOutcome, Except.map] at h
  · simp only [phaseOutcome, Except.map, Except.ok.injEq, Prod.mk.injEq] at h
    obtain ⟨rfl, rfl, rfl⟩ := h
    exact ⟨run.calls, rfl⟩

theorem phaseOutcome_eq_error {r : Except Undefined ℤ × SwapRun} {e : Undefined}
    (h : phaseOutcome r = .error e) : ∃ run, r = (.error e, run) := by
  obtain ⟨e' | ret', run⟩ := r
  · simp only [phaseOutcome, Except.map, Except.error.injEq] at h
    exact ⟨run, by rw [h]⟩
  · simp [phaseOutcome, Except.map] at h

/-- The loop over `zram_dev_info_free` ends. -/
theorem autoswapFree_eq {fuel numSwaps : ℕ} (hmax : numSwaps ≤ 65535) (hfuel : numSwaps < fuel)
    (run : SwapRun) :
    ∃ devices, autoswapFree fuel numSwaps run = some { run with devices := devices } := by
  rw [autoswapFree, ushortLoop_eq hmax hfuel]
  cases Lib.iterate (ρ := Empty) (fun k devs => .next (devs.set k none)) numSwaps 0
    run.devices with
  | next devices => exact ⟨devices, rfl⟩
  | leave e => exact e.elim

/-- **An `ushort` count**: the loops end, with the result of
    `zramDoAutoswapUnchecked`. -/
theorem zramDoAutoswapRun_eq {fuel numSwaps : ℕ} (hmax : numSwaps ≤ 65535)
    (hfuel : numSwaps < fuel) (swapSize : UInt64) {junk : List (Option ZramDevInfo)}
    (hjunk : junk.length = numSwaps) (st : ZramState) :
    ∃ ret run, zramDoAutoswapRun F fuel numSwaps swapSize junk st = some (ret, run) ∧
      zramDoAutoswapUnchecked F numSwaps swapSize st = ret.map fun ret => (ret, run.st) := by
  rw [zramDoAutoswapRun, ushortLoop_null hmax hfuel hjunk, zramDoAutoswapUnchecked,
    if_neg (by omega)]
  dsimp only
  rw [List.drop_replicate]
  set r := zramClaimSeveralNextFree F (UInt8.ofNat numSwaps) swapSize st
  set devices := r.2.1 ++ List.replicate (numSwaps - r.2.1.length) none
  by_cases hclaim : r.1 = 0
  · rw [if_neg (not_not.2 hclaim), if_neg (not_not.2 hclaim), autoswapPhases,
      zramDoAutoswapMkswap, ushortLoop_eq hmax hfuel, Option.map_some]
    have hmkswap := autoswapMkswap_outcome F numSwaps 0 ⟨devices, [], r.2.2⟩
    dsimp only at hmkswap
    cases hm : autoswapMkswapLoop F numSwaps 0 devices r.2.2 with
    | error e =>
      obtain ⟨run, hrun⟩ := phaseOutcome_eq_error (hmkswap.trans hm)
      rw [hrun]
      exact ⟨.error e, run, rfl, rfl⟩
    | ok out =>
      obtain ⟨ret, devices₁, st₁⟩ := out
      obtain ⟨calls₁, hrun⟩ := phaseOutcome_eq_ok (hmkswap.trans hm)
      rw [hrun]
      dsimp only
      split_ifs with hret
      · obtain ⟨devices', hfree⟩ := autoswapFree_eq hmax hfuel ⟨devices₁, calls₁, st₁⟩
        dsimp only
        rw [hfree]
        exact ⟨_, _, rfl, rfl⟩
      · rw [zramDoAutoswapSwapon, ushortLoop_eq hmax hfuel, Option.map_some]
        have hswapon := autoswapSwapon_outcome F numSwaps numSwaps 0 ⟨devices₁, calls₁, st₁⟩
        dsimp only at hswapon
        cases hs : autoswapSwaponLoop F numSwaps numSwaps 0 devices₁ st₁ with
        | error e =>
          obtain ⟨run, hrun⟩ := phaseOutcome_eq_error (hswapon.trans hs)
          rw [hrun]
          exact ⟨.error e, run, rfl, rfl⟩
        | ok out =>
          obtain ⟨ret₂, devices₂, st₂⟩ := out
          obtain ⟨calls₂, hrun⟩ := phaseOutcome_eq_ok (hswapon.trans hs)
          obtain ⟨devices', hfree⟩ := autoswapFree_eq hmax hfuel ⟨devices₂, calls₂, st₂⟩
          rw [hrun]
          dsimp only
          split_ifs
          · dsimp only
            rw [hfree]
            exact ⟨_, _, rfl, rfl⟩
          · dsimp only
            rw [hfree]
            exact ⟨_, _, rfl, rfl⟩
  · obtain ⟨devices', hfree⟩ := autoswapFree_eq hmax hfuel ⟨devices, [], r.2.2⟩
    rw [if_pos hclaim, if_pos hclaim]
    dsimp only
    rw [hfree]
    exact ⟨_, _, rfl, rfl⟩

end

/-! ## The calls of a phase -/

/-- An iteration calls a function with the device at its index, if there is one,
    and goes on or returns -1. -/
def CallsDevice (body : ℕ → SwapRun → Lib.Flow SwapRun (Except Undefined ℤ × SwapRun))
    (call : Option UInt8 → SwapCall) : Prop :=
  ∀ (before : List ZramDevInfo) (dev : ZramDevInfo) (after : List ZramDevInfo) (run : SwapRun),
    run.devices = (before ++ dev :: after).map some →
    (∃ (dev' : ZramDevInfo) (st' : ZramState), dev'.identifier = dev.identifier ∧
        body before.length run = .next ⟨(before ++ dev' :: after).map some,
          run.calls ++ [call (some dev.identifier)], st'⟩) ∨
      ∃ run', body before.length run = .leave (.ok (-1), run') ∧
        run'.calls = run.calls ++ [call (some dev.identifier)]

/-- The identifiers of devices. -/
def devIdents (devs : List ZramDevInfo) : List UInt8 := devs.map ZramDevInfo.identifier

/-- **The calls of a phase**: one for each device, in order, up to the first one
    that fails. -/
theorem CallsDevice.iterate
    {body : ℕ → SwapRun → Lib.Flow SwapRun (Except Undefined ℤ × SwapRun)}
    {call : Option UInt8 → SwapCall} (h : CallsDevice body call) :
    ∀ (after before : List ZramDevInfo) (run : SwapRun),
      run.devices = (before ++ after).map some →
      ∃ ret run' m, phaseResult (Lib.iterate body after.length before.length run) =
          (.ok ret, run') ∧ m ≤ after.length ∧
        run'.calls = run.calls ++ ((devIdents after).take m).map (call ∘ some) ∧
        (ret = 0 → m = after.length ∧ ∃ devs : List ZramDevInfo, run'.devices = devs.map some ∧
          devIdents devs = devIdents (before ++ after))
  | [], before, run, hrun => by
    refine ⟨0, run, 0, rfl, le_rfl, by simp, fun _ => ⟨rfl, before, ?_, by simp⟩⟩
    rw [hrun, List.append_nil]
  | dev :: after, before, run, hrun => by
    rw [List.length_cons, Lib.iterate]
    rcases h before dev after run hrun with ⟨dev', st', hid, hbody⟩ | ⟨run', hbody, hcalls⟩
    · -- the next device
      have hassoc : before ++ dev' :: after = (before ++ [dev']) ++ after := by simp
      have hlen : before.length + 1 = (before ++ [dev']).length := by simp
      rw [hbody]
      dsimp only
      rw [hassoc, hlen]
      obtain ⟨ret, run', m, hres, hm, hcalls, hall⟩ :=
        h.iterate after (before ++ [dev'])
          ⟨((before ++ [dev']) ++ after).map some, run.calls ++ [call (some dev.identifier)], st'⟩ rfl
      refine ⟨ret, run', m + 1, hres, by omega, ?_, fun h0 => ?_⟩
      · rw [hcalls]
        simp [devIdents]
      · obtain ⟨rfl, devs, hdevs, hids⟩ := hall h0
        refine ⟨rfl, devs, hdevs, ?_⟩
        rw [hids]
        simp [devIdents, hid]
    · rw [hbody]
      refine ⟨-1, run', 1, rfl, by omega, ?_, fun h0 => absurd h0 (by simp)⟩
      rw [hcalls]
      simp [devIdents]

section
variable (F : Faults)

theorem zramMkswap_identifier (dev : ZramDevInfo) (st : ZramState) :
    (zramMkswap F dev st).2.1.identifier = dev.identifier := by
  unfold zramMkswap
  dsimp only
  split_ifs <;> rfl

theorem zramSwapon_identifier (dev : ZramDevInfo) (st : ZramState) :
    (zramSwapon F dev st).2.1.identifier = dev.identifier := by
  unfold zramSwapon
  dsimp only
  split_ifs <;> rfl

theorem callsDevice_mkswap : CallsDevice (autoswapMkswapBody F) .mkswap := by
  intro before dev after run hrun
  have hget : run.devices.getD before.length none = some dev := by rw [hrun, getD_middle]
  rw [autoswapMkswapBody]
  dsimp only [SwapRun.get, SwapRun.call]
  rw [hget]
  dsimp only [devIdent, Option.map_some]
  rw [hrun, set_middle]
  split_ifs
  · exact .inr ⟨_, rfl, rfl⟩
  · exact .inl ⟨_, _, zramMkswap_identifier F dev run.st, rfl⟩

/-- The loop over `zram_swapoff` meets no NULL. -/
theorem autoswapSwapoffLoop_ok : ∀ (on off rest : List ZramDevInfo) (st : ZramState),
    ∃ devs st', autoswapSwapoffLoop on.length off.length ((off ++ (on ++ rest)).map some) st =
      .ok (devs, st')
  | [], off, rest, st => ⟨_, st, rfl⟩
  | dev :: on, off, rest, st => by
    have hassoc : off ++ (zramSwapoff dev st).2.1 :: (on ++ rest) =
        (off ++ [(zramSwapoff dev st).2.1]) ++ (on ++ rest) := by simp
    have hlen : off.length + 1 = (off ++ [(zramSwapoff dev st).2.1]).length := by simp
    rw [List.length_cons, autoswapSwapoffLoop, List.cons_append, getD_middle]
    dsimp only
    rw [set_middle, hassoc, hlen]
    exact autoswapSwapoffLoop_ok on _ rest _

theorem callsDevice_swapon (numSwaps : ℕ) :
    CallsDevice (autoswapSwaponBody F numSwaps) .swapon := by
  intro before dev after run hrun
  have hget : run.devices.getD before.length none = some dev := by rw [hrun, getD_middle]
  obtain ⟨devs, st', hoff⟩ := autoswapSwapoffLoop_ok before []
    ((zramSwapon F dev run.st).2.1 :: after) (zramSwapon F dev run.st).2.2
  rw [List.nil_append, List.length_nil] at hoff
  rw [autoswapSwaponBody]
  dsimp only [SwapRun.get, SwapRun.call]
  rw [hget]
  dsimp only [devIdent, Option.map_some]
  rw [hrun, set_middle, hoff]
  dsimp only
  split_ifs
  · exact .inr ⟨_, rfl, rfl⟩
  · exact .inl ⟨_, _, zramSwapon_identifier F dev run.st, rfl⟩

end

/-! ## The calls of a run -/

/-- Each phase calls its function with the devices `ids` in order, once each,
    and with all of them unless one of the calls fails; the swapon phase comes
    after a complete mkswap phase. -/
def EachOncePerPhase (ids : List UInt8) (ret : ℤ) (calls : List SwapCall) : Prop :=
  ∃ i j, i ≤ ids.length ∧ j ≤ ids.length ∧ (0 < j → i = ids.length) ∧
    (ret = 0 → i = ids.length ∧ j = ids.length) ∧
    calls = (ids.take i).map (SwapCall.mkswap ∘ some) ++ (ids.take j).map (SwapCall.swapon ∘ some)

/-- The phases of a call that has claimed the devices `devs`. -/
theorem autoswapPhases_calls (F : Faults) {fuel : ℕ} {devs : List ZramDevInfo}
    (hmax : devs.length ≤ 65535) (hfuel : devs.length < fuel) (st : ZramState) :
    ∃ ret run, autoswapPhases F fuel devs.length ⟨devs.map some, [], st⟩ = some (.ok ret, run) ∧
      EachOncePerPhase (devIdents devs) ret run.calls := by
  have hids : (devIdents devs).length = devs.length := List.length_map _
  obtain ⟨ret, run, i, hmkswap, hi, hcalls, hall⟩ :=
    (callsDevice_mkswap F).iterate devs [] ⟨devs.map some, [], st⟩ rfl
  rw [List.length_nil] at hmkswap
  rw [autoswapPhases, zramDoAutoswapMkswap, ushortLoop_eq hmax hfuel, Option.map_some, hmkswap]
  dsimp only
  by_cases hret : ret = 0
  · -- swapon
    obtain ⟨rfl, devs', hdevs', hidents⟩ := hall hret
    rw [List.nil_append] at hidents
    have hlen : devs'.length = devs.length := by
      have := congrArg List.length hidents
      simpa [devIdents] using this
    obtain ⟨ret', run', j, hswapon, hj, hcalls', hall'⟩ :=
      (callsDevice_swapon F devs.length).iterate devs' [] run hdevs'
    rw [List.length_nil, hlen] at hswapon
    have hrun' : run'.calls = ((devIdents devs).take devs.length).map (SwapCall.mkswap ∘ some) ++
        ((devIdents devs).take j).map (SwapCall.swapon ∘ some) := by
      rw [hcalls', hcalls, hidents, List.nil_append]
    rw [if_neg (not_not.2 hret), zramDoAutoswapSwapon, ushortLoop_eq hmax hfuel,
      Option.map_some, hswapon]
    dsimp only
    split_ifs with hret'
    · refine ⟨-1, run', rfl, devs.length, j, hids.ge, by rw [hids]; omega, fun _ => hids.symm,
        fun h => absurd h (by simp), hrun'⟩
    · obtain ⟨hj', -⟩ := hall' (not_not.1 hret')
      exact ⟨0, run', rfl, devs.length, j, hids.ge, by rw [hids]; omega, fun _ => hids.symm,
        fun _ => ⟨hids.symm, by rw [hids, hj', hlen]⟩, hrun'⟩
  · rw [if_pos hret]
    refine ⟨-1, run, rfl, i, 0, by rw [hids]; exact hi, Nat.zero_le _,
      fun h => absurd h (lt_irrefl 0), fun h => absurd h (by simp), ?_⟩
    rw [hcalls]
    simp

/-- A call of `zram_do_autoswap` that gets past claiming has claimed `numSwaps`
    devices, all its loops end, and `zram_mkswap` and `zram_swapon` are called
    with these devices only, once each in each phase. -/
def AutoswapInBounds (F : Faults) (numSwaps : ℤ) (swapSize : UInt64) (st : ZramState) : Prop :=
  ∃ (devs : List ZramDevInfo) (st' : ZramState),
    zramClaimSeveralNextFree F (UInt8.ofNat numSwaps.toNat) swapSize st =
      (0, devs.map some, st') ∧
    devs.length = numSwaps.toNat ∧ (devIdents devs).Nodup ∧
    ∀ junk : List (Option ZramDevInfo), junk.length = numSwaps.toNat →
      ∃ fuel ret run, zramDoAutoswapRun F fuel numSwaps.toNat swapSize junk st =
        some (.ok ret, run) ∧ EachOncePerPhase (devIdents devs) ret run.calls

/-- **The bound on the number of devices** is that of the `uint8_t` with which
    they are claimed. -/
theorem autoswapInBounds_iff (F : Faults) {numSwaps : ℤ} {swapSize : UInt64} {st : ZramState}
    (hmin : 1 ≤ numSwaps)
    (hclaim : (zramClaimSeveralNextFree F (UInt8.ofNat numSwaps.toNat) swapSize st).1 = 0) :
    AutoswapInBounds F numSwaps swapSize st ↔ numSwaps ≤ 255 := by
  rcases zramClaimSeveral_outcome F (UInt8.ofNat numSwaps.toNat) swapSize st with
    ⟨-, devs, st', hlen, hclaimed, hclaims, -⟩ | ⟨-, -, -, -, ⟨-, -, hfail, -⟩, -⟩
  · have hbound : (UInt8.ofNat numSwaps.toNat).toNat < 256 := UInt8.toNat_lt _
    constructor
    · rintro ⟨devs', _, hclaims', hlen', -⟩
      have hsame : devs.map some = devs'.map some := by
        rw [hclaims] at hclaims'
        exact congrArg (fun r => r.2.1) hclaims'
      have : devs.length = devs'.length := by simpa using congrArg List.length hsame
      omega
    · intro hmax
      have hn : (UInt8.ofNat numSwaps.toNat).toNat = numSwaps.toNat := by
        rw [UInt8.toNat_ofNat']; exact Nat.mod_eq_of_lt (by omega)
      rw [hn] at hlen
      refine ⟨devs, st', hclaims, hlen, hclaimed.kernel.nodup, fun junk hjunk => ?_⟩
      obtain ⟨ret, run, hphases, hcalls⟩ := @autoswapPhases_calls F (numSwaps.toNat + 1) devs
        (by omega) (by omega) st'
      obtain ⟨devices, hfree⟩ := @autoswapFree_eq (numSwaps.toNat + 1)
        numSwaps.toNat (by omega) (by omega) run
      refine ⟨numSwaps.toNat + 1, ret, { run with devices := devices }, ?_, hcalls⟩
      rw [zramDoAutoswapRun, ushortLoop_null (by omega) (by omega) hjunk]
      dsimp only
      rw [hclaims]
      dsimp only
      rw [hlen] at hphases
      rw [List.drop_replicate, List.length_map, hlen, Nat.sub_self, List.replicate_zero,
        List.append_nil, if_neg (not_not.2 rfl), hphases]
      dsimp only
      rw [hfree]
      rfl
  · rw [hfail] at hclaim
    exact absurd hclaim (by simp)

/-- Two swap devices of 1 MiB, without failures. -/
theorem autoswapInBounds_two_devices :
    AutoswapInBounds (fun _ => none) 2 1 twoDevices ↔ (2 : ℤ) ≤ 255 :=
  autoswapInBounds_iff _ (by simp) (by decide +kernel)

/-- 256 devices: none is claimed, and `zram_mkswap` is called with NULL. -/
theorem autoswapInBounds_256_devices :
    (zramClaimSeveralNextFree (fun _ => none) (UInt8.ofNat (256 : ℤ).toNat) 1 twoDevices).1 = 0 ∧
      (∃ run, zramDoAutoswapRun (fun _ => none) 257 256 1 (List.replicate 256 none) twoDevices =
        some (.error .nullPointer, run) ∧ run.calls = [.mkswap none]) ∧
      ¬ AutoswapInBounds (fun _ => none) 256 1 twoDevices := by
  have hclaims : zramClaimSeveralNextFree (fun _ => none) (UInt8.ofNat 256) 1 twoDevices =
      (0, [], twoDevices) := rfl
  refine ⟨rfl, ?_, ?_⟩
  · refine ⟨⟨List.replicate 256 none, [.mkswap none], twoDevices⟩, ?_, rfl⟩
    rw [zramDoAutoswapRun, ushortLoop_null (by simp) (by simp) List.length_replicate]
    dsimp only
    rw [hclaims]
    dsimp only
    rw [List.nil_append, List.length_nil, List.drop_zero, if_neg (not_not.2 rfl),
      autoswapPhases, zramDoAutoswapMkswap, ushortLoop_eq (by simp) (by simp)]
    rfl
  · rintro ⟨devs, _, hclaims', hlen, -⟩
    have hsame : [] = devs.map some := by
      rw [show (256 : ℤ).toNat = 256 from rfl, hclaims] at hclaims'
      exact congrArg (fun r => r.2.1) hclaims'
    have hnil : devs = [] := List.map_eq_nil_iff.1 hsame.symm
    rw [hnil] at hlen
    exact absurd hlen (by simp)

end Fischstaebchen
