/-
  The search for a free zram device (`zram/zallocate.c`).

  On a kernel with the devices 0 .. N-1 whose operations fail for no reasons of
  their own, `zram_claim_next_free` searches from a hint on, and once more from
  the first device on.

  * `claimAttempt_cases`: an attempt to claim one device.
  * `claimNextFreeLoop_search`: one pass misses no free device, as only missing
    devices follow a missing one.
  * `zramClaimNextFree_search`: hence a call finds a free device if there is one,
    from any hint.
  * `zramClaimNextFree_calls`: in any sequence of calls, and no device is handed
    out twice.
-/
import Fischstaebchen.Zram.Allocate

namespace Fischstaebchen

/-- No operation fails for reasons of its own. -/
def noFaults : Faults := fun _ => none

/-- The kernel has the devices 0 .. N-1. -/
def HasDevices (N : ℕ) (st : ZramState) : Prop := ∀ i, st.dev i = .absent ↔ N ≤ i.toNat

theorem HasDevices.congr {N : ℕ} {st st' : ZramState} (h : HasDevices N st)
    (hdev : st'.dev = st.dev) : HasDevices N st' := by
  intro i
  rw [hdev]
  exact h i

/-- Claiming a device keeps it. -/
theorem HasDevices.claims {N : ℕ} {st st' : ZramState} {dev : ZramDevInfo} (h : HasDevices N st)
    (hc : Claims st dev st') : HasDevices N st' := by
  obtain ⟨hfree, -, d, ⟨n, rfl⟩, hdev⟩ := hc
  intro i
  rw [hdev]
  by_cases hi : i = dev.identifier
  · have hpresent := (not_congr (h dev.identifier)).1 (by rw [hfree]; exact ZramDev.noConfusion)
    subst hi
    rw [Function.update_self]
    exact iff_of_false ZramDev.noConfusion hpresent
  · rw [Function.update_of_ne hi]
    exact h i

/-! ## One attempt -/

/-- The number of bytes for a size in MiB; it does not depend on the device. -/
def sizeBytes (globals : ZramGlobals) (sizeM : UInt64) : UInt64 :=
  getZramDevSizeB globals { zramDevInfoNewFromIdentifier 0 with sizeM := sizeM }

section
variable (globals : ZramGlobals) (i : UInt8) (sizeM : UInt64) {st : ZramState}

/-- Writing the disk size of a free device. -/
theorem zramClaimDeviceDoClaim_free {dev : ZramDevInfo} {sizeB : UInt64}
    (hfree : st.dev dev.identifier = .free) (hsize : sizeB ≠ 0) :
    zramClaimDeviceDoClaim noFaults dev sizeB st =
      (0, { dev with status := dev.status ||| (zramStatusClaimed ||| zramStatusInitialized) },
        (st.setErrno (.other 0)).next.setDev dev.identifier (.initialized sizeB false)) := by
  have hwrite : writeDisksize noFaults dev.identifier (st.setErrno (.other 0)) sizeB =
      (0, (st.setErrno (.other 0)).next.setDev dev.identifier (.initialized sizeB false)) := by
    simp only [writeDisksize, noFaults, ZramState.setErrno_dev, hfree, if_neg hsize]
  simp only [zramClaimDeviceDoClaim, hwrite, if_true]

/-- Setting the compression of a free device. -/
theorem zramClaimDeviceSetCompression_free {dev : ZramDevInfo}
    (hfree : st.dev dev.identifier = .free) (hcomp : dev.compAlgorithm = zramCompDefault) :
    zramClaimDeviceSetCompression noFaults dev st = (0, dev, (st.setErrno (.other 0)).next) := by
  have hwrite : ∀ alg, writeCompAlgorithm noFaults dev.identifier (st.setErrno (.other 0)) alg =
      (0, (st.setErrno (.other 0)).next) := by
    intro alg
    simp only [writeCompAlgorithm, noFaults, ZramState.setErrno_dev, hfree]
  simp [zramClaimDeviceSetCompression, hcomp, zramCompDefault, zramGetCompDesc, hwrite]

/-- **Claiming a free device**: it is claimed, released and claimed again. -/
theorem zramClaimDeviceAndSetCompression_free {dev : ZramDevInfo} {sizeB : UInt64}
    (hfree : st.dev dev.identifier = .free) (hsize : sizeB ≠ 0)
    (hcomp : dev.compAlgorithm = zramCompDefault) :
    (zramClaimDeviceAndSetCompression noFaults dev sizeB st).1 = 0 ∧
      (zramClaimDeviceAndSetCompression noFaults dev sizeB st).2.2.globals = st.globals := by
  have hclaim := zramClaimDeviceDoClaim_free hfree hsize
  set dev₁ : ZramDevInfo :=
    { dev with status := dev.status ||| (zramStatusClaimed ||| zramStatusInitialized) } with hdev₁
  set st₁ := (st.setErrno (.other 0)).next.setDev dev.identifier (.initialized sizeB false)
    with hst₁
  have hidle : (st₁.dev dev₁.identifier).IsIdle :=
    ⟨sizeB, by rw [hst₁]; exact Function.update_self _ _ _⟩
  have hrelease := zramDoReleaseDevice_idle hidle
  set dev₂ : ZramDevInfo :=
    { dev₁ with status := dev₁.status &&& ~~~(zramStatusClaimed ||| zramStatusInitialized) }
    with hdev₂
  set st₂ := (st₁.setErrno (.other 0)).setDev dev₁.identifier .free with hst₂
  have hfree₂ : st₂.dev dev₂.identifier = .free := Function.update_self _ _ _
  have hcompress := zramClaimDeviceSetCompression_free hfree₂ hcomp
  have hfree₃ : (st₂.setErrno (.other 0)).next.dev dev₂.identifier = .free := hfree₂
  have hreclaim := zramClaimDeviceDoClaim_free hfree₃ hsize
  simp only [zramClaimDeviceAndSetCompression, hclaim, hrelease, hcompress, hreclaim, ne_eq,
    not_true_eq_false, if_false]
  exact ⟨trivial, rfl⟩

end

/-- **An attempt to claim a device**: it succeeds on a free device, unless the
    size is 0; on a claimed one `errno` is `EBUSY`, on a missing one `ENOENT`. -/
theorem claimAttempt_cases (globals : ZramGlobals) (i : UInt8) (sizeM : UInt64) (st : ZramState) :
    let r := zramClaimDeviceFromIdentifier noFaults globals i sizeM st
    r.2.globals = st.globals ∧
      ((st.dev i = .free ∧ sizeBytes globals sizeM ≠ 0 ∧
          ∃ dev, r.1 = some dev ∧ dev.identifier = i ∧ Claims st dev r.2) ∨
        (r.1 = none ∧ r.2.dev = st.dev ∧ (sizeBytes globals sizeM ≠ 0 → st.dev i ≠ .free) ∧
          (st.dev i = .absent → r.2.errno = .ENOENT) ∧
          ((∃ n inUse, st.dev i = .initialized n inUse) → r.2.errno = .EBUSY))) := by
  have hsize : getZramDevSizeB globals
      { zramDevInfoNewFromIdentifier i with sizeM := sizeM } = sizeBytes globals sizeM := rfl
  cases hdev : st.dev i with
  | absent =>
    simp [zramClaimDeviceFromIdentifier, zramClaimDevice, zramClaimDeviceCheckInitstate,
      readInitstate, noFaults, zramDevInfoNewFromIdentifier, hdev]
  | initialized n inUse =>
    simp [zramClaimDeviceFromIdentifier, zramClaimDevice, zramClaimDeviceCheckInitstate,
      readInitstate, noFaults, zramDevInfoNewFromIdentifier, hdev]
  | free =>
    set dev : ZramDevInfo := { zramDevInfoNewFromIdentifier i with sizeM := sizeM } with hdev₀
    have hcheck : zramClaimDeviceCheckInitstate noFaults dev st = (0, st.next) := by
      simp [zramClaimDeviceCheckInitstate, readInitstate, noFaults, hdev₀,
        zramDevInfoNewFromIdentifier, hdev]
    have hrun : zramClaimDevice noFaults globals dev st =
        if sizeBytes globals sizeM = 0 then (-1, dev, st.next)
        else zramClaimDeviceAndSetCompression noFaults dev (sizeBytes globals sizeM) st.next := by
      simp only [zramClaimDevice, hcheck, ← hsize, ne_eq, not_true_eq_false, if_false]
      rw [if_neg (by simp [hdev₀, zramDevInfoNewFromIdentifier])]
    have hcases := zramClaimDevice_cases noFaults dev st globals rfl rfl
    by_cases hzero : sizeBytes globals sizeM = 0
    · rw [if_pos hzero] at hrun
      simp [zramClaimDeviceFromIdentifier, ← hdev₀, hrun, hzero]
    · rw [if_neg hzero] at hrun
      have hnext : st.next.dev dev.identifier = .free := hdev
      obtain ⟨h0, hglobals⟩ := zramClaimDeviceAndSetCompression_free hnext hzero rfl
      rw [← hrun] at h0 hglobals
      rcases hcases with ⟨-, hfree, hid, hclaimed, d, hd, hupdate⟩ | ⟨h1, -⟩
      · simp only [zramClaimDeviceFromIdentifier, ← hdev₀, h0, ne_eq, not_true_eq_false, if_false]
        refine ⟨hglobals, Or.inl ⟨trivial, hzero, _, rfl, hid, ?_, hclaimed, d, hd, ?_⟩⟩
        · rw [hid]; exact hfree
        · rw [hid]; exact hupdate
      · exact absurd h0 h1

/-! ## One pass -/

/-- What a search for a device with an identifier from `start` on does: it hands
    out a free one and moves the hint behind it, or there is none and nothing
    changes. -/
def Searched (start : ℕ) (globals : ZramGlobals) (sizeM : UInt64) (st : ZramState)
    (r : Except ℤ ZramDevInfo × ZramState) : Prop :=
  (∃ dev, r.1 = .ok dev ∧ sizeBytes globals sizeM ≠ 0 ∧ Claims st dev r.2 ∧
      r.2.globals = some { globals with nextFreeIdentifier := dev.identifier + 1 }) ∨
    ∃ e, r.1 = .error e ∧ e ≠ 0 ∧ r.2.dev = st.dev ∧ r.2.globals = st.globals ∧
      (sizeBytes globals sizeM ≠ 0 → ∀ i, start ≤ i.toNat → st.dev i ≠ .free)

/-- A search after attempts that changed nothing and passed by no free device. -/
theorem Searched.after {start start' : ℕ} {globals : ZramGlobals} {sizeM : UInt64}
    {st st' : ZramState} {r : Except ℤ ZramDevInfo × ZramState}
    (h : Searched start' globals sizeM st' r) (hdev : st'.dev = st.dev)
    (hglobals : st'.globals = st.globals)
    (hbefore : sizeBytes globals sizeM ≠ 0 →
      ∀ i, start ≤ i.toNat → i.toNat < start' → st.dev i ≠ .free) :
    Searched start globals sizeM st r := by
  rcases h with ⟨dev, hr, hsize, hclaims, hhint⟩ | ⟨e, hr, he, hrdev, hrglobals, hnone⟩
  · refine Or.inl ⟨dev, hr, hsize, ?_, hhint⟩
    unfold Claims at hclaims ⊢
    rwa [hdev] at hclaims
  · refine Or.inr ⟨e, hr, he, hrdev.trans hdev, hrglobals.trans hglobals, fun hsize i hi => ?_⟩
    by_cases hlt : i.toNat < start'
    · exact hbefore hsize i hi hlt
    · rw [← hdev]
      exact hnone hsize i (not_lt.1 hlt)

/-- **One pass misses no free device.**  It goes on after claimed devices; after
    a missing one there are only missing ones. -/
theorem claimNextFreeLoop_search {N : ℕ} (globals : ZramGlobals) (sizeM : UInt64) :
    ∀ (n start : ℕ) (st : ZramState), start + n = 256 → HasDevices N st →
      Searched start globals sizeM st
        (claimNextFreeLoop noFaults globals sizeM (List.range' start n) st)
  | 0, start, st, hlen, _ => by
    refine Or.inr ⟨-1, rfl, by decide, rfl, rfl, fun _ i hi => ?_⟩
    have hlt := i.toNat_lt
    omega
  | n + 1, start, st, hlen, hdevs => by
    have hident : (UInt8.ofNat start).toNat = start := UInt8.toNat_ofNat_of_lt' (by
      show start < 256
      omega)
    obtain ⟨hglobals, hattempt⟩ := claimAttempt_cases globals (UInt8.ofNat start) sizeM st
    set r := zramClaimDeviceFromIdentifier noFaults globals (UInt8.ofNat start) sizeM st with hr
    rw [List.range'_succ, claimNextFreeLoop, ← hr]
    rcases hattempt with ⟨hfree, hsize, dev, hsome, hid, hclaims⟩ |
      ⟨hnone, hdev, hnotfree, hmissing, hbusy⟩
    · rw [hsome]
      refine Or.inl ⟨dev, rfl, hsize, ?_, ?_⟩
      · exact hclaims
      · rw [hid]
        rfl
    · -- the device at `start` is passed by
      have hpassed : sizeBytes globals sizeM ≠ 0 →
          ∀ i : UInt8, start ≤ i.toNat → i.toNat < start + 1 → st.dev i ≠ .free := by
        intro hsize i hle hlt
        have hi : i = UInt8.ofNat start := UInt8.toNat_inj.1 (by omega)
        rw [hi]
        exact hnotfree hsize
      have hrest := claimNextFreeLoop_search globals sizeM n (start + 1) r.2 (by omega)
        (hdevs.congr hdev)
      rw [hnone]
      dsimp only
      split_ifs with hagain
      · -- not worth trying again: all devices from `start` on are missing
        refine Or.inr ⟨-2, rfl, by simp, hdev, hglobals, fun hsize i hi hfree => ?_⟩
        cases hstart : st.dev (UInt8.ofNat start) with
        | absent =>
          have hN := (hdevs _).1 hstart
          have hi' := (hdevs i).2 (by omega)
          rw [hfree] at hi'
          cases hi'
        | free => exact hnotfree hsize hstart
        | initialized disksize inUse =>
          rw [hbusy ⟨disksize, inUse, hstart⟩] at hagain
          exact absurd hagain (by decide)
      · exact hrest.after hdev hglobals hpassed

/-! ## A call -/

/-- **A call of `zram_claim_next_free`** finds a free device if there is one: from
    the hint on, or else from the first device on. -/
theorem zramClaimNextFree_search {N : ℕ} {globals : ZramGlobals} {st : ZramState}
    (hdevs : HasDevices N st) (hglobals : st.globals = some globals) (sizeM : UInt64) :
    Searched 0 globals sizeM st (zramClaimNextFree noFaults sizeM (some none) st) := by
  have hpass : ∀ (start : UInt8) (st : ZramState), HasDevices N st →
      Searched start.toNat globals sizeM st
        (zramClaimNextFreeStartfrom noFaults globals start sizeM st) := by
    intro start st h
    have hlt := start.toNat_lt
    exact claimNextFreeLoop_search globals sizeM _ _ st (by omega) h
  have hall : ∀ st : ZramState, HasDevices N st →
      Searched 0 globals sizeM st (zramClaimNextFreeStartfrom noFaults globals 0 sizeM st) :=
    fun st h => hpass 0 st h
  unfold zramClaimNextFree
  rw [hglobals]
  dsimp only
  split_ifs with hhint
  · have hfirst := hpass globals.nextFreeIdentifier st hdevs
    rcases hr : zramClaimNextFreeStartfrom noFaults globals globals.nextFreeIdentifier sizeM st with
      ⟨e | dev, st'⟩
    · -- the second pass searches all devices
      rw [hr] at hfirst
      rcases hfirst with ⟨dev, hok, -⟩ | ⟨-, -, -, hdev, hsame, -⟩
      · cases hok
      · exact (hall st' (hdevs.congr hdev)).after hdev hsame fun _ i _ hi => absurd hi (by omega)
    · rw [hr] at hfirst
      rcases hfirst with ⟨dev', hok, hsize, hclaims, hnext⟩ | ⟨e, herr, -⟩
      · exact Or.inl ⟨dev', hok, hsize, hclaims, hnext⟩
      · cases herr
  · exact hall st hdevs

/-! ## Sequences of calls -/

/-- Calls of `zram_claim_next_free` for these sizes, one after the other: their
    results and the state at the end. -/
def claimNextFreeCalls (F : Faults) :
    List UInt64 → ZramState → List (Except ℤ ZramDevInfo) × ZramState
  | [], st => ([], st)
  | sizeM :: sizes, st =>
    let r := zramClaimNextFree F sizeM (some none) st
    let rs := claimNextFreeCalls F sizes r.2
    (r.1 :: rs.1, rs.2)

/-- The devices that were handed out. -/
def handedOut (results : List (Except ℤ ZramDevInfo)) : List ZramDevInfo :=
  results.filterMap Except.toOption

/-- The state after some calls: the kernel and `zram_globals`, apart from the
    hint. -/
structure SearchState (N : ℕ) (globals : ZramGlobals) (st : ZramState) : Prop where
  devices : HasDevices N st
  globals : ∃ hint, st.globals = some { globals with nextFreeIdentifier := hint }

theorem SearchState.search {N : ℕ} {globals : ZramGlobals} {st : ZramState}
    (h : SearchState N globals st) (sizeM : UInt64) :
    Searched 0 globals sizeM st (zramClaimNextFree noFaults sizeM (some none) st) := by
  obtain ⟨hint, hglobals⟩ := h.globals
  exact zramClaimNextFree_search h.devices hglobals sizeM

/-- A call keeps the kernel's devices and the rest of `zram_globals`. -/
theorem SearchState.next {N : ℕ} {globals : ZramGlobals} {st : ZramState}
    (h : SearchState N globals st) (sizeM : UInt64) :
    SearchState N globals (zramClaimNextFree noFaults sizeM (some none) st).2 := by
  rcases h.search sizeM with ⟨dev, -, -, hclaims, hhint⟩ | ⟨-, -, -, hdev, hglobals, -⟩
  · exact ⟨h.devices.claims hclaims, _, hhint⟩
  · obtain ⟨hint, hsome⟩ := h.globals
    exact ⟨h.devices.congr hdev, hint, hglobals.trans hsome⟩

theorem SearchState.calls {N : ℕ} {globals : ZramGlobals} : ∀ {sizes : List UInt64}
    {st : ZramState}, SearchState N globals st →
      SearchState N globals (claimNextFreeCalls noFaults sizes st).2
  | [], _, h => h
  | sizeM :: _, _, h => (h.next sizeM).calls

/-- What has been handed out has been claimed, one device after the other. -/
theorem claimNextFreeCalls_claimed {base : UInt8 → ZramDev} : ∀ {sizes : List UInt64}
    {devs : List ZramDevInfo} {st : ZramState}, ClaimedDevs base devs st →
      ClaimedDevs base (devs ++ handedOut (claimNextFreeCalls noFaults sizes st).1)
        (claimNextFreeCalls noFaults sizes st).2
  | [], devs, st, h => by simpa [handedOut, claimNextFreeCalls] using h
  | sizeM :: sizes, devs, st, h => by
    have hcall := zramClaimNextFree_cases noFaults sizeM (some none) st
    rw [claimNextFreeCalls]
    rcases hr : zramClaimNextFree noFaults sizeM (some none) st with ⟨e | dev, st'⟩ <;>
      rw [hr] at hcall
    · have hsame : ClaimedDevs base devs st' :=
        ⟨by rw [show st'.dev = st.dev from hcall]; exact h.kernel, h.infos⟩
      exact claimNextFreeCalls_claimed hsame
    · have hrest := @claimNextFreeCalls_claimed base sizes _ _ (h.claim hcall)
      rw [List.append_assoc] at hrest
      exact hrest

/-- **What a call does**: it returns 0 if and only if a device is free (and the
    size is not 0); then it hands out a free device and moves the hint behind
    it, else it changes no device. -/
structure ClaimCall (globals : ZramGlobals) (sizeM : UInt64) (st : ZramState)
    (r : Except ℤ ZramDevInfo × ZramState) : Prop where
  returns_zero : r.1.isOk = true ↔ sizeBytes globals sizeM ≠ 0 ∧ ∃ i, st.dev i = .free
  hands_out : ∀ dev, r.1 = .ok dev → Claims st dev r.2 ∧
    ∃ g, r.2.globals = some g ∧ g.nextFreeIdentifier.toNat = (dev.identifier.toNat + 1) % 256
  fails : ∀ e, r.1 = .error e → e ≠ 0 ∧ r.2.dev = st.dev

theorem Searched.claimCall {globals : ZramGlobals} {sizeM : UInt64} {st : ZramState}
    {r : Except ℤ ZramDevInfo × ZramState} (h : Searched 0 globals sizeM st r) :
    ClaimCall globals sizeM st r := by
  rcases h with ⟨dev, hr, hsize, hclaims, hhint⟩ | ⟨e, hr, he, hdev, -, hnone⟩
  · refine ⟨?_, fun dev' hdev' => ?_, fun e' he' => ?_⟩
    · rw [hr]
      exact iff_of_true rfl ⟨hsize, dev.identifier, hclaims.1⟩
    · obtain rfl : dev = dev' := by
        rw [hr] at hdev'
        exact Except.ok.inj hdev'
      refine ⟨hclaims, _, hhint, ?_⟩
      rw [UInt8.toNat_add]
      rfl
    · rw [hr] at he'
      cases he'
  · refine ⟨?_, fun dev' hdev' => ?_, fun e' he' => ?_⟩
    · rw [hr]
      exact iff_of_false Bool.false_ne_true fun ⟨hsize, i, hi⟩ => hnone hsize i (Nat.zero_le _) hi
    · rw [hr] at hdev'
      cases hdev'
    · obtain rfl : e = e' := by
        rw [hr] at he'
        exact Except.error.inj he'
      exact ⟨he, hdev⟩

/-- **The next-free search**, for any claimed devices, hint and sequence of calls:
    every call hands out a free device if there is one, and no device is handed
    out twice. -/
theorem zramClaimNextFree_calls {N : ℕ} {globals : ZramGlobals} {st : ZramState}
    (hdevs : HasDevices N st) (hglobals : st.globals = some globals) (sizes : List UInt64) :
    (∀ pre sizeM post, sizes = pre ++ sizeM :: post →
      ClaimCall globals sizeM (claimNextFreeCalls noFaults pre st).2
        (zramClaimNextFree noFaults sizeM (some none) (claimNextFreeCalls noFaults pre st).2)) ∧
    ((handedOut (claimNextFreeCalls noFaults sizes st).1).map ZramDevInfo.identifier).Nodup ∧
    ∀ dev ∈ handedOut (claimNextFreeCalls noFaults sizes st).1, st.dev dev.identifier = .free := by
  have hstart : SearchState N globals st := ⟨hdevs, _, hglobals⟩
  have hclaimed := @claimNextFreeCalls_claimed st.dev sizes _ _ (claimedDevs_nil.2 rfl)
  rw [List.nil_append] at hclaimed
  refine ⟨fun pre sizeM post _ => (hstart.calls.search sizeM).claimCall, hclaimed.kernel.nodup,
    fun dev hdev => hclaimed.kernel.wasFree _ (List.mem_map_of_mem hdev)⟩

theorem twoDevices_hasDevices : HasDevices 2 twoDevices := by
  intro i
  unfold twoDevices
  dsimp only
  split_ifs with hi
  · exact iff_of_false nofun (not_le.2 hi)
  · exact iff_of_true rfl (not_lt.1 hi)

/-- Three calls on two devices. -/
theorem zramClaimNextFree_calls_two_devices :
    (∀ pre sizeM post, [1, 1, 1] = pre ++ sizeM :: post →
      ClaimCall ⟨0, 4096⟩ sizeM (claimNextFreeCalls noFaults pre twoDevices).2
        (zramClaimNextFree noFaults sizeM (some none)
          (claimNextFreeCalls noFaults pre twoDevices).2)) ∧
    ((handedOut (claimNextFreeCalls noFaults [1, 1, 1] twoDevices).1).map
      ZramDevInfo.identifier).Nodup ∧
    ∀ dev ∈ handedOut (claimNextFreeCalls noFaults [1, 1, 1] twoDevices).1,
      twoDevices.dev dev.identifier = .free :=
  zramClaimNextFree_calls twoDevices_hasDevices rfl [1, 1, 1]

end Fischstaebchen
