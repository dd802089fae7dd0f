/-
  zram swap devices (`zram/swap.c`, `zram/autoswap.c`).

  `zram_do_autoswap` claims a number of devices, runs mkswap on all of them and
  then activates all of them.  After a failure it cleans up.

  * `autoswapMkswapLoop_cases`, `autoswapSwaponLoop_cases`: what the phases leave
    behind.
  * `autoswapAtomic_iff`: when a failed call leaves no device behind.
-/
import Fischstaebchen.Zram.Allocate

namespace Fischstaebchen

section
variable (F : Faults)

/-! ## Swap devices -/

/-- `swapon`. -/
def swapon (i : UInt8) (st : ZramState) : ℤ × ZramState :=
  match F st.tick, st.dev i with
  | some e, _ => (-1, st.next.setErrno e)
  | none, .absent => (-1, st.next.setErrno .ENOENT)
  | none, .free => (-1, st.next.setErrno .EINVAL)
  | none, .initialized _ true => (-1, st.next.setErrno .EBUSY)
  | none, .initialized n false => (0, st.next.setDev i (.initialized n true))

/-- `swapoff`, which has no failures of its own. -/
def swapoff (i : UInt8) (st : ZramState) : ℤ × ZramState :=
  match st.dev i with
  | .initialized n true => (0, st.setDev i (.initialized n false))
  | _ => (-1, st.setErrno .EINVAL)

/-- `zram_swapon`. -/
def zramSwapon (dev : ZramDevInfo) (st : ZramState) : ℤ × ZramDevInfo × ZramState :=
  let r := swapon F dev.identifier (st.setErrno (.other 0))
  if r.1 = 0 ∨ r.2.errno = .EBUSY then
    (0, { dev with status := dev.status ||| zramStatusInuse }, r.2)
  else (-1, dev, r.2)

/-- `zram_swapoff`. -/
def zramSwapoff (dev : ZramDevInfo) (st : ZramState) : ℤ × ZramDevInfo × ZramState :=
  let r := swapoff dev.identifier (st.setErrno (.other 0))
  -- `errno = EINVAL` is an assignment, so that a failure counts as success
  let st := if r.1 = 0 then r.2 else r.2.setErrno .EINVAL
  (0, { dev with status := dev.status &&& ~~~zramStatusInuse }, st)

/-- `zram_mknod`. -/
def zramMknod (st : ZramState) : ℤ × ZramState :=
  match F st.tick with
  | some e => (-1, st.next.setErrno e)
  | none => (0, st.next)

/-- `run_command_quiet` of the mkswap program: its exit code. -/
def runMkswap (st : ZramState) : ℤ × ZramState :=
  match F st.tick with
  | some _ => (1, st.next)
  | none => (0, st.next)

/-- `zram_mkswap`. -/
def zramMkswap (dev : ZramDevInfo) (st : ZramState) : ℤ × ZramDevInfo × ZramState :=
  if dev.type ≠ zramTypeNone ∧ dev.type ≠ zramTypeSwap then (-5, dev, st)
  else if dev.status &&& zramStatusInuse ≠ 0 then (-1, dev, st)
  else
    let r := zramMknod F st
    if r.1 ≠ 0 then (-1, dev, r.2)
    else
      let r := runMkswap F r.2
      if r.1 = 0 then (r.1, { dev with type := zramTypeSwap }, r.2) else (r.1, dev, r.2)

/-- The loop of `zram_release_devices`, from index `k` on. -/
def releaseDevicesLoop (force : ℤ) : ℕ → ℕ → List (Option ZramDevInfo) → ℤ → ZramState →
    ℤ × List (Option ZramDevInfo) × ZramState
  | 0, _, devs, retcode, st => (retcode, devs, st)
  | n + 1, k, devs, retcode, st =>
    match devs.getD k none with
    | none => releaseDevicesLoop force n (k + 1) devs retcode st
    | some dev =>
      let r := zramReleaseDevice dev force st
      releaseDevicesLoop force n (k + 1) (devs.set k (some r.2.1))
        (if r.1 ≠ 0 then r.1 else retcode) r.2.2

/-- `zram_release_devices`. -/
def zramReleaseDevices (numDevices : UInt8) (devs : List (Option ZramDevInfo)) (force : ℤ)
    (st : ZramState) : ℤ × List (Option ZramDevInfo) × ZramState :=
  releaseDevicesLoop force numDevices.toNat 0 devs 0 st

/-! ## Autoswap -/

/-- `zram_autoswap_guess_fractional`: the default share of the memory `m`. -/
def zramAutoswapGuessFractional (m : ℕ) : CStr :=
  if m ≥ 40000 then "/7".toList
  else if m ≥ 30000 then "/6".toList
  else if m ≥ 20000 then "/5".toList
  else if m ≥ 10000 then "/4".toList
  else "/2".toList

/-- What has no result: the use of a NULL pointer, and a loop without end. -/
inductive Undefined
  | nullPointer
  | endless
deriving DecidableEq

/-- The loop of `_zram_do_autoswap_mkswap`, from index `k` on. -/
def autoswapMkswapLoop : ℕ → ℕ → List (Option ZramDevInfo) → ZramState →
    Except Undefined (ℤ × List (Option ZramDevInfo) × ZramState)
  | 0, _, devices, st => .ok (0, devices, st)
  | n + 1, k, devices, st =>
    match devices.getD k none with
    | none => .error .nullPointer
    | some dev =>
      let r := zramMkswap F dev st
      let devices := devices.set k (some r.2.1)
      if r.1 ≠ 0 then
        let rel := zramReleaseDevices (UInt8.ofNat k) devices 1 r.2.2
        .ok (-1, rel.2.1, rel.2.2)
      else autoswapMkswapLoop n (k + 1) devices r.2.2

/-- The loop over `zram_swapoff` in `_zram_do_autoswap_swapon`, from index `j` on. -/
def autoswapSwapoffLoop : ℕ → ℕ → List (Option ZramDevInfo) → ZramState →
    Except Undefined (List (Option ZramDevInfo) × ZramState)
  | 0, _, devices, st => .ok (devices, st)
  | n + 1, j, devices, st =>
    match devices.getD j none with
    | none => .error .nullPointer
    | some dev =>
      let r := zramSwapoff dev st
      autoswapSwapoffLoop n (j + 1) (devices.set j (some r.2.1)) r.2.2

/-- The loop of `_zram_do_autoswap_swapon`, from index `k` on. -/
def autoswapSwaponLoop (numSwaps : ℕ) : ℕ → ℕ → List (Option ZramDevInfo) → ZramState →
    Except Undefined (ℤ × List (Option ZramDevInfo) × ZramState)
  | 0, _, devices, st => .ok (0, devices, st)
  | n + 1, k, devices, st =>
    match devices.getD k none with
    | none => .error .nullPointer
    | some dev =>
      let r := zramSwapon F dev st
      let devices := devices.set k (some r.2.1)
      if r.1 ≠ 0 then
        match autoswapSwapoffLoop k 0 devices r.2.2 with
        | .error e => .error e
        | .ok (devices, st) =>
          let rel := zramReleaseDevices (UInt8.ofNat numSwaps) devices 0 st
          .ok (-1, rel.2.1, rel.2.2)
      else autoswapSwaponLoop numSwaps n (k + 1) devices r.2.2

/-- `_zram_do_autoswap`: the return code. -/
def zramDoAutoswapUnchecked (numSwaps : ℕ) (swapSize : UInt64) (st : ZramState) :
    Except Undefined (ℤ × ZramState) :=
  -- the index is an `ushort`
  if numSwaps > 65535 then .error .endless
  else
    let r := zramClaimSeveralNextFree F (UInt8.ofNat numSwaps) swapSize st
    if r.1 ≠ 0 then .ok (-1, r.2.2)
    else
      let devices := r.2.1 ++ List.replicate (numSwaps - r.2.1.length) none
      match autoswapMkswapLoop F numSwaps 0 devices r.2.2 with
      | .error e => .error e
      | .ok (ret, devices, st) =>
        if ret ≠ 0 then .ok (-1, st)
        else
          match autoswapSwaponLoop F numSwaps numSwaps 0 devices st with
          | .error e => .error e
          | .ok (ret, _, st) => if ret ≠ 0 then .ok (-1, st) else .ok (0, st)

/-- `zram_do_autoswap`. -/
def zramDoAutoswap (numSwaps : ℤ) (swapSize : UInt64) (st : ZramState) :
    Except Undefined (ℤ × ZramState) :=
  if swapSize < 1 ∨ numSwaps < 1 then .ok (-1, st.setErrno .EINVAL)
  else zramDoAutoswapUnchecked F numSwaps.toNat swapSize st

end

/-! ## Releasing -/

section
variable {base : UInt8 → ZramDev} {dev : ZramDevInfo} {st : ZramState}

/-- A claimed device is released with and without force. -/
theorem ClaimedDevs.release {devs : List ZramDevInfo} (h : ClaimedDevs base (dev :: devs) st)
    (force : ℤ) : (zramReleaseDevice dev force st).1 = 0 ∧
      ClaimedDevs base devs (zramReleaseDevice dev force st).2.2 := by
  have hidle : (st.dev dev.identifier).IsIdle := h.kernel.isTaken _ (by simp)
  have hstatus := (h.infos dev (by simp)).status
  have hrel : zramReleaseDevice dev force st = zramDoReleaseDevice dev st := by
    rw [zramReleaseDevice, hstatus, if_neg fun hc => absurd hc.2 (by decide),
      if_neg fun hc => absurd hc.2 (by decide)]
  rw [hrel, zramDoReleaseDevice_idle hidle]
  exact ⟨rfl, h.kernel.release, fun e he => h.infos e (by simp [he])⟩

/-- **`zram_release_devices`** releases the first `n` devices. -/
theorem releaseDevicesLoop_claimed (force : ℤ) : ∀ (n k : ℕ) (arr : List (Option ZramDevInfo))
    (devs : List ZramDevInfo) (st : ZramState), arr.drop k = devs.map some → n ≤ devs.length →
      ClaimedDevs base devs st →
      (releaseDevicesLoop force n k arr 0 st).1 = 0 ∧
        ClaimedDevs base (devs.drop n) (releaseDevicesLoop force n k arr 0 st).2.2
  | 0, _, _, _, _, _, _, h => ⟨rfl, h⟩
  | n + 1, k, arr, devs, st, harr, hn, h => by
    obtain ⟨dev, devs, rfl⟩ : ∃ d ds, devs = d :: ds :=
      List.exists_cons_of_length_pos (by omega)
    have hget : arr.getD k none = some dev := by
      have := congrArg (fun l => l.getD 0 none) harr
      simpa [List.getD_eq_getElem?_getD] using this
    have hdrop : ∀ d, (arr.set k d).drop (k + 1) = devs.map some := fun d => by
      rw [List.drop_set_of_lt (by omega), ← List.drop_drop, harr]; rfl
    obtain ⟨h0, hrest⟩ := h.release force
    simp only [releaseDevicesLoop, hget, h0, ne_eq, not_true_eq_false, if_false]
    exact releaseDevicesLoop_claimed force n (k + 1) _ devs _ (hdrop _)
      (by simpa using hn) hrest

/-! ## mkswap -/

/-- mkswap on a claimed device makes two calls that may fail. -/
theorem zramMkswap_claimed (F : Faults) (hdev : dev.Claimed) (st : ZramState) :
    ((zramMkswap F dev st).1 = 0 ↔ F st.tick = none ∧ F (st.tick + 1) = none) ∧
      ((zramMkswap F dev st).1 = 0 → (zramMkswap F dev st).2.2.tick = st.tick + 2) ∧
      (zramMkswap F dev st).2.1.identifier = dev.identifier ∧ (zramMkswap F dev st).2.1.Claimed ∧
      (zramMkswap F dev st).2.2.dev = st.dev := by
  have htype : ¬ (dev.type ≠ zramTypeNone ∧ dev.type ≠ zramTypeSwap) := fun h =>
    hdev.type.elim h.1 h.2
  have hinuse : ¬ (dev.status &&& zramStatusInuse ≠ 0) := by rw [hdev.status]; decide
  rw [zramMkswap, if_neg htype, if_neg hinuse]
  cases h0 : F st.tick with
  | some e => simp [zramMknod, h0, hdev]
  | none =>
    cases h1 : F (st.tick + 1) with
    | some e => simp [zramMknod, runMkswap, h0, h1, hdev]
    | none => simp [zramMknod, runMkswap, h0, h1]; exact ⟨hdev.status, .inr rfl⟩

/-- Replacing the information on a device. -/
theorem ClaimedDevs.replace {before after : List ZramDevInfo} {dev' : ZramDevInfo}
    (h : ClaimedDevs base (before ++ dev :: after) st) (hid : dev'.identifier = dev.identifier)
    (hdev : dev'.Claimed) {st' : ZramState} (hst : st'.dev = st.dev) :
    ClaimedDevs base (before ++ dev' :: after) st' := by
  refine ⟨?_, fun e he => ?_⟩
  · have hk := h.kernel
    simp only [List.map_append, List.map_cons, hid, hst] at hk ⊢
    exact hk
  · rcases List.mem_append.1 he with he | he
    · exact h.infos e (by simp [he])
    · rcases List.mem_cons.1 he with rfl | he
      · exact hdev
      · exact h.infos e (by simp [he])

theorem getD_middle (before after : List ZramDevInfo) (dev : ZramDevInfo) :
    ((before ++ dev :: after).map some).getD before.length none = some dev := by
  simp

theorem set_middle (before after : List ZramDevInfo) (dev dev' : ZramDevInfo) :
    ((before ++ dev :: after).map some).set before.length (some dev') =
      (before ++ dev' :: after).map some := by
  simp

/-- **The mkswap phase**: either all calls succeed and all devices stay claimed,
    or it returns -1 and a device is left behind. -/
theorem autoswapMkswapLoop_cases (F : Faults) : ∀ (after before : List ZramDevInfo)
    (st : ZramState), (before ++ after).length ≤ 255 → ClaimedDevs base (before ++ after) st →
    ∃ ret devs st',
      autoswapMkswapLoop F after.length before.length ((before ++ after).map some) st =
        .ok (ret, devs, st') ∧
      ((∀ j < 2 * after.length, F (st.tick + j) = none) ∧ ret = 0 ∧
          (∃ devs' : List ZramDevInfo, devs = devs'.map some ∧
            devs'.length = (before ++ after).length ∧ ClaimedDevs base devs' st') ∨
        (¬ ∀ j < 2 * after.length, F (st.tick + j) = none) ∧ ret ≠ 0 ∧ st'.dev ≠ base)
  | [], before, st, _, h =>
    ⟨0, _, st, rfl, .inl ⟨by simp, rfl, before ++ [], rfl, rfl, h⟩⟩
  | dev :: after, before, st, hlen, h => by
    obtain ⟨hret, htick, hid, hclaimed, hst⟩ := zramMkswap_claimed F (h.infos dev (by simp)) st
    have h' := h.replace hid hclaimed hst
    rw [List.length_cons, autoswapMkswapLoop, getD_middle]
    dsimp only
    rw [set_middle]
    by_cases h0 : (zramMkswap F dev st).1 = 0
    · -- the next device
      obtain ⟨hf0, hf1⟩ := hret.1 h0
      have hassoc : before ++ (zramMkswap F dev st).2.1 :: after =
          (before ++ [(zramMkswap F dev st).2.1]) ++ after := by simp
      have hlen' : before.length + 1 = (before ++ [(zramMkswap F dev st).2.1]).length := by simp
      have hfaults : (∀ j < 2 * (after.length + 1), F (st.tick + j) = none) ↔
          ∀ j < 2 * after.length, F ((zramMkswap F dev st).2.2.tick + j) = none := by
        rw [htick h0]
        refine ⟨fun hall j hj => ?_, fun hall j hj => ?_⟩
        · rw [Nat.add_assoc]; exact hall (2 + j) (by omega)
        · match j with
          | 0 => exact hf0
          | 1 => exact hf1
          | j + 2 => rw [show st.tick + (j + 2) = st.tick + 2 + j by omega]; exact hall j (by omega)
      rw [hassoc] at h'
      rw [if_neg (not_not.2 h0), hassoc, hlen', hfaults]
      have ih := autoswapMkswapLoop_cases F after (before ++ [(zramMkswap F dev st).2.1])
        (zramMkswap F dev st).2.2 (by simp at hlen ⊢; omega) h'
      simpa [Nat.add_assoc, Nat.add_comm 1] using ih
    · -- the devices before this one are released
      rw [if_pos h0]
      have hk : (UInt8.ofNat before.length).toNat = before.length := by
        rw [UInt8.toNat_ofNat']
        exact Nat.mod_eq_of_lt (by rw [List.length_append] at hlen; omega)
      obtain ⟨-, hleft⟩ := releaseDevicesLoop_claimed 1 before.length 0
        ((before ++ (zramMkswap F dev st).2.1 :: after).map some) _ (zramMkswap F dev st).2.2 rfl
        (by simp) h'
      rw [List.drop_left] at hleft
      refine ⟨-1, _, _, rfl, .inr ⟨fun hall => h0 (hret.2 ⟨?_, ?_⟩), by simp, fun heq => ?_⟩⟩
      · exact hall 0 (by omega)
      · exact hall 1 (by omega)
      · rw [zramReleaseDevices, hk] at heq
        exact hleft.kernel.ne_base not_isIdle_free List.mem_cons_self (congrFun heq _)

/-! ## swapon -/

/-- Initialized, and possibly in use. -/
def ZramDev.IsInitialized (d : ZramDev) : Prop := ∃ disksize inUse, d = .initialized disksize inUse

theorem ZramDev.IsIdle.isInitialized {d : ZramDev} (h : d.IsIdle) : d.IsInitialized :=
  let ⟨n, hn⟩ := h
  ⟨n, false, hn⟩

/-- The information on a device that has been activated. -/
structure ZramDevInfo.Inuse (dev : ZramDevInfo) : Prop where
  status : dev.status = zramStatusClaimed ||| zramStatusInitialized ||| zramStatusInuse
  type : dev.type = zramTypeNone ∨ dev.type = zramTypeSwap

/-- Claimed devices, some of which (`on`) have been activated; those before them
    (`off`) have been deactivated again. -/
structure SwapDevs (base : UInt8 → ZramDev) (off on idle : List ZramDevInfo) (st : ZramState) :
    Prop where
  kernel : Lib.Acquired .free ZramDev.IsInitialized base st.dev
    ((off ++ (on ++ idle)).map ZramDevInfo.identifier)
  idle : ∀ dev ∈ off ++ idle, (st.dev dev.identifier).IsIdle ∧ dev.Claimed
  on : ∀ dev ∈ on, dev.Inuse

theorem ClaimedDevs.swapDevs {devs : List ZramDevInfo} (h : ClaimedDevs base devs st) :
    SwapDevs base [] [] devs st :=
  ⟨h.kernel.of_taken fun k hk => (h.kernel.isTaken k hk).isInitialized,
    fun dev hdev => ⟨h.kernel.isTaken _ (List.mem_map_of_mem hdev), h.infos dev hdev⟩, by simp⟩

section
variable {off on idle : List ZramDevInfo}

theorem SwapDevs.claimedDevs (h : SwapDevs base off [] idle st) :
    ClaimedDevs base (off ++ idle) st :=
  ⟨h.kernel.of_taken fun k hk => by
    obtain ⟨dev, hdev, rfl⟩ := List.mem_map.1 hk
    exact (h.idle dev hdev).1, fun dev hdev => (h.idle dev hdev).2⟩

/-- An identifier occurs once. -/
theorem SwapDevs.ne {before after : List ZramDevInfo}
    (h : Lib.Acquired .free ZramDev.IsInitialized base st.dev
      ((before ++ dev :: after).map ZramDevInfo.identifier)) :
    ∀ d ∈ before ++ after, d.identifier ≠ dev.identifier := by
  have hnodup := h.nodup
  rw [List.map_append, List.map_cons, List.nodup_middle, List.nodup_cons] at hnodup
  intro d hd heq
  exact hnodup.1 (heq ▸ by rw [← List.map_append]; exact List.mem_map_of_mem hd)

/-- `zram_swapon` on an idle device. -/
theorem zramSwapon_idle (F : Faults) (h : (st.dev dev.identifier).IsIdle) :
    (∃ d : ZramDev, d.IsInitialized ∧ zramSwapon F dev st =
        (0, { dev with status := dev.status ||| zramStatusInuse }, (zramSwapon F dev st).2.2) ∧
        (zramSwapon F dev st).2.2.dev = Function.update st.dev dev.identifier d) ∨
      (zramSwapon F dev st).1 ≠ 0 ∧ (zramSwapon F dev st).2.1 = dev ∧
        (zramSwapon F dev st).2.2.dev = st.dev := by
  obtain ⟨n, hn⟩ := h
  have hkeep : st.dev = Function.update st.dev dev.identifier (.initialized n false) := by
    rw [← hn, Function.update_eq_self]
  cases hf : F st.tick with
  | none =>
    refine .inl ⟨.initialized n true, ⟨n, true, rfl⟩, ?_⟩
    simp [zramSwapon, Fischstaebchen.swapon, hf, hn]
  | some e =>
    by_cases he : e = .EBUSY
    · refine .inl ⟨.initialized n false, ⟨n, false, rfl⟩, ?_⟩
      rw [← hkeep]
      simp [zramSwapon, Fischstaebchen.swapon, hf, he, ZramState.setErrno, ZramState.next]
    · right
      simp [zramSwapon, Fischstaebchen.swapon, hf, he, ZramState.setErrno, ZramState.next]

/-- `zram_swapoff` on a device that may be in use. -/
theorem zramSwapoff_initialized (h : (st.dev dev.identifier).IsInitialized) :
    ∃ d : ZramDev, d.IsIdle ∧ zramSwapoff dev st =
      (0, { dev with status := dev.status &&& ~~~zramStatusInuse }, (zramSwapoff dev st).2.2) ∧
      (zramSwapoff dev st).2.2.dev = Function.update st.dev dev.identifier d := by
  obtain ⟨n, b, hn⟩ := h
  refine ⟨.initialized n false, ⟨n, rfl⟩, rfl, ?_⟩
  cases b with
  | true => simp [zramSwapoff, Fischstaebchen.swapoff, hn]
  | false =>
    have hkeep : Function.update st.dev dev.identifier (.initialized n false) = st.dev := by
      rw [← hn, Function.update_eq_self]
    simp [zramSwapoff, Fischstaebchen.swapoff, hn, hkeep]

/-- Activating the next device. -/
theorem SwapDevs.swapon (F : Faults) (h : SwapDevs base [] on (dev :: idle) st) :
    (zramSwapon F dev st).1 = 0 ∧
        SwapDevs base [] (on ++ [(zramSwapon F dev st).2.1]) idle (zramSwapon F dev st).2.2 ∨
      (zramSwapon F dev st).1 ≠ 0 ∧
        SwapDevs base [] on ((zramSwapon F dev st).2.1 :: idle) (zramSwapon F dev st).2.2 := by
  obtain ⟨hidle, hclaimed⟩ := h.idle dev (by simp)
  rcases zramSwapon_idle F hidle with ⟨d, hd, hret, hdev⟩ | ⟨hret, hinfo, hdev⟩
  · left
    have hinfo : (zramSwapon F dev st).2.1 =
        { dev with status := dev.status ||| zramStatusInuse } := congrArg (fun r => r.2.1) hret
    have hne := SwapDevs.ne h.kernel
    refine ⟨congrArg Prod.fst hret, ?_, fun e he => ?_, fun e he => ?_⟩
    · rw [hdev, hinfo]
      have hk := h.kernel.use (k := dev.identifier) (by simp) hd
      simpa using hk
    · have hmem : e ∈ idle := by simpa using he
      rw [hdev, Function.update_of_ne (hne e (by simp [hmem]))]
      exact h.idle e (by simp [hmem])
    · rcases List.mem_append.1 he with he | he
      · exact h.on e he
      · rw [List.mem_singleton.1 he, hinfo]
        exact ⟨by rw [hclaimed.status], hclaimed.type⟩
  · right
    refine ⟨hret, ?_⟩
    rw [hinfo]
    exact ⟨by rw [hdev]; exact h.kernel, fun e he => by rw [hdev]; exact h.idle e he, h.on⟩

/-- Deactivating a device. -/
theorem SwapDevs.swapoff (h : SwapDevs base off (dev :: on) idle st) :
    SwapDevs base (off ++ [(zramSwapoff dev st).2.1]) on idle (zramSwapoff dev st).2.2 := by
  have hinuse := h.on dev (by simp)
  obtain ⟨d, hd, hret, hdev⟩ := zramSwapoff_initialized (h.kernel.isTaken dev.identifier (by simp))
  have hinfo : (zramSwapoff dev st).2.1 =
      { dev with status := dev.status &&& ~~~zramStatusInuse } := congrArg (fun r => r.2.1) hret
  have hbits : (zramStatusClaimed ||| zramStatusInitialized ||| zramStatusInuse) &&&
      ~~~zramStatusInuse = zramStatusClaimed ||| zramStatusInitialized := by decide
  have hne := SwapDevs.ne h.kernel
  refine ⟨?_, fun e he => ?_, fun e he => h.on e (by simp [he])⟩
  · rw [hdev, hinfo]
    have hk := h.kernel.use (k := dev.identifier) (by simp) hd.isInitialized
    simpa using hk
  · have hcases : e ∈ off ++ idle ∨ e = (zramSwapoff dev st).2.1 := by
      simp only [List.mem_append, List.mem_singleton] at he ⊢
      tauto
    rcases hcases with he | rfl
    · have hmem : e ∈ off ++ (on ++ idle) := by
        simp only [List.mem_append] at he ⊢
        tauto
      rw [hdev, Function.update_of_ne (hne e hmem)]
      exact h.idle e he
    · rw [hdev, hinfo]
      refine ⟨by rw [Function.update_self]; exact hd, ?_, hinuse.type⟩
      rw [hinuse.status]
      exact hbits

end

/-- The devices that have been activated are deactivated, in order. -/
theorem autoswapSwapoffLoop_devs : ∀ (on off idle : List ZramDevInfo) (st : ZramState),
    SwapDevs base off on idle st →
    ∃ devs st', autoswapSwapoffLoop on.length off.length ((off ++ (on ++ idle)).map some) st =
        .ok (devs.map some, st') ∧
      devs.length = (off ++ (on ++ idle)).length ∧ ClaimedDevs base devs st'
  | [], off, idle, st, h => ⟨_, st, rfl, rfl, h.claimedDevs⟩
  | dev :: on, off, idle, st, h => by
    have hassoc : off ++ (zramSwapoff dev st).2.1 :: (on ++ idle) =
        (off ++ [(zramSwapoff dev st).2.1]) ++ (on ++ idle) := by simp
    have hlen : off.length + 1 = (off ++ [(zramSwapoff dev st).2.1]).length := by simp
    obtain ⟨devs, st', hrun, hdevs, hclaimed⟩ := autoswapSwapoffLoop_devs on
      (off ++ [(zramSwapoff dev st).2.1]) idle (zramSwapoff dev st).2.2 h.swapoff
    refine ⟨devs, st', ?_, by simp at hdevs ⊢; omega, hclaimed⟩
    rw [List.length_cons, autoswapSwapoffLoop, List.cons_append, getD_middle]
    dsimp only
    rw [set_middle, hassoc, hlen]
    exact hrun

/-- **The swapon phase**: if it fails, no device is left behind. -/
theorem autoswapSwaponLoop_cases (F : Faults) : ∀ (idle on : List ZramDevInfo) (st : ZramState),
    (on ++ idle).length ≤ 255 → SwapDevs base [] on idle st →
    ∃ ret devs st', autoswapSwaponLoop F (on ++ idle).length idle.length on.length
        ((on ++ idle).map some) st = .ok (ret, devs, st') ∧ (ret ≠ 0 → st'.dev = base)
  | [], on, st, _, _ => ⟨0, _, st, rfl, fun h => absurd rfl h⟩
  | dev :: idle, on, st, hlen, h => by
    rw [List.length_cons, autoswapSwaponLoop, getD_middle]
    dsimp only
    rw [set_middle]
    rcases h.swapon F with ⟨h0, hdevs⟩ | ⟨h0, hdevs⟩
    · -- the next device
      have hassoc : on ++ (zramSwapon F dev st).2.1 :: idle =
          (on ++ [(zramSwapon F dev st).2.1]) ++ idle := by simp
      have hk : on.length + 1 = (on ++ [(zramSwapon F dev st).2.1]).length := by simp
      have hsum : (on ++ dev :: idle).length =
          ((on ++ [(zramSwapon F dev st).2.1]) ++ idle).length := by simp
      rw [if_neg (not_not.2 h0), hassoc, hk, hsum]
      exact autoswapSwaponLoop_cases F idle (on ++ [(zramSwapon F dev st).2.1])
        (zramSwapon F dev st).2.2 (by rw [← hsum]; exact hlen) hdevs
    · -- the devices before this one are deactivated, and all are released
      rw [if_pos h0]
      obtain ⟨devs, st', hoff, hlen', hclaimed⟩ := autoswapSwapoffLoop_devs on []
        ((zramSwapon F dev st).2.1 :: idle) (zramSwapon F dev st).2.2 hdevs
      have htotal : (UInt8.ofNat (on ++ dev :: idle).length).toNat = devs.length := by
        rw [UInt8.toNat_ofNat', hlen', Nat.mod_eq_of_lt (by omega)]
        simp
      obtain ⟨-, hleft⟩ := releaseDevicesLoop_claimed 0 devs.length 0 (devs.map some) devs st' rfl
        le_rfl hclaimed
      rw [List.drop_length, claimedDevs_nil] at hleft
      rw [show autoswapSwapoffLoop on.length 0
        ((on ++ (zramSwapon F dev st).2.1 :: idle).map some) (zramSwapon F dev st).2.2 = _
          from hoff]
      refine ⟨-1, _, _, rfl, fun _ => ?_⟩
      rw [zramReleaseDevices, htotal]
      exact hleft

end

/-! ## Autoswap -/

/-- A call of `zram_do_autoswap` has a result, and if this is non-zero, all
    devices are as before: none that was free is left initialized or in use. -/
def AutoswapAtomic (F : Faults) (numSwaps : ℤ) (swapSize : UInt64) (st : ZramState) : Prop :=
  ∃ ret st', zramDoAutoswap F numSwaps swapSize st = .ok (ret, st') ∧ (ret ≠ 0 → st'.dev = st.dev)

/-- The phases of a call that has claimed all devices. -/
theorem zramDoAutoswap_claimed (F : Faults) {numSwaps : ℤ} {swapSize : UInt64}
    {st st₁ st₂ : ZramState} {devs : List ZramDevInfo} {arr : List (Option ZramDevInfo)} {ret : ℤ}
    (hmin : 1 ≤ numSwaps) (hmax : numSwaps ≤ 255) (hsize : 1 ≤ swapSize)
    (hlen : devs.length = numSwaps.toNat)
    (hclaims : zramClaimSeveralNextFree F (UInt8.ofNat numSwaps.toNat) swapSize st =
      (0, devs.map some, st₁))
    (hmkswap : autoswapMkswapLoop F numSwaps.toNat 0 (devs.map some) st₁ = .ok (ret, arr, st₂)) :
    zramDoAutoswap F numSwaps swapSize st =
      if ret ≠ 0 then .ok (-1, st₂)
      else
        match autoswapSwaponLoop F numSwaps.toNat numSwaps.toNat 0 arr st₂ with
        | .error e => .error e
        | .ok (ret, _, st) => if ret ≠ 0 then .ok (-1, st) else .ok (0, st) := by
  have hvalid : ¬ (swapSize < 1 ∨ numSwaps < 1) := by
    rintro (h | h)
    · exact absurd hsize (UInt64.not_le.2 h)
    · omega
  have hrange : ¬ numSwaps.toNat > 65535 := by omega
  rw [zramDoAutoswap, if_neg hvalid, zramDoAutoswapUnchecked, if_neg hrange, hclaims]
  simp only [ne_eq, not_true_eq_false, if_false, List.length_map, hlen, Nat.sub_self,
    List.replicate_zero, List.append_nil, hmkswap]

/-- **Autoswap is atomic**, once all devices have been claimed, exactly if
    neither mknod nor mkswap fails for any of them: the mkswap phase releases
    only the devices before the one at which it fails. -/
theorem autoswapAtomic_iff (F : Faults) {numSwaps : ℤ} {swapSize : UInt64} {st : ZramState}
    (hmin : 1 ≤ numSwaps) (hmax : numSwaps ≤ 255) (hsize : 1 ≤ swapSize)
    (hclaim : (zramClaimSeveralNextFree F (UInt8.ofNat numSwaps.toNat) swapSize st).1 = 0) :
    AutoswapAtomic F numSwaps swapSize st ↔
      ∀ j < 2 * numSwaps.toNat, F
        ((zramClaimSeveralNextFree F (UInt8.ofNat numSwaps.toNat) swapSize st).2.2.tick + j) =
          none := by
  have hn : (UInt8.ofNat numSwaps.toNat).toNat = numSwaps.toNat := by
    rw [UInt8.toNat_ofNat']; exact Nat.mod_eq_of_lt (by omega)
  rcases zramClaimSeveral_outcome F (UInt8.ofNat numSwaps.toNat) swapSize st with
    ⟨-, devs, st₁, hlen, hclaimed, hclaims, -⟩ | ⟨-, -, -, -, ⟨-, -, hfail, -⟩, -⟩
  · have hlen' : devs.length = numSwaps.toNat := hlen.trans hn
    have hbound : ([] ++ devs).length ≤ 255 := by rw [List.nil_append]; omega
    obtain ⟨ret, arr, st₂, hmkswap, hcases⟩ :=
      autoswapMkswapLoop_cases F devs [] st₁ hbound hclaimed
    rw [List.nil_append, List.length_nil, hlen'] at hmkswap
    rw [hlen', List.nil_append] at hcases
    rw [hclaims, AutoswapAtomic,
      zramDoAutoswap_claimed F hmin hmax hsize hlen' hclaims hmkswap]
    rcases hcases with ⟨hall, h0, devs₂, rfl, hdevs₂, hclaimed₂⟩ | ⟨hfail, h0, hleft⟩
    · -- swapon
      have hbound₂ : ([] ++ devs₂).length ≤ 255 := by rw [List.nil_append]; omega
      obtain ⟨ret', arr', st₃, hswapon, hundone⟩ :=
        autoswapSwaponLoop_cases F devs₂ [] st₂ hbound₂ hclaimed₂.swapDevs
      rw [List.nil_append, hdevs₂, List.length_nil, hlen'] at hswapon
      refine iff_of_true ?_ hall
      rw [if_neg (not_not.2 h0), hswapon]
      by_cases hret : ret' = 0
      · exact ⟨0, st₃, by simp [hret], fun h => absurd rfl h⟩
      · exact ⟨-1, st₃, by simp [hret], fun _ => hundone hret⟩
    · -- mkswap has failed
      refine iff_of_false ?_ hfail
      rintro ⟨ret', st', hres, hundone⟩
      rw [if_pos h0, Except.ok.injEq, Prod.mk.injEq] at hres
      exact hleft (hres.2 ▸ hundone (by rw [← hres.1]; decide))
  · rw [hfail] at hclaim
    exact absurd hclaim (by simp)

/-- Two swap devices of 1 MiB, without failures. -/
theorem autoswapAtomic_two_devices :
    AutoswapAtomic (fun _ => none) 2 1 twoDevices ↔
      ∀ j < 2 * (2 : ℤ).toNat, (fun _ => none : Faults)
        ((zramClaimSeveralNextFree (fun _ => none) (UInt8.ofNat (2 : ℤ).toNat) 1
          twoDevices).2.2.tick + j) = none :=
  autoswapAtomic_iff _ (by simp) (by simp) (by simp) (by decide +kernel)

/-- The sixth operation, which is mkswap for the first device, fails. -/
def mkswapFails : Faults := fun n => if n = 5 then some (.other 0) else none

/-- mkswap fails for the only swap device, which stays initialized. -/
theorem autoswapAtomic_mkswap_fails :
    (zramClaimSeveralNextFree mkswapFails 1 1 twoDevices).1 = 0 ∧ twoDevices.dev 0 = .free ∧
      (∃ st', zramDoAutoswap mkswapFails 1 1 twoDevices = .ok (-1, st') ∧
        st'.dev 0 = .initialized 1048576 false) ∧
      ¬ AutoswapAtomic mkswapFails 1 1 twoDevices := by
  have hrun : (zramDoAutoswap mkswapFails 1 1 twoDevices).map (fun r => (r.1, r.2.dev 0)) =
      .ok (-1, .initialized 1048576 false) := by decide +kernel
  have hres : ∃ st', zramDoAutoswap mkswapFails 1 1 twoDevices = .ok (-1, st') ∧
      st'.dev 0 = .initialized 1048576 false := by
    cases hr : zramDoAutoswap mkswapFails 1 1 twoDevices with
    | error e => rw [hr] at hrun; cases hrun
    | ok r =>
      rw [hr] at hrun
      obtain ⟨hret, hdev⟩ := Prod.mk.inj (Except.ok.inj hrun)
      exact ⟨r.2, by rw [← hret], hdev⟩
  refine ⟨by decide +kernel, by decide, hres, ?_⟩
  rintro ⟨ret, st', hr, hundone⟩
  obtain ⟨st'', hr', hdev⟩ := hres
  rw [hr, Except.ok.injEq, Prod.mk.injEq] at hr'
  have := congrFun (hundone (by rw [hr'.1]; decide)) 0
  rw [hr'.2, hdev] at this
  exact absurd this (by decide)

end Fischstaebchen
