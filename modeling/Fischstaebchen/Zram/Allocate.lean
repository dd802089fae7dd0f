/-
  Claiming and releasing zram devices (`zram/zallocate.c`).

  * `zramClaimNextFree_cases`: a call claims one free device or changes none.
  * `rollBack_claimed`: what the roll back of a failed call releases.
  * `zramClaimSeveral_outcome`: what the two functions that claim several devices do.
  * `claimAllOrNothing_iff`: when `zram_claim_several_next_free` claims all
    devices or none.
-/
import Fischstaebchen.Lib.Acquire
import Fischstaebchen.Zram.Device

namespace Fischstaebchen

section
variable (F : Faults)

/-! ## One device -/

/-- `_zram_do_release_device`. -/
def zramDoReleaseDevice (dev : ZramDevInfo) (st : ZramState) : ℤ × ZramDevInfo × ZramState :=
  let st := st.setErrno (.other 0)
  let r := writeReset dev.identifier st
  if r.1 = 0 then
    (r.1, { dev with
      status := dev.status &&& ~~~(zramStatusClaimed ||| zramStatusInitialized) }, r.2)
  else (r.1, dev, r.2)

/-- `_zram_claim_device_set_compression`. -/
def zramClaimDeviceSetCompression (dev : ZramDevInfo) (st : ZramState) :
    ℤ × ZramDevInfo × ZramState :=
  match zramGetCompDesc dev.compAlgorithm with
  | none => (1, dev, st)
  | some algDesc =>
    let st := st.setErrno (.other 0)
    let r := writeCompAlgorithm F dev.identifier st algDesc
    -- actual alg is unknown if this fails
    if r.1 ≠ 0 then (-1, { dev with compAlgorithm := .unknown }, r.2) else (0, dev, r.2)

/-- `_zram_claim_device_check_initstate`. -/
def zramClaimDeviceCheckInitstate (dev : ZramDevInfo) (st : ZramState) : ℤ × ZramState :=
  let r := readInitstate F dev.identifier st
  if r.1.1 ≠ 0 then (-1, r.2)
  else if r.1.2 = some "0".toList then (0, r.2)
  else (1, r.2.setErrno .EBUSY)

/-- `_zram_claim_device_do_claim`. -/
def zramClaimDeviceDoClaim (dev : ZramDevInfo) (sizeB : UInt64) (st : ZramState) :
    ℤ × ZramDevInfo × ZramState :=
  let st := st.setErrno (.other 0)
  let r := writeDisksize F dev.identifier st sizeB
  if r.1 = 0 then
    (r.1, { dev with status := dev.status ||| (zramStatusClaimed ||| zramStatusInitialized) }, r.2)
  else (r.1, dev, r.2)

/-- `_zram_claim_device_and_set_compression`: claims, releases, sets the
    compression and claims again. -/
def zramClaimDeviceAndSetCompression (dev : ZramDevInfo) (sizeB : UInt64) (st : ZramState) :
    ℤ × ZramDevInfo × ZramState :=
  let r := zramClaimDeviceDoClaim F dev sizeB st
  if r.1 ≠ 0 then r
  else
    let r := zramDoReleaseDevice r.2.1 r.2.2
    if r.1 ≠ 0 then (-1, r.2.1, r.2.2)
    else
      -- a failure here is only a warning
      let r := zramClaimDeviceSetCompression F r.2.1 r.2.2
      zramClaimDeviceDoClaim F r.2.1 sizeB r.2.2

/-- `zram_claim_device`. -/
def zramClaimDevice (globals : ZramGlobals) (dev : ZramDevInfo) (st : ZramState) :
    ℤ × ZramDevInfo × ZramState :=
  let r := zramClaimDeviceCheckInitstate F dev st
  if r.1 ≠ 0 then (-1, dev, r.2)
  else if dev.status &&& (zramStatusClaimed ||| zramStatusInitialized) ≠ 0 then (-10, dev, r.2)
  else
    let sizeB := getZramDevSizeB globals dev
    if sizeB = 0 then (-1, dev, r.2) else zramClaimDeviceAndSetCompression F dev sizeB r.2

/-- `zram_claim_device_from_identifier`. -/
def zramClaimDeviceFromIdentifier (globals : ZramGlobals) (identifier : UInt8) (sizeM : UInt64)
    (st : ZramState) : Option ZramDevInfo × ZramState :=
  let dev := { zramDevInfoNewFromIdentifier identifier with sizeM := sizeM }
  let r := zramClaimDevice F globals dev st
  if r.1 ≠ 0 then (none, r.2.2) else (some r.2.1, r.2.2)

/-- `zram_release_device`. -/
def zramReleaseDevice (dev : ZramDevInfo) (force : ℤ) (st : ZramState) :
    ℤ × ZramDevInfo × ZramState :=
  if force = 0 ∧ dev.status &&& zramStatusClaimed = 0 ∧
      dev.status &&& zramStatusInitialized = 0 then
    (-2, dev, st)
  else if force = 0 ∧ dev.status &&& zramStatusInuse ≠ 0 then (-3, dev, st)
  else zramDoReleaseDevice dev st

/-! ## The next free device -/

/-- `_zram_claim_not_worth_trying_again`. -/
def zramClaimNotWorthTryingAgain (e : Errno) : ℤ := if e = .ENOENT ∨ e = .EINVAL then 0 else 1

/-- The loop of `zram_claim_next_free__startfrom`: the device, or the return
    code. -/
def claimNextFreeLoop (globals : ZramGlobals) (sizeM : UInt64) :
    List ℕ → ZramState → Except ℤ ZramDevInfo × ZramState
  | [], st => (.error (-1), st)
  | ident :: idents, st =>
    let r := zramClaimDeviceFromIdentifier F globals (UInt8.ofNat ident) sizeM st
    match r.1 with
    | some dev => (.ok dev, r.2.setNextFree globals (UInt8.ofNat ident + 1))
    | none =>
      if zramClaimNotWorthTryingAgain r.2.errno = 0 then (.error (-2), r.2)
      else claimNextFreeLoop globals sizeM idents r.2

/-- `zram_claim_next_free__startfrom`. -/
def zramClaimNextFreeStartfrom (globals : ZramGlobals) (iterStart : UInt8) (sizeM : UInt64)
    (st : ZramState) : Except ℤ ZramDevInfo × ZramState :=
  claimNextFreeLoop F globals sizeM (List.range' iterStart.toNat (256 - iterStart.toNat)) st

/-- `zram_claim_next_free`: the device stored in `*pp_dev_out` if it returns 0,
    else the return code. -/
def zramClaimNextFree (sizeM : UInt64) (ppDevOut : Option (Option ZramDevInfo)) (st : ZramState) :
    Except ℤ ZramDevInfo × ZramState :=
  match ppDevOut with
  | none => (.error (-5), st)
  | some (some _) => (.error (-6), st)
  | some none =>
    match st.globals with
    | none => (.error (-1), st)
    | some globals =>
      if globals.nextFreeIdentifier > 0 then
        match zramClaimNextFreeStartfrom F globals globals.nextFreeIdentifier sizeM st with
        | (.ok dev, st) => (.ok dev, st)
        | (.error _, st) => zramClaimNextFreeStartfrom F globals 0 sizeM st
      else zramClaimNextFreeStartfrom F globals 0 sizeM st

/-! ## Several devices -/

/-- The roll back loop, from `rev_iter = k - 1` down while `goOn rev_iter`: the
    return code and the devices. -/
def rollBack (goOn : ℤ → Bool) :
    ℕ → List ZramDevInfo → ℤ → ZramState → ℤ × List ZramDevInfo × ZramState
  | 0, devs, ret, st => (ret, devs, st)
  | k + 1, devs, ret, st =>
    match goOn k, devs[k]? with
    | true, some dev =>
      let r := zramReleaseDevice dev 0 st
      rollBack goOn k (devs.set k r.2.1) (if r.1 ≠ 0 then -20 else ret) r.2.2
    | _, _ => (ret, devs, st)

/-- The loop over the devices to be claimed, of which `devs` have been. -/
def claimSeveralLoop (goOn : ℤ → Bool) :
    List UInt64 → List ZramDevInfo → ZramState → ℤ × List (Option ZramDevInfo) × ZramState
  | [], devs, st => (0, devs.map some, st)
  | sizeM :: sizes, devs, st =>
    match zramClaimNextFree F sizeM (some none) st with
    | (.ok dev, st) => claimSeveralLoop goOn sizes (devs ++ [dev]) st
    | (.error _, st) =>
      let r := rollBack goOn devs.length devs (-1) st
      (r.1, r.2.1.map some ++ [none], r.2.2)

/-- `zram_claim_several_next_free`: the return code and the entries of
    `pp_dev_out_arr` that have been written. -/
def zramClaimSeveralNextFree (numDevices : UInt8) (sizeM : UInt64) (st : ZramState) :
    ℤ × List (Option ZramDevInfo) × ZramState :=
  claimSeveralLoop F (fun revIter => revIter > 0) (List.replicate numDevices.toNat sizeM) [] st

/-- `zram_claim_several_varsize_next_free`. -/
def zramClaimSeveralVarsizeNextFree (numDevices : UInt8) (sizes : List UInt64) (st : ZramState) :
    ℤ × List (Option ZramDevInfo) × ZramState :=
  claimSeveralLoop F (fun revIter => revIter ≥ 0) (sizes.take numDevices.toNat) [] st

end

/-! ## What claiming and releasing do -/

/-- Initialized, but not in use. -/
def ZramDev.IsIdle (d : ZramDev) : Prop := ∃ disksize, d = .initialized disksize false

/-- The information on a device that has been claimed. -/
structure ZramDevInfo.Claimed (dev : ZramDevInfo) : Prop where
  status : dev.status = zramStatusClaimed ||| zramStatusInitialized
  type : dev.type = zramTypeNone ∨ dev.type = zramTypeSwap

section
variable (F : Faults) (i : UInt8) (st : ZramState)

theorem readInitstate_dev : (readInitstate F i st).2.dev = st.dev := by
  unfold readInitstate; split <;> rfl

theorem writeCompAlgorithm_dev (alg : CStr) : (writeCompAlgorithm F i st alg).2.dev = st.dev := by
  unfold writeCompAlgorithm; split <;> rfl

theorem writeDisksize_cases (sizeB : UInt64) :
    ((writeDisksize F i st sizeB).1 = 0 ∧ st.dev i = .free ∧
      (writeDisksize F i st sizeB).2.dev = Function.update st.dev i (.initialized sizeB false)) ∨
    ((writeDisksize F i st sizeB).1 ≠ 0 ∧ (writeDisksize F i st sizeB).2.dev = st.dev) := by
  have hfail : (-1 : ℤ) ≠ 0 := by simp
  unfold writeDisksize
  split
  · exact .inr ⟨hfail, rfl⟩
  · exact .inr ⟨hfail, rfl⟩
  · exact .inr ⟨hfail, rfl⟩
  · rename_i hfree
    split_ifs
    · exact .inr ⟨hfail, rfl⟩
    · exact .inl ⟨rfl, hfree, rfl⟩

variable {i st} in
theorem writeReset_idle (h : (st.dev i).IsIdle) : writeReset i st = (0, st.setDev i .free) := by
  obtain ⟨n, hn⟩ := h
  simp [writeReset, hn]

end

section
variable (F : Faults) (dev : ZramDevInfo) (st : ZramState)

theorem zramClaimDeviceDoClaim_cases (sizeB : UInt64) :
    let r := zramClaimDeviceDoClaim F dev sizeB st
    (r.1 = 0 ∧ st.dev dev.identifier = .free ∧
      r.2.2.dev = Function.update st.dev dev.identifier (.initialized sizeB false) ∧
      r.2.1 = { dev with status := dev.status ||| (zramStatusClaimed ||| zramStatusInitialized) }) ∨
    (r.1 ≠ 0 ∧ r.2.2.dev = st.dev) := by
  rcases writeDisksize_cases F dev.identifier (st.setErrno (.other 0)) sizeB with
    ⟨h0, hfree, hdev⟩ | ⟨h0, hdev⟩
  · left
    simp only [zramClaimDeviceDoClaim, h0, if_true]
    exact ⟨trivial, hfree, hdev, trivial⟩
  · right
    simp only [zramClaimDeviceDoClaim, h0, if_false]
    exact ⟨h0, hdev⟩

variable {dev st} in
/-- Releasing an idle device. -/
theorem zramDoReleaseDevice_idle (h : (st.dev dev.identifier).IsIdle) :
    zramDoReleaseDevice dev st =
      (0, { dev with status := dev.status &&& ~~~(zramStatusClaimed ||| zramStatusInitialized) },
        (st.setErrno (.other 0)).setDev dev.identifier .free) := by
  have hreset : writeReset dev.identifier (st.setErrno (.other 0)) =
      (0, (st.setErrno (.other 0)).setDev dev.identifier .free) := writeReset_idle h
  simp only [zramDoReleaseDevice, hreset, if_true]

theorem zramClaimDeviceSetCompression_dev :
    (zramClaimDeviceSetCompression F dev st).2.2.dev = st.dev ∧
      (zramClaimDeviceSetCompression F dev st).2.1.identifier = dev.identifier ∧
      (zramClaimDeviceSetCompression F dev st).2.1.type = dev.type ∧
      (zramClaimDeviceSetCompression F dev st).2.1.status = dev.status := by
  unfold zramClaimDeviceSetCompression
  split
  · exact ⟨rfl, rfl, rfl, rfl⟩
  · dsimp only
    split_ifs
    · exact ⟨writeCompAlgorithm_dev _ _ _ _, rfl, rfl, rfl⟩
    · exact ⟨writeCompAlgorithm_dev _ _ _ _, rfl, rfl, rfl⟩

/-- Claiming, releasing and claiming again claims the device or changes none. -/
theorem zramClaimDeviceAndSetCompression_cases (sizeB : UInt64) (hstatus : dev.status = 0) :
    let r := zramClaimDeviceAndSetCompression F dev sizeB st
    (r.1 = 0 ∧ st.dev dev.identifier = .free ∧
      r.2.2.dev = Function.update st.dev dev.identifier (.initialized sizeB false) ∧
      r.2.1.identifier = dev.identifier ∧ r.2.1.type = dev.type ∧
      r.2.1.status = zramStatusClaimed ||| zramStatusInitialized) ∨
    (r.1 ≠ 0 ∧ r.2.2.dev = st.dev) := by
  dsimp only
  rcases zramClaimDeviceDoClaim_cases F dev st sizeB with
    ⟨h0, hfree, hdev, hinfo⟩ | ⟨h0, hdev⟩
  · -- the device is claimed, and released at once
    set c := zramClaimDeviceDoClaim F dev sizeB st with hc
    have hid : c.2.1.identifier = dev.identifier := by rw [hinfo]
    have hidle : (c.2.2.dev c.2.1.identifier).IsIdle :=
      ⟨sizeB, by rw [hid, hdev, Function.update_self]⟩
    have hrel := zramDoReleaseDevice_idle hidle
    set rel := zramDoReleaseDevice c.2.1 c.2.2 with hrel'
    have hreldev : rel.2.2.dev = st.dev := by
      rw [hrel]
      funext j
      by_cases hj : j = dev.identifier
      · simp [hid, hj, hfree]
      · simp [hid, hj, hdev]
    have hrelinfo : rel.2.1.identifier = dev.identifier ∧ rel.2.1.type = dev.type ∧
        rel.2.1.status = 0 := by
      have hbits : ((0 : ZramBits) ||| (zramStatusClaimed ||| zramStatusInitialized)) &&&
          ~~~(zramStatusClaimed ||| zramStatusInitialized) = 0 := by simp
      rw [hrel, hinfo, hstatus]
      exact ⟨rfl, rfl, hbits⟩
    obtain ⟨hcdev, hcid, hctype, hcstatus⟩ :=
      zramClaimDeviceSetCompression_dev F rel.2.1 rel.2.2
    set comp := zramClaimDeviceSetCompression F rel.2.1 rel.2.2 with hcomp
    have hrun : zramClaimDeviceAndSetCompression F dev sizeB st =
        zramClaimDeviceDoClaim F comp.2.1 sizeB comp.2.2 := by
      have hrel0 : rel.1 = 0 := by rw [hrel]
      simp only [zramClaimDeviceAndSetCompression, ← hc, h0, ← hrel', hrel0, ← hcomp, ne_eq,
        not_true_eq_false, if_false]
    rw [hrun]
    rcases zramClaimDeviceDoClaim_cases F comp.2.1 comp.2.2 sizeB with
      ⟨h1, -, hdev1, hinfo1⟩ | ⟨h1, hdev1⟩
    · left
      refine ⟨h1, hfree, ?_, ?_, ?_, ?_⟩
      · rw [hdev1, hcdev, hreldev, hcid, hrelinfo.1]
      · rw [hinfo1]; exact hcid.trans hrelinfo.1
      · rw [hinfo1]; exact hctype.trans hrelinfo.2.1
      · rw [hinfo1]
        show comp.2.1.status ||| _ = _
        rw [hcstatus, hrelinfo.2.2]
        decide
    · exact .inr ⟨h1, by rw [hdev1, hcdev, hreldev]⟩
  · have hrun : zramClaimDeviceAndSetCompression F dev sizeB st =
        zramClaimDeviceDoClaim F dev sizeB st := by
      simp only [zramClaimDeviceAndSetCompression, ne_eq, h0, not_false_eq_true, if_true]
    rw [hrun]
    exact .inr ⟨h0, hdev⟩

/-- Claiming a device that is not known to be claimed. -/
theorem zramClaimDevice_cases (globals : ZramGlobals) (hstatus : dev.status = 0)
    (htype : dev.type = zramTypeNone) :
    let r := zramClaimDevice F globals dev st
    (r.1 = 0 ∧ st.dev dev.identifier = .free ∧ r.2.1.identifier = dev.identifier ∧ r.2.1.Claimed ∧
      ∃ d : ZramDev, d.IsIdle ∧ r.2.2.dev = Function.update st.dev dev.identifier d) ∨
    (r.1 ≠ 0 ∧ r.2.2.dev = st.dev) := by
  have hcheck : (zramClaimDeviceCheckInitstate F dev st).2.dev = st.dev := by
    unfold zramClaimDeviceCheckInitstate
    dsimp only
    split_ifs
    · exact readInitstate_dev _ _ _
    · exact readInitstate_dev _ _ _
    · exact readInitstate_dev _ _ _
  have hfail : (-1 : ℤ) ≠ 0 := by simp
  have hfail' : (-10 : ℤ) ≠ 0 := by simp
  unfold zramClaimDevice
  dsimp only
  split_ifs
  · exact .inr ⟨hfail, hcheck⟩
  · exact .inr ⟨hfail', hcheck⟩
  · exact .inr ⟨hfail, hcheck⟩
  · rcases zramClaimDeviceAndSetCompression_cases F dev
      (zramClaimDeviceCheckInitstate F dev st).2 (getZramDevSizeB globals dev) hstatus with
      ⟨h0, hfree, hdev, hid, htype', hstatus'⟩ | ⟨h0, hdev⟩
    · rw [hcheck] at hfree hdev
      exact .inl ⟨h0, hfree, hid, ⟨hstatus', .inl (htype'.trans htype)⟩, _, ⟨_, rfl⟩, hdev⟩
    · exact .inr ⟨h0, hdev.trans hcheck⟩

/-- What a successful claim does to the devices. -/
def Claims (st : ZramState) (dev : ZramDevInfo) (st' : ZramState) : Prop :=
  st.dev dev.identifier = .free ∧ dev.Claimed ∧
    ∃ d : ZramDev, d.IsIdle ∧ st'.dev = Function.update st.dev dev.identifier d

/-- A result is a successful claim, or a failure that changes no device. -/
def ClaimResult (st : ZramState) : Except ℤ ZramDevInfo × ZramState → Prop
  | (.ok dev, st') => Claims st dev st'
  | (.error _, st') => st'.dev = st.dev

/-- A claim after an attempt that changed no device. -/
theorem ClaimResult.after {st st' : ZramState} (h : st'.dev = st.dev) :
    ∀ {r : Except ℤ ZramDevInfo × ZramState}, ClaimResult st' r → ClaimResult st r
  | (.ok dev, _), hr => by
    obtain ⟨hfree, hclaimed, d, hd, hdev⟩ : Claims st' dev _ := hr
    rw [h] at hfree hdev
    exact ⟨hfree, hclaimed, d, hd, hdev⟩
  | (.error _, st''), hr => (show st''.dev = st'.dev from hr).trans h

theorem claimNextFreeLoop_cases (globals : ZramGlobals) (sizeM : UInt64) :
    ∀ (idents : List ℕ) (st : ZramState),
      ClaimResult st (claimNextFreeLoop F globals sizeM idents st)
  | [], _ => rfl
  | ident :: idents, st => by
    have hclaim := zramClaimDevice_cases F
      { zramDevInfoNewFromIdentifier (UInt8.ofNat ident) with sizeM := sizeM } st globals rfl rfl
    set c := zramClaimDevice F globals
      { zramDevInfoNewFromIdentifier (UInt8.ofNat ident) with sizeM := sizeM } st with hc
    have hident : zramClaimDeviceFromIdentifier F globals (UInt8.ofNat ident) sizeM st =
        if c.1 ≠ 0 then (none, c.2.2) else (some c.2.1, c.2.2) := rfl
    rw [claimNextFreeLoop, hident]
    rcases hclaim with ⟨h0, hfree, hid, hclaimed, d, hd, hdev⟩ | ⟨h0, hdev⟩
    · rw [if_neg (not_not.2 h0)]
      exact ⟨by rw [hid]; exact hfree, hclaimed, d, hd, by rw [hid]; exact hdev⟩
    · rw [if_pos h0]
      dsimp only
      split_ifs
      · exact hdev
      · exact (claimNextFreeLoop_cases globals sizeM idents c.2.2).after hdev

/-- **A call of `zram_claim_next_free`** claims one free device or changes none. -/
theorem zramClaimNextFree_cases (sizeM : UInt64) (out : Option (Option ZramDevInfo))
    (st : ZramState) : ClaimResult st (zramClaimNextFree F sizeM out st) := by
  match out with
  | none => rfl
  | some (some _) => rfl
  | some none =>
    unfold zramClaimNextFree
    cases st.globals with
    | none => rfl
    | some globals =>
      dsimp only
      split_ifs
      · have hfirst : ClaimResult st
            (zramClaimNextFreeStartfrom F globals globals.nextFreeIdentifier sizeM st) :=
          claimNextFreeLoop_cases F globals sizeM _ st
        rcases hr : zramClaimNextFreeStartfrom F globals globals.nextFreeIdentifier sizeM st with
          ⟨_ | dev, st'⟩
        · rw [hr] at hfirst
          exact (claimNextFreeLoop_cases F globals sizeM _ st').after hfirst
        · rw [hr] at hfirst
          exact hfirst
      · exact claimNextFreeLoop_cases F globals sizeM _ st

/-! ## Devices that have been claimed -/

/-- The devices `devs` have been claimed since the devices were in the states
    `base`, and no other device has changed. -/
structure ClaimedDevs (base : UInt8 → ZramDev) (devs : List ZramDevInfo) (st : ZramState) :
    Prop where
  kernel : Lib.Acquired .free ZramDev.IsIdle base st.dev (devs.map ZramDevInfo.identifier)
  infos : ∀ dev ∈ devs, dev.Claimed

theorem not_isIdle_free : ¬ ZramDev.free.IsIdle := by rintro ⟨n, h⟩; exact ZramDev.noConfusion h

variable {st} in
theorem claimedDevs_nil {base : UInt8 → ZramDev} : ClaimedDevs base [] st ↔ st.dev = base :=
  ⟨fun h => Lib.acquired_nil.1 h.kernel, fun h => ⟨Lib.acquired_nil.2 h, by simp⟩⟩

section
variable {st dev} {base : UInt8 → ZramDev} {devs : List ZramDevInfo}

theorem ClaimedDevs.claim (h : ClaimedDevs base devs st) {st' : ZramState}
    (hc : Claims st dev st') : ClaimedDevs base (devs ++ [dev]) st' := by
  obtain ⟨hfree, hclaimed, d, hd, hdev⟩ := hc
  refine ⟨?_, fun e he => ?_⟩
  · rw [List.map_append, hdev]
    exact h.kernel.acquire not_isIdle_free hfree hd
  · rcases List.mem_append.1 he with he | he
    · exact h.infos e he
    · rwa [List.mem_singleton.1 he]

/-- A claimed device that is not in use is released. -/
theorem ClaimedDevs.releaseDevice (h : ClaimedDevs base (devs ++ [dev]) st) :
    (zramReleaseDevice dev 0 st).1 = 0 ∧
      ClaimedDevs base devs (zramReleaseDevice dev 0 st).2.2 := by
  have hidle : (st.dev dev.identifier).IsIdle := h.kernel.isTaken _ (by simp)
  have hstatus := (h.infos dev (by simp)).status
  have hrel : zramReleaseDevice dev 0 st = zramDoReleaseDevice dev st := by
    rw [zramReleaseDevice, hstatus, if_neg (by decide), if_neg (by decide)]
  rw [hrel, zramDoReleaseDevice_idle hidle]
  refine ⟨rfl, ?_, fun e he => h.infos e (by simp [he])⟩
  have hk := h.kernel
  rw [List.map_append] at hk
  exact hk.release_last

/-- **What the roll back releases**: the devices from index `m` on, if the loop
    goes on down to `m`. -/
theorem rollBack_claimed (goOn : ℤ → Bool) (m : ℕ) (hgo : ∀ j : ℕ, goOn j = decide (m ≤ j)) :
    ∀ (k : ℕ) (devs : List ZramDevInfo) (ret : ℤ) (st : ZramState), k ≤ devs.length →
      ClaimedDevs base (devs.take k) st →
      (rollBack goOn k devs ret st).1 = ret ∧
        ClaimedDevs base (devs.take (min m k)) (rollBack goOn k devs ret st).2.2
  | 0, devs, ret, st, _, h => ⟨rfl, by rw [Nat.min_zero]; exact h⟩
  | k + 1, devs, ret, st, hk, h => by
    have hdev : devs[k]? = some devs[k] := List.getElem?_eq_getElem (by omega)
    rw [rollBack, hgo k, hdev]
    by_cases hm : m ≤ k
    · rw [List.take_succ_eq_append_getElem (by omega)] at h
      obtain ⟨h0, hrest⟩ := h.releaseDevice
      have htake : ∀ d, (devs.set k d).take k = devs.take k := fun d => by
        simp [List.take_set_of_le]
      obtain ⟨ih0, ih⟩ := rollBack_claimed goOn m hgo k
        (devs.set k (zramReleaseDevice devs[k] 0 st).2.1) ret
        (zramReleaseDevice devs[k] 0 st).2.2 (by simp; omega) (by rw [htake]; exact hrest)
      have hmin : min m (k + 1) = min m k := by omega
      have htake' : ∀ d, (devs.set k d).take (min m k) = devs.take (min m k) := fun d => by
        simp [List.take_set_of_le]
      simp only [hm, decide_true, h0, ne_eq, not_true_eq_false, if_false]
      rw [hmin, ← htake']
      exact ⟨ih0, ih⟩
    · simp only [hm, decide_false]
      exact ⟨trivial, by rwa [min_eq_right (by omega)]⟩

end

/-! ## Claiming several devices -/

section
variable (F : Faults) (sizeM : UInt64)

/-- The state after `k` calls of `zram_claim_next_free`. -/
def claimCalls : ℕ → ZramState → ZramState
  | 0, st => st
  | k + 1, st => claimCalls k (zramClaimNextFree F sizeM (some none) st).2

/-- Whether the next call after `k` calls of `zram_claim_next_free` succeeds. -/
def claimSucceeds (k : ℕ) (st : ZramState) : Bool :=
  (zramClaimNextFree F sizeM (some none) (claimCalls F sizeM k st)).1.isOk

/-- `devs` have been claimed, beginning with `before`. -/
structure ClaimedMore (before devs : List ZramDevInfo) (st st' : ZramState) : Prop where
  pre : before <+: devs
  claimed : ∀ base, ClaimedDevs base before st → ClaimedDevs base devs st'

/-- The loop claims all devices if all calls succeed; otherwise it claims some
    and rolls back. -/
theorem claimSeveralLoop_outcome : ∀ (n : ℕ) (devs : List ZramDevInfo) (st : ZramState),
    ∃ devs' st', ClaimedMore devs devs' st st' ∧
      ((∀ k < n, claimSucceeds F sizeM k st = true) ∧ devs'.length = devs.length + n ∧
          (∀ goOn, claimSeveralLoop F goOn (List.replicate n sizeM) devs st =
            (0, devs'.map some, st')) ∨
        (∃ k < n, devs'.length = devs.length + k ∧ claimSucceeds F sizeM k st = false ∧
            ∀ j < k, claimSucceeds F sizeM j st = true) ∧
          ∀ goOn, claimSeveralLoop F goOn (List.replicate n sizeM) devs st =
            ((rollBack goOn devs'.length devs' (-1) st').1,
              (rollBack goOn devs'.length devs' (-1) st').2.1.map some ++ [none],
              (rollBack goOn devs'.length devs' (-1) st').2.2))
  | 0, devs, st =>
    ⟨devs, st, ⟨List.prefix_rfl, fun _ h => h⟩, .inl ⟨by simp, rfl, fun _ => rfl⟩⟩
  | n + 1, devs, st => by
    have hcases := zramClaimNextFree_cases F sizeM (some none) st
    rcases hr : zramClaimNextFree F sizeM (some none) st with ⟨e | dev, st₁⟩
    · rw [hr] at hcases
      refine ⟨devs, st₁, ⟨List.prefix_rfl, fun base h => ?_⟩,
        .inr ⟨⟨0, by omega, rfl, ?_, by simp⟩, fun goOn => ?_⟩⟩
      · exact ⟨by rw [show st₁.dev = st.dev from hcases]; exact h.kernel, h.infos⟩
      · simp [claimSucceeds, claimCalls, hr, Except.isOk, Except.toBool]
      · simp only [List.replicate_succ, claimSeveralLoop, hr]
    · rw [hr] at hcases
      obtain ⟨devs', st', hmore, h⟩ := claimSeveralLoop_outcome n (devs ++ [dev]) st₁
      have hnext : ∀ k, claimSucceeds F sizeM (k + 1) st = claimSucceeds F sizeM k st₁ := by
        intro k
        simp only [claimSucceeds, claimCalls, hr]
      have hfirst : claimSucceeds F sizeM 0 st = true := by
        simp [claimSucceeds, claimCalls, hr, Except.isOk, Except.toBool]
      have hloop : ∀ goOn, claimSeveralLoop F goOn (List.replicate (n + 1) sizeM) devs st =
          claimSeveralLoop F goOn (List.replicate n sizeM) (devs ++ [dev]) st₁ := fun goOn => by
        simp only [List.replicate_succ, claimSeveralLoop, hr]
      refine ⟨devs', st', ⟨(List.prefix_append _ _).trans hmore.pre, fun base hb =>
        hmore.claimed base (hb.claim hcases)⟩, ?_⟩
      have hshift : ∀ m, (∀ k < m, claimSucceeds F sizeM k st₁ = true) →
          ∀ k < m + 1, claimSucceeds F sizeM k st = true := by
        intro m hall k hk
        cases k with
        | zero => exact hfirst
        | succ k => rw [hnext]; exact hall k (by omega)
      rw [List.length_append, List.length_singleton] at h
      rcases h with ⟨hall, hlen, heq⟩ | ⟨⟨k, hk, hlen, hfail, hall⟩, heq⟩
      · exact .inl ⟨hshift n hall, by omega, fun goOn => (hloop goOn).trans (heq goOn)⟩
      · exact .inr ⟨⟨k + 1, by omega, by omega, by rw [hnext]; exact hfail, hshift k hall⟩,
          fun goOn => (hloop goOn).trans (heq goOn)⟩

end

/-- **What the two functions do**: they claim all devices, or fail after the
    first `k` devices.  The variant with sizes then releases all of these, the
    other one all but the first. -/
theorem zramClaimSeveral_outcome (F : Faults) (numDevices : UInt8) (sizeM : UInt64)
    (st : ZramState) :
    ((∀ k < numDevices.toNat, claimSucceeds F sizeM k st = true) ∧
      ∃ (devs : List ZramDevInfo) (st' : ZramState), devs.length = numDevices.toNat ∧
        ClaimedDevs st.dev devs st' ∧
        zramClaimSeveralNextFree F numDevices sizeM st = (0, devs.map some, st') ∧
        zramClaimSeveralVarsizeNextFree F numDevices (List.replicate numDevices.toNat sizeM) st =
          (0, devs.map some, st')) ∨
      ∃ k < numDevices.toNat, claimSucceeds F sizeM k st = false ∧
        (∀ j < k, claimSucceeds F sizeM j st = true) ∧
        (∃ devs : List ZramDevInfo, devs.length = k ∧
          (zramClaimSeveralNextFree F numDevices sizeM st).1 = -1 ∧
          ClaimedDevs st.dev (devs.take 1) (zramClaimSeveralNextFree F numDevices sizeM st).2.2) ∧
        (zramClaimSeveralVarsizeNextFree F numDevices
          (List.replicate numDevices.toNat sizeM) st).1 = -1 ∧
        (zramClaimSeveralVarsizeNextFree F numDevices
          (List.replicate numDevices.toNat sizeM) st).2.2.dev = st.dev := by
  have hvar : zramClaimSeveralVarsizeNextFree F numDevices
      (List.replicate numDevices.toNat sizeM) st = claimSeveralLoop F (fun j => decide (j ≥ 0))
        (List.replicate numDevices.toNat sizeM) [] st := by
    rw [zramClaimSeveralVarsizeNextFree, List.take_of_length_le (by simp)]
  rw [hvar, zramClaimSeveralNextFree]
  obtain ⟨devs, st', hmore, h⟩ := claimSeveralLoop_outcome F sizeM numDevices.toNat [] st
  have hclaimed := hmore.claimed st.dev (claimedDevs_nil.2 rfl)
  rcases h with ⟨hall, hlen, heq⟩ | ⟨⟨k, hk, hlen, hfail, hbefore⟩, heq⟩
  · exact .inl ⟨hall, devs, st', by simpa using hlen, hclaimed, heq _, heq _⟩
  · have hfull : ClaimedDevs st.dev (devs.take devs.length) st' := by rwa [List.take_length]
    obtain ⟨hr, hrc⟩ := rollBack_claimed (fun j => decide (j > 0)) 1
      (fun j => decide_eq_decide.2 (by omega)) devs.length devs (-1) st' le_rfl hfull
    obtain ⟨hv, hvc⟩ := rollBack_claimed (fun j => decide (j ≥ 0)) 0
      (fun j => decide_eq_decide.2 (by omega)) devs.length devs (-1) st' le_rfl hfull
    rw [Nat.zero_min, List.take_zero, claimedDevs_nil] at hvc
    rw [← List.take_eq_take_min] at hrc
    rw [heq, heq]
    exact .inr ⟨k, hk, hfail, hbefore, ⟨devs, by simpa using hlen, hr, hrc⟩, hv, hvc⟩

/-- `zram_claim_several_next_free` claims all devices or none, as
    `zram_claim_several_varsize_next_free` does. -/
structure ClaimAllOrNothing (F : Faults) (numDevices : UInt8) (sizeM : UInt64) (st : ZramState) :
    Prop where
  undone : (zramClaimSeveralNextFree F numDevices sizeM st).1 ≠ 0 →
    (zramClaimSeveralNextFree F numDevices sizeM st).2.2.dev = st.dev
  same_ret : (zramClaimSeveralNextFree F numDevices sizeM st).1 =
    (zramClaimSeveralVarsizeNextFree F numDevices
      (List.replicate numDevices.toNat sizeM) st).1
  same_devs : (zramClaimSeveralNextFree F numDevices sizeM st).2.2.dev =
    (zramClaimSeveralVarsizeNextFree F numDevices
      (List.replicate numDevices.toNat sizeM) st).2.2.dev

/-- The first call fails, or none of the first `n` calls does. -/
def FailsFirstOrNever (F : Faults) (n : ℕ) (sizeM : UInt64) (st : ZramState) : Prop :=
  claimSucceeds F sizeM 0 st = false ∨ ∀ k < n, claimSucceeds F sizeM k st = true

/-- **All or nothing** holds exactly if the first call of `zram_claim_next_free`
    fails or all calls succeed: else the roll back, which stops at index 1,
    leaves the first device claimed. -/
theorem claimAllOrNothing_iff (F : Faults) (numDevices : UInt8) (sizeM : UInt64) (st : ZramState) :
    ClaimAllOrNothing F numDevices sizeM st ↔
      FailsFirstOrNever F numDevices.toNat sizeM st := by
  rcases zramClaimSeveral_outcome F numDevices sizeM st with
    ⟨hall, devs, st', -, -, hr, hv⟩ | ⟨k, hk, hfail, hbefore, ⟨devs, hlen, hr, hclaimed⟩, hv, hvdev⟩
  · refine iff_of_true ⟨fun h => ?_, ?_, ?_⟩ (.inr hall)
    · rw [hr] at h; exact absurd rfl h
    · rw [hr, hv]
    · rw [hr, hv]
  · constructor
    · -- if the first call succeeds, its device stays claimed
      intro h
      refine .inl ?_
      cases k with
      | zero => exact hfail
      | succ k =>
        obtain ⟨dev, rest, rfl⟩ := List.exists_cons_of_length_eq_add_one hlen
        have hundone := h.undone (by rw [hr]; decide)
        exact absurd (congrFun hundone dev.identifier)
          (hclaimed.kernel.ne_base not_isIdle_free (k := dev.identifier) (by simp))
    · intro h
      have hzero : k = 0 := by
        rcases h with h | h
        · by_contra hne
          have := hbefore 0 (by omega)
          rw [h] at this
          exact Bool.false_ne_true this
        · rw [h k hk] at hfail
          exact absurd hfail (by simp)
      have hrdev : (zramClaimSeveralNextFree F numDevices sizeM st).2.2.dev = st.dev := by
        rwa [List.eq_nil_of_length_eq_zero (hlen.trans hzero), List.take_nil,
          claimedDevs_nil] at hclaimed
      exact ⟨fun _ => hrdev, by rw [hr, hv], by rw [hrdev, hvdev]⟩

end

/-- A kernel with two devices, both of which are free. -/
def twoDevices : ZramState where
  dev i := if i < 2 then .free else .absent
  tick := 0
  errno := .other 0
  globals := some ⟨0, 4096⟩

/-- Three devices are to be claimed, of which there are two: the first one stays
    claimed. -/
theorem claimAllOrNothing_two_devices :
    (zramClaimSeveralNextFree (fun _ => none) 3 1 twoDevices).1 = -1 ∧
      twoDevices.dev 0 = .free ∧
      (zramClaimSeveralNextFree (fun _ => none) 3 1 twoDevices).2.2.dev 0 =
        .initialized 1048576 false ∧
      (zramClaimSeveralVarsizeNextFree (fun _ => none) 3 [1, 1, 1] twoDevices).2.2.dev 0 = .free ∧
      ¬ ClaimAllOrNothing (fun _ => none) 3 1 twoDevices := by
  have hret : (zramClaimSeveralNextFree (fun _ => none) 3 1 twoDevices).1 = -1 := by decide +kernel
  have hdev : (zramClaimSeveralNextFree (fun _ => none) 3 1 twoDevices).2.2.dev 0 =
      .initialized 1048576 false := by decide +kernel
  refine ⟨hret, by decide, hdev, by decide +kernel, fun h => ?_⟩
  have hundone := congrFun (h.undone (by rw [hret]; decide)) 0
  rw [hdev] at hundone
  exact absurd hundone (by decide)

end Fischstaebchen
