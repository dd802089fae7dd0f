/-
  The remount status of a mountpoint (`core/30-mount/45-remount_status.sh`,
  `46-remount_instance_def.sh`, `20-mount.sh`).

  Two flag files say whether the mountpoint has to be remounted read-only later
  on, and whether it is mounted read-write.  A remount may fail, which kills the
  process; the operations that follow are those of another one.

  * `remountStep_inv`: what each operation preserves.
  * `remountBookkeeping`: what holds after each operation of every sequence.
-/
import Fischstaebchen.Lib.History

namespace Fischstaebchen

/-- Whether a mount is read-only or read-write. -/
inductive MountMode
  | ro
  | rw
  deriving DecidableEq

/-- The flag files, the mode of the mountpoint and the calls of
    `mount -o remount` so far. -/
structure RemountState where
  flags : String → Bool
  mode : MountMode
  remounts : List MountMode

namespace RemountState

variable (st : RemountState)

/-- `ishare_has_flag`. -/
def ishareHasFlag (name : String) : Bool := st.flags name

/-- `ishare_add_flag`. -/
def ishareAddFlag (name : String) : RemountState :=
  { st with flags := Function.update st.flags name true }

/-- `ishare_del_flag`. -/
def ishareDelFlag (name : String) : RemountState :=
  { st with flags := Function.update st.flags name false }

/-- `check_dir_writable`: the directory is writable if it is mounted so. -/
def checkDirWritable : Bool := st.mode = .rw

@[simp] theorem ishareAddFlag_mode (name : String) : (st.ishareAddFlag name).mode = st.mode := rfl
@[simp] theorem ishareDelFlag_mode (name : String) : (st.ishareDelFlag name).mode = st.mode := rfl
@[simp] theorem ishareAddFlag_remounts (name : String) :
    (st.ishareAddFlag name).remounts = st.remounts := rfl
@[simp] theorem ishareDelFlag_remounts (name : String) :
    (st.ishareDelFlag name).remounts = st.remounts := rfl
@[simp] theorem ishareHasFlag_add (name other : String) :
    (st.ishareAddFlag name).ishareHasFlag other =
      if other = name then true else st.ishareHasFlag other := by
  simp [ishareAddFlag, ishareHasFlag, Function.update_apply]
@[simp] theorem ishareHasFlag_del (name other : String) :
    (st.ishareDelFlag name).ishareHasFlag other =
      if other = name then false else st.ishareHasFlag other := by
  simp [ishareDelFlag, ishareHasFlag, Function.update_apply]

end RemountState

/-- The flag that asks for a remount. -/
def needRemountRo (flagName : String) : String := "need-remount-ro-" ++ flagName

/-- The flag that the hooks check. -/
def haveMountRw (flagName : String) : String := "have-mount-rw-" ++ flagName

/-! ## The functions -/

section
variable (O : ℕ → Bool) (flagName : String)

/-- `autodie mount -o remount,<mode>`: `none` if it fails, which kills the process
    and leaves the mount alone. -/
def xremount (mode : MountMode) (st : RemountState) : Option Unit × RemountState :=
  let called := { st with remounts := st.remounts ++ [mode] }
  if O st.remounts.length then (some (), { called with mode }) else (none, called)

/-- `_remount_status_setup_flag_files`. -/
def remountStatusSetupFlagFiles (st : RemountState) : RemountState :=
  let st := st.ishareDelFlag (needRemountRo flagName)
  if st.checkDirWritable then st.ishareAddFlag (haveMountRw flagName)
  else st.ishareDelFlag (haveMountRw flagName)

/-- `_remount_status_check_have_rw`. -/
def remountStatusCheckHaveRw (st : RemountState) : Bool := st.ishareHasFlag (haveMountRw flagName)

/-- `_remount_status_restore_mount`: whether it succeeds, or `none` if the process
    is killed. -/
def remountStatusRestoreMount (st : RemountState) : Option Bool × RemountState :=
  if st.ishareHasFlag (needRemountRo flagName) then
    match xremount O .ro st with
    | (none, st) => (none, st)
    | (some _, st) =>
      let st := st.ishareDelFlag (needRemountRo flagName)
      (some true, st.ishareDelFlag (haveMountRw flagName))
  else (some true, st)

/-- `_remount_status_no_remount_ro`. -/
def remountStatusNoRemountRo (st : RemountState) : Option Bool × RemountState :=
  (some true, st.ishareDelFlag (needRemountRo flagName))

/-- `_remount_status_get_rw`. -/
def remountStatusGetRw (st : RemountState) : Option Bool × RemountState :=
  if remountStatusCheckHaveRw flagName st then (some true, st)
  else
    match xremount O .rw (st.ishareAddFlag (needRemountRo flagName)) with
    | (none, st) => (none, st)
    | (some _, st) => (some true, st.ishareAddFlag (haveMountRw flagName))

/-- `_remount_status_get_rw_check`. -/
def remountStatusGetRwCheck (st : RemountState) : Option Bool × RemountState :=
  match remountStatusGetRw O flagName st with
  | (some true, st) =>
    if st.checkDirWritable then (some true, st.ishareAddFlag (haveMountRw flagName))
    else (some false, st.ishareDelFlag (haveMountRw flagName))
  | r => r

/-- `autodie` of a function: a failure kills the process. -/
def autodie (r : Option Bool × RemountState) : Option Bool × RemountState :=
  match r with
  | (some false, st) => (none, st)
  | r => r

/-- The functions that `eval_remount_status_functions` creates, apart from the
    setup and the check. -/
inductive RemountOp
  | getRw
  | getRwNonfatal
  | noRemountRo
  | restoreStatus
  deriving DecidableEq

/-- `get_%name_rw`, `get_%name_rw_nonfatal`, `%name_no_remount_ro` and
    `%name_remount_restore_status`. -/
def RemountOp.run : RemountOp → RemountState → Option Bool × RemountState
  | .getRw, st => autodie (remountStatusGetRwCheck O flagName st)
  | .getRwNonfatal, st => remountStatusGetRwCheck O flagName st
  | .noRemountRo, st => remountStatusNoRemountRo flagName st
  | .restoreStatus, st => remountStatusRestoreMount O flagName st

end

/-! ## The bookkeeping -/

/-- A step of a sequence of operations. -/
abbrev RemountStep := Lib.Step RemountOp (Option Bool) RemountState

/-- An actual read-write remount. -/
def IsRwRemount (step : RemountStep) : Prop := step.before.mode = .ro ∧ step.after.mode = .rw

instance (step : RemountStep) : Decidable (IsRwRemount step) := inferInstanceAs (Decidable (_ ∧ _))

/-- `none` until there is a read-write remount, then whether `%name_no_remount_ro`
    has been called since the last one. -/
def cancelled (hist : List RemountStep) : Option Bool :=
  hist.foldl (fun c step => if IsRwRemount step then some false
    else if step.op = .noRemountRo then c.map fun _ => true else c) none

/-- What holds after a history that has started in the state `st₀`: the flag
    follows the mode, a mount that was read-write stays so, and one that has
    become read-write will be remounted unless this has been cancelled. -/
structure RemountInv (flagName : String) (st₀ : RemountState) (hist : List RemountStep)
    (st : RemountState) : Prop where
  have_iff : remountStatusCheckHaveRw flagName st = true ↔ st.mode = .rw
  rw_kept : st₀.mode = .rw → st.mode = .rw ∧ st.ishareHasFlag (needRemountRo flagName) = false ∧
    st.remounts = st₀.remounts
  ro_due : st₀.mode = .ro → st.mode = .rw → cancelled hist = some true ∨
    cancelled hist = some false ∧ st.ishareHasFlag (needRemountRo flagName) = true

section
variable {O : ℕ → Bool} {flagName : String} {st₀ st : RemountState} {hist : List RemountStep}

theorem haveMountRw_ne_needRemountRo (flagName other : String) :
    haveMountRw flagName ≠ needRemountRo other := by
  intro h
  have hhave : "have-mount-rw-".toList.head? = some 'h' := rfl
  have hneed : "need-remount-ro-".toList.head? = some 'n' := rfl
  have hhead : ("have-mount-rw-".toList ++ flagName.toList).head? =
      ("need-remount-ro-".toList ++ other.toList).head? := by
    rw [← String.toList_append, ← String.toList_append]
    exact congrArg (fun s : String => s.toList.head?) h
  rw [List.head?_append, List.head?_append, hhave, hneed] at hhead
  cases hhead

theorem cancelled_append (step : RemountStep) : cancelled (hist ++ [step]) =
    if IsRwRemount step then some false
    else if step.op = .noRemountRo then (cancelled hist).map fun _ => true
    else cancelled hist := by
  rw [cancelled, List.foldl_append]
  rfl

theorem cancelled_of_mode {step : RemountStep} (hmode : step.after.mode = step.before.mode)
    (hop : step.op ≠ .noRemountRo) : cancelled (hist ++ [step]) = cancelled hist := by
  have hrw : ¬ IsRwRemount step := by
    rintro ⟨hbefore, hafter⟩
    rw [hmode, hbefore] at hafter
    cases hafter
  rw [cancelled_append, if_neg hrw, if_neg hop]

/-- A mount that is not read-write is read-only. -/
theorem mode_eq_ro {mode : MountMode} (h : mode ≠ .rw) : mode = .ro := by
  cases mode with
  | ro => rfl
  | rw => exact absurd rfl h

/-! ## One operation -/

/-- **The two ways to get a read-write mount**: it is one already, or it is
    remounted. -/
theorem remountStatusGetRwCheck_cases
    (hinv : remountStatusCheckHaveRw flagName st = true ↔ st.mode = .rw) :
    (st.mode = .rw ∧ remountStatusGetRwCheck O flagName st =
        (some true, st.ishareAddFlag (haveMountRw flagName))) ∨
      (st.mode = .ro ∧ O st.remounts.length = true ∧
        ∃ st', remountStatusGetRwCheck O flagName st = (some true, st') ∧ st'.mode = .rw ∧
          st'.ishareHasFlag (haveMountRw flagName) = true ∧
          st'.ishareHasFlag (needRemountRo flagName) = true) ∨
      (st.mode = .ro ∧ O st.remounts.length = false ∧
        ∃ st', remountStatusGetRwCheck O flagName st = (none, st') ∧ st'.mode = .ro ∧
          st'.ishareHasFlag (haveMountRw flagName) = st.ishareHasFlag (haveMountRw flagName)) := by
  have hne := haveMountRw_ne_needRemountRo flagName flagName
  rw [remountStatusGetRwCheck, remountStatusGetRw]
  by_cases hhave : remountStatusCheckHaveRw flagName st = true
  · have hmode := hinv.1 hhave
    refine .inl ⟨hmode, ?_⟩
    rw [if_pos hhave]
    dsimp only
    rw [if_pos (by simp [RemountState.checkDirWritable, hmode])]
  · have hmode := mode_eq_ro fun hrw => hhave (hinv.2 hrw)
    right
    rw [if_neg hhave, xremount, RemountState.ishareAddFlag_remounts]
    cases hO : O st.remounts.length with
    | true =>
      refine .inl ⟨hmode, rfl, _, rfl, rfl, ?_, ?_⟩
      · simp
      · rw [RemountState.ishareHasFlag_add, if_neg hne.symm, RemountState.ishareHasFlag_add,
          if_neg hne.symm]
        simp [RemountState.ishareHasFlag, RemountState.ishareAddFlag]
    | false =>
      refine .inr ⟨hmode, rfl, _, rfl, hmode, ?_⟩
      simp [RemountState.ishareHasFlag, RemountState.ishareAddFlag, hne]

/-- Getting a read-write mount keeps the bookkeeping. -/
theorem remountInv_getRw (hinv : RemountInv flagName st₀ hist st) {step : RemountStep}
    (hop : step.op ≠ .noRemountRo) (hbefore : step.before = st)
    (hafter : step.after = (remountStatusGetRwCheck O flagName st).2) :
    RemountInv flagName st₀ (hist ++ [step]) step.after := by
  have hne := haveMountRw_ne_needRemountRo flagName flagName
  rcases remountStatusGetRwCheck_cases (O := O) hinv.have_iff with
    ⟨hmode, hr⟩ | ⟨hmode, -, st', hr, hmode', hhave, hneed⟩ | ⟨hmode, -, st', hr, hmode', hhave⟩
  · rw [hr] at hafter
    have hcancelled : cancelled (hist ++ [step]) = cancelled hist :=
      cancelled_of_mode (by rw [hafter, hbefore]; rfl) hop
    rw [hafter]
    refine ⟨?_, fun h₀ => ?_, fun h₀ h => ?_⟩
    · simp [remountStatusCheckHaveRw, hmode]
    · obtain ⟨hrw, hflag, hremounts⟩ := hinv.rw_kept h₀
      exact ⟨hrw, by rw [RemountState.ishareHasFlag_add, if_neg hne.symm, hflag], hremounts⟩
    · rw [hcancelled, RemountState.ishareHasFlag_add, if_neg hne.symm]
      exact hinv.ro_due h₀ h
  · rw [hr] at hafter
    have hremounted : IsRwRemount step :=
      ⟨by rw [hbefore]; exact hmode, by rw [hafter]; exact hmode'⟩
    have hcancelled : cancelled (hist ++ [step]) = some false := by
      rw [cancelled_append, if_pos hremounted]
    rw [hafter]
    refine ⟨iff_of_true hhave hmode', fun h₀ => ?_, fun _ _ => .inr ⟨hcancelled, hneed⟩⟩
    rw [(hinv.rw_kept h₀).1] at hmode
    cases hmode
  · rw [hr] at hafter
    rw [hafter]
    refine ⟨?_, fun h₀ => ?_, fun _ h => ?_⟩
    · dsimp only
      rw [hmode', ← hmode, remountStatusCheckHaveRw, hhave]
      exact hinv.have_iff
    · rw [(hinv.rw_kept h₀).1] at hmode
      cases hmode
    · rw [hmode'] at h
      cases h

/-- Cancelling the remount keeps the bookkeeping. -/
theorem remountInv_noRemountRo (hinv : RemountInv flagName st₀ hist st) {step : RemountStep}
    (hop : step.op = .noRemountRo) (hbefore : step.before = st)
    (hafter : step.after = st.ishareDelFlag (needRemountRo flagName)) :
    RemountInv flagName st₀ (hist ++ [step]) step.after := by
  have hne := haveMountRw_ne_needRemountRo flagName flagName
  have hrw : ¬ IsRwRemount step := by
    rintro ⟨hb, ha⟩
    rw [hafter, RemountState.ishareDelFlag_mode, ← hbefore, hb] at ha
    cases ha
  have hcancelled : cancelled (hist ++ [step]) = (cancelled hist).map fun _ => true := by
    rw [cancelled_append, if_neg hrw, if_pos hop]
  rw [hafter]
  refine ⟨?_, fun h₀ => ?_, fun h₀ h => .inl ?_⟩
  · rw [remountStatusCheckHaveRw, RemountState.ishareHasFlag_del, if_neg hne]
    exact hinv.have_iff
  · obtain ⟨hmode, -, hremounts⟩ := hinv.rw_kept h₀
    exact ⟨hmode, by simp, hremounts⟩
  · rw [hcancelled]
    rcases hinv.ro_due h₀ h with hc | ⟨hc, -⟩ <;> rw [hc] <;> rfl

/-- What restoring the mount does. -/
theorem remountStatusRestoreMount_cases (st : RemountState) :
    (st.ishareHasFlag (needRemountRo flagName) = false ∧
        remountStatusRestoreMount O flagName st = (some true, st)) ∨
      (st.ishareHasFlag (needRemountRo flagName) = true ∧ ∃ st',
        remountStatusRestoreMount O flagName st = (some true, st') ∧ st'.mode = .ro ∧
          st'.ishareHasFlag (haveMountRw flagName) = false) ∨
      (st.ishareHasFlag (needRemountRo flagName) = true ∧ ∃ st',
        remountStatusRestoreMount O flagName st = (none, st') ∧ st'.mode = st.mode ∧
          st'.flags = st.flags) := by
  rw [remountStatusRestoreMount, xremount]
  cases hneed : st.ishareHasFlag (needRemountRo flagName) with
  | false => exact .inl ⟨rfl, rfl⟩
  | true =>
    rw [if_pos rfl]
    cases O st.remounts.length with
    | true => exact .inr (.inl ⟨rfl, _, rfl, rfl, by simp⟩)
    | false => exact .inr (.inr ⟨rfl, _, rfl, rfl, rfl⟩)

/-- Restoring the mount keeps the bookkeeping. -/
theorem remountInv_restore (hinv : RemountInv flagName st₀ hist st) {step : RemountStep}
    (hop : step.op ≠ .noRemountRo) (hbefore : step.before = st)
    (hafter : step.after = (remountStatusRestoreMount O flagName st).2) :
    RemountInv flagName st₀ (hist ++ [step]) step.after := by
  rcases @remountStatusRestoreMount_cases O flagName st with
    ⟨-, hr⟩ | ⟨hneed, st', hr, hmode', hhave⟩ | ⟨hneed, st', hr, hmode', hflags⟩
  · rw [hr] at hafter
    have hcancelled : cancelled (hist ++ [step]) = cancelled hist :=
      cancelled_of_mode (by rw [hafter, hbefore]) hop
    rw [hafter]
    exact ⟨hinv.have_iff, hinv.rw_kept, by rw [hcancelled]; exact hinv.ro_due⟩
  · rw [hr] at hafter
    rw [hafter]
    refine ⟨?_, fun h₀ => ?_, fun _ h => ?_⟩
    · exact iff_of_false (by rw [remountStatusCheckHaveRw, hhave]; decide)
        (by rw [hmode']; exact MountMode.noConfusion)
    · rw [(hinv.rw_kept h₀).2.1] at hneed
      cases hneed
    · rw [hmode'] at h
      cases h
  · rw [hr] at hafter
    have hcancelled : cancelled (hist ++ [step]) = cancelled hist :=
      cancelled_of_mode (by rw [hafter, hbefore]; exact hmode') hop
    have hflag : ∀ name, st'.ishareHasFlag name = st.ishareHasFlag name :=
      fun name => congrFun hflags name
    rw [hafter]
    refine ⟨?_, fun h₀ => ?_, fun h₀ h => ?_⟩
    · dsimp only
      rw [remountStatusCheckHaveRw, hflag, hmode']
      exact hinv.have_iff
    · rw [(hinv.rw_kept h₀).2.1] at hneed
      cases hneed
    · dsimp only at h ⊢
      rw [hmode'] at h
      rw [hcancelled, hflag]
      exact hinv.ro_due h₀ h

/-! ## Sequences of operations -/

theorem autodie_snd (r : Option Bool × RemountState) : (autodie r).2 = r.2 := by
  rcases r with ⟨_ | _ | _, st⟩ <;> rfl

/-- **What each operation preserves.** -/
theorem remountStep_inv (op : RemountOp) (hinv : RemountInv flagName st₀ hist st) :
    RemountInv flagName st₀ (hist ++ [Lib.stepOf (RemountOp.run O flagName) op st])
      (op.run O flagName st).2 := by
  set step : RemountStep := Lib.stepOf (RemountOp.run O flagName) op st
  show RemountInv flagName st₀ (hist ++ [step]) step.after
  cases op with
  | getRw =>
    have hop : RemountOp.getRw ≠ .noRemountRo := by simp
    exact remountInv_getRw hinv hop rfl (autodie_snd _)
  | getRwNonfatal =>
    have hop : RemountOp.getRwNonfatal ≠ .noRemountRo := by simp
    exact remountInv_getRw hinv hop rfl rfl
  | noRemountRo => exact remountInv_noRemountRo hinv rfl rfl rfl
  | restoreStatus =>
    have hop : RemountOp.restoreStatus ≠ .noRemountRo := by simp
    exact remountInv_restore hinv hop rfl rfl

theorem remountStatusSetupFlagFiles_inv (st : RemountState) :
    RemountInv flagName (remountStatusSetupFlagFiles flagName st) []
      (remountStatusSetupFlagFiles flagName st) := by
  have hne := haveMountRw_ne_needRemountRo flagName flagName
  rw [remountStatusSetupFlagFiles]
  cases hmode : st.mode with
  | ro =>
    rw [if_neg (by simp [RemountState.checkDirWritable, hmode])]
    exact ⟨by simp [remountStatusCheckHaveRw, hmode], fun h => by simp [hmode] at h,
      fun _ h => by simp [hmode] at h⟩
  | rw =>
    rw [if_pos (by simp [RemountState.checkDirWritable, hmode])]
    refine ⟨by simp [remountStatusCheckHaveRw, hmode], fun _ => ⟨by simp [hmode], ?_, rfl⟩,
      fun h => by simp [hmode] at h⟩
    rw [RemountState.ishareHasFlag_add, if_neg hne.symm]
    simp

end

/-- After the setup and after each operation of a sequence, the flag says whether
    the mountpoint is mounted read-write.  A restore that does not kill the process
    restores the mode unless it has been cancelled since the last read-write
    remount, and a mount that was read-write is never remounted read-only. -/
def RemountBookkeeping (O : ℕ → Bool) (flagName : String) (st : RemountState)
    (ops : List RemountOp) : Prop :=
  let st₀ := remountStatusSetupFlagFiles flagName st
  (remountStatusCheckHaveRw flagName st₀ = true ↔ st₀.mode = .rw) ∧
    ∀ pre step post, Lib.steps (RemountOp.run O flagName) ops st₀ = pre ++ step :: post →
      (remountStatusCheckHaveRw flagName step.after = true ↔ step.after.mode = .rw) ∧
      (step.op = .restoreStatus → step.ret ≠ none →
        step.after.mode = st.mode ∨ cancelled pre = some true) ∧
      (st.mode = .rw → step.after.mode = .rw ∧ step.after.remounts = st.remounts)

/-- **The bookkeeping is right** for every sequence of operations, and whichever
    remounts fail. -/
theorem remountBookkeeping (O : ℕ → Bool) (flagName : String) (st : RemountState)
    (ops : List RemountOp) : RemountBookkeeping O flagName st ops := by
  have hmode₀ : (remountStatusSetupFlagFiles flagName st).mode = st.mode := by
    rw [remountStatusSetupFlagFiles]
    split_ifs <;> rfl
  have hremounts₀ : (remountStatusSetupFlagFiles flagName st).remounts = st.remounts := by
    rw [remountStatusSetupFlagFiles]
    split_ifs <;> rfl
  have hsetup := @remountStatusSetupFlagFiles_inv flagName st
  rw [RemountBookkeeping]
  refine ⟨hsetup.have_iff, fun pre step post hsteps => ?_⟩
  obtain ⟨op, s, rfl, hbefore, hafter⟩ := Lib.steps_inv
    (fun hist op s hinv => remountStep_inv (O := O) op hinv) ops [] _ hsetup pre step post hsteps
  rw [List.nil_append] at hbefore hafter
  refine ⟨hafter.have_iff, fun hop hret => ?_, fun hrw => ?_⟩
  · obtain rfl : op = .restoreStatus := hop
    rcases @remountStatusRestoreMount_cases O flagName s with
      ⟨hneed, hr⟩ | ⟨hneed, st', hr, hmode', -⟩ | ⟨-, st', hr, -, -⟩
    · -- no remount is due
      have hst : (Lib.stepOf (RemountOp.run O flagName) .restoreStatus s).after = s := by
        show (remountStatusRestoreMount O flagName s).2 = s
        rw [hr]
      rw [hst]
      cases hmode : st.mode with
      | rw => exact .inl (hbefore.rw_kept (hmode₀.trans hmode)).1
      | ro =>
        cases hs : s.mode with
        | ro => exact .inl rfl
        | rw =>
          rcases hbefore.ro_due (hmode₀.trans hmode) hs with hc | ⟨-, hflag⟩
          · exact .inr hc
          · rw [hneed] at hflag
            cases hflag
    · -- the mount is read-only again
      left
      have hst : (Lib.stepOf (RemountOp.run O flagName) .restoreStatus s).after = st' := by
        show (remountStatusRestoreMount O flagName s).2 = st'
        rw [hr]
      rw [hst, hmode']
      symm
      refine mode_eq_ro fun hrw => ?_
      rw [(hbefore.rw_kept (hmode₀.trans hrw)).2.1] at hneed
      cases hneed
    · refine absurd ?_ hret
      show (remountStatusRestoreMount O flagName s).1 = none
      rw [hr]
  · obtain ⟨hmode, -, hremounts⟩ := hafter.rw_kept (hmode₀.trans hrw)
    exact ⟨hmode, hremounts.trans hremounts₀⟩

end Fischstaebchen
