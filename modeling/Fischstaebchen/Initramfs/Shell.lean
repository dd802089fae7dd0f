/-
  The debug shells of the kernel command line (`initramfs/cmdline.c`).

  An `xshell` word sets the shell mask anew: the on-error bit first, and then
  what its values say.  `once` and `preswitch` set their own bit only and rely
  on the on-error bit being set, which `never` clears in between.

  * `processArg_doshell`: what a call does to the mask.
  * `processCmdline_doshell`: hence the last `xshell` word determines it.
  * `wantsShell_shellMask`, `handlesErrors_shellMask`: which bits the values of
    this word leave set.
  * `processCmdline_onerror_iff`: a shell without error handling remains exactly
    if its values ask for it after the last `never`.
-/
import Fischstaebchen.Initramfs.Cmdline

namespace Fischstaebchen

/-! ## The mask -/

/-- What a value of an `xshell` word does to the mask. -/
def shellValue (mask : BitVec 32) (value : CStr) : BitVec 32 :=
  match streqSwitch value ["never", "fail", "error", "once", "pre", "preswitch", "always"] with
  | some 0 => initramfsDoshellDisable
  | some 1 | some 2 => mask ||| initramfsDoshellOnerror
  | some 3 => mask ||| initramfsDoshellOnce
  | some 4 | some 5 => mask ||| initramfsDoshellOncePreswitch
  | some 6 => mask ||| initramfsDoshellLoop
  | _ => mask

/-- The mask at the beginning of an `xshell` word with `n` fields. -/
def shellBegin (n : ℕ) : BitVec 32 :=
  if n < 2 then initramfsDoshellOnerror ||| initramfsDoshellLoop else initramfsDoshellOnerror

/-- What a call for an `xshell` word does to the mask. -/
def shellCall (arg : ArgsplitData) (mask : BitVec 32) : BitVec 32 :=
  if arg.endOfArg < 0 then shellBegin arg.nargs
  else if arg.endOfArg = 0 then shellValue mask (arg.value.getD [])
  else mask

/-- What a call does to the mask. -/
def shellUpdate (arg : ArgsplitData) (mask : BitVec 32) : BitVec 32 :=
  if initramfsCmdlineGetIntKey arg.key = .shell then shellCall arg mask else mask

/-- The mask that an `xshell` word with these values leaves. -/
def shellMask (values : List CStr) : BitVec 32 :=
  values.foldl shellValue (shellBegin (values.length + 1))

theorem processArgShell_doshell (g : InitramfsGlobals) (arg : ArgsplitData) :
    (processArgShell g arg).2.doshell = shellCall arg g.doshell := by
  unfold processArgShell shellCall
  by_cases hbegin : arg.endOfArg < 0
  · rw [if_pos hbegin, if_pos hbegin]
    rfl
  rw [if_neg hbegin, if_neg hbegin]
  by_cases hend : arg.endOfArg = 0
  · rw [if_pos hend]
    by_cases hempty : strIsEmpty arg.value = true
    · -- an empty value is none of the names
      rw [if_neg fun h => h.2 hempty]
      cases hvalue : arg.value with
      | none => rfl
      | some value =>
        rw [hvalue] at hempty
        rw [List.isEmpty_iff.1 hempty]
        rfl
    · rw [if_pos ⟨hend, hempty⟩]
      rfl
  · rw [if_neg fun h => hend h.1, if_neg hend]

section
variable {ω : Type*} (zramDiskSimple : ZramDiskSimple ω)

theorem processArg_shell {arg : ArgsplitData} (h : initramfsCmdlineGetIntKey arg.key = .shell)
    (flowCtrl : Flow) (s : InitramfsGlobals × ω) :
    initramfsCmdlineProcessArg zramDiskSimple arg flowCtrl s =
      ((processArgShell s.1 arg).1, flowCtrl, (processArgShell s.1 arg).2, s.2) := by
  unfold initramfsCmdlineProcessArg
  rw [h]

/-- **What a call does to the shell mask.** -/
theorem processArg_doshell (arg : ArgsplitData) (flowCtrl : Flow) (s : InitramfsGlobals × ω) :
    (initramfsCmdlineProcessArg zramDiskSimple arg flowCtrl s).2.2.1.doshell =
      shellUpdate arg s.1.doshell := by
  unfold shellUpdate
  split_ifs with hkey
  · rw [processArg_shell zramDiskSimple hkey]
    exact processArgShell_doshell s.1 arg
  · exact (processArg_writes zramDiskSimple arg flowCtrl s).doshell (by simpa using hkey)

end

/-! ## The last word -/

/-- An `xshell` word. -/
def isXshell (word : CStr) : Bool := cmdlineKey word = some "xshell".toList

/-- The last `xshell` word. -/
def lastXshell (words : List CStr) : Option CStr := (words.filter isXshell).getLast?

theorem getIntKey_xshell {key : CStr} :
    initramfsCmdlineGetIntKey key = .shell ↔ key = "xshell".toList := by
  have hname : initramfsCmdlineGetIntKey key = .shell ↔ _ := getIntKey_eq_iff (List.cons_ne_nil _ _)
  simpa only [CmdlineKey.names, List.mem_singleton, exists_eq_left] using hname

/-- The calls for an `xshell` word set the mask anew. -/
theorem foldl_shellCall (str key : CStr) (values : List CStr) (mask : BitVec 32) :
    (argScript str (key :: values)).foldl (fun mask arg => shellCall arg mask) mask =
      shellMask values := by
  rw [argScript, List.foldl_cons, List.foldl_append,
    foldl_fieldCalls (v := shellValue) fun _ _ _ _ => rfl]
  rfl

/-- The update of the mask by a word. -/
theorem foldl_word (word : CStr) (mask : BitVec 32) :
    (argScript word (argFields (some "=".toList) (some ",".toList) word)).foldl
        (fun mask arg => shellUpdate arg mask) mask =
      if isXshell word then shellMask (cmdlineValues word) else mask := by
  have hkey : ∀ arg ∈ argScript word (argFields (some "=".toList) (some ",".toList) word),
      initramfsCmdlineGetIntKey arg.key = .shell ↔ isXshell word = true := by
    intro arg harg
    rw [isXshell, cmdlineKey, argScript_key harg, decide_eq_true_iff, Option.some.injEq]
    exact getIntKey_xshell
  by_cases hword : isXshell word = true
  · rw [if_pos hword]
    have hcongr : ∀ mask : BitVec 32, ∀ arg ∈ argScript word
        (argFields (some "=".toList) (some ",".toList) word),
        shellUpdate arg mask = shellCall arg mask := fun mask arg harg => if_pos ((hkey arg harg).2 hword)
    rw [List.foldl_ext _ _ _ hcongr, cmdlineValues]
    cases hfields : argFields (some "=".toList) (some ",".toList) word with
    | nil =>
      rw [isXshell, cmdlineKey, hfields] at hword
      cases hword
    | cons key values => exact foldl_shellCall word key values mask
  · rw [if_neg hword]
    have hcongr : ∀ mask : BitVec 32, ∀ arg ∈ argScript word
        (argFields (some "=".toList) (some ",".toList) word),
        shellUpdate arg mask = mask := fun mask arg harg => if_neg fun h => hword ((hkey arg harg).1 h)
    rw [List.foldl_ext _ _ _ hcongr]
    exact List.foldl_fixed _

theorem foldl_words (words : List CStr) (mask : BitVec 32) :
    words.foldl (fun mask word => if isXshell word then shellMask (cmdlineValues word) else mask)
        mask =
      ((lastXshell words).map fun word => shellMask (cmdlineValues word)).getD mask := by
  induction words using List.reverseRecOn with
  | nil => rfl
  | append_singleton words word ih =>
    rw [List.foldl_append, List.foldl_cons, List.foldl_nil, ih]
    unfold lastXshell
    rw [List.filter_append]
    by_cases hword : isXshell word = true
    · rw [if_pos hword, List.filter_cons_of_pos hword, List.filter_nil, List.getLast?_concat]
      rfl
    · rw [if_neg hword, List.filter_cons_of_neg hword, List.filter_nil, List.append_nil]

/-! ## The whole command line -/

theorem initData_doshell (host : Host) (g : InitramfsGlobals) :
    (initData host g).doshell = g.doshell := by
  unfold initData; dsimp only; split_ifs <;> rfl

theorem postprocessCmdline_doshell (g : InitramfsGlobals) :
    (initramfsPostprocessCmdline g).2.doshell = g.doshell := rfl

section
variable {ω : Type*} (zramDiskSimple : ZramDiskSimple ω)

/-- **The last `xshell` word determines the mask.** -/
theorem processCmdline_doshell {host : Host} {g : InitramfsGlobals} {w : ω}
    (hok : (initramfsProcessCmdline zramDiskSimple host g w).1 = 0) :
    (initramfsProcessCmdline zramDiskSimple host g w).2.1.doshell =
      ((lastXshell g.cmdlineArgv).map fun word => shellMask (cmdlineValues word)).getD
        g.doshell := by
  obtain ⟨hread, hend⟩ := processCmdline_success zramDiskSimple hok
  have hupdates := argsplitDynarrayDo_updates
    (π := fun s : InitramfsGlobals × ω => s.1.doshell) (u := shellUpdate)
    (processArg_flow zramDiskSimple)
    (fun arg s => processArg_doshell zramDiskSimple arg .keepGoing s) keyDelims_valid
    (fun word => ?_) hread
  · rw [hend, postprocessCmdline_doshell, afterWords, hupdates, initData_doshell, ← foldl_words]
    simp only [foldl_word]
  · by_cases hword : isXshell word = true
    · refine Or.inr fun arg harg s => ?_
      have hkey : initramfsCmdlineGetIntKey arg.key = .shell := by
        rw [isXshell, cmdlineKey, argScript_key harg, decide_eq_true_iff, Option.some.injEq] at hword
        exact getIntKey_xshell.2 hword
      rw [processArg_shell zramDiskSimple hkey]
      exact Flow.noConfusion
    · refine Or.inl fun arg harg mask => if_neg fun hkey => hword ?_
      rw [isXshell, cmdlineKey, argScript_key harg, decide_eq_true_iff, Option.some.injEq]
      exact getIntKey_xshell.1 hkey

end

/-! ## The values -/

/-- A value that sets the on-error bit. -/
def IsFailValue (value : CStr) : Prop := value = "fail".toList ∨ value = "error".toList

/-- A value that asks for a shell during the boot process. -/
def IsShellValue (value : CStr) : Prop :=
  value = "once".toList ∨ value = "pre".toList ∨ value = "preswitch".toList

/-- A shell is run once, early or before switching to newroot. -/
def WantsShell (mask : BitVec 32) : Prop :=
  mask &&& initramfsDoshellOnce ≠ 0 ∨ mask &&& initramfsDoshellOncePreswitch ≠ 0
  deriving Decidable

/-- A shell is run on errors. -/
def HandlesErrors (mask : BitVec 32) : Prop := mask &&& initramfsDoshellOnerror ≠ 0
  deriving Decidable

theorem or_and_ne_zero {mask bit other : BitVec 32} :
    (mask ||| bit) &&& other ≠ 0 ↔ mask &&& other ≠ 0 ∨ bit &&& other ≠ 0 := by
  have hzero : (mask ||| bit) &&& other = 0 ↔ mask &&& other = 0 ∧ bit &&& other = 0 := by
    rw [BitVec.and_or_distrib_right]
    exact BitVec.or_eq_zero_iff
  rw [Ne, hzero, not_and_or]

theorem wantsShell_or {mask bit : BitVec 32} :
    WantsShell (mask ||| bit) ↔ WantsShell mask ∨ WantsShell bit := by
  unfold WantsShell
  rw [or_and_ne_zero, or_and_ne_zero]
  exact or_or_or_comm

theorem handlesErrors_or {mask bit : BitVec 32} :
    HandlesErrors (mask ||| bit) ↔ HandlesErrors mask ∨ HandlesErrors bit := or_and_ne_zero

theorem shellValue_fail {value : CStr} (h : IsFailValue value) (mask : BitVec 32) :
    shellValue mask value = mask ||| initramfsDoshellOnerror := by
  rcases h with rfl | rfl <;> rfl

theorem shellValue_shell {value : CStr} (h : IsShellValue value) (mask : BitVec 32) :
    shellValue mask value = mask ||| initramfsDoshellOnce ∨
      shellValue mask value = mask ||| initramfsDoshellOncePreswitch := by
  rcases h with rfl | rfl | rfl
  · exact Or.inl rfl
  · exact Or.inr rfl
  · exact Or.inr rfl

theorem shellValue_other {value : CStr} (hnever : value ≠ "never".toList)
    (hfail : ¬ IsFailValue value) (hshell : ¬ IsShellValue value) (mask : BitVec 32) :
    shellValue mask value = mask ∨ shellValue mask value = mask ||| initramfsDoshellLoop := by
  unfold shellValue
  cases hs : streqSwitch value
      ["never", "fail", "error", "once", "pre", "preswitch", "always"] with
  | none => exact Or.inl rfl
  | some i =>
    obtain ⟨name, hname, rfl⟩ := streqSwitch_eq_some hs
    match i, hname with
    | 0, h => cases h; exact absurd rfl hnever
    | 1, h => cases h; exact absurd (Or.inl rfl) hfail
    | 2, h => cases h; exact absurd (Or.inr rfl) hfail
    | 3, h => cases h; exact absurd (Or.inl rfl) hshell
    | 4, h => cases h; exact absurd (Or.inr (Or.inl rfl)) hshell
    | 5, h => cases h; exact absurd (Or.inr (Or.inr rfl)) hshell
    | 6, _ => exact Or.inr rfl
    | i + 7, h => cases h

theorem not_isShellValue_of_fail {value : CStr} (h : IsFailValue value) : ¬ IsShellValue value := by
  rcases h with rfl | rfl <;> rintro (h | h | h) <;> exact absurd h (by simp)

/-- **The bits after one value** other than `never`. -/
theorem shellValue_bits {value : CStr} (hnever : value ≠ "never".toList) (mask : BitVec 32) :
    (WantsShell (shellValue mask value) ↔ WantsShell mask ∨ IsShellValue value) ∧
      (HandlesErrors (shellValue mask value) ↔ HandlesErrors mask ∨ IsFailValue value) := by
  -- a value sets one bit, or none
  have hbit : ∀ bit : BitVec 32, (WantsShell bit ↔ IsShellValue value) →
      (HandlesErrors bit ↔ IsFailValue value) → shellValue mask value = mask ||| bit →
      (WantsShell (shellValue mask value) ↔ WantsShell mask ∨ IsShellValue value) ∧
        (HandlesErrors (shellValue mask value) ↔ HandlesErrors mask ∨ IsFailValue value) := by
    intro bit hwants hhandles hvalue
    rw [hvalue, wantsShell_or, handlesErrors_or, hwants, hhandles]
    exact ⟨Iff.rfl, Iff.rfl⟩
  by_cases hfail : IsFailValue value
  · exact hbit _ (iff_of_false (by decide) (not_isShellValue_of_fail hfail))
      (iff_of_true (by decide) hfail) (shellValue_fail hfail mask)
  by_cases hshell : IsShellValue value
  · rcases shellValue_shell hshell mask with hvalue | hvalue
    · exact hbit _ (iff_of_true (by decide) hshell) (iff_of_false (by decide) hfail) hvalue
    · exact hbit _ (iff_of_true (by decide) hshell) (iff_of_false (by decide) hfail) hvalue
  rcases shellValue_other hnever hfail hshell mask with hvalue | hvalue
  · rw [hvalue, or_iff_left hshell, or_iff_left hfail]
    exact ⟨Iff.rfl, Iff.rfl⟩
  · exact hbit _ (iff_of_false (by decide) hshell) (iff_of_false (by decide) hfail) hvalue

/-- **The bits after some values** other than `never`. -/
theorem foldl_shellValue_bits {values : List CStr} (hnever : "never".toList ∉ values)
    (mask : BitVec 32) :
    (WantsShell (values.foldl shellValue mask) ↔
        WantsShell mask ∨ ∃ value ∈ values, IsShellValue value) ∧
      (HandlesErrors (values.foldl shellValue mask) ↔
        HandlesErrors mask ∨ ∃ value ∈ values, IsFailValue value) := by
  induction values generalizing mask with
  | nil => simp
  | cons value values ih =>
    have hne : value ≠ "never".toList := fun h => hnever (h ▸ List.mem_cons_self)
    obtain ⟨hwants, hhandles⟩ :=
      ih (fun h => hnever (List.mem_cons_of_mem _ h)) (shellValue mask value)
    obtain ⟨hwants₁, hhandles₁⟩ := shellValue_bits hne mask
    rw [List.foldl_cons, hwants, hhandles, hwants₁, hhandles₁, or_assoc, or_assoc,
      List.exists_mem_cons_iff, List.exists_mem_cons_iff]
    exact ⟨Iff.rfl, Iff.rfl⟩

/-- The last `never` in a list of values. -/
theorem exists_last_never {values : List CStr} (h : "never".toList ∈ values) :
    ∃ pre post, values = pre ++ "never".toList :: post ∧ "never".toList ∉ post := by
  obtain ⟨pre, post, hrev, hpre⟩ := List.eq_append_cons_of_mem (List.mem_reverse.2 h)
  refine ⟨post.reverse, pre.reverse, ?_, by rwa [List.mem_reverse]⟩
  have hvalues := congrArg List.reverse hrev
  rw [List.reverse_reverse] at hvalues
  rw [hvalues]
  simp

/-- After the last `never`, the values ask for error handling if they ask for a
    shell. -/
def ErrorsAfterNever (values : List CStr) : Prop :=
  ∀ pre post, values = pre ++ "never".toList :: post → "never".toList ∉ post →
    (∃ value ∈ post, IsShellValue value) → ∃ value ∈ post, IsFailValue value

/-- `never` resets the mask. -/
theorem shellMask_never (pre : List CStr) {post : List CStr} (hpost : "never".toList ∉ post) :
    (WantsShell (shellMask (pre ++ "never".toList :: post)) ↔
        ∃ value ∈ post, IsShellValue value) ∧
      (HandlesErrors (shellMask (pre ++ "never".toList :: post)) ↔
        ∃ value ∈ post, IsFailValue value) := by
  have hmask : shellMask (pre ++ "never".toList :: post) =
      post.foldl shellValue initramfsDoshellDisable := by
    rw [shellMask, List.foldl_append, List.foldl_cons]
    rfl
  obtain ⟨hwants, hhandles⟩ := foldl_shellValue_bits hpost initramfsDoshellDisable
  rw [hmask, hwants, hhandles, or_iff_right (by decide), or_iff_right (by decide)]
  exact ⟨Iff.rfl, Iff.rfl⟩

/-- **When a word keeps the on-error bit** next to the other ones. -/
theorem shellMask_iff (values : List CStr) :
    (WantsShell (shellMask values) → HandlesErrors (shellMask values)) ↔
      ErrorsAfterNever values := by
  by_cases hnever : "never".toList ∈ values
  · constructor
    · rintro h pre post rfl hpost hshell
      obtain ⟨hwants, hhandles⟩ := shellMask_never pre hpost
      exact hhandles.1 (h (hwants.2 hshell))
    · intro h hshell
      obtain ⟨pre, post, hvalues, hpost⟩ := exists_last_never hnever
      rw [hvalues] at hshell ⊢
      obtain ⟨hwants, hhandles⟩ := shellMask_never pre hpost
      exact hhandles.2 (h pre post hvalues hpost (hwants.1 hshell))
  · have hbegin : HandlesErrors (shellBegin (values.length + 1)) := by
      unfold shellBegin
      split_ifs <;> decide
    refine iff_of_true (fun _ => ((foldl_shellValue_bits hnever _).2).2 (Or.inl hbegin)) ?_
    rintro pre post rfl
    exact absurd (List.mem_append_right pre List.mem_cons_self) hnever

section
variable {ω : Type*} (zramDiskSimple : ZramDiskSimple ω)

/-- **A shell without error handling**: after a successful run from the disabled
    state, the mask has the on-error bit next to the other ones exactly if the
    last `xshell` word keeps it. -/
theorem processCmdline_onerror_iff {host : Host} {g : InitramfsGlobals} {w : ω}
    (hstart : g.doshell = initramfsDoshellDisable)
    (hok : (initramfsProcessCmdline zramDiskSimple host g w).1 = 0) :
    (WantsShell (initramfsProcessCmdline zramDiskSimple host g w).2.1.doshell →
        HandlesErrors (initramfsProcessCmdline zramDiskSimple host g w).2.1.doshell) ↔
      ∀ word, lastXshell g.cmdlineArgv = some word → ErrorsAfterNever (cmdlineValues word) := by
  rw [processCmdline_doshell zramDiskSimple hok, hstart]
  cases hlast : lastXshell g.cmdlineArgv with
  | none => exact iff_of_true (fun h => absurd h (by decide)) nofun
  | some word =>
    rw [Option.map_some, Option.getD_some, shellMask_iff]
    simp only [Option.some.injEq, forall_eq']

end

/-- `fail` after `never` keeps the error handling. -/
theorem processCmdline_onerror_fail :
    (WantsShell (sampleRun ["xshell=once", "xshell=never,once,fail"]).2.1.doshell →
        HandlesErrors (sampleRun ["xshell=once", "xshell=never,once,fail"]).2.1.doshell) ↔
      ∀ word, lastXshell (["xshell=once", "xshell=never,once,fail"].map String.toList) = some word →
        ErrorsAfterNever (cmdlineValues word) :=
  processCmdline_onerror_iff _ rfl (by decide +kernel)

/-- `xshell=never,once` runs a shell once, but none on errors. -/
theorem not_handlesErrors_never :
    (sampleRun ["xshell=never,once"]).1 = 0 ∧
      WantsShell (sampleRun ["xshell=never,once"]).2.1.doshell ∧
      ¬ HandlesErrors (sampleRun ["xshell=never,once"]).2.1.doshell := by
  decide +kernel

end Fischstaebchen
