/-
  The usr mount of the kernel command line (`initramfs/cmdline.c`).

  Three words write `want_newroot_usr_mount`: `nousrmount` disables it,
  `squashed_usr=builtin` enforces it, and `squashed_usr` is ignored once it is
  disabled.

  * `processArg_usrMountDisabled`: a call of `nousrmount` disables it, no other
    call does, or takes that back.
  * `readWords_usrMountDisabled`: hence it is disabled after reading some words
    if and only if one of them is `nousrmount`, in any order.
  * `processArg_keepsUsrMount`: the usr mount is not changed once it is disabled.
  * `processCmdline_nousrmount`: both of them for a whole command line.
-/
import Fischstaebchen.Initramfs.Cmdline

namespace Fischstaebchen

section
variable {ω : Type*} (zramDiskSimple : ZramDiskSimple ω)

/-! ## One call -/

/-- What a call says about disabling the usr mount. -/
def usrMountDisable (arg : ArgsplitData) : Option Bool :=
  if initramfsCmdlineGetIntKey arg.key = .usrSfsNomount then some true else none

theorem dboolIsUndefTrue_enforce (v : Dbool) :
    dboolIsUndefTrue (dboolEnforce v) = dboolIsUndefTrue v := by
  have hbits : (v ||| 0x1#32) &&& 0x2#32 = v &&& 0x2#32 := by
    rw [BitVec.and_or_distrib_right]
    exact BitVec.or_zero
  simp only [dboolIsUndefTrue, dboolEnforce, dboolForced, dboolFalse]
  exact decide_eq_decide.2 (by rw [show (0x1 : Dbool) = 0x1#32 from rfl,
    show (0x2 : Dbool) = 0x2#32 from rfl, hbits])

theorem ne_false_of_isUndefTrue {v : Dbool} (h : dboolIsUndefTrue v = true) : v ≠ dboolFalse := by
  rintro rfl
  exact absurd h (by decide)

/-- `squashed_usr` does not disable the usr mount that is not yet disabled. -/
theorem processArgSquashedUsr_isUndefTrue (g : InitramfsGlobals) (arg : ArgsplitData) :
    dboolIsUndefTrue (processArgSquashedUsr g arg).2.wantNewrootUsrMount =
      dboolIsUndefTrue g.wantNewrootUsrMount := by
  unfold processArgSquashedUsr
  split_ifs
  · exact dboolIsUndefTrue_enforce _
  · rfl

theorem processArg_usrSfs {arg : ArgsplitData} (h : initramfsCmdlineGetIntKey arg.key = .usrSfs)
    (flowCtrl : Flow) (s : InitramfsGlobals × ω) :
    (initramfsCmdlineProcessArg zramDiskSimple arg flowCtrl s).2.2.1 =
      if dboolIsUndefTrue s.1.wantNewrootUsrMount then (processArgSquashedUsr s.1 arg).2
      else s.1 := by
  unfold initramfsCmdlineProcessArg
  rw [h]
  dsimp only
  split_ifs <;> rfl

theorem processArg_usrSfsNomount {arg : ArgsplitData}
    (h : initramfsCmdlineGetIntKey arg.key = .usrSfsNomount) (flowCtrl : Flow)
    (s : InitramfsGlobals × ω) :
    (initramfsCmdlineProcessArg zramDiskSimple arg flowCtrl s).2.2.1 =
      { s.1 with wantNewrootUsrMount := dboolFalse } := by
  unfold initramfsCmdlineProcessArg
  rw [h]

/-- **Who disables the usr mount**: `nousrmount` with every call; no call takes
    it back. -/
theorem processArg_usrMountDisabled (arg : ArgsplitData) (flowCtrl : Flow)
    (s : InitramfsGlobals × ω) :
    decide ((initramfsCmdlineProcessArg zramDiskSimple arg flowCtrl s).2.2.1.wantNewrootUsrMount =
        dboolFalse) =
      (usrMountDisable arg).getD (decide (s.1.wantNewrootUsrMount = dboolFalse)) := by
  unfold usrMountDisable
  by_cases hno : initramfsCmdlineGetIntKey arg.key = .usrSfsNomount
  · rw [if_pos hno, processArg_usrSfsNomount zramDiskSimple hno]
    rfl
  rw [if_neg hno, Option.getD_none]
  by_cases husr : initramfsCmdlineGetIntKey arg.key = .usrSfs
  · rw [processArg_usrSfs zramDiskSimple husr]
    split_ifs with hundef
    · -- not disabled before, and not disabled by `squashed_usr`
      have hafter := processArgSquashedUsr_isUndefTrue s.1 arg
      rw [hundef] at hafter
      rw [decide_eq_false (ne_false_of_isUndefTrue hafter),
        decide_eq_false (ne_false_of_isUndefTrue hundef)]
    · rfl
  · have hkept := (processArg_writes zramDiskSimple arg flowCtrl s).wantNewrootUsrMount
      (by simp [husr, hno])
    rw [hkept]

/-- **A disabled usr mount is left alone**: no call changes it. -/
theorem processArg_keepsUsrMount (arg : ArgsplitData) (flowCtrl : Flow) {s : InitramfsGlobals × ω}
    (h : s.1.wantNewrootUsrMount = dboolFalse) :
    (initramfsCmdlineProcessArg zramDiskSimple arg flowCtrl s).2.2.1.wantNewrootUsrMount =
        dboolFalse ∧
      (initramfsCmdlineProcessArg zramDiskSimple arg flowCtrl s).2.2.1.newrootUsrMount =
        s.1.newrootUsrMount := by
  constructor
  · have hdis := processArg_usrMountDisabled zramDiskSimple arg flowCtrl s
    rw [decide_eq_true h] at hdis
    refine of_decide_eq_true (hdis.trans ?_)
    unfold usrMountDisable
    split_ifs <;> rfl
  · by_cases husr : initramfsCmdlineGetIntKey arg.key = .usrSfs
    · rw [processArg_usrSfs zramDiskSimple husr, h, if_neg (by decide)]
    · exact (processArg_writes zramDiskSimple arg flowCtrl s).newrootUsrMount (by simpa using husr)

/-! ## The words -/

/-- The globals after reading some words: the first part of
    `_initramfs_process_cmdline` with these words as its command line. -/
def readWords (host : Host) (g : InitramfsGlobals) (w : ω) (words : List CStr) :
    ℤ × InitramfsGlobals × ω :=
  argsplitDynarrayDo (initramfsCmdlineProcessArg zramDiskSimple) words (some "=".toList)
    (some ",".toList) (initData host g, w)

/-- A word that disables the usr mount. -/
def isNousrmount (word : CStr) : Prop := cmdlineKey word = some "nousrmount".toList

/-- All calls for a word say the same about disabling the usr mount. -/
theorem mem_usrMountDisable {word : CStr} {arg : ArgsplitData}
    (h : arg ∈ argScript word (argFields (some "=".toList) (some ",".toList) word)) :
    usrMountDisable arg = some true ↔ isNousrmount word := by
  have hkey := argScript_key h
  have hname : initramfsCmdlineGetIntKey arg.key = .usrSfsNomount ↔ _ :=
    getIntKey_eq_iff (List.cons_ne_nil _ _)
  simp only [CmdlineKey.names, List.mem_singleton, exists_eq_left] at hname
  unfold usrMountDisable isNousrmount cmdlineKey
  rw [hkey, Option.some.injEq, ← hname]
  split_ifs with hno
  · exact iff_of_true rfl hno
  · exact iff_of_false nofun hno

theorem usrMountDisable_cases (arg : ArgsplitData) :
    usrMountDisable arg = some true ∨ usrMountDisable arg = none := by
  unfold usrMountDisable
  split_ifs
  · exact Or.inl rfl
  · exact Or.inr rfl

/-- What the first call for a word says about disabling the usr mount. -/
def wordDisable (word : CStr) : Option Bool :=
  (argScript word (argFields (some "=".toList) (some ",".toList) word)).head?.bind usrMountDisable

/-- The later calls for a word say the same as the first one. -/
theorem tail_usrMountDisable (word : CStr) : ∀ arg ∈ (argScript word
    (argFields (some "=".toList) (some ",".toList) word)).tail,
      usrMountDisable arg = none ∨ usrMountDisable arg = wordDisable word := by
  intro arg harg
  rcases usrMountDisable_cases arg with hdis | hdis
  · right
    have hword := (mem_usrMountDisable (List.mem_of_mem_tail harg)).1 hdis
    obtain ⟨first, rest, hscript⟩ := List.exists_cons_of_ne_nil
      (List.ne_nil_of_mem (List.mem_of_mem_tail harg))
    have hmem : first ∈ argScript word (argFields (some "=".toList) (some ",".toList) word) := by
      rw [hscript]
      exact List.mem_cons_self
    have hfirst := (mem_usrMountDisable hmem).2 hword
    rw [hdis, wordDisable, hscript]
    exact hfirst.symm
  · exact Or.inl hdis

theorem wordDisable_eq_some {word : CStr} {b : Bool} :
    wordDisable word = some b ↔ b = true ∧ isNousrmount word := by
  unfold wordDisable
  cases hscript : argScript word (argFields (some "=".toList) (some ",".toList) word) with
  | nil =>
    refine iff_of_false nofun fun ⟨_, hword⟩ => ?_
    unfold isNousrmount cmdlineKey at hword
    cases hfields : argFields (some "=".toList) (some ",".toList) word with
    | nil => rw [hfields] at hword; cases hword
    | cons key values => rw [hfields] at hscript; cases hscript
  | cons first rest =>
    have hmem : first ∈ argScript word (argFields (some "=".toList) (some ",".toList) word) := by
      rw [hscript]
      exact List.mem_cons_self
    have hfirst := mem_usrMountDisable hmem
    rw [List.head?_cons, Option.bind_some, ← hfirst]
    rcases usrMountDisable_cases first with hdis | hdis
    · rw [hdis, Option.some.injEq]
      exact ⟨fun h => ⟨h.symm, rfl⟩, fun h => h.1.symm⟩
    · rw [hdis]
      exact iff_of_false nofun fun h => nomatch h.2

theorem lastDecision_wordDisable (words : List CStr) :
    (Lib.lastDecision wordDisable words).getD false = true ↔ ∃ word ∈ words, isNousrmount word := by
  constructor
  · intro h
    cases hlast : Lib.lastDecision wordDisable words with
    | none => rw [hlast] at h; cases h
    | some b =>
      obtain ⟨word, hmem, hdis⟩ := Lib.exists_of_lastDecision hlast
      exact ⟨word, hmem, (wordDisable_eq_some.1 hdis).2⟩
  · rintro ⟨word, hmem, hword⟩
    cases hlast : Lib.lastDecision wordDisable words with
    | none =>
      have hnone := Lib.lastDecision_eq_none.1 hlast word hmem
      rw [wordDisable_eq_some.2 ⟨rfl, hword⟩] at hnone
      cases hnone
    | some b =>
      obtain ⟨_, _, hdis⟩ := Lib.exists_of_lastDecision hlast
      exact (wordDisable_eq_some.1 hdis).1

theorem initData_usrMount (host : Host) (g : InitramfsGlobals) :
    (initData host g).wantNewrootUsrMount = g.wantNewrootUsrMount := by
  unfold initData; dsimp only; split_ifs <;> rfl

/-- **`nousrmount` disables the usr mount**, wherever it stands, and nothing
    else does. -/
theorem readWords_usrMountDisabled {host : Host} {g : InitramfsGlobals} {w : ω}
    {words : List CStr} (hstart : g.wantNewrootUsrMount ≠ dboolFalse)
    (hok : (readWords zramDiskSimple host g w words).1 = 0) :
    (readWords zramDiskSimple host g w words).2.1.wantNewrootUsrMount = dboolFalse ↔
      ∃ word ∈ words, isNousrmount word := by
  have hend := argsplitDynarrayDo_register
    (π := fun s : InitramfsGlobals × ω => decide (s.1.wantNewrootUsrMount = dboolFalse))
    (processArg_flow zramDiskSimple)
    (fun arg s => processArg_usrMountDisabled zramDiskSimple arg .keepGoing s) keyDelims_valid
    tail_usrMountDisable hok
  rw [initData_usrMount, decide_eq_false hstart] at hend
  rw [← lastDecision_wordDisable]
  exact decide_eq_true_iff.symm.trans (iff_of_eq (congrArg (· = true) hend))

/-- **After `nousrmount` the usr mount is not changed** by reading further words. -/
theorem readWords_keepsUsrMount {host : Host} {g : InitramfsGlobals} {w : ω}
    {pre post : List CStr} (hstart : g.wantNewrootUsrMount ≠ dboolFalse)
    (hok : (readWords zramDiskSimple host g w (pre ++ post)).1 = 0)
    (hpre : ∃ word ∈ pre, isNousrmount word) :
    (readWords zramDiskSimple host g w (pre ++ post)).2.1.newrootUsrMount =
      (readWords zramDiskSimple host g w pre).2.1.newrootUsrMount := by
  obtain ⟨hokpre, hrest⟩ :=
    argsplitDynarrayDo_append (processArg_flow zramDiskSimple) keyDelims_valid hok
  have hdisabled := (readWords_usrMountDisabled zramDiskSimple hstart hokpre).2 hpre
  unfold readWords at hdisabled ⊢
  rw [hrest]
  -- the calls for the further words keep it disabled, and the usr mount as it is
  refine (argsplitDynarrayDo_preserves (I := fun s : InitramfsGlobals × ω =>
      s.1.wantNewrootUsrMount = dboolFalse ∧ s.1.newrootUsrMount = _)
    (fun arg s hs => ?_) keyDelims_valid post ⟨hdisabled, rfl⟩).2
  obtain ⟨hwant, hmount⟩ := processArg_keepsUsrMount zramDiskSimple arg .keepGoing hs.1
  exact ⟨hwant, hmount.trans hs.2⟩

/-! ## The whole command line -/

theorem postprocessCmdline_wantNewrootUsrMount (g : InitramfsGlobals) :
    (initramfsPostprocessCmdline g).2.wantNewrootUsrMount = g.wantNewrootUsrMount := rfl

/-- **`nousrmount` is final**: if the globals do not start with a disabled usr
    mount, it is disabled at the end of a successful run if and only if some
    word is `nousrmount`; a `squashed_usr` word after it does not change the usr
    mount. -/
theorem processCmdline_nousrmount {host : Host} {g : InitramfsGlobals} {w : ω}
    (hstart : g.wantNewrootUsrMount ≠ dboolFalse)
    (hok : (initramfsProcessCmdline zramDiskSimple host g w).1 = 0) :
    ((initramfsProcessCmdline zramDiskSimple host g w).2.1.wantNewrootUsrMount = dboolFalse ↔
        ∃ word ∈ g.cmdlineArgv, isNousrmount word) ∧
      ∀ pre word post, g.cmdlineArgv = pre ++ word :: post →
        (∃ word' ∈ pre, isNousrmount word') → cmdlineKey word = some "squashed_usr".toList →
        (readWords zramDiskSimple host g w (pre ++ [word])).2.1.newrootUsrMount =
          (readWords zramDiskSimple host g w pre).2.1.newrootUsrMount := by
  obtain ⟨hread, hend⟩ := processCmdline_success zramDiskSimple hok
  constructor
  · rw [hend, postprocessCmdline_wantNewrootUsrMount]
    exact readWords_usrMountDisabled zramDiskSimple hstart hread
  · intro pre word post hwords hpre _
    have hprefix : (readWords zramDiskSimple host g w (pre ++ [word])).1 = 0 := by
      rw [afterWords, hwords, List.append_cons] at hread
      exact (argsplitDynarrayDo_append (processArg_flow zramDiskSimple) keyDelims_valid hread).1
    exact readWords_keepsUsrMount zramDiskSimple hstart hprefix hpre

end

/-- `squashed_usr` words around `nousrmount`. -/
theorem processCmdline_nousrmount_builtin :
    ((sampleRun ["squashed_usr=builtin", "nousrmount", "squashed_usr=rw,/x"]).2.1.wantNewrootUsrMount
          = dboolFalse ↔
        ∃ word ∈ ["squashed_usr=builtin", "nousrmount", "squashed_usr=rw,/x"].map String.toList,
          isNousrmount word) ∧
      ∀ pre word post,
        ["squashed_usr=builtin", "nousrmount", "squashed_usr=rw,/x"].map String.toList =
          pre ++ word :: post →
        (∃ word' ∈ pre, isNousrmount word') → cmdlineKey word = some "squashed_usr".toList →
        (readWords (fun _ _ _ _ w => (0, w)) sampleHost
            (sampleGlobals ["squashed_usr=builtin", "nousrmount", "squashed_usr=rw,/x"]) ()
            (pre ++ [word])).2.1.newrootUsrMount =
          (readWords (fun _ _ _ _ w => (0, w)) sampleHost
            (sampleGlobals ["squashed_usr=builtin", "nousrmount", "squashed_usr=rw,/x"]) ()
            pre).2.1.newrootUsrMount :=
  processCmdline_nousrmount _ (by decide) (by decide +kernel)

end Fischstaebchen
