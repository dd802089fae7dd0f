/-
  The source of the usr mount (`initramfs/cmdline.c`).

  A value of a `squashed_usr` word that is an absolute path replaces the source
  of the usr mount.  The default source is a path in the initramfs, below the
  mountpoint of newroot; the value is meant relative to newroot, but is stored
  as it is.

  * `processArg_usrSource`: what a call does to the source.
  * `readWords_usrSource`: hence the source is the last path that was given
    while the usr mount was not disabled, if any.
  * `processCmdline_usrSource_iff`: when it stays within newroot.
-/
import Fischstaebchen.Initramfs.UsrMount

namespace Fischstaebchen

/-! ## One call -/

/-- An absolute path. -/
def isAbsPath (value : CStr) : Bool := value.head? = some '/'

/-- What a value of a `squashed_usr` word does to the source. -/
def usrSourceValue (source : Option CStr) (value : CStr) : Option CStr :=
  if isAbsPath value then some value else source

/-- What a call for a `squashed_usr` word does to the source. -/
def usrSourceCall (arg : ArgsplitData) (source : Option CStr) : Option CStr :=
  if arg.endOfArg = 0 then usrSourceValue source (arg.value.getD []) else source

/-- Whether the usr mount is not disabled, and its source, after a call. -/
def usrSourceUpdate (arg : ArgsplitData) (s : Bool × Option CStr) : Bool × Option CStr :=
  if initramfsCmdlineGetIntKey arg.key = .usrSfsNomount then (false, s.2)
  else if initramfsCmdlineGetIntKey arg.key = .usrSfs ∧ s.1 then (true, usrSourceCall arg s.2)
  else s

theorem processArgSfsmountAny_source (p : MountConfig) (arg : ArgsplitData) :
    (processArgSfsmountAny p arg).2.source = usrSourceCall arg p.source := by
  unfold processArgSfsmountAny usrSourceCall
  by_cases hend : arg.endOfArg = 0
  · rw [if_neg (by rw [hend]; decide), if_pos hend]
    by_cases hempty : strIsEmpty arg.value = true
    · rw [if_neg fun h => h.2 hempty]
      cases hvalue : arg.value with
      | none => rfl
      | some value =>
        rw [hvalue] at hempty
        rw [List.isEmpty_iff.1 hempty]
        rfl
    · rw [if_pos ⟨hend, hempty⟩]
      obtain ⟨value, hvalue⟩ : ∃ value, arg.value = some value := by
        cases hvalue : arg.value with
        | none => rw [hvalue] at hempty; exact absurd rfl hempty
        | some value => exact ⟨value, rfl⟩
      rw [hvalue, Option.getD_some]
      dsimp only
      by_cases hrw : value = "rw".toList
      · rw [if_pos hrw, hrw]
        rfl
      rw [if_neg hrw]
      by_cases hro : value = "ro".toList
      · rw [if_pos hro, hro]
        rfl
      rw [if_neg hro]
      unfold usrSourceValue isAbsPath
      simp only [decide_eq_true_eq]
      split_ifs <;> rfl
  · rw [if_neg hend]
    split_ifs with h h'
    · rfl
    · exact absurd h'.1 hend
    · rfl

theorem processArgSquashedUsr_source (g : InitramfsGlobals) (arg : ArgsplitData) :
    (processArgSquashedUsr g arg).2.newrootUsrMount.source =
      usrSourceCall arg g.newrootUsrMount.source := by
  unfold processArgSquashedUsr
  split_ifs with hbuiltin
  · -- `builtin` is not a path
    rw [usrSourceCall, if_pos hbuiltin.1, hbuiltin.2]
    rfl
  · exact processArgSfsmountAny_source g.newrootUsrMount arg

section
variable {ω : Type*} (zramDiskSimple : ZramDiskSimple ω)

/-- **What a call does to the source of the usr mount.** -/
theorem processArg_usrSource (arg : ArgsplitData) (flowCtrl : Flow) (s : InitramfsGlobals × ω) :
    (fun s : InitramfsGlobals × ω =>
        (dboolIsUndefTrue s.1.wantNewrootUsrMount, s.1.newrootUsrMount.source))
      (initramfsCmdlineProcessArg zramDiskSimple arg flowCtrl s).2.2 =
      usrSourceUpdate arg (dboolIsUndefTrue s.1.wantNewrootUsrMount, s.1.newrootUsrMount.source) := by
  have hwrites := processArg_writes zramDiskSimple arg flowCtrl s
  unfold usrSourceUpdate
  dsimp only
  by_cases hno : initramfsCmdlineGetIntKey arg.key = .usrSfsNomount
  · have hfalse : dboolIsUndefTrue dboolFalse = false := by decide
    rw [processArg_usrSfsNomount zramDiskSimple hno, if_pos hno]
    dsimp only
    rw [hfalse]
  rw [if_neg hno]
  by_cases husr : initramfsCmdlineGetIntKey arg.key = .usrSfs
  · rw [processArg_usrSfs zramDiskSimple husr]
    by_cases hopen : dboolIsUndefTrue s.1.wantNewrootUsrMount = true
    · rw [if_pos hopen, if_pos ⟨husr, hopen⟩, processArgSquashedUsr_isUndefTrue, hopen,
        processArgSquashedUsr_source]
    · rw [if_neg hopen, if_neg fun h => hopen h.2]
  · rw [hwrites.wantNewrootUsrMount (by simp [hno, husr]),
      hwrites.newrootUsrMount (by simpa using husr), if_neg fun h => husr h.1]

/-- The calls for these words keep the traversal going. -/
theorem processArg_usr_flow {arg : ArgsplitData}
    (h : initramfsCmdlineGetIntKey arg.key = .usrSfs ∨
      initramfsCmdlineGetIntKey arg.key = .usrSfsNomount)
    (flowCtrl : Flow) (s : InitramfsGlobals × ω) :
    (initramfsCmdlineProcessArg zramDiskSimple arg flowCtrl s).2.1 = flowCtrl := by
  unfold initramfsCmdlineProcessArg
  rcases h with h | h
  · rw [h]
    dsimp only
    split_ifs <;> rfl
  · rw [h]

end

/-! ## The words -/

/-- A `squashed_usr` word. -/
def isSquashedUsr (word : CStr) : Bool := cmdlineKey word = some "squashed_usr".toList

/-- A word other than `nousrmount`. -/
def mountsUsr (word : CStr) : Bool := cmdlineKey word ≠ some "nousrmount".toList

/-- The path that a word gives: the last absolute path among the values of a
    `squashed_usr` word. -/
def usrPath (word : CStr) : Option CStr :=
  if isSquashedUsr word then ((cmdlineValues word).filter isAbsPath).getLast? else none

/-- The last path that is given. -/
def lastUsrPath (words : List CStr) : Option CStr := Lib.lastDecision usrPath words

/-- The last path that is given before the usr mount is disabled. -/
def mountedUsrPath (words : List CStr) : Option CStr := lastUsrPath (words.takeWhile mountsUsr)

/-- What a word does. -/
def usrSourceWord (s : Bool × Option CStr) (word : CStr) : Bool × Option CStr :=
  if mountsUsr word then
    if s.1 then (true, (usrPath word).or s.2) else s
  else (false, s.2)

theorem getIntKey_squashedUsr {key : CStr} :
    initramfsCmdlineGetIntKey key = .usrSfs ↔ key = "squashed_usr".toList := by
  have hname : initramfsCmdlineGetIntKey key = .usrSfs ↔ _ :=
    getIntKey_eq_iff (List.cons_ne_nil _ _)
  simpa only [CmdlineKey.names, List.mem_singleton, exists_eq_left] using hname

theorem getIntKey_nousrmount {key : CStr} :
    initramfsCmdlineGetIntKey key = .usrSfsNomount ↔ key = "nousrmount".toList := by
  have hname : initramfsCmdlineGetIntKey key = .usrSfsNomount ↔ _ :=
    getIntKey_eq_iff (List.cons_ne_nil _ _)
  simpa only [CmdlineKey.names, List.mem_singleton, exists_eq_left] using hname

theorem foldl_usrSourceValue (values : List CStr) (source : Option CStr) :
    values.foldl usrSourceValue source = (values.filter isAbsPath).getLast?.or source := by
  induction values using List.reverseRecOn with
  | nil => rfl
  | append_singleton values value ih =>
    rw [List.foldl_append, List.foldl_cons, List.foldl_nil, ih, List.filter_append, usrSourceValue]
    cases habs : isAbsPath value with
    | true =>
      rw [if_pos rfl, List.filter_cons_of_pos habs, List.filter_nil, List.getLast?_concat]
      rfl
    | false =>
      rw [if_neg Bool.false_ne_true, List.filter_cons_of_neg (by rw [habs]; exact Bool.false_ne_true),
        List.filter_nil, List.append_nil]

/-- The calls for a word with a given key, by what one call does. -/
theorem foldl_argScript_usr {word key : CStr} {values : List CStr}
    {v : Bool × Option CStr → CStr → Bool × Option CStr}
    (h : ∀ i value rest s, usrSourceUpdate (fieldCall word key i (value :: rest)) s = v s value)
    (hother : ∀ arg s, arg.key = key → arg.endOfArg ≠ 0 → usrSourceUpdate arg s = s)
    (s : Bool × Option CStr) :
    (argScript word (key :: values)).foldl (fun s arg => usrSourceUpdate arg s) s =
      values.foldl v s := by
  rw [argScript, List.foldl_cons, List.foldl_append, foldl_fieldCalls h, List.foldl_cons,
    List.foldl_nil, hother _ _ rfl (by simp), hother _ s rfl (by simp)]

/-- The calls for a word. -/
theorem foldl_usrSourceUpdate (word : CStr) (s : Bool × Option CStr) :
    (argScript word (argFields (some "=".toList) (some ",".toList) word)).foldl
        (fun s arg => usrSourceUpdate arg s) s = usrSourceWord s word := by
  cases hfields : argFields (some "=".toList) (some ",".toList) word with
  | nil =>
    have hmounts : mountsUsr word = true := by rw [mountsUsr, cmdlineKey, hfields]; rfl
    have hpath : usrPath word = none := by rw [usrPath, isSquashedUsr, cmdlineKey, hfields]; rfl
    obtain ⟨_ | _, source⟩ := s
    · rw [usrSourceWord, if_pos hmounts]
      rfl
    · rw [usrSourceWord, if_pos hmounts, hpath]
      rfl
  | cons key values =>
    have hkey : cmdlineKey word = some key := by rw [cmdlineKey, hfields]; rfl
    have hvalues : cmdlineValues word = values := by rw [cmdlineValues, hfields]; rfl
    by_cases hno : initramfsCmdlineGetIntKey key = .usrSfsNomount
    · have hmounts : mountsUsr word = false := by
        rw [mountsUsr, hkey, getIntKey_nousrmount.1 hno]
        rfl
      have hcall : ∀ arg s, arg.key = key → usrSourceUpdate arg s = (false, s.2) := by
        intro arg s harg
        rw [usrSourceUpdate, harg, if_pos hno]
      have hfixed : values.foldl (fun (s : Bool × Option CStr) _ => (false, s.2)) (false, s.2) =
          (false, s.2) := List.foldl_fixed' (fun _ => rfl) values
      rw [usrSourceWord, hmounts, if_neg Bool.false_ne_true, argScript, List.foldl_cons,
        hcall _ _ rfl, List.foldl_append,
        foldl_fieldCalls (v := fun s _ => (false, s.2)) fun _ _ _ s => hcall _ s rfl,
        hfixed, List.foldl_cons, List.foldl_nil, hcall _ _ rfl]
    have hmounts : mountsUsr word = true := by
      rw [mountsUsr, hkey]
      simpa using fun h => hno (getIntKey_nousrmount.2 h)
    have hother : ∀ arg s, arg.key = key → arg.endOfArg ≠ 0 → usrSourceUpdate arg s = s := by
      intro arg s harg hend
      rw [usrSourceUpdate, harg, if_neg hno, usrSourceCall, if_neg hend]
      split_ifs with h
      · exact Prod.ext h.2.symm rfl
      · rfl
    rw [usrSourceWord, if_pos hmounts]
    by_cases husr : initramfsCmdlineGetIntKey key = .usrSfs
    · have hpath : usrPath word = (values.filter isAbsPath).getLast? := by
        rw [usrPath, isSquashedUsr, hkey, hvalues, getIntKey_squashedUsr.1 husr]
        rfl
      have hcall : ∀ i value rest (s : Bool × Option CStr),
          usrSourceUpdate (fieldCall word key i (value :: rest)) s =
            if s.1 then (true, usrSourceValue s.2 value) else s := by
        intro i value rest s
        rw [usrSourceUpdate, fieldCall, if_neg hno]
        simp only [husr, true_and]
        rfl
      rw [foldl_argScript_usr hcall hother, hpath]
      obtain ⟨_ | _, source⟩ := s
      · exact List.foldl_fixed' (fun _ => rfl) _
      · rw [if_pos rfl, ← foldl_usrSourceValue]
        exact List.foldl_hom (fun source : Option CStr => (true, source)) fun _ _ => rfl
    · have hpath : usrPath word = none := by
        refine if_neg fun h => husr (getIntKey_squashedUsr.2 ?_)
        rw [isSquashedUsr, hkey] at h
        exact Option.some.inj (of_decide_eq_true h)
      have hcall : ∀ i value rest (s : Bool × Option CStr),
          usrSourceUpdate (fieldCall word key i (value :: rest)) s = s := by
        intro i value rest s
        rw [usrSourceUpdate, fieldCall, if_neg hno, if_neg fun h => husr h.1]
      rw [foldl_argScript_usr (v := fun s _ => s) hcall hother, List.foldl_fixed, hpath]
      obtain ⟨_ | _, source⟩ := s <;> rfl

/-- **The source after some words**: once the usr mount is disabled, they do not
    matter. -/
theorem foldl_usrSourceWord (words : List CStr) (source : Option CStr) :
    (words.foldl usrSourceWord (true, source)).2 = (mountedUsrPath words).or source := by
  unfold mountedUsrPath lastUsrPath
  induction words generalizing source with
  | nil => rfl
  | cons word words ih =>
    rw [List.foldl_cons, usrSourceWord, List.takeWhile_cons]
    by_cases hmounts : mountsUsr word = true
    · rw [if_pos hmounts, if_pos rfl, if_pos hmounts, ih, Lib.lastDecision_cons, Option.or_assoc]
    · rw [if_neg hmounts, if_neg hmounts]
      have hfixed : ∀ word, usrSourceWord (false, source) word = (false, source) := by
        intro word
        unfold usrSourceWord
        cases mountsUsr word <;> rfl
      rw [List.foldl_fixed' hfixed]
      rfl

section
variable {ω : Type*} (zramDiskSimple : ZramDiskSimple ω)

/-- **The source of the usr mount** after reading some words. -/
theorem readWords_usrSource {host : Host} {g : InitramfsGlobals} {w : ω} {words : List CStr}
    (hstart : dboolIsUndefTrue g.wantNewrootUsrMount = true)
    (hok : (readWords zramDiskSimple host g w words).1 = 0) :
    (readWords zramDiskSimple host g w words).2.1.newrootUsrMount.source =
      (mountedUsrPath words).or g.newrootUsrMount.source := by
  have hmount : (initData host g).newrootUsrMount = g.newrootUsrMount := by
    unfold initData; dsimp only; split_ifs <;> rfl
  have hupdates := argsplitDynarrayDo_updates (u := usrSourceUpdate)
    (π := fun s : InitramfsGlobals × ω =>
      (dboolIsUndefTrue s.1.wantNewrootUsrMount, s.1.newrootUsrMount.source))
    (processArg_flow zramDiskSimple)
    (fun arg s => processArg_usrSource zramDiskSimple arg .keepGoing s) keyDelims_valid
    (fun word => ?_) hok
  · simp only [foldl_usrSourceUpdate, initData_usrMount, hstart, hmount] at hupdates
    exact (congrArg Prod.snd hupdates).trans (foldl_usrSourceWord words _)
  · by_cases hword : isSquashedUsr word = true ∨ mountsUsr word = false
    · refine Or.inr fun arg harg s => ?_
      have hkey := argScript_key harg
      have hcases : initramfsCmdlineGetIntKey arg.key = .usrSfs ∨
          initramfsCmdlineGetIntKey arg.key = .usrSfsNomount := by
        unfold isSquashedUsr mountsUsr cmdlineKey at hword
        rw [hkey] at hword
        rw [getIntKey_squashedUsr, getIntKey_nousrmount]
        simpa using hword
      rw [processArg_usr_flow zramDiskSimple hcases]
      exact Flow.noConfusion
    · refine Or.inl fun arg harg s => ?_
      have hkey := argScript_key harg
      rw [not_or] at hword
      unfold isSquashedUsr mountsUsr cmdlineKey at hword
      rw [hkey] at hword
      have husr : initramfsCmdlineGetIntKey arg.key ≠ .usrSfs := by
        rw [Ne, getIntKey_squashedUsr]
        simpa using hword.1
      have hno : initramfsCmdlineGetIntKey arg.key ≠ .usrSfsNomount := by
        rw [Ne, getIntKey_nousrmount]
        simpa using hword.2
      rw [usrSourceUpdate, if_neg hno, if_neg fun h => husr h.1]

/-! ## The whole command line -/

/-- The auto-setup keeps a source. -/
theorem autoset_source {p : MountConfig} {source : CStr} (h : p.source = some source) :
    (mountConfigAutoset p).2.source = some source := by
  have hfindfs : ∀ q : MountConfig, (autosetFindfs q).source = q.source := by
    intro q
    unfold autosetFindfs
    split
    · rfl
    · rfl
    · split_ifs <;> rfl
  have hkept : ∀ q : MountConfig, q.source = some source →
      (if q.source = none then (q.setSource (some "tmpfs".toList)).2 else q).source =
        some source := by
    intro q hq
    rw [if_neg (by rw [hq]; exact Option.some_ne_none _)]
    exact hq
  have hfstype : ∀ fstype, (autosetByFstype p fstype).source = some source := by
    intro fstype
    unfold autosetByFstype
    split
    case h_3 | h_4 => exact hkept _ (by split_ifs <;> exact h)
    all_goals exact h
  unfold mountConfigAutoset
  rw [hfindfs]
  cases p.fstype with
  | none => exact h
  | some fstype =>
    have hsome := hfstype fstype
    dsimp only
    rw [autosetSource, if_neg (by rw [hsome]; exact Option.some_ne_none _)]
    exact hsome

/-- The default source of the usr mount. -/
def defaultUsrSource : CStr := getNewrootPath "/usr.squashfs"

/-- The source is the default, or newroot and the last path that was given. -/
def InsideNewroot (words : List CStr) (source : Option CStr) : Prop :=
  source = some defaultUsrSource ∨
    ∃ path, lastUsrPath words = some path ∧ source = some (newrootMountpoint ++ path)

/-- **The source of the usr mount** after a successful run. -/
theorem processCmdline_usrSource {host : Host} {g : InitramfsGlobals} {w : ω}
    (hstart : dboolIsUndefTrue g.wantNewrootUsrMount = true)
    (hsource : g.newrootUsrMount.source = some defaultUsrSource)
    (hok : (initramfsProcessCmdline zramDiskSimple host g w).1 = 0) :
    (initramfsProcessCmdline zramDiskSimple host g w).2.1.newrootUsrMount.source =
      some ((mountedUsrPath g.cmdlineArgv).getD defaultUsrSource) := by
  obtain ⟨hread, hend⟩ := processCmdline_success zramDiskSimple hok
  have hwords := readWords_usrSource zramDiskSimple hstart hread
  rw [hsource] at hwords
  have hsome : (afterWords zramDiskSimple host g w).2.1.newrootUsrMount.source =
      some ((mountedUsrPath g.cmdlineArgv).getD defaultUsrSource) := by
    refine Eq.trans hwords ?_
    cases mountedUsrPath g.cmdlineArgv <;> rfl
  rw [hend, initramfsPostprocessCmdline]
  dsimp only
  split_ifs
  · exact autoset_source hsome
  · exact hsome

/-- **When the source stays within newroot**: no path is given before the usr
    mount is disabled, or the last one already has the mountpoint in front. -/
theorem processCmdline_usrSource_iff {host : Host} {g : InitramfsGlobals} {w : ω}
    (hstart : dboolIsUndefTrue g.wantNewrootUsrMount = true)
    (hsource : g.newrootUsrMount.source = some defaultUsrSource)
    (hok : (initramfsProcessCmdline zramDiskSimple host g w).1 = 0) :
    InsideNewroot g.cmdlineArgv
        (initramfsProcessCmdline zramDiskSimple host g w).2.1.newrootUsrMount.source ↔
      ∀ path, mountedUsrPath g.cmdlineArgv = some path → path = defaultUsrSource ∨
        ∃ last, lastUsrPath g.cmdlineArgv = some last ∧ path = newrootMountpoint ++ last := by
  rw [processCmdline_usrSource zramDiskSimple hstart hsource hok, InsideNewroot]
  cases mountedUsrPath g.cmdlineArgv with
  | none => exact iff_of_true (Or.inl rfl) nofun
  | some path => simp only [Option.getD_some, Option.some.injEq, forall_eq']

end

/-- A path before which the mountpoint is already given. -/
theorem processCmdline_usrSource_prefixed :
    InsideNewroot (["squashed_usr=ro", "squashed_usr=/newroot/usr.squashfs"].map String.toList)
        (sampleRun ["squashed_usr=ro", "squashed_usr=/newroot/usr.squashfs"]).2.1.newrootUsrMount.source ↔
      ∀ path, mountedUsrPath
          (["squashed_usr=ro", "squashed_usr=/newroot/usr.squashfs"].map String.toList) = some path →
        path = defaultUsrSource ∨ ∃ last, lastUsrPath
          (["squashed_usr=ro", "squashed_usr=/newroot/usr.squashfs"].map String.toList) = some last ∧
            path = newrootMountpoint ++ last :=
  processCmdline_usrSource_iff _ (by decide) rfl (by decide +kernel)

/-- `squashed_usr=/usr.sfs` names a file of the initramfs. -/
theorem not_insideNewroot_path :
    (sampleRun ["squashed_usr=/usr.sfs"]).1 = 0 ∧
      (sampleRun ["squashed_usr=/usr.sfs"]).2.1.newrootUsrMount.source = some "/usr.sfs".toList ∧
      ¬ InsideNewroot (["squashed_usr=/usr.sfs"].map String.toList)
        (sampleRun ["squashed_usr=/usr.sfs"]).2.1.newrootUsrMount.source := by
  have hsource : (sampleRun ["squashed_usr=/usr.sfs"]).2.1.newrootUsrMount.source =
      some "/usr.sfs".toList := by decide +kernel
  refine ⟨by decide +kernel, hsource, ?_⟩
  have hlast : lastUsrPath (["squashed_usr=/usr.sfs"].map String.toList) =
      some "/usr.sfs".toList := by decide +kernel
  rw [hsource]
  rintro (h | ⟨path, hpath, h⟩)
  · exact absurd h (by decide)
  · rw [hlast] at hpath
    cases hpath
    exact absurd h (by decide)

end Fischstaebchen
