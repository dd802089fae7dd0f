/-
  The bind mounts of an fstab (`initramfs/premount.c`, `common/fs/mount_config.c`).

  The source of a bind mount is meant to be a directory of newroot.  An absolute
  source may be a loop file, too: if it exists in newroot, it is replaced by its path
  there and gets a loop device, otherwise it is left as it is.

  * `domountFromConfig_of_no_loopFile`: when no loop device is set up.
  * `mountThatEntry_bind`: the mount config that `_mount_that_entry` hands over for a
    bind mount, and the directory that it creates before.
  * `bindConfig_loop`, `bindConfig_calls`: what is mounted if the source exists, and
    if it does not exist.
  * `bindEntry_never`: in neither case this is the directory in newroot.
-/
import Fischstaebchen.Fs.MountAutoset
import Fischstaebchen.Fs.MountKeywords
import Fischstaebchen.Initramfs.Premount

namespace Fischstaebchen

/-! ## Calls of `domount_from_config` -/

/-- The function calls `domount_from_config` for this config in this state, and what it
    returns is the code for it. -/
def CallsDomount (f : (MountConfig → DiskState → ℤ × DiskState) → ℤ × DiskState)
    (mc : MountConfig) (st : DiskState) : Prop :=
  ∀ domount, f domount =
    ((if (domount mc st).1 = 0 then PremountRet.success else .failedToMount).code,
      (domount mc st).2)

/-- The file for which `domount_from_config` calls `setup_loop_dev`. -/
def loopFile (p : MountConfig) : Option CStr :=
  if p.cfg &&& mountCfgIsZram ≠ 0#64 ∨ p.cfg &&& mountCfgNeedFindfs ≠ 0#64 ∨
      p.cfg &&& mountCfgNeedLoop = 0#64 ∨ p.target = none ∨ p.fstype = none then none
  else p.source

section
variable {f : (MountConfig → DiskState → ℤ × DiskState) → ℤ × DiskState}
  {mc mc' p : MountConfig} {st st' : DiskState}

/-- Only one config is handed over. -/
theorem CallsDomount.unique (h : CallsDomount f mc st) (h' : CallsDomount f mc' st') :
    mc' = mc := by
  by_contra hne
  have hfirst := h fun p s => (if p = mc then 0 else 1, s)
  have hsecond := h' fun p s => (if p = mc then 0 else 1, s)
  rw [hfirst] at hsecond
  have hcode := congrArg Prod.fst hsecond
  dsimp only at hcode
  rw [if_pos rfl, if_pos rfl, if_neg hne, if_neg one_ne_zero] at hcode
  cases hcode

/-- A function that does not use `domount_from_config` does not call it. -/
theorem not_callsDomount {r : ℤ × DiskState} (hf : ∀ domount, f domount = r) :
    ¬ CallsDomount f mc st := by
  intro h
  have hdone := h fun _ s => (0, s)
  have hfailed := h fun _ s => (1, s)
  rw [hf] at hdone hfailed
  have hcode := congrArg Prod.fst (hdone.symm.trans hfailed)
  cases hcode

/-- **Without a file** for a loop device, it does not matter how these are set up. -/
theorem domountFromConfig_of_no_loopFile (sys : MountSystem) (opens : CStr → Bool → Bool)
    (next : Option CStr) (attach : CStr → CStr → Bool → ℤ) (h : loopFile p = none) :
    domountFromConfig { sys with
      opens := opens, nextFreeLoopdevPath := next, attachFdToLoopdev := attach } p =
        domountFromConfig sys p := by
  obtain ⟨cfg, _ | source, _ | target, _ | fstype, flags, opts⟩ := p
  case some.some.some =>
    have hno : cfg &&& mountCfgIsZram ≠ 0#64 ∨ cfg &&& mountCfgNeedFindfs ≠ 0#64 ∨
        cfg &&& mountCfgNeedLoop = 0#64 := by
      by_contra hneither
      rw [not_or, not_or] at hneither
      rw [loopFile, if_neg (by simpa using hneither)] at h
      cases h
    simp only [domountFromConfig, prepareSource]
    rcases hno with hzram | hfindfs | hloop
    · rw [if_pos hzram, if_pos hzram]
    · rw [if_pos hfindfs, if_pos hfindfs]
      rfl
    · rw [if_neg (not_not.2 hloop), if_neg (not_not.2 hloop)]
      rfl
  all_goals rfl

end

/-! ## Bind entries -/

/-- An entry for a bind mount at `mp`, where nothing is mounted yet: its file system type
    implies nothing and its source is an absolute path outside of `/dev`. -/
structure IsBindEntry (sys : PremountSystem) (mp : CStr) (entry : FstabEntry) (st : DiskState) :
    Prop where
  bind : "bind".toList ∈ Lib.runs (isDelim ",".toList) entry.mntOpts
  notMounted : sys.isMounted mp st ≠ 0
  mountable : entry.mntType ∉ ["swap".toList, "ignore".toList]
  fstype : impliedBy entry.mntType = {}
  absolute : entry.mntFsname.head? = some '/'
  notDev : ¬ "/dev/".toList <+: entry.mntFsname

section
variable (sys : PremountSystem) (mp : CStr) (entry : FstabEntry) (st : DiskState)

/-- The source in newroot. -/
def newrootSource : CStr := newrootMountpoint ++ entry.mntFsname

/-- An option that has to be a word of its own. -/
abbrev hasBareword (opt : String) : Prop := mountGetMountOpt sys entry opt.toList true ≠ none

/-- The config for a bind mount. -/
def bindConfig : MountConfig where
  cfg := mountCfgIsEnabled |||
    (if sys.fileExists (newrootSource entry) st then mountCfgNeedLoop else 0#64) |||
    (if hasBareword sys entry "loop" then mountCfgNeedLoop else 0#64) |||
    (if hasBareword sys entry "_netdev" then mountCfgNeedNetwork else 0#64)
  source := some (if sys.fileExists (newrootSource entry) st then newrootSource entry
    else entry.mntFsname)
  target := some mp
  fstype := some entry.mntType
  flags := (parseMountOptsStr (some entry.mntOpts)).2.1
  opts := (parseMountOptsStr (some entry.mntOpts)).2.2

/-- The entry is not to be mounted now: it says so, or it needs a network. -/
def Postponed : Prop :=
  sys.hasmntopt entry "x-nopremount".toList ≠ none ∨
    hasBareword sys entry "_netdev" ∧ sys.haveNetwork < 1

instance : Decidable (Postponed sys entry) := inferInstanceAs (Decidable (_ ∨ _))

variable (O : Outcomes) (F : Faults) (host : Host) (g : InitramfsGlobals) (msys : MountSystem)

/-- The state after the directory of the source has been created, where it does not
    exist. -/
def bindState : DiskState :=
  if hasBareword sys entry "bind" then
    (performOp O (.makedirs (newrootMountpoint ++
      (if sys.fileExists (newrootSource entry) st then newrootSource entry
        else entry.mntFsname))) st).2
  else st

/-- **What a bind mount is meant to be**: the directory in newroot is mounted, and no loop
    device is set up for it. -/
def BindsNewrootSource : Prop :=
  ∃ mc st', CallsDomount
      (fun domount => mountThatEntry O F host sys domount g newrootMountpoint mp entry st) mc st' ∧
    loopFile mc = none ∧
    .bindMount (newrootSource entry) mp 0#64 ∈ (domountFromConfig msys mc).2

end

/-! ## The mount config -/

/-- The flag of a bind mount is set by `bind` and cleared by nothing. -/
theorem parseMountOptsStr_bind {opts : CStr}
    (h : "bind".toList ∈ Lib.runs (isDelim ",".toList) opts) :
    (parseMountOptsStr (some opts)).2.1 &&& msBind ≠ 0#64 := by
  have honly : ∀ e ∈ mountFlagTable, e.2.1.getLsbD 12 = true → e.2.2 = true := by decide
  have hlast : Lib.lastDecision (mountFlagDecision 12) (Lib.runs (isDelim ",".toList) opts) =
      some true := by
    cases hdecision : Lib.lastDecision (mountFlagDecision 12)
        (Lib.runs (isDelim ",".toList) opts) with
    | none =>
      have hnone := Lib.lastDecision_eq_none.1 hdecision _ h
      cases hnone
    | some value =>
      obtain ⟨opt, -, hopt⟩ := Lib.exists_of_lastDecision hdecision
      obtain ⟨⟨flag, value'⟩, hflag, hvalue⟩ := Option.bind_eq_some_iff.1 hopt
      obtain ⟨e, he, heq⟩ := Option.map_eq_some_iff.1 hflag
      obtain ⟨hbit, hvalue⟩ := Option.ite_none_right_eq_some.1 hvalue
      have htrue := honly e (List.mem_of_find?_eq_some he) (by rw [heq]; exact hbit)
      rw [heq] at htrue
      rw [← Option.some.inj hvalue]
      exact congrArg some htrue
  have hbit := parseMountOpts_flags (Lib.runs (isDelim ",".toList) opts) ⟨0#64, []⟩ 12
  rw [hlast] at hbit
  rw [parseMountOptsStr_some]
  intro hzero
  have hlsb := congrArg (fun f : Flags => f.getLsbD 12) hzero
  simp only [BitVec.getLsbD_and, hbit] at hlsb
  cases hlsb

/-- A path is no tag. -/
theorem not_isTag_of_path {source : CStr} (h : source.head? = some '/') : ¬ IsTag source := by
  rintro (⟨t, rfl⟩ | ⟨t, rfl⟩ | ⟨t, rfl⟩) <;> cases h

/-- Nothing is added to a config that implies nothing. -/
theorem complete_of_path {p : MountConfig} {source fstype : CStr} (hsource : p.source = some source)
    (hpath : source.head? = some '/') (hfstype : p.fstype = some fstype)
    (hnothing : impliedBy fstype = {}) : p.complete = p := by
  rw [MountConfig.complete, hfstype, Option.elim_some, hnothing, MountConfig.add_nothing, hsource,
    sourceCfg, if_neg (not_isTag_of_path hpath)]
  obtain ⟨cfg, source, target, fstype, flags, opts⟩ := p
  show MountConfig.mk (cfg ||| 0#64) .. = _
  rw [BitVec.or_zero]

section
variable {sys : PremountSystem} {mp : CStr} {entry : FstabEntry} {st : DiskState}

theorem IsBindEntry.fstype_ne (h : IsBindEntry sys mp entry st) {fstype : String}
    (himplies : (impliedBy fstype.toList).cfg ≠ 0#64) : entry.mntType ≠ fstype.toList := by
  intro heq
  have hnothing := h.fstype
  rw [heq] at hnothing
  rw [hnothing] at himplies
  exact himplies rfl

/-- The file system type is not one of those with functions of their own. -/
theorem IsBindEntry.fstype_ordinary (h : IsBindEntry sys mp entry st) :
    streqSwitch entry.mntType ["swap", "ignore", "ztmpfs", "zdisk", "auto"] = none := by
  have hmountable := h.mountable
  simp only [List.mem_cons, List.not_mem_nil, or_false, not_or] at hmountable
  refine streqSwitch_eq_none.2 fun name hname => ?_
  simp only [List.mem_cons, List.not_mem_nil, or_false] at hname
  rcases hname with rfl | rfl | rfl | rfl | rfl
  · exact hmountable.1
  · exact hmountable.2
  · exact h.fstype_ne (by decide)
  · exact h.fstype_ne (by decide)
  · exact h.fstype_ne (by decide)

/-- The options are taken over, and the auto-setup adds nothing. -/
theorem assignOpts_autoset {p : MountConfig} {source fstype : CStr} (opts : CStr)
    (hsource : p.source = some source) (hpath : source.head? = some '/')
    (hfstype : p.fstype = some fstype) (hnothing : impliedBy fstype = {}) :
    (let r := mountConfigAssignOptsStr p (some opts)
      if r.1 ≠ 0 then (-1, r.2)
      else
        let r := mountConfigAutoset r.2
        if r.1 ≠ 0 then (-1, r.2) else (0, r.2)) =
      ((0, { p with
        flags := (parseMountOptsStr (some opts)).2.1
        opts := (parseMountOptsStr (some opts)).2.2 }) : ℤ × MountConfig) := by
  have hret : (mountConfigAssignOptsStr p (some opts)).1 = 0 := by
    rw [mountConfigAssignOptsStr, parseMountOptsStr_some]
  have hcomplete : (mountConfigAssignOptsStr p (some opts)).2.complete =
      (mountConfigAssignOptsStr p (some opts)).2 :=
    complete_of_path hsource hpath hfstype hnothing
  dsimp only
  rw [if_neg (not_not.2 hret), mountConfigAutoset_eq, if_neg (not_not.2 rfl), hcomplete]
  rfl

/-- **The config** before the other options of the entry are looked at. -/
theorem IsBindEntry.init_eq (h : IsBindEntry sys mp entry st) :
    initMountConfigFromOptsStrAndAutoset sys newrootMountpoint entry.mntFsname mp entry.mntType
        entry.mntOpts st =
      (0, { bindConfig sys mp entry st with
        cfg := mountCfgIsEnabled |||
          (if sys.fileExists (newrootSource entry) st then mountCfgNeedLoop else 0#64) }) := by
  have hdev : strStartswith entry.mntFsname "/dev/".toList = none :=
    strStartswith_eq_none.2 h.notDev
  rw [initMountConfigFromOptsStrAndAutoset, bindConfig]
  by_cases hexists : sys.fileExists (newrootSource entry) st = true
  · have hloop : entry.mntFsname.head? = some '/' ∧
        strStartswith entry.mntFsname "/dev/".toList = none ∧
          sys.fileExists (joinStrPair newrootMountpoint entry.mntFsname) st = true :=
      ⟨h.absolute, hdev, hexists⟩
    rw [if_pos hloop, if_pos hexists, if_pos hexists]
    exact assignOpts_autoset entry.mntOpts rfl rfl rfl h.fstype
  · have hloop : ¬ (entry.mntFsname.head? = some '/' ∧
        strStartswith entry.mntFsname "/dev/".toList = none ∧
          sys.fileExists (joinStrPair newrootMountpoint entry.mntFsname) st = true) :=
      fun hloop => hexists hloop.2.2
    rw [if_neg hloop, if_neg hexists, if_neg hexists]
    exact assignOpts_autoset entry.mntOpts rfl h.absolute rfl h.fstype

/-! ## What is handed over -/

/-- No zram device is made and no device is looked up. -/
theorem bindConfig_cfg (sys : PremountSystem) (mp : CStr) (entry : FstabEntry) (st : DiskState) :
    (bindConfig sys mp entry st).cfg &&& mountCfgIsZram = 0#64 ∧
    (bindConfig sys mp entry st).cfg &&& mountCfgNeedFindfs = 0#64 ∧
    (bindConfig sys mp entry st).cfg &&& mountCfgNeedExternal = 0#64 := by
  unfold bindConfig
  dsimp only
  split_ifs <;> exact ⟨rfl, rfl, rfl⟩

/-- A network is needed only if the entry says so. -/
theorem bindConfig_network : (bindConfig sys mp entry st).cfg &&& mountCfgNeedNetwork ≠ 0#64 ↔
    hasBareword sys entry "_netdev" := by
  unfold bindConfig
  dsimp only
  split_ifs with hexists hloop hnet hnet hloop hnet hnet
  all_goals first
    | exact iff_of_true (by decide) ‹_›
    | exact iff_of_false (by decide) ‹_›

/-- The source is a path. -/
theorem IsBindEntry.source_path (h : IsBindEntry sys mp entry st) :
    (if sys.fileExists (newrootSource entry) st then newrootSource entry
      else entry.mntFsname).head? = some '/' := by
  split_ifs
  · rfl
  · exact h.absolute

variable {O : Outcomes} {F : Faults} {host : Host} {g : InitramfsGlobals}
  {domount : MountConfig → DiskState → ℤ × DiskState}

/-- The directory of a path is created below newroot. -/
theorem createBindMountSourceDir_path {source : CStr} (h : source.head? = some '/') :
    createBindMountSourceDirInNewroot O (some source) st =
      performOp O (.makedirs (newrootMountpoint ++ source)) st := by
  obtain ⟨t, rfl⟩ := List.head?_eq_some_iff.1 h
  rfl

/-- **The ordinary part**, for a bind mount. -/
theorem IsBindEntry.mountOrdinaryEntry_eq (h : IsBindEntry sys mp entry st) :
    mountOrdinaryEntry O F host sys domount g newrootMountpoint mp entry st =
      if hasBareword sys entry "_netdev" ∧ sys.haveNetwork < 1 then
        (PremountRet.cannotMount.code, st)
      else
        let r := initramfsDomount O F host domount g (bindConfig sys mp entry st)
          (bindState sys entry st O)
        if r.1 = 0 then (PremountRet.success.code, r.2)
        else (PremountRet.failedToMount.code, r.2) := by
  have hconfig : (let mc : MountConfig := { bindConfig sys mp entry st with
        cfg := mountCfgIsEnabled |||
          (if sys.fileExists (newrootSource entry) st then mountCfgNeedLoop else 0#64) }
      let mc := if hasBareword sys entry "loop" then mc.enable mountCfgNeedLoop else mc
      if hasBareword sys entry "_netdev" then mc.enable mountCfgNeedNetwork else mc) =
      bindConfig sys mp entry st := by
    rw [bindConfig]
    split_ifs <;> simp [MountConfig.enable]
  have hstate : (if hasBareword sys entry "bind" then
        (createBindMountSourceDirInNewroot O (bindConfig sys mp entry st).source st).2
      else st) = bindState sys entry st O := by
    rw [bindState, bindConfig, createBindMountSourceDir_path h.source_path]
  rw [mountOrdinaryEntry, h.init_eq]
  dsimp only [hasBareword] at hconfig hstate ⊢
  rw [if_neg (not_not.2 rfl), hconfig, hstate]
  simp only [bindConfig_network, hasBareword]

/-- The entry is neither swap nor ignored. -/
theorem IsBindEntry.streqSwitch_mntType (h : IsBindEntry sys mp entry st) :
    streqSwitch entry.mntType ["swap", "ignore"] = none := by
  have hmountable := h.mountable
  simp only [List.mem_cons, List.not_mem_nil, or_false, not_or] at hmountable
  simpa [streqSwitch_eq_none] using hmountable

/-- An entry that is postponed is not mounted. -/
theorem IsBindEntry.mountThatEntry_postponed (h : IsBindEntry sys mp entry st)
    (hpostponed : Postponed sys entry) :
    mountThatEntry O F host sys domount g newrootMountpoint mp entry st =
      (PremountRet.cannotMount.code, st) := by
  have hswitch := h.streqSwitch_mntType
  rw [mountThatEntry]
  by_cases hno : sys.hasmntopt entry "x-nopremount".toList = none
  · have hnet := hpostponed.resolve_left (not_not.2 hno)
    rw [if_neg (not_not.2 hno), if_neg (not_not.2 hswitch), if_neg h.notMounted, h.fstype_ordinary]
    dsimp only
    rw [h.mountOrdinaryEntry_eq, if_pos hnet]
  · rw [if_pos hno]

/-- **What is handed over** for a bind mount: the config, after the directory has been
    created. -/
theorem mountThatEntry_bind (h : IsBindEntry sys mp entry st) (hnow : ¬ Postponed sys entry) :
    CallsDomount
      (fun domount => mountThatEntry O F host sys domount g newrootMountpoint mp entry st)
      (bindConfig sys mp entry st) (bindState sys entry st O) := by
  intro domount
  have hno : sys.hasmntopt entry "x-nopremount".toList = none :=
    not_not.1 fun hno => hnow (.inl hno)
  have hswitch := h.streqSwitch_mntType
  dsimp only
  rw [mountThatEntry, if_neg (not_not.2 hno), if_neg (not_not.2 hswitch), if_neg h.notMounted,
    h.fstype_ordinary]
  dsimp only
  rw [h.mountOrdinaryEntry_eq, if_neg fun hnet => hnow (.inr hnet), initramfsDomount,
    if_neg (not_not.2 (bindConfig_cfg sys mp entry st).1)]
  rcases domount (bindConfig sys mp entry st) (bindState sys entry st O) with ⟨ret, st'⟩
  by_cases hret : ret = 0
  · simp [hret]
  · simp [hret]

/-! ## What is mounted -/

/-- A loop device is set up if the config says so. -/
theorem loopFile_bindConfig : loopFile (bindConfig sys mp entry st) =
    if (bindConfig sys mp entry st).cfg &&& mountCfgNeedLoop = 0#64 then none
    else (bindConfig sys mp entry st).source := by
  obtain ⟨hzram, hfindfs, -⟩ := bindConfig_cfg sys mp entry st
  have htarget : (bindConfig sys mp entry st).target ≠ none := Option.some_ne_none _
  have hfstype : (bindConfig sys mp entry st).fstype ≠ none := Option.some_ne_none _
  simp only [loopFile, hzram, hfindfs, htarget, hfstype, ne_eq, not_true_eq_false, false_or,
    or_false]

/-- **An existing source** gets a loop device. -/
theorem bindConfig_loop (hexists : sys.fileExists (newrootSource entry) st = true) :
    loopFile (bindConfig sys mp entry st) = some (newrootSource entry) := by
  have hloop : (bindConfig sys mp entry st).cfg &&& mountCfgNeedLoop ≠ 0#64 := by
    rw [bindConfig, if_pos hexists]
    dsimp only
    split_ifs <;> decide
  rw [loopFile_bindConfig, if_neg hloop]
  exact congrArg some (if_pos hexists)

/-- **A source that does not exist** is mounted itself, not the directory in newroot. -/
theorem bindConfig_calls (h : IsBindEntry sys mp entry st) (msys : MountSystem)
    (hmissing : ¬ sys.fileExists (newrootSource entry) st = true)
    (hno : loopFile (bindConfig sys mp entry st) = none) :
    (domountFromConfig msys (bindConfig sys mp entry st)).2.head? =
        some (.bindMount entry.mntFsname mp 0#64) ∧
      ∀ call ∈ (domountFromConfig msys (bindConfig sys mp entry st)).2, ∀ source,
        call.source = some source → source = entry.mntFsname := by
  obtain ⟨hzram, hfindfs, hexternal⟩ := bindConfig_cfg sys mp entry st
  have hsource : (bindConfig sys mp entry st).source = some entry.mntFsname :=
    congrArg some (if_neg hmissing)
  have hloop : (bindConfig sys mp entry st).cfg &&& mountCfgNeedLoop = 0#64 := by
    by_contra hloop
    rw [loopFile_bindConfig, if_neg hloop, hsource] at hno
    cases hno
  have hbind : (bindConfig sys mp entry st).flags &&& msBind ≠ 0#64 :=
    parseMountOptsStr_bind h.bind
  have hprepare : prepareSource msys (bindConfig sys mp entry st) entry.mntFsname =
      .inr entry.mntFsname := by
    rw [prepareSource, if_neg (not_not.2 hfindfs), if_neg (not_not.2 hloop)]
  have hcalls : (domountFromConfig msys (bindConfig sys mp entry st)).2 =
      (mountSource msys (bindConfig sys mp entry st) entry.mntFsname mp entry.mntType).2 := by
    have htarget : (bindConfig sys mp entry st).target = some mp := rfl
    have hfstype : (bindConfig sys mp entry st).fstype = some entry.mntType := rfl
    rw [domountFromConfig, hsource, htarget, hfstype]
    dsimp only
    rw [if_neg (not_not.2 hzram), hprepare]
  rw [hcalls]
  refine ⟨?_, fun call hcall source hcall' => mountSource_source hcall hcall'⟩
  rw [mountSource, if_neg (not_not.2 hexternal), if_pos hbind]
  dsimp only
  split_ifs <;> rfl

theorem newrootSource_ne (entry : FstabEntry) : newrootSource entry ≠ entry.mntFsname := by
  intro heq
  have hlength := congrArg List.length heq
  rw [newrootSource, List.length_append] at hlength
  have hroot : newrootMountpoint.length = 8 := rfl
  omega

/-- **The bind mount is never what it is meant to be.**  An existing source gets a loop
    device, and instead of a directory that has been created the path outside of newroot
    is mounted. -/
theorem bindEntry_never (O : Outcomes) (F : Faults) (host : Host) (g : InitramfsGlobals)
    (msys : MountSystem) (h : IsBindEntry sys mp entry st) :
    ¬ BindsNewrootSource sys mp entry st O F host g msys := by
  rintro ⟨mc, st', hcalls, hno, hmem⟩
  by_cases hnow : Postponed sys entry
  · exact not_callsDomount (fun domount => h.mountThatEntry_postponed hnow) hcalls
  have hconfig := hcalls.unique (mountThatEntry_bind h hnow)
  subst hconfig
  by_cases hexists : sys.fileExists (newrootSource entry) st = true
  · rw [bindConfig_loop hexists] at hno
    cases hno
  · exact newrootSource_ne entry
      ((bindConfig_calls h msys hexists hno).2 _ hmem _ rfl)

end

/-! ## Two entries -/

/-- `/srv` is to be a bind mount of `/data`. -/
def srvEntry : FstabEntry :=
  ⟨"/data".toList, "/srv".toList, "none".toList, "bind".toList⟩

theorem srvEntry_isBindEntry (sys : PremountSystem) (hsys : ∀ mp st, sys.isMounted mp st ≠ 0) :
    IsBindEntry sys "/newroot/srv".toList srvEntry freshDisks where
  bind := by decide
  notMounted := hsys _ _
  mountable := by decide
  fstype := rfl
  absolute := rfl
  notDev := by decide

/-- The source exists. -/
theorem bindEntry_srv : ¬ BindsNewrootSource samplePremountSystem "/newroot/srv".toList srvEntry
    freshDisks (fun _ _ => 0) noFaults sampleHost (initramfsGlobalsInit sampleHost)
      workingSystem :=
  bindEntry_never _ _ _ _ _ (srvEntry_isBindEntry _ fun _ _ => one_ne_zero)

/-- The same system without files in newroot. -/
def emptyPremountSystem : PremountSystem :=
  { samplePremountSystem with fileExists := fun _ _ => false }

/-- An existing directory gets a loop device, and a missing one is created but not
    mounted. -/
theorem srvEntry_not_newrootSource :
    bindConfig samplePremountSystem "/newroot/srv".toList srvEntry freshDisks =
        ⟨mountCfgIsEnabled ||| mountCfgNeedLoop, some "/newroot/data".toList,
          some "/newroot/srv".toList, some "none".toList, msBind, some []⟩ ∧
      (domountFromConfig { workingSystem with opens := fun _ _ => false }
          (bindConfig samplePremountSystem "/newroot/srv".toList srvEntry freshDisks)) =
        (-domountErrLosetup, []) ∧
      (domountFromConfig workingSystem
          (bindConfig emptyPremountSystem "/newroot/srv".toList srvEntry freshDisks)) =
        (0, [.bindMount "/data".toList "/newroot/srv".toList 0#64,
          .remount "/newroot/srv".toList msBind (some [])]) ∧
      bindState emptyPremountSystem srvEntry freshDisks (fun _ _ => 0) =
        (performOp (fun _ _ => 0) (.makedirs "/newroot/data".toList) freshDisks).2 ∧
      IsBindEntry emptyPremountSystem "/newroot/srv".toList srvEntry freshDisks ∧
      ¬ BindsNewrootSource emptyPremountSystem "/newroot/srv".toList srvEntry freshDisks
        (fun _ _ => 0) noFaults sampleHost (initramfsGlobalsInit sampleHost) workingSystem := by
  have hparse : parseMountOptsStr (some srvEntry.mntOpts) = (0, msBind, some []) := by
    rw [parseMountOptsStr_some]
    rfl
  have hexists : bindConfig samplePremountSystem "/newroot/srv".toList srvEntry freshDisks =
      ⟨mountCfgIsEnabled ||| mountCfgNeedLoop, some "/newroot/data".toList,
        some "/newroot/srv".toList, some "none".toList, msBind, some []⟩ := by
    rw [bindConfig, hparse]
    rfl
  have hmissing : bindConfig emptyPremountSystem "/newroot/srv".toList srvEntry freshDisks =
      ⟨mountCfgIsEnabled, some "/data".toList, some "/newroot/srv".toList, some "none".toList,
        msBind, some []⟩ := by
    rw [bindConfig, hparse]
    rfl
  have hmounted : domountFromConfig workingSystem
      (bindConfig emptyPremountSystem "/newroot/srv".toList srvEntry freshDisks) =
        (0, [.bindMount "/data".toList "/newroot/srv".toList 0#64,
          .remount "/newroot/srv".toList msBind (some [])]) := by
    rw [hmissing]
    rfl
  have hentry : IsBindEntry emptyPremountSystem "/newroot/srv".toList srvEntry freshDisks :=
    srvEntry_isBindEntry _ fun _ _ => one_ne_zero
  refine ⟨hexists, ?_, hmounted, rfl, hentry, ?_⟩
  · rw [hexists]
    rfl
  rintro ⟨mc, st', hcalls, -, hmem⟩
  have hconfig := hcalls.unique (mountThatEntry_bind hentry (by decide))
  subst hconfig
  rw [hmounted, List.mem_cons, List.mem_singleton] at hmem
  rcases hmem with heq | heq
  · exact absurd (DomountCall.bindMount.inj heq).1 (by decide)
  · cases heq

end Fischstaebchen
