/-
  The auto-setup of mount configs and their mounting (`common/fs/mount_config.c`).

  * `mountConfigAutoset_eq`: the auto-setup adds what the file system type and
    the source imply, whatever the config is.
  * `mountConfigAutoset_closure`: hence it only adds, and a second one adds nothing.
  * `findfsOrLoop_iff`: when at most one of the two ways to find a device is left.
-/
import Fischstaebchen.Fs.MountConfig

namespace Fischstaebchen

/-! ## What is added -/

/-- What a file system type adds to a config: flags, and what is missing. -/
structure Implied where
  cfg : Flags := 0#64
  flags : Flags := 0#64
  source : Option CStr := none
  opts : Option CStr := none

/-- The pseudo file systems that are their own source. -/
def pseudoFstypes : List CStr :=
  ["aufs".toList, "devpts".toList, "mqueue".toList, "overlay".toList, "proc".toList,
    "ramfs".toList, "sysfs".toList]

/-- What a file system type implies. -/
def impliedBy (fstype : CStr) : Implied :=
  if fstype = "auto".toList then { cfg := mountCfgNeedExternal }
  else if fstype = "squashfs".toList then
    { cfg := mountCfgNeedLoop ||| mountCfgNodev, flags := msRdonly }
  else if fstype = "tmpfs".toList ∨ fstype = "devtmpfs".toList then
    { cfg := mountCfgNodev, source := some "tmpfs".toList, opts := some "mode=0755".toList }
  else if fstype = "nfs".toList ∨ fstype = "cifs".toList then
    { cfg := mountCfgNeedExternal ||| mountCfgNeedNetwork ||| mountCfgNodev }
  else if fstype = "ztmpfs".toList ∨ fstype = "zdisk".toList then { cfg := mountCfgIsZram }
  else if pseudoFstypes.contains fstype then { source := some fstype }
  else {}

/-- A source that stands for a device: it has to be looked up. -/
def IsTag (source : CStr) : Prop :=
  "LABEL=".toList <+: source ∨ "UUID=".toList <+: source ∨ "PARTUUID=".toList <+: source

instance : DecidablePred IsTag := fun _ => inferInstanceAs (Decidable (_ ∨ _))

/-- What a source implies. -/
def sourceCfg : Option CStr → Flags
  | none => 0#64
  | some source => if IsTag source then mountCfgNeedFindfs else 0#64

/-- Adds what is implied. -/
def MountConfig.add (p : MountConfig) (i : Implied) : MountConfig :=
  { p with
    cfg := p.cfg ||| i.cfg
    flags := p.flags ||| i.flags
    source := p.source.or i.source
    opts := p.opts.or i.opts }

/-- Adds what the file system type and the source imply. -/
def MountConfig.complete (p : MountConfig) : MountConfig :=
  let q := p.add (p.fstype.elim {} impliedBy)
  q.enable (sourceCfg q.source)

@[simp] theorem MountConfig.add_nothing (p : MountConfig) : p.add {} = p := by
  simp [MountConfig.add]

theorem autosetFindfs_eq (p : MountConfig) :
    autosetFindfs p = p.enable (sourceCfg p.source) := by
  obtain ⟨cfg, source, target, fstype, flags, opts⟩ := p
  rcases source with _ | ⟨_ | ⟨c, source⟩⟩
  · simp [autosetFindfs, sourceCfg, MountConfig.enable]
  · simp [autosetFindfs, sourceCfg, IsTag, MountConfig.enable]
  · have htag : IsTag (c :: source) ↔ strStartswith (c :: source) "LABEL=".toList ≠ none ∨
        strStartswith (c :: source) "UUID=".toList ≠ none ∨
        strStartswith (c :: source) "PARTUUID=".toList ≠ none := by
      simp only [IsTag, ne_eq, strStartswith_eq_none, not_not]
    simp only [autosetFindfs, sourceCfg, ← htag]
    split_ifs
    · rfl
    · simp [MountConfig.enable]

/-- The file system types that the first switch knows. -/
def autosetFstypes : List CStr :=
  ["auto".toList, "squashfs".toList, "tmpfs".toList, "devtmpfs".toList, "nfs".toList,
    "cifs".toList, "ztmpfs".toList, "zdisk".toList]

/-- A file system type that neither switch knows. -/
theorem autosetByFstype_unknown (p : MountConfig) {fstype : CStr}
    (hauto : fstype ∉ autosetFstypes) (hpseudo : fstype ∉ pseudoFstypes) :
    autosetSource (autosetByFstype p fstype) fstype = p.add (impliedBy fstype) := by
  have hfirst : streqSwitch fstype
      ["auto", "squashfs", "tmpfs", "devtmpfs", "nfs", "cifs", "ztmpfs", "zdisk"] = none := by
    simpa [streqSwitch_eq_none, autosetFstypes] using hauto
  have hsecond : streqSwitch fstype
      ["aufs", "devpts", "mqueue", "overlay", "proc", "ramfs", "sysfs"] = none := by
    simpa [streqSwitch_eq_none, pseudoFstypes] using hpseudo
  have hnone : impliedBy fstype = {} := by
    simp only [autosetFstypes, List.mem_cons, List.not_mem_nil, or_false, not_or] at hauto
    have hcontains : pseudoFstypes.contains fstype = false := by simpa using hpseudo
    simp only [impliedBy, hauto, hcontains, or_self, if_false, Bool.false_eq_true]
  rw [hnone, MountConfig.add_nothing, autosetByFstype, hfirst, autosetSource, hsecond]
  exact ite_self p

/-- **The two switches** over the file system type. -/
theorem autosetByFstype_eq (p : MountConfig) (fstype : CStr) :
    autosetSource (autosetByFstype p fstype) fstype = p.add (impliedBy fstype) := by
  by_cases hauto : fstype ∈ autosetFstypes
  · obtain ⟨cfg, source, target, _, flags, opts⟩ := p
    simp only [autosetFstypes, List.mem_cons, List.not_mem_nil, or_false] at hauto
    rcases hauto with rfl | rfl | rfl | rfl | rfl | rfl | rfl | rfl <;> cases source <;>
      cases opts <;>
      simp [autosetSource, autosetByFstype, streqSwitch, getVargsStrmatch, impliedBy,
        MountConfig.add, MountConfig.enable, MountConfig.enableFlag, MountConfig.setSource,
        MountConfig.setOpts]
  by_cases hpseudo : fstype ∈ pseudoFstypes
  · obtain ⟨cfg, source, target, _, flags, opts⟩ := p
    simp only [pseudoFstypes, List.mem_cons, List.not_mem_nil, or_false] at hpseudo
    rcases hpseudo with rfl | rfl | rfl | rfl | rfl | rfl | rfl <;> cases source <;>
      simp [autosetSource, autosetByFstype, streqSwitch, getVargsStrmatch, impliedBy, pseudoFstypes,
        MountConfig.add, MountConfig.setSource]
  · exact autosetByFstype_unknown p hauto hpseudo

/-- **The auto-setup** adds what is implied. -/
theorem mountConfigAutoset_eq (p : MountConfig) : mountConfigAutoset p = (0, p.complete) := by
  unfold mountConfigAutoset MountConfig.complete
  cases p.fstype with
  | none =>
    show (0, autosetFindfs p) = (0, (p.add {}).enable (sourceCfg (p.add {}).source))
    rw [autosetFindfs_eq, MountConfig.add_nothing]
  | some fstype =>
    show (0, autosetFindfs (autosetSource (autosetByFstype p fstype) fstype)) = _
    rw [autosetByFstype_eq, autosetFindfs_eq]
    rfl

/-! ## Adding is a closure -/

/-- Another config with the same flags and more, and the same strings; the source
    and the options may have been filled in. -/
structure OnlyAdds (p q : MountConfig) : Prop where
  cfg : p.cfg &&& q.cfg = p.cfg
  flags : p.flags &&& q.flags = p.flags
  source : p.source ≠ none → q.source = p.source
  target : q.target = p.target
  fstype : q.fstype = p.fstype
  opts : p.opts ≠ none → q.opts = p.opts

theorem and_or_self_left (f m : Flags) : f &&& (f ||| m) = f := by
  ext i
  simp
  intro h
  exact Or.inl h

theorem or_or_self_right (f m : Flags) : f ||| m ||| m = f ||| m := by
  rw [BitVec.or_assoc, BitVec.or_self]

theorem option_or_of_ne_none {α : Type} {o : Option α} (h : o ≠ none) (o' : Option α) :
    o.or o' = o := by
  cases o with
  | none => exact absurd rfl h
  | some x => rfl

theorem option_or_or_self {α : Type} (o o' : Option α) : (o.or o').or o' = o.or o' := by
  cases o with
  | none => cases o' <;> rfl
  | some x => rfl

section
variable (p : MountConfig) (i : Implied) (cfg : Flags)

theorem MountConfig.add_onlyAdds : OnlyAdds p (p.add i) where
  cfg := and_or_self_left _ _
  flags := and_or_self_left _ _
  source := fun h => option_or_of_ne_none h _
  target := rfl
  fstype := rfl
  opts := fun h => option_or_of_ne_none h _

theorem OnlyAdds.enable {q : MountConfig} (h : OnlyAdds p q) : OnlyAdds p (q.enable cfg) where
  cfg := by
    show p.cfg &&& (q.cfg ||| cfg) = p.cfg
    rw [BitVec.and_or_distrib_left, h.cfg]
    ext i
    simp
    intro hp _
    exact hp
  flags := h.flags
  source := h.source
  target := h.target
  fstype := h.fstype
  opts := h.opts

theorem MountConfig.enable_enable : (p.enable cfg).enable cfg = p.enable cfg := by
  unfold MountConfig.enable
  rw [or_or_self_right]

/-- What has been added is not added again. -/
theorem MountConfig.add_enable_add : ((p.add i).enable cfg).add i = (p.add i).enable cfg := by
  have hcfg : p.cfg ||| i.cfg ||| cfg ||| i.cfg = p.cfg ||| i.cfg ||| cfg := by
    ext k
    simp
    tauto
  unfold MountConfig.enable MountConfig.add
  simp only [hcfg, or_or_self_right, option_or_or_self]

theorem MountConfig.complete_complete : p.complete.complete = p.complete := by
  have hfstype : p.complete.fstype = p.fstype := rfl
  have hadd : p.complete.add (p.fstype.elim {} impliedBy) = p.complete :=
    MountConfig.add_enable_add _ _ _
  rw [MountConfig.complete, hfstype, hadd]
  exact MountConfig.enable_enable _ _

/-- **The auto-setup is a closure**: it only adds, and a second one adds nothing. -/
theorem mountConfigAutoset_closure :
    (mountConfigAutoset p).1 = 0 ∧ OnlyAdds p (mountConfigAutoset p).2 ∧
      mountConfigAutoset (mountConfigAutoset p).2 = mountConfigAutoset p := by
  rw [mountConfigAutoset_eq]
  refine ⟨rfl, (p.add_onlyAdds _).enable p _, ?_⟩
  rw [mountConfigAutoset_eq, p.complete_complete]

end

/-! ## Mounting -/

/-- What is done to mount something, with the source where there is one. -/
inductive DomountCall
  | stdmountExternal (source target fstype : CStr) (flags : Flags) (opts : Option CStr)
  | bindMount (source target : CStr) (flags : Flags)
  | remount (target : CStr) (flags : Flags) (opts : Option CStr)
  | stdmount (source target fstype : CStr) (flags : Flags) (opts : Option CStr)

/-- The source that is handed to mount. -/
def DomountCall.source : DomountCall → Option CStr
  | .stdmountExternal source .. | .bindMount source .. | .stdmount source .. => some source
  | .remount .. => none

/-- The system: how devices are found, files are opened for a loop device, a loop
    device is chosen and attached to a file, and whether mounts succeed. -/
structure MountSystem where
  findfs : CStr → ℤ × Option CStr
  opens : CStr → Bool → Bool
  nextFreeLoopdevPath : Option CStr
  attachFdToLoopdev : CStr → CStr → Bool → ℤ
  call : DomountCall → ℤ

def domountErrInvalid : ℤ := 2
def domountErrFindfs : ℤ := 3
def domountErrLosetup : ℤ := 4
def domountErrMountIntern : ℤ := 5
def domountErrMountInternBind : ℤ := 6
def domountErrMountExtern : ℤ := 7

section
variable (sys : MountSystem)

/-- `setup_loop_dev`, for the file offset 0: the return code and the device. -/
def setupLoopDev (filepath : CStr) (wantRo : Bool) : ℤ × Option CStr :=
  if sys.opens filepath wantRo then
    match sys.nextFreeLoopdevPath with
    | none => (-1, none)
    | some loopdev =>
      let retcode := sys.attachFdToLoopdev filepath loopdev wantRo
      (retcode, if retcode = 0 then some loopdev else none)
  else (-1, none)

/-- The part of `domount_from_config` that prepares the source: an error code, or
    the source that is to be mounted. -/
def prepareSource (p : MountConfig) (source : CStr) : ℤ ⊕ CStr :=
  if p.cfg &&& mountCfgNeedFindfs ≠ 0#64 then
    if strStartswith source "/dev/".toList ≠ none then .inr source
    else
      match sys.findfs source with
      | (0, some sourceBuf) => .inr sourceBuf
      | _ => .inl domountErrFindfs
  else if p.cfg &&& mountCfgNeedLoop ≠ 0#64 then
    let r := setupLoopDev sys source (p.flags &&& msRdonly ≠ 0#64)
    if r.1 ≠ 0 then .inl domountErrLosetup else .inr (r.2.getD source)
  else .inr source

/-- The part that mounts: the error code and the calls. -/
def mountSource (p : MountConfig) (source target fstype : CStr) : ℤ × List DomountCall :=
  if p.cfg &&& mountCfgNeedExternal ≠ 0#64 then
    let mount := .stdmountExternal source target fstype p.flags p.opts
    (if sys.call mount ≠ 0 then domountErrMountExtern else 0, [mount])
  else if p.flags &&& msBind ≠ 0#64 then
    let mount := .bindMount source target 0#64
    if sys.call mount ≠ 0 then (domountErrMountInternBind, [mount])
    else
      let remount := .remount target p.flags p.opts
      (if sys.call remount ≠ 0 then domountErrMountInternBind else 0, [mount, remount])
  else
    let mount := .stdmount source target fstype p.flags p.opts
    (if sys.call mount ≠ 0 then domountErrMountIntern else 0, [mount])

/-- `domount_from_config`: the return code and the calls. -/
def domountFromConfig (p : MountConfig) : ℤ × List DomountCall :=
  match p.source, p.target, p.fstype with
  | some source, some target, some fstype =>
    if p.cfg &&& mountCfgIsZram ≠ 0#64 then (domountErrInvalid, [])
    else
      match prepareSource sys p source with
      | .inl retcode => (-retcode, [])
      | .inr source =>
        let r := mountSource sys p source target fstype
        (-r.1, r.2)
  | _, _, _ => (domountErrInvalid, [])

/-- A source that needs a loop device is not mounted itself: whatever is mounted is
    a loop device that has been set up for it. -/
def LoopIsSetUp (p : MountConfig) : Prop :=
  p.cfg &&& mountCfgNeedLoop ≠ 0#64 → ∀ call ∈ (domountFromConfig sys p).2, ∀ mounted,
    call.source = some mounted → ∃ source wantRo, p.source = some source ∧
      setupLoopDev sys source wantRo = (0, some mounted)

end

/-- After the auto-setup, a device is looked up or a loop device is set up, not
    both, and no source is mounted that needs a loop device. -/
def FindfsOrLoop (p : MountConfig) : Prop :=
  ¬ ((mountConfigAutoset p).2.cfg &&& mountCfgNeedFindfs ≠ 0#64 ∧
      (mountConfigAutoset p).2.cfg &&& mountCfgNeedLoop ≠ 0#64) ∧
    ∀ sys, LoopIsSetUp sys (mountConfigAutoset p).2

section
variable {p : MountConfig}

theorem setupLoopDev_zero {sys : MountSystem} {filepath : CStr} {wantRo : Bool}
    (h : (setupLoopDev sys filepath wantRo).1 = 0) :
    ∃ loopdev, setupLoopDev sys filepath wantRo = (0, some loopdev) := by
  unfold setupLoopDev at h ⊢
  split_ifs at h ⊢
  · cases hdev : sys.nextFreeLoopdevPath with
    | none =>
      rw [hdev] at h
      cases h
    | some loopdev =>
      rw [hdev] at h
      have hret : sys.attachFdToLoopdev filepath loopdev wantRo = 0 := h
      exact ⟨loopdev, by simp [hret]⟩
  · cases h

/-- Only the prepared source is mounted. -/
theorem mountSource_source {sys : MountSystem} {source target fstype mounted : CStr}
    {call : DomountCall} (hcall : call ∈ (mountSource sys p source target fstype).2)
    (h : call.source = some mounted) : mounted = source := by
  unfold mountSource at hcall
  by_cases hexternal : p.cfg &&& mountCfgNeedExternal ≠ 0#64
  · rw [if_pos hexternal] at hcall
    obtain rfl := List.mem_singleton.1 hcall
    cases h
    rfl
  rw [if_neg hexternal] at hcall
  by_cases hbind : p.flags &&& msBind ≠ 0#64
  · rw [if_pos hbind] at hcall
    have hmem : call ∈ [DomountCall.bindMount source target 0#64,
        .remount target p.flags p.opts] := by
      by_cases hret : sys.call (.bindMount source target 0#64) ≠ 0
      · rw [if_pos hret] at hcall
        exact List.mem_of_mem_head? (congrArg some (List.mem_singleton.1 hcall).symm)
      · rw [if_neg hret] at hcall
        exact hcall
    simp only [List.mem_cons, List.not_mem_nil, or_false] at hmem
    rcases hmem with rfl | rfl
    · cases h
      rfl
    · cases h
  · rw [if_neg hbind] at hcall
    obtain rfl := List.mem_singleton.1 hcall
    cases h
    rfl

/-- **A loop device is set up** if no device is looked up. -/
theorem loopIsSetUp_of_not_findfs (sys : MountSystem)
    (h : p.cfg &&& mountCfgNeedFindfs = 0#64) : LoopIsSetUp sys p := by
  intro hloop call hcall mounted hmounted
  unfold domountFromConfig at hcall
  split at hcall
  case h_2 => cases hcall
  case h_1 source target fstype hsource _ _ =>
    split_ifs at hcall
    · cases hcall
    rw [prepareSource, if_neg (not_not.2 h), if_pos hloop] at hcall
    dsimp only at hcall
    split_ifs at hcall with hret
    · cases hcall
    obtain ⟨loopdev, hsetup⟩ := setupLoopDev_zero (not_not.1 hret)
    rw [hsetup] at hcall
    obtain rfl := mountSource_source hcall hmounted
    exact ⟨source, _, hsource, hsetup⟩

/-! ## The two flags -/

/-- Of all file system types, only squashfs needs a loop device, and none has to be
    looked up. -/
theorem impliedBy_cfg (fstype : CStr) :
    (impliedBy fstype).cfg &&& mountCfgNeedFindfs = 0#64 ∧
      (impliedBy fstype).cfg &&& mountCfgNeedLoop =
        if fstype = "squashfs".toList then mountCfgNeedLoop else 0#64 := by
  unfold impliedBy
  split_ifs with hauto hsquashfs
  · subst hauto
    cases hsquashfs
  · exact ⟨rfl, rfl⟩
  · exact ⟨rfl, rfl⟩
  · exact ⟨rfl, rfl⟩
  · exact ⟨rfl, rfl⟩
  · exact ⟨rfl, rfl⟩
  · exact ⟨BitVec.zero_and, BitVec.zero_and⟩
  · exact ⟨rfl, rfl⟩

theorem sourceCfg_eq (source : Option CStr) : sourceCfg source =
    if ∃ s, source = some s ∧ IsTag s then mountCfgNeedFindfs else 0#64 := by
  cases source with
  | none => simp [sourceCfg]
  | some s => simp [sourceCfg]

theorem complete_cfg (p : MountConfig) (m : Flags) : p.complete.cfg &&& m =
    (p.cfg &&& m) ||| ((p.fstype.elim {} impliedBy).cfg &&& m) |||
      (sourceCfg p.complete.source &&& m) := by
  show (p.cfg ||| _ ||| sourceCfg p.complete.source) &&& m = _
  rw [BitVec.and_or_distrib_right, BitVec.and_or_distrib_right]

/-- Whether a device is looked up. -/
theorem complete_findfs (h : p.cfg &&& mountCfgNeedFindfs = 0#64) :
    p.complete.cfg &&& mountCfgNeedFindfs ≠ 0#64 ↔
      ∃ s, p.complete.source = some s ∧ IsTag s := by
  have himplied : (p.fstype.elim {} impliedBy).cfg &&& mountCfgNeedFindfs = 0#64 := by
    cases p.fstype with
    | none => rfl
    | some fstype => exact (impliedBy_cfg fstype).1
  rw [complete_cfg, h, himplied, sourceCfg_eq]
  split_ifs with htag
  · exact iff_of_true (by decide) htag
  · exact iff_of_false (by simp) htag

/-- Whether a loop device is set up. -/
theorem complete_loop (h : p.cfg &&& mountCfgNeedLoop = 0#64) :
    p.complete.cfg &&& mountCfgNeedLoop ≠ 0#64 ↔ p.fstype = some "squashfs".toList := by
  have himplied : (p.fstype.elim {} impliedBy).cfg &&& mountCfgNeedLoop =
      if p.fstype = some "squashfs".toList then mountCfgNeedLoop else 0#64 := by
    cases p.fstype with
    | none => rfl
    | some fstype =>
      simp only [Option.elim_some, Option.some.injEq]
      exact (impliedBy_cfg fstype).2
  have hsource : sourceCfg p.complete.source &&& mountCfgNeedLoop = 0#64 := by
    rw [sourceCfg_eq]
    split_ifs <;> rfl
  rw [complete_cfg, h, himplied, hsource]
  split_ifs with hsquashfs
  · exact iff_of_true (by decide) hsquashfs
  · exact iff_of_false (by simp) hsquashfs

/-- The source of a squashfs is not filled in. -/
theorem complete_source_squashfs (h : p.fstype = some "squashfs".toList) :
    p.complete.source = p.source := by
  show p.source.or (p.fstype.elim {} impliedBy).source = p.source
  rw [h]
  exact Option.or_none

/-- **Findfs and loop devices exclude each other** unless the source of a squashfs is
    a tag. -/
theorem findfsOrLoop_iff (hfindfs : p.cfg &&& mountCfgNeedFindfs = 0#64)
    (hloop : p.cfg &&& mountCfgNeedLoop = 0#64) :
    FindfsOrLoop p ↔ ¬ (p.fstype = some "squashfs".toList ∧
      ∃ source, p.source = some source ∧ IsTag source) := by
  have hboth : p.complete.cfg &&& mountCfgNeedFindfs ≠ 0#64 ∧
      p.complete.cfg &&& mountCfgNeedLoop ≠ 0#64 ↔
        p.fstype = some "squashfs".toList ∧ ∃ source, p.source = some source ∧ IsTag source := by
    rw [complete_findfs hfindfs, complete_loop hloop]
    constructor
    · rintro ⟨htag, hsquashfs⟩
      rw [complete_source_squashfs hsquashfs] at htag
      exact ⟨hsquashfs, htag⟩
    · rintro ⟨hsquashfs, htag⟩
      rw [complete_source_squashfs hsquashfs]
      exact ⟨htag, hsquashfs⟩
  unfold FindfsOrLoop
  rw [mountConfigAutoset_eq, hboth]
  refine and_iff_left_of_imp fun hnot sys hneed => ?_
  have hlooked : p.complete.cfg &&& mountCfgNeedFindfs = 0#64 := by
    by_contra hlooked
    exact hnot (hboth.1 ⟨hlooked, hneed⟩)
  exact loopIsSetUp_of_not_findfs sys hlooked hneed

/-- A squashfs image. -/
theorem findfsOrLoop_image : FindfsOrLoop
      ⟨0#64, some "/rootfs.sfs".toList, some "/newroot".toList, some "squashfs".toList, 0#64, none⟩ ↔
    ¬ (some "squashfs".toList = some "squashfs".toList ∧
      ∃ source, some "/rootfs.sfs".toList = some source ∧ IsTag source) :=
  findfsOrLoop_iff rfl rfl

/-- A system on which everything succeeds. -/
def workingSystem : MountSystem where
  findfs _ := (0, some "/dev/sda1".toList)
  opens _ _ := true
  nextFreeLoopdevPath := some "/dev/loop0".toList
  attachFdToLoopdev _ _ _ := 0
  call _ := 0

/-- A squashfs whose source is a tag: both flags are set, and the device that has been
    found is mounted itself. -/
theorem squashfs_tag_not_looped :
    (mountConfigAutoset ⟨0#64, some "LABEL=image".toList, some "/newroot".toList,
        some "squashfs".toList, 0#64, none⟩).2.cfg =
      mountCfgNeedLoop ||| mountCfgNodev ||| mountCfgNeedFindfs ∧
    (domountFromConfig workingSystem (mountConfigAutoset ⟨0#64, some "LABEL=image".toList,
        some "/newroot".toList, some "squashfs".toList, 0#64, none⟩).2) =
      (0, [.stdmount "/dev/sda1".toList "/newroot".toList "squashfs".toList msRdonly none]) ∧
    ¬ FindfsOrLoop ⟨0#64, some "LABEL=image".toList, some "/newroot".toList,
        some "squashfs".toList, 0#64, none⟩ := by
  refine ⟨rfl, rfl, ?_⟩
  rintro ⟨hboth, -⟩
  exact hboth ⟨by decide, by decide⟩

end

end Fischstaebchen
