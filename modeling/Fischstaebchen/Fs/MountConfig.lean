/-
  Mount configs (`common/fs/mount_config.c`).

  A mount config holds the arguments of mount(2) and some config flags.
  `mount_config_autoset` fills in what the file system type implies.

  * `mountConfigAutoset_flags`: it adds `MS_RDONLY` for squashfs and changes no
    other mount flag.
  * `mountConfigAutoset_filledIn`: it leaves the target, the file system type and
    the enabled flag alone.
-/
import Fischstaebchen.Fs.MountOpts

namespace Fischstaebchen

/-! ## Config flags -/

def mountCfgNeedExternal : Flags := 0x1
def mountCfgIsEnabled : Flags := 0x2
def mountCfgNeedFindfs : Flags := 0x4
def mountCfgNeedNetwork : Flags := 0x8
def mountCfgNeedLoop : Flags := 0x10
def mountCfgNodev : Flags := 0x20
def mountCfgIsZram : Flags := 0x40

/-- `struct mount_config`. -/
structure MountConfig where
  cfg : Flags
  source : Option CStr
  target : Option CStr
  fstype : Option CStr
  flags : Flags
  opts : Option CStr
  deriving DecidableEq

namespace MountConfig

/-- `mount_config_enable`. -/
def enable (p : MountConfig) (cfg : Flags) : MountConfig := { p with cfg := p.cfg ||| cfg }

/-- `mount_config_enable_flag`. -/
def enableFlag (p : MountConfig) (flags : Flags) : MountConfig :=
  { p with flags := p.flags ||| flags }

/-- `mount_config_disable_flag`. -/
def disableFlag (p : MountConfig) (flags : Flags) : MountConfig :=
  { p with flags := p.flags &&& ~~~flags }

/-- `mount_config_free_opts`. -/
def freeOpts (p : MountConfig) : MountConfig := { p with opts := none }

/-- `mount_config_set_source`: the return code and the config. -/
def setSource (p : MountConfig) (source : Option CStr) : ℤ × MountConfig := (0, { p with source })

/-- `mount_config_set_fstype`. -/
def setFstype (p : MountConfig) (fstype : Option CStr) : ℤ × MountConfig := (0, { p with fstype })

/-- `mount_config_set_opts`. -/
def setOpts (p : MountConfig) (opts : Option CStr) : ℤ × MountConfig := (0, { p with opts })

end MountConfig

/-- `mount_config_is_enabled`: 0 if it is. -/
def mountConfigIsEnabled (p : MountConfig) : ℤ :=
  if p.cfg &&& mountCfgIsEnabled ≠ 0#64 then 0 else 1

/-! ## Auto-setup -/

/-- The first switch of `mount_config_autoset`. -/
def autosetByFstype (p : MountConfig) (fstype : CStr) : MountConfig :=
  match streqSwitch fstype
    ["auto", "squashfs", "tmpfs", "devtmpfs", "nfs", "cifs", "ztmpfs", "zdisk"] with
  | some 0 => p.enable mountCfgNeedExternal
  | some 1 => (p.enableFlag msRdonly).enable (mountCfgNeedLoop ||| mountCfgNodev)
  | some 2 | some 3 =>
    let p := if p.opts = none then (p.setOpts (some "mode=0755".toList)).2 else p
    let p := if p.source = none then (p.setSource (some "tmpfs".toList)).2 else p
    p.enable mountCfgNodev
  | some 4 | some 5 =>
    p.enable (mountCfgNeedExternal ||| mountCfgNeedNetwork ||| mountCfgNodev)
  | some 6 | some 7 => p.enable mountCfgIsZram
  | _ => p

/-- The second switch: the source of a pseudo file system. -/
def autosetSource (p : MountConfig) (fstype : CStr) : MountConfig :=
  if p.source = none then
    match streqSwitch fstype
      ["aufs", "devpts", "mqueue", "overlay", "proc", "ramfs", "sysfs"] with
    | none => p
    | some _ => (p.setSource (some fstype)).2
  else p

/-- The last part: whether the source is to be looked up. -/
def autosetFindfs (p : MountConfig) : MountConfig :=
  match p.source with
  | none | some [] => p
  | some source =>
    if strStartswith source "LABEL=".toList ≠ none ∨ strStartswith source "UUID=".toList ≠ none ∨
        strStartswith source "PARTUUID=".toList ≠ none then
      p.enable mountCfgNeedFindfs
    else p

/-- `mount_config_autoset`: the return code, which is 0 (the setters succeed),
    and the config. -/
def mountConfigAutoset (p : MountConfig) : ℤ × MountConfig :=
  let p := match p.fstype with
    | none => p
    | some fstype => autosetSource (autosetByFstype p fstype) fstype
  (0, autosetFindfs p)

/-- What the auto-setup may do besides setting mount flags: fill in the source
    and the options, and add config flags other than the enabled flag. -/
structure FilledIn (p q : MountConfig) : Prop where
  target : q.target = p.target
  fstype : q.fstype = p.fstype
  enabled : q.cfg &&& mountCfgIsEnabled = p.cfg &&& mountCfgIsEnabled

theorem FilledIn.refl (p : MountConfig) : FilledIn p p := ⟨rfl, rfl, rfl⟩

theorem FilledIn.trans {p q r : MountConfig} (h : FilledIn p q) (h' : FilledIn q r) :
    FilledIn p r :=
  ⟨h'.target.trans h.target, h'.fstype.trans h.fstype, h'.enabled.trans h.enabled⟩

theorem FilledIn.enable {p q : MountConfig} (h : FilledIn p q) (cfg : Flags)
    (hc : cfg &&& mountCfgIsEnabled = 0#64) : FilledIn p (q.enable cfg) :=
  ⟨h.target, h.fstype, (Lib.or_and_of_disjoint hc _).trans h.enabled⟩

theorem autosetByFstype_filledIn (p : MountConfig) (fstype : CStr) :
    FilledIn p (autosetByFstype p fstype) := by
  have hp := FilledIn.refl p
  have htmpfs : FilledIn p
      (let p := if p.opts = none then (p.setOpts (some "mode=0755".toList)).2 else p
       if p.source = none then (p.setSource (some "tmpfs".toList)).2 else p) := by
    dsimp only
    split_ifs <;> exact ⟨rfl, rfl, rfl⟩
  unfold autosetByFstype
  split
  · exact hp.enable mountCfgNeedExternal (by decide)
  · have hflag : FilledIn p (p.enableFlag msRdonly) := ⟨rfl, rfl, rfl⟩
    exact hflag.enable (mountCfgNeedLoop ||| mountCfgNodev) (by decide)
  · exact htmpfs.enable mountCfgNodev (by decide)
  · exact htmpfs.enable mountCfgNodev (by decide)
  · exact hp.enable (mountCfgNeedExternal ||| mountCfgNeedNetwork ||| mountCfgNodev) (by decide)
  · exact hp.enable (mountCfgNeedExternal ||| mountCfgNeedNetwork ||| mountCfgNodev) (by decide)
  · exact hp.enable mountCfgIsZram (by decide)
  · exact hp.enable mountCfgIsZram (by decide)
  · exact hp

theorem autosetSource_filledIn (p : MountConfig) (fstype : CStr) :
    FilledIn p (autosetSource p fstype) := by
  unfold autosetSource
  split_ifs
  · split
    · exact FilledIn.refl p
    · exact ⟨rfl, rfl, rfl⟩
  · exact FilledIn.refl p

theorem autosetFindfs_filledIn (p : MountConfig) : FilledIn p (autosetFindfs p) := by
  unfold autosetFindfs
  split
  · exact FilledIn.refl p
  · exact FilledIn.refl p
  · split_ifs
    · exact (FilledIn.refl p).enable mountCfgNeedFindfs (by decide)
    · exact FilledIn.refl p

/-- **The auto-setup fills in** what is missing. -/
theorem mountConfigAutoset_filledIn (p : MountConfig) : FilledIn p (mountConfigAutoset p).2 := by
  unfold mountConfigAutoset
  cases p.fstype with
  | none => exact autosetFindfs_filledIn p
  | some fstype =>
    exact ((autosetByFstype_filledIn p fstype).trans (autosetSource_filledIn _ fstype)).trans
      (autosetFindfs_filledIn _)

theorem FilledIn.isEnabled {p q : MountConfig} (h : FilledIn p q) :
    mountConfigIsEnabled q = mountConfigIsEnabled p := by
  simp only [mountConfigIsEnabled, h.enabled]

/-! ## The mount flags -/

theorem autosetByFstype_flags (p : MountConfig) (fstype : CStr) :
    (autosetByFstype p fstype).flags =
      if fstype = "squashfs".toList then p.flags ||| msRdonly else p.flags := by
  by_cases hsq : fstype = "squashfs".toList
  · rw [if_pos hsq, hsq]; rfl
  · rw [if_neg hsq]
    unfold autosetByFstype
    split
    case h_2 h =>
      obtain ⟨c, hc, rfl⟩ := streqSwitch_eq_some h
      cases hc
      exact absurd rfl hsq
    case h_3 | h_4 => dsimp only [MountConfig.enable]; split_ifs <;> rfl
    all_goals rfl

theorem autosetSource_flags (p : MountConfig) (fstype : CStr) :
    (autosetSource p fstype).flags = p.flags := by
  unfold autosetSource
  split_ifs
  · split <;> rfl
  · rfl

theorem autosetFindfs_flags (p : MountConfig) : (autosetFindfs p).flags = p.flags := by
  unfold autosetFindfs
  split
  · rfl
  · rfl
  · split_ifs <;> rfl

/-- **The auto-setup adds `MS_RDONLY` for squashfs** and changes no other mount
    flag. -/
theorem mountConfigAutoset_flags (p : MountConfig) :
    (mountConfigAutoset p).2.flags =
      if p.fstype = some "squashfs".toList then p.flags ||| msRdonly else p.flags := by
  unfold mountConfigAutoset
  cases p.fstype with
  | none => exact autosetFindfs_flags p
  | some fstype =>
    simp only [autosetFindfs_flags, autosetSource_flags, autosetByFstype_flags, Option.some.injEq]

end Fischstaebchen
