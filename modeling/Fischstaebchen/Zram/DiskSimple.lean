/-
  zram disks of the default size (`zram_disk_simple` of `zram/disk.c`) and the
  `zram_disk=` words of the kernel command line.

  Without a size spec, half of the memory is the size of the disk, and
  `zram_disk_config_set_size` reports this choice with the code 2.
  `zram_disk_simple` takes every code but 0 for a failure.

  * `zramDiskSimple_none`: without a size spec, nothing is set up and -1 is
    returned, whatever the memory size is.
  * `processCmdline_zdisk`: hence a `zram_disk=` word without a size lets the
    whole command line fail.
  * `zramDiskSimple_default`: both of them.
-/
import Fischstaebchen.Initramfs.Cmdline
import Fischstaebchen.Zram.DiskMount

namespace Fischstaebchen

section
variable (O : Outcomes) (F : Faults)

/-! ## The function -/

/-- `zram_disk_simple`. -/
def zramDiskSimple (name mp sizeSpec : Option CStr) (sysMemsizeM : UInt64) (st : DiskState) :
    ℤ × DiskState :=
  let r := zramDiskConfigSetSize (zramDiskConfigInit name) sizeSpec 0 sysMemsizeM
  if r.1 ≠ 0 then (-1, st)
  else match mp with
    | none =>
      let r := zramDiskDoSetup O F r.2 st
      (r.1, r.2.2)
    | some mp => zramDiskDoSetupAndMount O F r.2 (some mp) msRelatime st

/-- `zram_disk_simple`, as the kernel command line calls it. -/
def cmdlineZramDiskSimple : ZramDiskSimple DiskState :=
  fun name mp sizeSpec memsizeM st => zramDiskSimple O F name mp sizeSpec (UInt64.ofNat memsizeM) st

/-- The disk that is to be set up without a size spec: half of the memory. -/
def defaultZdisk (name : Option CStr) (sysMemsizeM : UInt64) : ZramDiskConfig :=
  { zramDiskConfigInit name with sizeM := sysMemsizeM / 2 }

/-- Setting up the disk, and mounting it if there is a mountpoint. -/
def setupZdisk (zdisk : ZramDiskConfig) (mp : Option CStr) (st : DiskState) : ℤ × DiskState :=
  match mp with
  | none =>
    let r := zramDiskDoSetup O F zdisk st
    (r.1, r.2.2)
  | some mp => zramDiskDoSetupAndMount O F zdisk (some mp) msRelatime st

/-- What `zram_disk_simple` is said to do without a size spec: it sets up a disk
    of half of the memory and returns 0. -/
structure DefaultDisk (name mp : Option CStr) (sysMemsizeM : UInt64) (st : DiskState) : Prop where
  size : (defaultZdisk name sysMemsizeM).sizeM.toNat = sysMemsizeM.toNat / 2
  ret : (zramDiskSimple O F name mp none sysMemsizeM st).1 = 0
  disk : (zramDiskSimple O F name mp none sysMemsizeM st).2 =
    (setupZdisk O F (defaultZdisk name sysMemsizeM) mp st).2

/-- Without a size spec there is no code 0. -/
theorem zramDiskConfigSetSize_none (zdisk : ZramDiskConfig) (fallbackSize sysMemsizeM : UInt64) :
    (zramDiskConfigSetSize zdisk none fallbackSize sysMemsizeM).1 ≠ 0 := by
  simp only [zramDiskConfigSetSize, zramDiskConfigSetFallbackSize]
  split_ifs <;> simp

/-- **Without a size spec nothing is set up**, and -1 is returned. -/
theorem zramDiskSimple_none (name mp : Option CStr) (sysMemsizeM : UInt64) (st : DiskState) :
    zramDiskSimple O F name mp none sysMemsizeM st = (-1, st) :=
  if_pos (zramDiskConfigSetSize_none _ _ _)

/-! ## The words -/

/-- A word that consists of a name only: `zram_disk=<name>` or
    `zram_disk=name=<name>`, or the same with `zdisk`. -/
def IsZdiskName (word : CStr) : Prop :=
  ∃ key ∈ CmdlineKey.zramDisk.names, ∃ name : CStr, name ≠ [] ∧ ',' ∉ name ∧
    ((word = key.toList ++ '=' :: name ∧ '=' ∉ name) ∨
      word = key.toList ++ '=' :: ("name=".toList ++ name))

/-- A word for a zram disk whose values do not contain a size. -/
def IsZdiskWithoutSize (word : CStr) : Prop :=
  ∃ key values, argFields (some "=".toList) (some ",".toList) word = key :: values ∧
    (∃ name ∈ CmdlineKey.zramDisk.names, key = name.toList) ∧ values ≠ [] ∧
    ∀ value ∈ values, strStartswith value "size=".toList = none

/-- The fields of a key with a single value. -/
theorem argFields_keyValue {key value : CStr} (hkey : key ≠ []) (hkeyEq : '=' ∉ key)
    (hvalue : value ≠ []) (hcomma : ',' ∉ value) :
    argFields (some "=".toList) (some ",".toList) (key ++ '=' :: value) = [key, value] := by
  have hdelim : ∀ c d : Char, isDelim [d] c = decide (c = d) := fun c d => isDelim_singleton d c
  have hall : ∀ c ∈ key, (!isDelim "=".toList c) = true := by
    intro c hc
    have hne : c ≠ '=' := fun h => hkeyEq (h ▸ hc)
    simp [hdelim, hne]
  obtain ⟨c, cs, rfl⟩ := List.exists_cons_of_ne_nil hkey
  have hhead : isDelim "=".toList c = false := by simpa using hall c List.mem_cons_self
  have hruns : Lib.runs (isDelim [',']) value = [value] := by
    refine Lib.runs_word hvalue fun x hx => ?_
    have hne : x ≠ ',' := fun h => hcomma (h ▸ hx)
    simp [hdelim, hne]
  rw [argFields_eq keyDelims_valid, splitFields]
  simp only [List.cons_append, List.dropWhile_cons, hhead]
  rw [if_neg (by simp), if_neg (by simp), ← List.cons_append]
  rw [List.takeWhile_append_of_pos hall, List.dropWhile_append_of_pos hall]
  simp [hdelim, hruns]

/-- A name does not look like a size. -/
theorem strStartswith_size_of_notMem {name : CStr} (h : '=' ∉ name) :
    strStartswith name "size=".toList = none := by
  rw [strStartswith_eq_none]
  rintro ⟨rest, rfl⟩
  exact h (List.mem_append_left _ (by simp))

theorem strStartswith_size_name (name : CStr) :
    strStartswith ("name=".toList ++ name) "size=".toList = none := by
  rw [strStartswith_eq_none]
  rintro ⟨rest, h⟩
  simp at h

/-- A name is not a size. -/
theorem IsZdiskName.withoutSize {word : CStr} (h : IsZdiskName word) : IsZdiskWithoutSize word := by
  obtain ⟨key, hkey, name, hname, hcomma, hword⟩ := h
  have hkeys : ∀ key ∈ CmdlineKey.zramDisk.names, key.toList ≠ [] ∧ '=' ∉ key.toList := by
    decide
  obtain ⟨hne, heq⟩ := hkeys key hkey
  rcases hword with ⟨rfl, hnoeq⟩ | rfl
  · refine ⟨_, _, argFields_keyValue hne heq hname hcomma, ⟨key, hkey, rfl⟩, by simp, ?_⟩
    intro value hvalue
    rw [List.mem_singleton.1 hvalue]
    exact strStartswith_size_of_notMem hnoeq
  · have hcomma' : ',' ∉ "name=".toList ++ name := by
      rw [List.mem_append, not_or]
      exact ⟨by simp, hcomma⟩
    refine ⟨_, _, argFields_keyValue hne heq (by simp) hcomma', ⟨key, hkey, rfl⟩, by simp, ?_⟩
    intro value hvalue
    rw [List.mem_singleton.1 hvalue]
    exact strStartswith_size_name name

/-- Values without a size leave the size spec alone. -/
theorem zramDiskOptsLoop_size : ∀ (values : List CStr) (k : ℕ) (st : Option CStr × Option CStr),
    (∀ value ∈ values, strStartswith value "size=".toList = none) →
      (zramDiskOptsLoop k values st).2 = st.2 := by
  intro values
  induction values with
  | nil => intro k st _; rfl
  | cons value values ih =>
    intro k st h
    rw [zramDiskOptsLoop, ih _ _ fun v hv => h v (List.mem_cons_of_mem _ hv)]
    rw [h value List.mem_cons_self]
    dsimp only
    split_ifs
    · rfl
    · rfl
    · split <;> rfl

/-- The call for the first value of a word without a size fails. -/
theorem processArgZramDisk_fieldCall {str key : CStr} {values : List CStr}
    (h : ∀ value ∈ values, strStartswith value "size=".toList = none) (g : InitramfsGlobals)
    (st : DiskState) :
    processArgZramDisk (cmdlineZramDiskSimple O F) g .keepGoing (fieldCall str key 1 values) st =
      (-1, .nextArg, st) := by
  have hsize := zramDiskOptsLoop_size values 0 (none, none) h
  have hspec : (if strIsEmpty (none : Option CStr) then none else none : Option CStr) = none :=
    ite_self _
  simp only [processArgZramDisk, fieldCall, ne_eq, not_true_eq_false, if_false, Option.getD_some,
    List.take_length, hsize, hspec, cmdlineZramDiskSimple, zramDiskSimple_none]

/-- A word without a size is not read without an error. -/
theorem readWord_zdisk {word : CStr} (h : IsZdiskWithoutSize word)
    (s : InitramfsGlobals × DiskState) :
    (argsplitDynarrayDo (initramfsCmdlineProcessArg (cmdlineZramDiskSimple O F)) [word]
      (some "=".toList) (some ",".toList) s).1 = -1 := by
  obtain ⟨key, values, hfields, hname, hne, hvalues⟩ := h
  have hkey : initramfsCmdlineGetIntKey key = .zramDisk :=
    (getIntKey_eq_iff (by decide)).2 hname
  obtain ⟨value, rest, rfl⟩ := List.exists_cons_of_ne_nil hne
  -- the `begin` call does nothing
  have hbegin : ∀ str nargs argv,
      answering (initramfsCmdlineProcessArg (cmdlineZramDiskSimple O F))
        ⟨str, key, none, nargs, argv, 0, -1⟩ s = (.keep, s) := by
    intro str nargs argv
    simp [answering, initramfsCmdlineProcessArg, hkey, processArgZramDisk, answer]
  have hfield : answering (initramfsCmdlineProcessArg (cmdlineZramDiskSimple O F))
      (fieldCall word key 1 (value :: rest)) s = (.stop (-1), s) := by
    have hcall : processArgZramDisk _ s.1 .keepGoing (fieldCall word key 1 (value :: rest)) s.2 =
        (-1, .nextArg, s.2) := processArgZramDisk_fieldCall O F hvalues s.1 s.2
    have hkey' : initramfsCmdlineGetIntKey (fieldCall word key 1 (value :: rest)).key =
        .zramDisk := hkey
    simp [answering, initramfsCmdlineProcessArg, hkey', hcall, answer]
  rw [argsplitDynarrayDo, argsplitArgvDo_eq _ keyDelims_valid, argScripts_some, List.map_singleton,
    hfields, argScript, fieldCalls]
  simp [Lib.runScripts, Lib.runScript_cons, hbegin, hfield, Lib.resume]

/-! ## The whole command line -/

/-- **A disk without a size lets the command line fail.** -/
theorem processCmdline_zdisk {host : Host} {g : InitramfsGlobals} {st : DiskState}
    (hword : ∃ word ∈ g.cmdlineArgv, IsZdiskWithoutSize word) :
    (initramfsProcessCmdline (cmdlineZramDiskSimple O F) host g st).1 ≠ 0 := by
  intro hok
  obtain ⟨word, hmem, hsize⟩ := hword
  obtain ⟨hread, -⟩ := processCmdline_success _ hok
  obtain ⟨s, hs⟩ := argsplitDynarrayDo_mem (processArg_flow _) keyDelims_valid hread hmem
  rw [readWord_zdisk O F hsize] at hs
  exact absurd hs (by simp)

/-- **The default size is never used**: where a disk of half of the memory could be
    set up, it is not, and every word that consists of a name only lets the
    command line fail. -/
theorem zramDiskSimple_default :
    (∀ name mp sysMemsizeM st, 1 < sysMemsizeM →
      (setupZdisk O F (defaultZdisk name sysMemsizeM) mp st).1 = 0 →
        ¬ DefaultDisk O F name mp sysMemsizeM st) ∧
      ∀ host g st, (∃ word ∈ g.cmdlineArgv, IsZdiskName word) →
        (initramfsProcessCmdline (cmdlineZramDiskSimple O F) host g st).1 ≠ 0 := by
  constructor
  · intro name mp sysMemsizeM st _ _ h
    have hret := h.ret
    rw [zramDiskSimple_none] at hret
    exact absurd hret (by simp)
  · rintro host g st ⟨word, hmem, hname⟩
    exact processCmdline_zdisk O F ⟨word, hmem, hname.withoutSize⟩

end

/-- Two free devices and no mounts. -/
def twoDisks : DiskState := ⟨twoDevices, 0, []⟩

/-- A machine with 4096 MiB of memory and the word `zram_disk=data`. -/
theorem zramDiskSimple_default_data :
    ¬ DefaultDisk (fun _ _ => 0) (fun _ => none) (some "data".toList) none 4096 twoDisks ∧
      (initramfsProcessCmdline (cmdlineZramDiskSimple (fun _ _ => 0) fun _ => none) sampleHost
        (sampleGlobals ["quiet", "zram_disk=data"]) twoDisks).1 ≠ 0 := by
  refine ⟨(zramDiskSimple_default _ _).1 _ _ _ _ (by simp) (by decide +kernel),
    (zramDiskSimple_default _ _).2 _ _ _ ⟨"zram_disk=data".toList, by decide, ?_⟩⟩
  exact ⟨"zram_disk", by decide, "data".toList, by decide, by decide, Or.inl ⟨rfl, by decide⟩⟩

/-- The disk of 2048 MiB could be set up. -/
theorem not_defaultDisk_data :
    (setupZdisk (fun _ _ => 0) (fun _ => none) (defaultZdisk (some "data".toList) 4096) none
        twoDisks).1 = 0 ∧
      (zramDiskSimple (fun _ _ => 0) (fun _ => none) (some "data".toList) none none 4096
        twoDisks).1 = -1 ∧
      ¬ DefaultDisk (fun _ _ => 0) (fun _ => none) (some "data".toList) none 4096 twoDisks := by
  have hret : (zramDiskSimple (fun _ _ => 0) (fun _ => none) (some "data".toList) none none 4096
      twoDisks).1 = -1 := by decide +kernel
  refine ⟨by decide +kernel, hret, fun h => ?_⟩
  have hzero := h.ret
  rw [hret] at hzero
  exact absurd hzero (by simp)

end Fischstaebchen
