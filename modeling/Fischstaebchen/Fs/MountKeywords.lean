/-
  The keywords among the mount options (`common/fs/mount_opts.c`).

  `parse_mount_opts_str_to_dynarray` takes the keywords out of an option string:
  each of them sets one flag, clears one flag, or does nothing.

  * `parseMountOpt_eq`: what the parser does with an option, by a table.
  * `parseMountOpts_darr`: the other options are kept in their order.
  * `parseMountOpts_flags`: a flag bit is set if and only if the last keyword
    that is about it sets it.
-/
import Fischstaebchen.Fs.MountOpts
import Fischstaebchen.Lib.Script

namespace Fischstaebchen

/-! ## The keywords -/

/-- An option that is a keyword. -/
def isMountKeyword (opt : CStr) : Bool := mountOptNames.any fun name => opt = name.toList

/-- The keywords that are about a flag: the flag, and whether it is set. -/
def mountFlagTable : List (String × Flags × Bool) :=
  [("atime", msNoatime, false), ("noatime", msNoatime, true), ("dev", msNodev, false),
    ("nodev", msNodev, true), ("diratime", msNodiratime, false), ("nodiratime", msNodiratime, true),
    ("exec", msNoexec, false), ("noexec", msNoexec, true), ("mand", msMandlock, true),
    ("nomand", msMandlock, false), ("relatime", msRelatime, true),
    ("norelatime", msRelatime, false), ("strictatime", msStrictatime, true),
    ("nostrictatime", msStrictatime, false), ("suid", msNosuid, false), ("nosuid", msNosuid, true),
    ("silent", msSilent, true), ("loud", msSilent, false), ("remount", msRemount, true),
    ("ro", msRdonly, true), ("rw", msRdonly, false), ("async", msSynchronous, true),
    ("sync", msSynchronous, false), ("bind", msBind, true), ("dirsync", msDirsync, true)]

/-- What a keyword says about a flag. -/
def mountKeywordFlag (opt : CStr) : Option (Flags × Bool) :=
  (mountFlagTable.find? fun entry => opt = entry.1.toList).map Prod.snd

theorem mountKeywordFlag_of_not {opt : CStr} (h : ¬ isMountKeyword opt = true) :
    mountKeywordFlag opt = none := by
  have hnames : ∀ entry ∈ mountFlagTable, entry.1 ∈ mountOptNames := by decide
  have hfind : mountFlagTable.find? (fun entry => opt = entry.1.toList) = none := by
    refine List.find?_eq_none.2 fun entry hentry heq => h ?_
    exact List.any_eq_true.2 ⟨entry.1, hnames entry hentry, heq⟩
  rw [mountKeywordFlag, hfind]
  rfl

/-- The state after a keyword. -/
def MountOptsState.obey (st : MountOptsState) : Option (Flags × Bool) → MountOptsState
  | none => st
  | some (flag, true) => st.set flag
  | some (flag, false) => st.clear flag

theorem parseMountOpt_keyword : ∀ name ∈ mountOptNames, ∀ st : MountOptsState,
    parseMountOpt st name.toList = st.obey (mountKeywordFlag name.toList) := by
  intro name hname st
  fin_cases hname <;> rfl

/-- **What the parser does with an option.** -/
theorem parseMountOpt_eq (st : MountOptsState) (opt : CStr) :
    parseMountOpt st opt =
      if isMountKeyword opt then st.obey (mountKeywordFlag opt) else st.append opt := by
  by_cases hkey : isMountKeyword opt = true
  · obtain ⟨name, hname, heq⟩ := List.any_eq_true.1 hkey
    obtain rfl : opt = name.toList := of_decide_eq_true heq
    rw [if_pos hkey, parseMountOpt_keyword name hname]
  · rw [if_neg hkey]
    refine parseMountOpt_word (fun name hname h => hkey ?_) st
    exact List.any_eq_true.2 ⟨name, hname, decide_eq_true h⟩

/-! ## Option strings -/

/-- The options of an option string, which may be NULL. -/
def mountOptions (opts : Option CStr) : List CStr := Lib.runs (isDelim ",".toList) (opts.getD [])

theorem parseMountOptsStrToDynarray_some (opts : CStr) (darr : List CStr) :
    parseMountOptsStrToDynarray (some opts) darr =
      (0, ((mountOptions (some opts)).foldl parseMountOpt ⟨0#64, darr⟩).flags,
        ((mountOptions (some opts)).foldl parseMountOpt ⟨0#64, darr⟩).darr) := by
  simp only [parseMountOptsStrToDynarray, strtokLoop_strtokR]
  rfl

theorem mountOptions_ne_nil {opts : Option CStr} : ∀ opt ∈ mountOptions opts, opt ≠ [] :=
  fun _ hopt => Lib.runs_ne_nil hopt

@[simp] theorem MountOptsState.obey_darr (st : MountOptsState) (k : Option (Flags × Bool)) :
    (st.obey k).darr = st.darr := by
  rcases k with _ | ⟨flag, _ | _⟩ <;> rfl

/-- **The other options are kept.** -/
theorem parseMountOpts_darr (opts : List CStr) (st : MountOptsState) :
    (opts.foldl parseMountOpt st).darr = st.darr ++ opts.filter fun opt => !isMountKeyword opt := by
  induction opts generalizing st with
  | nil => simp
  | cons opt opts ih =>
    rw [List.foldl_cons, ih, parseMountOpt_eq]
    by_cases hkey : isMountKeyword opt = true <;> simp [hkey, MountOptsState.append]

/-- What an option decides about the flag bit `i`. -/
def mountFlagDecision (i : ℕ) (opt : CStr) : Option Bool :=
  (mountKeywordFlag opt).bind fun (flag, value) => if flag.getLsbD i then some value else none

theorem MountOptsState.obey_getLsbD (st : MountOptsState) (k : Option (Flags × Bool)) (i : ℕ) :
    (st.obey k).flags.getLsbD i =
      (k.bind fun (flag, value) => if flag.getLsbD i then some value else none).getD
        (st.flags.getLsbD i) := by
  rcases k with _ | ⟨flag, _ | _⟩
  · rfl
  · simp only [MountOptsState.obey, MountOptsState.clear, Option.bind_some, BitVec.getLsbD_and,
      BitVec.getLsbD_not]
    by_cases hi : i < 64
    · cases flag.getLsbD i <;> simp [hi]
    · simp [BitVec.getLsbD_of_ge _ _ (not_lt.1 hi)]
  · simp only [MountOptsState.obey, MountOptsState.set, Option.bind_some, BitVec.getLsbD_or]
    cases flag.getLsbD i <;> simp

/-- **The last keyword about a flag decides.** -/
theorem parseMountOpts_flags (opts : List CStr) (st : MountOptsState) (i : ℕ) :
    (opts.foldl parseMountOpt st).flags.getLsbD i =
      (Lib.lastDecision (mountFlagDecision i) opts).getD (st.flags.getLsbD i) := by
  refine Lib.foldl_register (π := fun st : MountOptsState => st.flags.getLsbD i)
    (fun st opt => ?_) opts st
  rw [parseMountOpt_eq, mountFlagDecision]
  by_cases hkey : isMountKeyword opt = true
  · rw [if_pos hkey, MountOptsState.obey_getLsbD]
  · rw [if_neg hkey, mountKeywordFlag_of_not hkey]
    rfl

end Fischstaebchen
