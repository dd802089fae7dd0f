/-
  Mount option strings (`common/fs/mount_opts.c`).

  `get_mount_opts_str` writes a flag word and free-form options as a
  comma-separated string, `parse_mount_opts_str` reads such a string back.
  The two tables are maintained separately.

  * `Encodes f darr m`: parsing the options `darr` gives the part of the flag
    word `f` that the mask `m` selects.
  * `getMountOptsArr_encodes`: the written options encode all known flags but
    `MS_SYNCHRONOUS`.
  * `mountOptsRoundTrip_iff`: hence a flag word comes back exactly if it does
    not contain `MS_SYNCHRONOUS`: `sync` clears this flag (and `async` sets it).
-/
import Fischstaebchen.Lib.Mask
import Fischstaebchen.Strutil.Join
import Fischstaebchen.Strutil.Strtok

namespace Fischstaebchen

/-! ## Mount flags (`<sys/mount.h>`) -/

/-- An `unsigned long` flag word. -/
abbrev Flags := BitVec 64

def msRdonly : Flags := 0x1
def msNosuid : Flags := 0x2
def msNodev : Flags := 0x4
def msNoexec : Flags := 0x8
def msSynchronous : Flags := 0x10
def msRemount : Flags := 0x20
def msMandlock : Flags := 0x40
def msDirsync : Flags := 0x80
def msNoatime : Flags := 0x400
def msNodiratime : Flags := 0x800
def msBind : Flags := 0x1000
def msMove : Flags := 0x2000
def msSilent : Flags := 0x8000
def msRelatime : Flags := 0x200000
def msStrictatime : Flags := 0x1000000

/-! ## Writing -/

/-- `OAPPEND(bit, s)`. -/
def oappend (flags bit : Flags) (s : String) (darr : List CStr) : List CStr :=
  if flags &&& bit ≠ 0#64 then darr ++ [s.toList] else darr

/-- `OAPPEND_OR(bit, s, t)`. -/
def oappendOr (flags bit : Flags) (s t : String) (darr : List CStr) : List CStr :=
  darr ++ [if flags &&& bit ≠ 0#64 then s.toList else t.toList]

/-- The options that `get_mount_opts_str` collects. -/
def getMountOptsArr (flags : Flags) (optsIn : Option CStr) : List CStr :=
  let darr := oappend flags msRemount "remount" []
  let darr := oappend flags msBind "bind" darr
  let darr := oappend flags msMove "move" darr
  let darr := oappend flags msDirsync "dirsync" darr
  let darr := oappend flags msMandlock "mand" darr
  let darr := oappend flags msNoatime "noatime" darr
  let darr := oappend flags msNodev "nodev" darr
  let darr := oappend flags msNodiratime "nodiratime" darr
  let darr := oappend flags msNoexec "noexec" darr
  let darr := oappend flags msNosuid "nosuid" darr
  let darr := oappendOr flags msRdonly "ro" "rw" darr
  let darr := oappend flags msRelatime "relatime" darr
  let darr := oappend flags msSilent "silent" darr
  let darr := oappend flags msStrictatime "strictatime" darr
  let darr := oappend flags msSynchronous "sync" darr
  match optsIn with
  | some opts => darr ++ [opts]
  | none => darr

/-- `get_mount_opts_str`. -/
def getMountOptsStr (flags : Flags) (optsIn : Option CStr) : Option CStr :=
  some (joinStrDynarray (some ",".toList) (getMountOptsArr flags optsIn))

/-! ## Reading -/

/-- The flags and options read so far. -/
structure MountOptsState where
  flags : Flags
  darr : List CStr

/-- `flags |= flag`. -/
def MountOptsState.set (st : MountOptsState) (flag : Flags) : MountOptsState :=
  { st with flags := st.flags ||| flag }

/-- `flags &= ~flag`. -/
def MountOptsState.clear (st : MountOptsState) (flag : Flags) : MountOptsState :=
  { st with flags := st.flags &&& ~~~flag }

/-- `dynarray_append_strdup ( p_darr, p_opt )`. -/
def MountOptsState.append (st : MountOptsState) (opt : CStr) : MountOptsState :=
  { st with darr := st.darr ++ [opt] }

/-- The option keywords, in the order of the switch. -/
def mountOptNames : List String :=
  ["atime", "noatime", "auto", "noauto", "dev", "nodev", "diratime", "nodiratime", "exec",
    "noexec", "mand", "nomand", "relatime", "norelatime", "strictatime", "nostrictatime", "suid",
    "nosuid", "silent", "loud", "remount", "ro", "rw", "async", "sync", "bind", "dirsync", "loop",
    "_netdev", "defaults", "x-nopremount", "x-premount"]

/-- The body of the `while` loop of `parse_mount_opts_str_to_dynarray`. -/
def parseMountOpt (st : MountOptsState) (opt : CStr) : MountOptsState :=
  match streqSwitch opt mountOptNames with
  | none => st.append opt
  -- LX__SETFLAG_NEGATE ( 0, MS_NOATIME )
  | some 0 => st.clear msNoatime
  | some 1 => st.set msNoatime
  -- auto, noauto
  | some 2 | some 3 => st
  -- LX__SETFLAG_NEGATE for MS_NODEV, MS_NODIRATIME, MS_NOEXEC
  | some 4 => st.clear msNodev
  | some 5 => st.set msNodev
  | some 6 => st.clear msNodiratime
  | some 7 => st.set msNodiratime
  | some 8 => st.clear msNoexec
  | some 9 => st.set msNoexec
  -- LX__SETFLAG for MS_MANDLOCK, MS_RELATIME, MS_STRICTATIME
  | some 10 => st.set msMandlock
  | some 11 => st.clear msMandlock
  | some 12 => st.set msRelatime
  | some 13 => st.clear msRelatime
  | some 14 => st.set msStrictatime
  | some 15 => st.clear msStrictatime
  -- LX__SETFLAG_NEGATE ( 16, MS_NOSUID )
  | some 16 => st.clear msNosuid
  | some 17 => st.set msNosuid
  -- LX__SETFLAG ( 18, MS_SILENT )
  | some 18 => st.set msSilent
  | some 19 => st.clear msSilent
  | some 20 => st.set msRemount
  -- LX__SETFLAG for MS_RDONLY (ro, rw) and MS_SYNCHRONOUS (async, sync)
  | some 21 => st.set msRdonly
  | some 22 => st.clear msRdonly
  | some 23 => st.set msSynchronous
  | some 24 => st.clear msSynchronous
  | some 25 => st.set msBind
  | some 26 => st.set msDirsync
  -- loop, _netdev, defaults, x-nopremount, x-premount
  | some 27 | some 28 | some 29 | some 30 | some 31 => st
  -- unhandled: append to opts str and keep going
  | some _ => st.append opt

/-- `parse_mount_opts_str_to_dynarray`: the return code, the flags and the
    dynarray. -/
def parseMountOptsStrToDynarray (optsIn : Option CStr) (darr : List CStr) :
    ℤ × Flags × List CStr :=
  match optsIn with
  | none => (-1, 0#64, darr)
  | some opts =>
    let r := strtokR ",".toList ⟨[], opts⟩
    let st := (strtokLoop ",".toList parseMountOpt r.1 (r.2, ⟨0#64, darr⟩)).2
    (0, st.flags, st.darr)

/-- `parse_mount_opts_str`: the return code, the flags and the options. -/
def parseMountOptsStr (optsIn : Option CStr) : ℤ × Flags × Option CStr :=
  let r := parseMountOptsStrToDynarray optsIn []
  let optsOut := if r.1 = 0 then some (joinStrDynarray (some ",".toList) r.2.2) else none
  (if optsOut ≠ none then 0 else -1, r.2.1, optsOut)

/-- **Reading an option string** folds over its non-empty options. -/
theorem parseMountOptsStr_some (opts : CStr) :
    parseMountOptsStr (some opts) =
      (0, ((Lib.runs (isDelim ",".toList) opts).foldl parseMountOpt ⟨0#64, []⟩).flags,
        some (joinStrDynarray (some ",".toList)
          ((Lib.runs (isDelim ",".toList) opts).foldl parseMountOpt ⟨0#64, []⟩).darr)) := by
  simp only [parseMountOptsStr, parseMountOptsStrToDynarray, strtokLoop_strtokR]
  rfl

/-- A word that is no keyword is kept. -/
theorem parseMountOpt_word {opt : CStr} (h : ∀ name ∈ mountOptNames, opt ≠ name.toList)
    (st : MountOptsState) : parseMountOpt st opt = st.append opt := by
  rw [parseMountOpt, streqSwitch_eq_none.2 h]

theorem foldl_parseMountOpt_words : ∀ (ws : List CStr),
    (∀ w ∈ ws, ∀ name ∈ mountOptNames, w ≠ name.toList) → ∀ st : MountOptsState,
      ws.foldl parseMountOpt st = { st with darr := st.darr ++ ws }
  | [], _, st => by simp
  | w :: ws, h, st => by
    rw [List.foldl_cons, parseMountOpt_word (h w (by simp)),
      foldl_parseMountOpt_words ws fun v hv => h v (by simp [hv])]
    simp [MountOptsState.append]

/-! ## The written options -/

/-- Parsing the options `darr` gives the part of `f` selected by `m`, and no
    free-form options. -/
structure Encodes (f : Flags) (darr : List CStr) (m : Flags) : Prop where
  parse : darr.foldl parseMountOpt ⟨0#64, []⟩ = ⟨f &&& m, []⟩
  words : ∀ s ∈ darr, s ≠ [] ∧ ',' ∉ s

section
variable {f m : Flags} {darr : List CStr}

theorem Encodes.nil (f : Flags) : Encodes f [] 0#64 := ⟨by simp, by simp⟩

theorem Encodes.concat {m' : Flags} {s : CStr} (h : Encodes f darr m) (hs : s ≠ [] ∧ ',' ∉ s)
    (hp : parseMountOpt ⟨f &&& m, []⟩ s = ⟨f &&& m', []⟩) : Encodes f (darr ++ [s]) m' := by
  refine ⟨by rw [List.foldl_append, h.parse]; exact hp, fun x hx => ?_⟩
  rcases List.mem_append.1 hx with hx | hx
  · exact h.words x hx
  · rw [List.mem_singleton.1 hx]; exact hs

/-- An option that sets its flag. -/
theorem Encodes.oappend (h : Encodes f darr m) (bit : Flags) (name : String)
    (hb : Lib.IsBit bit) (hs : name.toList ≠ [] ∧ ',' ∉ name.toList)
    (hp : ∀ st, parseMountOpt st name.toList = st.set bit) :
    Encodes f (oappend f bit name darr) (m ||| bit) := by
  unfold Fischstaebchen.oappend
  split_ifs with hf
  · exact h.concat hs (by rw [hp, MountOptsState.set, Lib.or_bit hb hf])
  · rw [not_not] at hf
    refine ⟨?_, h.words⟩
    rw [h.parse, Lib.and_or_of_lacks hf]

/-- An option for a flag that is not set. -/
theorem Encodes.oappend_lacks (h : Encodes f darr m) (bit : Flags) (name : String)
    (hf : f &&& bit = 0#64) : Encodes f (Fischstaebchen.oappend f bit name darr) m := by
  simpa [Fischstaebchen.oappend, hf] using h

/-- An option that clears its flag, which no other option sets. -/
theorem Encodes.oappend_clear (h : Encodes f darr m) (bit : Flags) (name : String)
    (hm : m &&& ~~~bit = m) (hs : name.toList ≠ [] ∧ ',' ∉ name.toList)
    (hp : ∀ st, parseMountOpt st name.toList = st.clear bit) :
    Encodes f (Fischstaebchen.oappend f bit name darr) m := by
  unfold Fischstaebchen.oappend
  split_ifs with hf
  · exact h.concat hs (by rw [hp, MountOptsState.clear, BitVec.and_assoc, hm])
  · exact h

/-- Two options, one of which sets the flag and one of which clears it. -/
theorem Encodes.oappendOr (h : Encodes f darr m) (bit : Flags) (name t : String)
    (hb : Lib.IsBit bit) (hm : m &&& ~~~bit = m) (hs : name.toList ≠ [] ∧ ',' ∉ name.toList)
    (ht : t.toList ≠ [] ∧ ',' ∉ t.toList)
    (hps : ∀ st, parseMountOpt st name.toList = st.set bit)
    (hpt : ∀ st, parseMountOpt st t.toList = st.clear bit) :
    Encodes f (oappendOr f bit name t darr) (m ||| bit) := by
  unfold Fischstaebchen.oappendOr
  split_ifs with hf
  · exact h.concat hs (by rw [hps, MountOptsState.set, Lib.or_bit hb hf])
  · rw [not_not] at hf
    refine h.concat ht ?_
    rw [hpt, MountOptsState.clear, BitVec.and_assoc, hm, Lib.and_or_of_lacks hf]

end

/-- The flags that `parse_mount_opts_str_to_dynarray` knows. -/
def knownMountFlags : Flags :=
  msNoatime ||| msNodev ||| msNodiratime ||| msNoexec ||| msMandlock ||| msRelatime
    ||| msStrictatime ||| msNosuid ||| msSilent ||| msRemount ||| msRdonly ||| msSynchronous
    ||| msBind ||| msDirsync

/-- **The written options** encode every known flag but `MS_SYNCHRONOUS`. -/
theorem getMountOptsArr_encodes {f : Flags} (hmove : f &&& msMove = 0#64) :
    Encodes f (getMountOptsArr f none) (knownMountFlags &&& ~~~msSynchronous) := by
  have h := (Encodes.nil f).oappend msRemount "remount" (by decide) (by decide) fun _ => rfl
  have h := h.oappend msBind "bind" (by decide) (by decide) fun _ => rfl
  have h := h.oappend_lacks msMove "move" hmove
  have h := h.oappend msDirsync "dirsync" (by decide) (by decide) fun _ => rfl
  have h := h.oappend msMandlock "mand" (by decide) (by decide) fun _ => rfl
  have h := h.oappend msNoatime "noatime" (by decide) (by decide) fun _ => rfl
  have h := h.oappend msNodev "nodev" (by decide) (by decide) fun _ => rfl
  have h := h.oappend msNodiratime "nodiratime" (by decide) (by decide) fun _ => rfl
  have h := h.oappend msNoexec "noexec" (by decide) (by decide) fun _ => rfl
  have h := h.oappend msNosuid "nosuid" (by decide) (by decide) fun _ => rfl
  have h := h.oappendOr msRdonly "ro" "rw" (by decide) (by decide) (by decide) (by decide)
    (fun _ => rfl) fun _ => rfl
  have h := h.oappend msRelatime "relatime" (by decide) (by decide) fun _ => rfl
  have h := h.oappend msSilent "silent" (by decide) (by decide) fun _ => rfl
  have h := h.oappend msStrictatime "strictatime" (by decide) (by decide) fun _ => rfl
  have h := h.oappend_clear msSynchronous "sync" (by decide) (by decide) fun _ => rfl
  exact h

/-! ## The round trip -/

/-- A free-form option: non-empty, without a comma, and no keyword. -/
structure IsOptionWord (w : CStr) : Prop where
  ne_nil : w ≠ []
  no_comma : ',' ∉ w
  not_keyword : ∀ name ∈ mountOptNames, w ≠ name.toList

/-- Writing the flags `f` and the options `ws` and reading the string again
    succeeds and gives both back. -/
def MountOptsRoundTrip (f : Flags) (ws : List CStr) : Prop :=
  parseMountOptsStr (getMountOptsStr f (some (",".toList.intercalate ws))) =
    (0, f, some (",".toList.intercalate ws))

/-- The options that are read from a written string. -/
theorem runs_getMountOptsStr {arr ws : List CStr} (harr : ∀ w ∈ arr, w ≠ [] ∧ ',' ∉ w)
    (hne : arr ≠ []) (hws : ∀ w ∈ ws, IsOptionWord w) :
    Lib.runs (isDelim ",".toList)
      (joinStrDynarray (some ",".toList) (arr ++ [",".toList.intercalate ws])) = arr ++ ws := by
  have hsep : isDelim ",".toList = (· == ',') := funext (isDelim_singleton ',')
  have hjoin : joinStrDynarray (some ",".toList) (arr ++ [",".toList.intercalate ws]) =
      ",".toList.intercalate (arr ++ [",".toList.intercalate ws]) := by
    obtain ⟨a, arr, rfl⟩ := List.exists_cons_of_ne_nil hne
    exact joinStrDynarray_cons (by simp) (harr a (by simp)).1 _
  rw [hjoin, hsep, show ",".toList = [','] from rfl, Lib.runs_intercalate_concat ',' _ arr harr,
    Lib.runs_intercalate ',' ws fun w hw => ⟨(hws w hw).ne_nil, (hws w hw).no_comma⟩]

theorem oappend_ne_nil {f bit : Flags} {s : String} {darr : List CStr} (h : darr ≠ []) :
    oappend f bit s darr ≠ [] := by
  unfold oappend; split_ifs <;> simp [h]

theorem getMountOptsArr_ne_nil (f : Flags) : getMountOptsArr f none ≠ [] := by
  have h : ∀ darr, oappendOr f msRdonly "ro" "rw" darr ≠ [] := fun darr => by simp [oappendOr]
  exact oappend_ne_nil (oappend_ne_nil (oappend_ne_nil (oappend_ne_nil (h _))))

/-- **What comes back** from writing and reading known flags and free-form
    options. -/
theorem parse_getMountOptsStr {f : Flags} (hmove : f &&& msMove = 0#64) {ws : List CStr}
    (hws : ∀ w ∈ ws, IsOptionWord w) :
    parseMountOptsStr (getMountOptsStr f (some (",".toList.intercalate ws))) =
      (0, f &&& (knownMountFlags &&& ~~~msSynchronous), some (",".toList.intercalate ws)) := by
  have henc := getMountOptsArr_encodes hmove
  have harr : getMountOptsArr f (some (",".toList.intercalate ws)) =
      getMountOptsArr f none ++ [",".toList.intercalate ws] := rfl
  have hjoin : joinStrDynarray (some ",".toList) ws = ",".toList.intercalate ws := by
    cases ws with
    | nil => rfl
    | cons w ws => exact joinStrDynarray_cons (by simp) (hws w (by simp)).ne_nil _
  rw [getMountOptsStr, parseMountOptsStr_some, harr,
    runs_getMountOptsStr henc.words (getMountOptsArr_ne_nil f) hws, List.foldl_append, henc.parse,
    foldl_parseMountOpt_words ws fun w hw => (hws w hw).not_keyword, List.nil_append, hjoin]

/-- **The round trip** of known flags and free-form options succeeds exactly if
    `MS_SYNCHRONOUS` is not set: the switch sets it for `async` and clears it
    for `sync`. -/
theorem mountOptsRoundTrip_iff {f : Flags} (hf : f &&& ~~~knownMountFlags = 0#64)
    {ws : List CStr} (hws : ∀ w ∈ ws, IsOptionWord w) :
    MountOptsRoundTrip f ws ↔ f &&& msSynchronous = 0#64 := by
  have hmove : f &&& msMove = 0#64 := Lib.lacks_of_subset hf (by decide)
  have hknown : f &&& knownMountFlags = f := Lib.and_of_subset hf
  have hread : f &&& (knownMountFlags &&& ~~~msSynchronous) = f &&& ~~~msSynchronous := by
    rw [← BitVec.and_assoc, hknown]
  rw [MountOptsRoundTrip, parse_getMountOptsStr hmove hws, hread]
  simp only [Prod.mk.injEq, true_and, and_true]
  exact Lib.and_not_eq_self

/-- A mount with `MS_NOSUID` and a free-form option. -/
theorem mountOptsRoundTrip_nosuid :
    MountOptsRoundTrip msNosuid ["size=10M".toList] ↔ msNosuid &&& msSynchronous = 0#64 :=
  mountOptsRoundTrip_iff (by decide) fun w hw => by
    rw [List.mem_singleton.1 hw]
    exact ⟨by decide, by decide, by decide⟩

/-- `MS_SYNCHRONOUS` is written as `sync` and read back as no flag. -/
theorem mountOptsRoundTrip_synchronous :
    msSynchronous &&& ~~~knownMountFlags = 0#64 ∧ ¬ MountOptsRoundTrip msSynchronous [] ∧
      (parseMountOptsStr (getMountOptsStr msSynchronous (some []))).2.1 = 0#64 := by
  have h := @parse_getMountOptsStr msSynchronous (by decide) [] (by simp)
  have hlost : msSynchronous &&& (knownMountFlags &&& ~~~msSynchronous) = 0#64 := by decide
  refine ⟨by decide, fun hr => ?_, ?_⟩
  · rw [MountOptsRoundTrip, h] at hr
    revert hr; decide
  · exact (congrArg (fun r => r.2.1) h).trans hlost

end Fischstaebchen
