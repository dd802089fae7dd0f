/-
  The value of the stagedive parameter (`stagedive/hooks/parse-cmdline.d/48-stagedive.sh`).

  Its documented form is `<type>,<arg>`, where the argument is `none`, a name or a uri,
  which may have a key before it.

  * `parseStagedive_read`: what is done with a value.
  * `stageFile_spec`: the word that an argument leads to.
  * `readsDocumented_iff`: when a value is read as documented.
-/
import Fischstaebchen.Overlay.Stagedive

namespace Fischstaebchen

open Lib.Shell (caseOf glob globAtom)

/-! ## What a value is read as -/

/-- The stage type of a value, its argument, `STAGEDIVE_AUTOSET_FILE_CFG` and the word that
    is passed on; `none` if the process dies. -/
def readStagedive (env : StagediveEnv) (value : CStr) : Option (CStr × CStr × CStr × CStr) :=
  let stageType := unaliasStageType (splitStagedive value).1
  let arg := (splitStagedive value).2
  if env.isProfile stageType then
    (stageFile env stageType arg).map fun r => (stageType, arg, r.2, stageArg r.1)
  else none

/-- **What is done with a value**: the word is handed to the parser of `volatile_rootfs`. -/
theorem parseStagedive_read (gh : GithubArchive) (env : StagediveEnv)
    (others : List (CmdlineParser HookState)) (vars : ParseVars) (st : HookState) :
    parseStagediveStagedive gh env others vars st =
      match readStagedive env vars.value with
      | none => none
      | some (stageType, _, autoset, word) =>
        let st := { st with stagediveType := stageType, stagediveAutosetFileCfg := autoset }
        if word = [] then some st
        else (doParseCmdline (registeredParsers gh others) 2
          ["volatile_rootfs=".toList ++ (clearingWords ++ word)] ⟨vars, st, []⟩).bind
            ParseEnd.state? := by
  rw [parseStagediveStagedive, readStagedive]
  dsimp only
  split_ifs with hprofile
  · cases stageFile env (unaliasStageType (splitStagedive vars.value).1)
      (splitStagedive vars.value).2 <;> rfl
  · rfl

/-! ## The documented form -/

/-- The type and the argument, as they are documented. -/
def documentedSplit (value : CStr) : CStr × CStr :=
  if ',' ∈ value then (beforeFirst [','] value, afterFirst [','] value)
  else if '/' ∈ value then ("gentoo-stage3".toList, value)
  else (value, [])

/-- A key before a uri. -/
def KeySquashfs (arg : CStr) : Prop := "squashfs=".toList <+: arg ∨ "sfs=".toList <+: arg

def KeyTarball (arg : CStr) : Prop := "tarball=".toList <+: arg ∨ "tb=".toList <+: arg

/-- The suffix of a squashfs file. -/
def SuffixSquashfs (arg : CStr) : Prop := ".squashfs".toList <:+ arg ∨ ".sfs".toList <:+ arg

instance : DecidablePred KeySquashfs := fun _ => inferInstanceAs (Decidable (_ ∨ _))

instance : DecidablePred KeyTarball := fun _ => inferInstanceAs (Decidable (_ ∨ _))

instance : DecidablePred SuffixSquashfs := fun _ => inferInstanceAs (Decidable (_ ∨ _))

/-- The image below a base uri. -/
def baseImage (env : StagediveEnv) (stageType arg : CStr) : CStr :=
  arg ++ '/' :: withoutPrefix "gentoo-".toList stageType ++ '-' :: env.altArch ++
    ".tar.bz2".toList

/-- The word for an argument, as it is documented: a uri has a key, a suffix or a slash,
    and all else is a name. -/
def documentedWord (env : StagediveEnv) (stageType arg : CStr) : CStr :=
  if arg = "none".toList then []
  else if KeySquashfs arg then "file=".toList ++ valueOf arg
  else if KeyTarball arg then "low_tarball=".toList ++ valueOf arg
  else if SuffixSquashfs arg then "file=".toList ++ arg
  else if ['/'] <:+ arg then "low_tarball=".toList ++ baseImage env stageType arg
  else if '/' ∈ arg then "low_tarball=".toList ++ arg
  else "yes".toList

/-- **The value is read as documented**: if its type has a profile, then the type and the
    argument are the documented ones; and if the value is accepted, then the word is the
    one for its argument. -/
def ReadsDocumented (env : StagediveEnv) (value : CStr) : Prop :=
  (env.isProfile (unaliasStageType (documentedSplit value).1) = true →
    (unaliasStageType (splitStagedive value).1, (splitStagedive value).2) =
      (unaliasStageType (documentedSplit value).1, (documentedSplit value).2)) ∧
  ∀ stageType arg autoset word, readStagedive env value = some (stageType, arg, autoset, word) →
    word = documentedWord env stageType arg

/-- **An argument that is misread**: a base uri with a key, whose key becomes a part of the
    uri; or a uri without a slash behind its first char, which is taken for a name. -/
def MisreadArg (stageType arg : CStr) : Prop :=
  ("gentoo-stage".toList <+: stageType ∧ ['/'] <:+ arg ∧ (KeySquashfs arg ∨ KeyTarball arg)) ∨
  ((stageType = "gentoo-stage3".toList ∨ "archstrap".toList <+: stageType) ∧ '/' ∉ arg.tail ∧
    (KeySquashfs arg ∨ KeyTarball arg ∨ SuffixSquashfs arg ∨ arg.head? = some '/'))

/-! ## Arguments -/

section
variable {env : StagediveEnv} {stageType arg file autoset : CStr}

theorem base_iff : caseOf arg ["?*/"] = true ↔ ['/'] <:+ arg.tail := by
  rw [caseOf, List.any_cons, List.any_nil, Bool.or_false]
  cases arg with
  | nil => simp [globAtom, glob]
  | cons a s => exact Lib.Shell.matches_suffix (p := "*/") (w := ['/']) (by decide) rfl

theorem inner_iff : caseOf arg ["?*/?*"] = true ↔ ∃ a u b v, arg = a :: (u ++ '/' :: b :: v) := by
  rw [caseOf, List.any_cons, List.any_nil, Bool.or_false]
  exact Lib.Shell.matches_inner (by decide) rfl

/-- A slash that is not the first char is the last one, or stands between two chars. -/
theorem slash_tail_iff :
    '/' ∈ arg.tail ↔ caseOf arg ["?*/"] = true ∨ caseOf arg ["?*/?*"] = true := by
  rw [base_iff, inner_iff]
  constructor
  · intro h
    cases arg with
    | nil => exact absurd h List.not_mem_nil
    | cons a s =>
      obtain ⟨u, r, hs⟩ := List.append_of_mem h
      cases r with
      | nil => exact .inl ⟨u, hs.symm⟩
      | cons b v => exact .inr ⟨a, u, b, v, congrArg (a :: ·) hs⟩
  · rintro (h | ⟨a, u, b, v, rfl⟩)
    · exact h.subset List.mem_cons_self
    · exact List.mem_append_right _ List.mem_cons_self

theorem none_iff : caseOf arg ["none"] = true ↔ arg = "none".toList := by
  rw [Lib.Shell.matches_words (by decide)]
  simp

theorem gentooStage_iff :
    caseOf stageType ["gentoo-stage*"] = true ↔ "gentoo-stage".toList <+: stageType := by
  rw [caseOf, List.any_cons, List.any_nil, Bool.or_false]
  exact Lib.Shell.matches_prefix (by decide) rfl

theorem gentooStage3_iff :
    caseOf stageType ["gentoo-stage3"] = true ↔ stageType = "gentoo-stage3".toList := by
  rw [Lib.Shell.matches_words (by decide)]
  simp

theorem archstrap_iff :
    caseOf stageType ["archstrap*"] = true ↔ "archstrap".toList <+: stageType := by
  rw [caseOf, List.any_cons, List.any_nil, Bool.or_false]
  exact Lib.Shell.matches_prefix (by decide) rfl

theorem keySquashfs_iff : caseOf arg ["squashfs=*", "sfs=*"] = true ↔ KeySquashfs arg := by
  rw [caseOf, List.any_cons, List.any_cons, List.any_nil, Bool.or_false, Bool.or_eq_true,
    Lib.Shell.matches_prefix (w := "squashfs=".toList) (by decide) rfl,
    Lib.Shell.matches_prefix (w := "sfs=".toList) (by decide) rfl]
  rfl

theorem keyTarball_iff : caseOf arg ["tarball=*", "tb=*"] = true ↔ KeyTarball arg := by
  rw [caseOf, List.any_cons, List.any_cons, List.any_nil, Bool.or_false, Bool.or_eq_true,
    Lib.Shell.matches_prefix (w := "tarball=".toList) (by decide) rfl,
    Lib.Shell.matches_prefix (w := "tb=".toList) (by decide) rfl]
  rfl

theorem suffixSquashfs_iff : caseOf arg ["*.squashfs", "*.sfs"] = true ↔ SuffixSquashfs arg := by
  rw [caseOf, List.any_cons, List.any_cons, List.any_nil, Bool.or_false, Bool.or_eq_true,
    Lib.Shell.matches_suffix (w := ".squashfs".toList) (by decide) rfl,
    Lib.Shell.matches_suffix (w := ".sfs".toList) (by decide) rfl]
  rfl

theorem stageArg_tarball (rest : CStr) :
    stageArg ("tarball=".toList ++ rest) = "low_tarball=".toList ++ rest := rfl

theorem stageArg_bootstrap : stageArg "@bootstrap".toList = "yes".toList := by decide

/-- A uri leads to the word for its key or suffix. -/
theorem stageArg_uri (h : '/' ∈ arg.tail) : stageArg arg =
    if KeySquashfs arg then "file=".toList ++ valueOf arg
    else if KeyTarball arg then "low_tarball=".toList ++ valueOf arg
    else if SuffixSquashfs arg then "file=".toList ++ arg
    else "low_tarball=".toList ++ arg := by
  have hmem : '/' ∈ arg := List.mem_of_mem_tail h
  have hword : ∀ p : String, Lib.Shell.IsLiteral p.toList → '/' ∉ p.toList →
      ¬ caseOf arg [p] = true := by
    intro p hp hslash hcase
    obtain ⟨q, hq, rfl⟩ := (Lib.Shell.matches_words (by simpa using hp)).1 hcase
    rw [List.mem_singleton.1 hq] at hmem
    exact hslash hmem
  rw [stageArg, if_neg (hword "" (by decide) (by decide)),
    if_neg (hword "@bootstrap" (by decide) (by decide))]
  refine if_congr keySquashfs_iff rfl (if_congr keyTarball_iff rfl ?_)
  exact if_congr suffixSquashfs_iff rfl rfl

/-- Before a slash at the end, there is no suffix. -/
theorem not_suffixSquashfs (h : ['/'] <:+ arg) : ¬ SuffixSquashfs arg := by
  obtain ⟨u, rfl⟩ := h
  rintro (⟨v, hv⟩ | ⟨v, hv⟩)
  · have hlast := congrArg List.getLast? hv
    simp at hlast
  · have hlast := congrArg List.getLast? hv
    simp at hlast

theorem suffix_tail (h : ['/'] <:+ arg) (htail : '/' ∈ arg.tail) : ['/'] <:+ arg.tail := by
  cases arg with
  | nil => exact absurd htail List.not_mem_nil
  | cons a s =>
    rcases List.suffix_cons_iff.1 h with heq | hsuffix
    · rw [← (List.cons.inj heq).2] at htail
      exact absurd htail List.not_mem_nil
    · exact hsuffix

theorem length_valueOf_le (s : CStr) : (valueOf s).length ≤ s.length := by
  rw [valueOf]
  split_ifs
  · exact (List.drop_sublist _ _).length_le.trans (List.dropWhile_sublist _).length_le
  · exact le_rfl

/-- A base uri leads to the image below it, unless it has a key. -/
theorem documentedWord_base (h : ['/'] <:+ arg.tail) :
    "low_tarball=".toList ++ baseImage env stageType arg = documentedWord env stageType arg ↔
      ¬ (KeySquashfs arg ∨ KeyTarball arg) := by
  have hslash : ['/'] <:+ arg := h.trans (List.tail_suffix arg)
  have hne : arg ≠ "none".toList := by
    rintro rfl
    revert hslash
    decide
  rw [documentedWord, if_neg hne]
  by_cases hsquashfs : KeySquashfs arg
  · rw [if_pos hsquashfs]
    exact iff_of_false (by simp) (not_not.2 (.inl hsquashfs))
  rw [if_neg hsquashfs]
  by_cases htarball : KeyTarball arg
  · rw [if_pos htarball]
    refine iff_of_false (fun heq => ?_) (not_not.2 (.inr htarball))
    -- the key is still there
    have hlen := congrArg List.length (List.append_cancel_left heq)
    have hle := length_valueOf_le arg
    simp only [baseImage, List.length_append, List.length_cons] at hlen
    omega
  · rw [if_neg htarball, if_neg (not_suffixSquashfs hslash), if_pos hslash]
    exact iff_of_true rfl fun hkey => hkey.elim hsquashfs htarball

/-- A uri that is no base uri. -/
theorem documentedWord_uri (h : '/' ∈ arg.tail) (hbase : ¬ ['/'] <:+ arg.tail) :
    stageArg arg = documentedWord env stageType arg := by
  have hne : arg ≠ "none".toList := by
    rintro rfl
    revert h
    decide
  have hslash : ¬ ['/'] <:+ arg := fun hslash => hbase (suffix_tail hslash h)
  rw [stageArg_uri h, documentedWord, if_neg hne, if_neg hslash, if_pos (List.mem_of_mem_tail h)]

/-- A name, or what is taken for one. -/
theorem documentedWord_name (hne : arg ≠ "none".toList) (h : '/' ∉ arg.tail) :
    "yes".toList = documentedWord env stageType arg ↔
      ¬ (KeySquashfs arg ∨ KeyTarball arg ∨ SuffixSquashfs arg ∨ arg.head? = some '/') := by
  rw [documentedWord, if_neg hne]
  by_cases hsquashfs : KeySquashfs arg
  · rw [if_pos hsquashfs]
    exact iff_of_false (by simp) (not_not.2 (.inl hsquashfs))
  rw [if_neg hsquashfs]
  by_cases htarball : KeyTarball arg
  · rw [if_pos htarball]
    exact iff_of_false (by simp) (not_not.2 (.inr (.inl htarball)))
  rw [if_neg htarball]
  by_cases hsuffix : SuffixSquashfs arg
  · rw [if_pos hsuffix]
    exact iff_of_false (by simp) (not_not.2 (.inr (.inr (.inl hsuffix))))
  rw [if_neg hsuffix]
  by_cases hhead : arg.head? = some '/'
  · refine iff_of_false ?_ (not_not.2 (.inr (.inr (.inr hhead))))
    rw [if_pos (List.mem_of_mem_head? hhead)]
    split_ifs <;> simp
  · have hslash : '/' ∉ arg := by
      cases arg with
      | nil => exact List.not_mem_nil
      | cons a s =>
        intro hmem
        rcases List.mem_cons.1 hmem with rfl | hmem
        · exact hhead rfl
        · exact h hmem
    rw [if_neg fun hsuf => hslash (hsuf.subset List.mem_cons_self), if_neg hslash]
    refine iff_of_true rfl ?_
    rintro (hkey | hkey | hkey | hkey)
    · exact hsquashfs hkey
    · exact htarball hkey
    · exact hsuffix hkey
    · exact hhead hkey

/-- **The word that an argument leads to** is the documented one unless the argument is
    misread. -/
theorem stageFile_spec (h : stageFile env stageType arg = some (file, autoset)) :
    stageArg file = documentedWord env stageType arg ↔ ¬ MisreadArg stageType arg := by
  rw [stageFile] at h
  by_cases hn : caseOf arg ["none"] = true
  · rw [if_pos hn] at h
    obtain ⟨rfl, -⟩ := Prod.mk.inj (Option.some.inj h)
    obtain rfl := none_iff.1 hn
    refine iff_of_true rfl ?_
    rintro (⟨-, hslash, -⟩ | ⟨-, -, hkey⟩)
    · revert hslash
      decide
    · revert hkey
      decide
  rw [if_neg hn] at h
  have hne : arg ≠ "none".toList := mt none_iff.2 hn
  by_cases hbase : caseOf arg ["?*/"] = true
  · -- a base uri, for a Gentoo stage
    rw [if_pos hbase] at h
    split_ifs at h with htype
    obtain ⟨rfl, -⟩ := Prod.mk.inj (Option.some.inj h)
    have hbase := base_iff.1 hbase
    have htail : '/' ∈ arg.tail := hbase.subset List.mem_cons_self
    have hfile : "tarball=".toList ++ arg ++ '/' :: withoutPrefix "gentoo-".toList stageType ++
        '-' :: env.altArch ++ ".tar.bz2".toList =
          "tarball=".toList ++ baseImage env stageType arg := by
      simp only [baseImage, List.append_assoc, List.cons_append]
    rw [hfile, stageArg_tarball, documentedWord_base hbase, not_iff_not]
    constructor
    · intro hkey
      exact .inl ⟨gentooStage_iff.1 htype, hbase.trans (List.tail_suffix arg), hkey⟩
    · rintro (⟨-, -, hkey⟩ | ⟨-, hnot, -⟩)
      · exact hkey
      · exact absurd htail hnot
  rw [if_neg hbase] at h
  by_cases hinner : caseOf arg ["?*/?*"] = true
  · rw [if_pos hinner] at h
    obtain ⟨rfl, -⟩ := Prod.mk.inj (Option.some.inj h)
    have htail := slash_tail_iff.2 (.inr hinner)
    have hnot : ¬ ['/'] <:+ arg.tail := mt base_iff.2 hbase
    refine iff_of_true (documentedWord_uri htail hnot) ?_
    rintro (⟨-, hslash, -⟩ | ⟨-, hout, -⟩)
    · exact hnot (suffix_tail hslash htail)
    · exact hout htail
  rw [if_neg hinner] at h
  -- a name, or what is taken for one
  have htail : '/' ∉ arg.tail := fun hmem => (slash_tail_iff.1 hmem).elim hbase hinner
  have hfile : file = "@bootstrap".toList ∧
      (stageType = "gentoo-stage3".toList ∨ "archstrap".toList <+: stageType) := by
    by_cases hs : caseOf stageType ["gentoo-stage3"] = true
    · rw [if_pos hs] at h
      exact ⟨(Prod.mk.inj (Option.some.inj h)).1.symm, .inl (gentooStage3_iff.1 hs)⟩
    rw [if_neg hs] at h
    by_cases ha : caseOf stageType ["archstrap*"] = true
    · rw [if_pos ha] at h
      exact ⟨(Prod.mk.inj (Option.some.inj h)).1.symm, .inr (archstrap_iff.1 ha)⟩
    · rw [if_neg ha] at h
      cases h
  obtain ⟨rfl, htype⟩ := hfile
  rw [stageArg_bootstrap, documentedWord_name hne htail, not_iff_not]
  constructor
  · intro hkey
    exact .inr ⟨htype, htail, hkey⟩
  · rintro (⟨-, hslash, hkey⟩ | ⟨-, -, hkey⟩)
    · exact hkey.elim .inl fun hkey => .inr (.inl hkey)
    · exact hkey

/-- An argument that is misread is accepted. -/
theorem stageFile_of_misread (hmis : MisreadArg stageType arg) :
    ∃ file autoset, stageFile env stageType arg = some (file, autoset) := by
  rw [stageFile]
  by_cases hn : caseOf arg ["none"] = true
  · exact ⟨[], [], if_pos hn⟩
  rw [if_neg hn]
  rcases hmis with ⟨htype, hslash, hkey⟩ | ⟨htype, htail, -⟩
  · have hbase : ['/'] <:+ arg.tail := by
      cases arg with
      | nil => exact absurd (hslash.subset List.mem_cons_self) List.not_mem_nil
      | cons a s =>
        rcases List.suffix_cons_iff.1 hslash with heq | hsuffix
        · rw [← heq] at hkey
          exact absurd hkey (by decide)
        · exact hsuffix
    rw [if_pos (base_iff.2 hbase), if_pos (gentooStage_iff.2 htype)]
    exact ⟨_, _, rfl⟩
  · rw [if_neg fun hbase => htail (slash_tail_iff.2 (.inl hbase)),
      if_neg fun hinner => htail (slash_tail_iff.2 (.inr hinner))]
    by_cases hs : caseOf stageType ["gentoo-stage3"] = true
    · exact ⟨_, _, if_pos hs⟩
    · have harchstrap := htype.resolve_left fun h => hs (gentooStage3_iff.2 h)
      rw [if_neg hs, if_pos (archstrap_iff.2 harchstrap)]
      exact ⟨_, _, rfl⟩

end

/-! ## Values -/

section
variable {env : StagediveEnv} {value : CStr}

theorem splitStagedive_of_comma (h : ',' ∈ value) :
    splitStagedive value = (afterFirst [','] value, beforeFirst [','] value) := by
  rw [splitStagedive, if_pos ((Lib.Shell.matches_char (by decide) rfl).2 h)]

theorem splitStagedive_of_no_comma (h : ',' ∉ value) :
    splitStagedive value = documentedSplit value := by
  have hcomma : ¬ caseOf value ["*,*"] = true := mt (Lib.Shell.matches_char (by decide) rfl).1 h
  rw [splitStagedive, documentedSplit, if_neg hcomma, if_neg h]
  exact if_congr (Lib.Shell.matches_char (by decide) rfl) rfl rfl

/-- **The type and the argument** are the documented ones if there is no comma, or if they
    are the same text. -/
theorem splitStagedive_documented_iff :
    (unaliasStageType (splitStagedive value).1, (splitStagedive value).2) =
        (unaliasStageType (documentedSplit value).1, (documentedSplit value).2) ↔
      (',' ∈ value → beforeFirst [','] value = afterFirst [','] value) := by
  by_cases hcomma : ',' ∈ value
  · rw [splitStagedive_of_comma hcomma, documentedSplit, if_pos hcomma]
    constructor
    · intro h _
      exact (Prod.mk.inj h).2
    · intro h
      rw [h hcomma]
  · rw [splitStagedive_of_no_comma hcomma]
    exact iff_of_true rfl fun h => absurd h hcomma

/-- **A value is read as documented** exactly if the texts around its first comma are the
    same, and its argument is not misread. -/
theorem readsDocumented_iff (env : StagediveEnv) (value : CStr) : ReadsDocumented env value ↔
    (env.isProfile (unaliasStageType (documentedSplit value).1) = true → ',' ∈ value →
      beforeFirst [','] value = afterFirst [','] value) ∧
    (env.isProfile (unaliasStageType (splitStagedive value).1) = true →
      ¬ MisreadArg (unaliasStageType (splitStagedive value).1) (splitStagedive value).2) := by
  rw [ReadsDocumented, splitStagedive_documented_iff]
  refine and_congr Iff.rfl ?_
  constructor
  · intro h hprofile hmis
    obtain ⟨file, autoset, hfile⟩ := stageFile_of_misread hmis
    refine (stageFile_spec hfile).1 (h _ _ autoset _ ?_) hmis
    rw [readStagedive, if_pos hprofile, hfile]
    rfl
  · intro h stageType arg autoset word hread
    rw [readStagedive] at hread
    split_ifs at hread with hprofile
    obtain ⟨⟨file, autoset'⟩, hfile, heq⟩ := Option.map_eq_some_iff.1 hread
    simp only [Prod.mk.injEq] at heq
    obtain ⟨rfl, rfl, rfl, rfl⟩ := heq
    exact (stageFile_spec hfile).2 (h hprofile)

end

/-- **The type and the argument are swapped**: the documented form is not accepted, and the
    other order is. -/
theorem type_arg_swapped :
    documentedSplit "gentoo-stage3,http://srv/a.sfs".toList =
      ("gentoo-stage3".toList, "http://srv/a.sfs".toList) ∧
    readStagedive gentooEnv "gentoo-stage3,http://srv/a.sfs".toList = none ∧
    readStagedive gentooEnv "http://srv/a.sfs,gentoo-stage3".toList =
      some ("gentoo-stage3".toList, "http://srv/a.sfs".toList, [], "file=http://srv/a.sfs".toList) ∧
    ¬ ReadsDocumented gentooEnv "gentoo-stage3,http://srv/a.sfs".toList := by
  refine ⟨by decide, by decide, by decide, ?_⟩
  rintro ⟨h, -⟩
  exact absurd (h (by decide)) (by decide)

end Fischstaebchen
