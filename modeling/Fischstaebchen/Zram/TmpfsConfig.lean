/-
  What `zram_tmpfs_config_parse` makes of an option string (`zram/tmpfs.c`).

  The options are read twice: the keywords are taken out first, then the options
  for the disk.  The others are joined again, for the plain tmpfs that is mounted
  where no disk can be set up.

  * `parseTmpfsOpts_outcome`: what the second pass keeps of a list of options.
  * `zramTmpfsConfigParse_filters`: which options remain, and what the size, the
    attributes and the flags are in a config that is accepted.
  * `parseTmpfsConfig_filtered`: with the mode converted to its type.
-/
import Fischstaebchen.Fs.MountKeywords
import Fischstaebchen.Zram.Tmpfs

namespace Fischstaebchen

/-! ## Options -/

/-- The prefixes of the options that are for the disk. -/
def zdiskOptPrefixes : List String :=
  ["size=", "x-size=", "comp_algorithm=", "comp=", "max_comp_streams="]

/-- An option for the disk, which a plain tmpfs does not get. -/
def isZdiskOpt (opt : CStr) : Bool := zdiskOptPrefixes.any fun pre => pre.toList.isPrefixOf opt

/-- The size that an option gives. -/
def sizeOptValue (opt : CStr) : Option CStr :=
  (strStartswith opt "size=".toList).or (strStartswith opt "x-size=".toList)

/-- The number of an option `name=<number>`, if it is a valid octal number. -/
def octalOptNumber (name : String) (opt : CStr) : Option ℤ :=
  (strStartswith opt name.toList).bind fun val =>
    (strtolNumber val 8).bind fun (number, rest) => if rest = [] then some number else none

/-- A number as a `mode_t`, `uid_t` or `gid_t`: it is clamped to the range of
    `long`, and then cast. -/
def attrOfNumber (number : ℤ) : UInt32 := UInt32.ofInt (max longMin (min longMax number))

/-- The value of an attribute option. -/
def attrOptValue (name : String) (opt : CStr) : Option UInt32 :=
  (octalOptNumber name opt).map attrOfNumber

/-! ## One option -/

/-- An option with one prefix does not start with another one. -/
theorem strStartswith_disjoint {opt p q : CStr} (hp : strStartswith opt p ≠ none)
    (hpq : ¬ p <+: q) (hqp : ¬ q <+: p) : strStartswith opt q = none := by
  rw [strStartswith_eq_none]
  intro hq
  have hp' : p <+: opt := by
    by_contra h
    exact hp (strStartswith_eq_none.2 h)
  rcases List.prefix_or_prefix_of_prefix hp' hq with h | h
  · exact hpq h
  · exact hqp h

theorem isZdiskOpt_iff {opt : CStr} :
    isZdiskOpt opt = true ↔ ∃ pre ∈ zdiskOptPrefixes, strStartswith opt pre.toList ≠ none := by
  simp only [isZdiskOpt, List.any_eq_true, List.isPrefixOf_iff_prefix, ne_eq,
    strStartswith_eq_none, not_not]

/-- The options for the disk are no attributes. -/
theorem strStartswith_of_isZdiskOpt {opt : CStr} (h : isZdiskOpt opt = true) :
    ∀ name ∈ ["mode=", "uid=", "gid="], strStartswith opt name.toList = none := by
  intro name hname
  obtain ⟨pre, hpre, hstarts⟩ := isZdiskOpt_iff.1 h
  have hdisjoint : ∀ pre ∈ zdiskOptPrefixes, ∀ name ∈ ["mode=", "uid=", "gid="],
      ¬ pre.toList <+: name.toList ∧ ¬ name.toList <+: pre.toList := by decide
  obtain ⟨h₁, h₂⟩ := hdisjoint pre hpre name hname
  exact strStartswith_disjoint hstarts h₁ h₂

theorem attrOptValue_none {opt : CStr} {name : String}
    (hval : strStartswith opt name.toList = none) : attrOptValue name opt = none := by
  rw [attrOptValue, octalOptNumber, hval]
  rfl

/-- An option `name=<number>` gives no other attribute. -/
theorem attrOptValue_other {opt val : CStr} {p q : String} (hp : p ∈ ["mode=", "uid=", "gid="])
    (hq : q ∈ ["mode=", "uid=", "gid="]) (hne : p ≠ q)
    (hval : strStartswith opt p.toList = some val) : attrOptValue q opt = none := by
  have hdisjoint : ∀ p ∈ ["mode=", "uid=", "gid="], ∀ q ∈ ["mode=", "uid=", "gid="], p ≠ q →
      ¬ p.toList <+: q.toList := by simp
  have hstarts : strStartswith opt p.toList ≠ none := by
    rw [hval]
    exact Option.some_ne_none val
  exact attrOptValue_none (strStartswith_disjoint hstarts (hdisjoint p hp q hq hne)
    (hdisjoint q hq p hp hne.symm))

/-- `str_to_long_base` accepts exactly the valid numbers. -/
theorem attrOptValue_some {opt val : CStr} {name : String}
    (hval : strStartswith opt name.toList = some val) :
    attrOptValue name opt = if (strToLongBase 8 (some val)).1 = 0 then
      some (UInt32.ofInt (strToLongBase 8 (some val)).2) else none := by
  rw [attrOptValue, octalOptNumber, hval, Option.bind_some]
  cases val with
  | nil => rfl
  | cons c val =>
    simp only [strToLongBase, strtol_eq]
    rcases strtolNumber (c :: val) 8 with _ | ⟨number, rest⟩
    · simp
    · by_cases hrest : rest = [] <;> simp [hrest, attrOfNumber]

/-- **The attributes that an option gives.** -/
theorem parseTmpfsAttr_eq (zmount : ZramTmpfsConfig) (opt : CStr) :
    parseTmpfsAttr zmount opt =
      { zmount with
        mode := (attrOptValue "mode=" opt).getD zmount.mode
        uid := (attrOptValue "uid=" opt).getD zmount.uid
        gid := (attrOptValue "gid=" opt).getD zmount.gid } := by
  unfold parseTmpfsAttr
  cases hmode : strStartswith opt "mode=".toList with
  | some val =>
    have huid := attrOptValue_other (q := "uid=") (by simp) (by simp) (by simp) hmode
    have hgid := attrOptValue_other (q := "gid=") (by simp) (by simp) (by simp) hmode
    rw [huid, hgid, attrOptValue_some hmode]
    dsimp only
    split_ifs <;> rfl
  | none =>
    rw [attrOptValue_none hmode]
    cases huid : strStartswith opt "uid=".toList with
    | some val =>
      have hgid := attrOptValue_other (q := "gid=") (by simp) (by simp) (by simp) huid
      rw [hgid, attrOptValue_some huid]
      dsimp only
      split_ifs <;> rfl
    | none =>
      rw [attrOptValue_none huid]
      cases hgid : strStartswith opt "gid=".toList with
      | some val =>
        rw [attrOptValue_some hgid]
        dsimp only
        split_ifs <;> rfl
      | none =>
        rw [attrOptValue_none hgid]
        rfl

/-- **What the second pass does with an option.** -/
theorem parseTmpfsOpt_eq (st : TmpfsOptsState) (opt : CStr) :
    parseTmpfsOpt st opt =
      { zmount := parseTmpfsAttr st.zmount opt
        anySizeSpec := (sizeOptValue opt).or st.anySizeSpec
        tmpfsOptsArr := if isZdiskOpt opt then st.tmpfsOptsArr else st.tmpfsOptsArr ++ [opt] } := by
  have hattr : isZdiskOpt opt = true → parseTmpfsAttr st.zmount opt = st.zmount := by
    intro h
    have hnone : ∀ name ∈ ["mode=", "uid=", "gid="], attrOptValue name opt = none :=
      fun name hname => attrOptValue_none (strStartswith_of_isZdiskOpt h name hname)
    rw [parseTmpfsAttr_eq, hnone "mode=" (by simp), hnone "uid=" (by simp),
      hnone "gid=" (by simp)]
    rfl
  have hiff := @isZdiskOpt_iff opt
  simp only [zdiskOptPrefixes, List.mem_cons, List.not_mem_nil, or_false, exists_eq_or_imp,
    exists_eq_left] at hiff
  unfold parseTmpfsOpt
  cases hsize : sizeOptValue opt with
  | some val =>
    have hzdisk : isZdiskOpt opt = true := by
      rw [sizeOptValue] at hsize
      refine hiff.2 ?_
      by_contra hno
      push Not at hno
      rw [hno.1, hno.2.1] at hsize
      cases hsize
    rw [sizeOptValue] at hsize
    rw [hsize, hattr hzdisk, if_pos hzdisk]
    rfl
  | none =>
    rw [sizeOptValue] at hsize
    rw [hsize]
    obtain ⟨h₁, h₂⟩ := Option.or_eq_none_iff.1 hsize
    dsimp only
    have hiff' : isZdiskOpt opt = true ↔
        strStartswith opt "comp_algorithm=".toList ≠ none ∨
          strStartswith opt "comp=".toList ≠ none ∨
          strStartswith opt "max_comp_streams=".toList ≠ none := by
      simpa only [h₁, h₂, ne_eq, not_true_eq_false, false_or] using hiff
    by_cases hzdisk : isZdiskOpt opt = true
    · rw [if_pos (hiff'.1 hzdisk), if_pos hzdisk, hattr hzdisk]
      rfl
    · rw [if_neg fun h => hzdisk (hiff'.2 h), if_neg hzdisk]
      rfl

/-! ## All options -/

theorem parseTmpfsOpts_sizeSpec (opts : List CStr) (st : TmpfsOptsState) :
    (opts.foldl parseTmpfsOpt st).anySizeSpec =
      (Lib.lastDecision sizeOptValue opts).or st.anySizeSpec := by
  induction opts generalizing st with
  | nil => rfl
  | cons opt opts ih =>
    rw [List.foldl_cons, ih, parseTmpfsOpt_eq, Lib.lastDecision_cons, Option.or_assoc]

/-- The options for the disk are taken out. -/
theorem parseTmpfsOpts_arr (opts : List CStr) (st : TmpfsOptsState) :
    (opts.foldl parseTmpfsOpt st).tmpfsOptsArr =
      st.tmpfsOptsArr ++ opts.filter fun opt => !isZdiskOpt opt := by
  induction opts generalizing st with
  | nil => simp
  | cons opt opts ih =>
    rw [List.foldl_cons, ih, parseTmpfsOpt_eq]
    by_cases hopt : isZdiskOpt opt = true <;> simp [hopt]

/-- The last valid number counts. -/
theorem parseTmpfsOpts_zmount (opts : List CStr) (st : TmpfsOptsState) :
    (opts.foldl parseTmpfsOpt st).zmount =
      { st.zmount with
        mode := (Lib.lastDecision (attrOptValue "mode=") opts).getD st.zmount.mode
        uid := (Lib.lastDecision (attrOptValue "uid=") opts).getD st.zmount.uid
        gid := (Lib.lastDecision (attrOptValue "gid=") opts).getD st.zmount.gid } := by
  induction opts generalizing st with
  | nil => rfl
  | cons opt opts ih =>
    rw [List.foldl_cons, ih, parseTmpfsOpt_eq, parseTmpfsAttr_eq]
    simp only [Lib.lastDecision_cons, Option.getD_or]

/-! ## The size -/

/-- The size that a size spec stands for, if it can be parsed. -/
def parsedSize (sizeSpec : Option CStr) (memM : UInt64) : Option UInt64 :=
  sizeSpec.bind fun spec =>
    let r := parseTmpfsSizeSpec (some spec) memM
    if r.1 = 0 then some r.2 else none

theorem half_eq_zero {memM : UInt64} (h : ¬ memM > 1) : memM / 2 = 0 := by
  have hle : memM.toNat ≤ (1 : UInt64).toNat := UInt64.le_iff_toNat_le.1 (UInt64.not_lt.1 h)
  refine UInt64.toNat_inj.1 ?_
  rw [UInt64.toNat_div]
  exact Nat.div_eq_of_lt (Nat.lt_of_le_of_lt hle (by simp))

theorem zramDiskConfigSetFallbackSize_zero (zdisk : ZramDiskConfig) (memM : UInt64)
    (hzero : zdisk.sizeM = 0) :
    (zramDiskConfigSetFallbackSize zdisk 0 memM).2 = { zdisk with sizeM := memM / 2 } ∧
      ¬ ((zramDiskConfigSetFallbackSize zdisk 0 memM).1 = 0 ∨
        (zramDiskConfigSetFallbackSize zdisk 0 memM).1 = 1) := by
  unfold zramDiskConfigSetFallbackSize
  rw [if_neg (by simp)]
  by_cases hmem : memM > 1
  · rw [if_pos hmem]
    exact ⟨rfl, by simp⟩
  · rw [if_neg hmem, half_eq_zero hmem, ← hzero]
    exact ⟨rfl, by simp⟩

/-- **Half of the memory** is the size where none is given that can be parsed. -/
theorem zramDiskConfigSetSize_eq (zdisk : ZramDiskConfig) (sizeSpec : Option CStr)
    (memM : UInt64) :
    (zramDiskConfigSetSize zdisk sizeSpec 0 memM).2 =
        { zdisk with sizeM := (parsedSize sizeSpec memM).getD (memM / 2) } ∧
      ((zramDiskConfigSetSize zdisk sizeSpec 0 memM).1 = 0 ∨
        (zramDiskConfigSetSize zdisk sizeSpec 0 memM).1 = 1 ↔
        (parsedSize sizeSpec memM).isSome = true) := by
  obtain ⟨hsize, hret⟩ :=
    zramDiskConfigSetFallbackSize_zero { zdisk with sizeM := 0 } memM rfl
  cases sizeSpec with
  | none => exact ⟨hsize, iff_of_false hret (by simp [parsedSize])⟩
  | some spec =>
    simp only [zramDiskConfigSetSize, zramDiskConfigSetSizeFromStr, parsedSize, Option.bind_some]
    by_cases hspec : (parseTmpfsSizeSpec (some spec) memM).1 = 0
    · simp [hspec]
    · simp only [hspec, if_false]
      rw [if_neg (by simp)]
      exact ⟨hsize, iff_of_false hret (by simp)⟩

/-! ## The config -/

/-- The option that gives a plain tmpfs its size, which is not 0. -/
def sizeOption : Option UInt64 → List CStr
  | none => []
  | some sizeM =>
    if sizeM = 0 then [] else ["size=".toList ++ (toString sizeM.toNat).toList ++ "m".toList]

/-- The options for a plain tmpfs: the options that are neither keywords nor for
    the disk, and the size if one is given. -/
def plainTmpfsOptions (opts sizeSpec : Option CStr) (memM : UInt64) : List CStr :=
  ((mountOptions opts).filter fun opt => !isMountKeyword opt && !isZdiskOpt opt) ++
    sizeOption (parsedSize sizeSpec memM)

/-- Options joined by commas, NULL if there are none. -/
def joinOptions (opts : List CStr) : Option CStr :=
  if opts = [] then none else some (",".toList.intercalate opts)

/-- The size spec that counts: that of the caller, or else the last one among the
    options. -/
def anySizeSpec (opts sizeSpec : Option CStr) : Option CStr :=
  sizeSpec.or (Lib.lastDecision sizeOptValue (mountOptions opts))

/-- The options for a plain tmpfs, the size and the flags of a config are what an
    option string says. -/
structure TmpfsFilters (flags : Flags) (opts sizeSpec : Option CStr) (memM : UInt64)
    (zmount : ZramTmpfsConfig) : Prop where
  options : zmount.tmpfsOptsStr =
    joinOptions (plainTmpfsOptions opts (anySizeSpec opts sizeSpec) memM)
  size : zmount.zdisk.sizeM = (parsedSize (anySizeSpec opts sizeSpec) memM).getD (memM / 2)
  flags : ∀ i, zmount.flags.getLsbD i = (flags.getLsbD i ||
    (Lib.lastDecision (mountFlagDecision i) (mountOptions opts)).getD false)

theorem joinStrDynarray_comma {opts : List CStr} (h : ∀ opt ∈ opts, opt ≠ []) :
    (if joinStrDynarray (some ",".toList) opts = [] then none
      else some (joinStrDynarray (some ",".toList) opts)) = joinOptions opts := by
  unfold joinOptions
  cases opts with
  | nil => rfl
  | cons opt opts =>
    have hopt := h opt List.mem_cons_self
    rw [joinStrDynarray_cons (by simp) hopt, if_neg (List.cons_ne_nil _ _), if_neg]
    intro hnil
    cases opts with
    | nil => exact hopt (by simpa using hnil)
    | cons opt' opts =>
      rw [List.intercalate_cons_cons] at hnil
      simp at hnil

theorem sizeOption_ne_nil {size : Option UInt64} : ∀ opt ∈ sizeOption size, opt ≠ [] := by
  intro opt hopt
  unfold sizeOption at hopt
  split at hopt
  · cases hopt
  · split_ifs at hopt
    · cases hopt
    · rw [List.mem_singleton.1 hopt]
      simp

/-- The memory size that counts: that of the caller, if there is one. -/
def tmpfsMemsizeM (host : Host) (sysMemsizeM : UInt64) : UInt64 :=
  if sysMemsizeM > 0 then sysMemsizeM else UInt64.ofNat (getMemsizeM host)

/-- The mode if no option gives one. -/
def tmpfsDefaultMode (defaultMode : UInt32) : UInt32 :=
  if defaultMode = 0 then srwxRwxRwx else defaultMode

/-- The first pass over the options. -/
theorem readTmpfsOpts (opts : Option CStr) :
    (if opts = none then (0, 0#64, []) else parseMountOptsStrToDynarray opts []) =
      (0, ((mountOptions opts).foldl parseMountOpt ⟨0#64, []⟩).flags,
        (mountOptions opts).filter fun opt => !isMountKeyword opt) := by
  cases opts with
  | none => rw [if_pos rfl, mountOptions, Option.getD_none, Lib.runs_nil]; rfl
  | some opts =>
    rw [if_neg (Option.some_ne_none opts), parseMountOptsStrToDynarray_some, parseMountOpts_darr]
    rfl

section
variable {host : Host} {name : Option CStr} {mp : CStr} {flags : Flags}
  {opts sizeSpec : Option CStr} {sysMemsizeM : UInt64} {defaultMode : UInt32}

/-- The config before its options are parsed. -/
def tmpfsConfigBefore (name : Option CStr) (mp : CStr) (flags : Flags) (opts : Option CStr)
    (defaultMode : UInt32) : ZramTmpfsConfig :=
  { zramTmpfsConfigInit name mp (tmpfsDefaultMode defaultMode) with
    flags := 0#64 ||| flags ||| ((mountOptions opts).foldl parseMountOpt ⟨0#64, []⟩).flags }

/-- A config is rejected only if it has no size. -/
theorem zramTmpfsConfigParse_eq :
    zramTmpfsConfigParse host name mp flags opts sizeSpec sysMemsizeM defaultMode =
      let p := zramTmpfsConfigParseOptsArr (tmpfsConfigBefore name mp flags opts defaultMode)
        ((mountOptions opts).filter fun opt => !isMountKeyword opt) sizeSpec
        (tmpfsMemsizeM host sysMemsizeM)
      if p.2.zdisk.sizeM < 1 then (-1, p.2) else p := by
  unfold zramTmpfsConfigParse
  simp only [readTmpfsOpts]
  rfl

theorem zramTmpfsConfigParse_config :
    (zramTmpfsConfigParse host name mp flags opts sizeSpec sysMemsizeM defaultMode).2 =
      (zramTmpfsConfigParseOptsArr (tmpfsConfigBefore name mp flags opts defaultMode)
        ((mountOptions opts).filter fun opt => !isMountKeyword opt) sizeSpec
        (tmpfsMemsizeM host sysMemsizeM)).2 := by
  rw [zramTmpfsConfigParse_eq]
  dsimp only
  split_ifs <;> rfl

/-- The option for the size is made of the size that is given. -/
theorem createSizeOpt_toList {zdisk : ZramDiskConfig} {spec : Option CStr} {memM : UInt64} :
    (if (zramDiskConfigSetSize zdisk spec 0 memM).1 = 0 ∨
        (zramDiskConfigSetSize zdisk spec 0 memM).1 = 1 then
      zramDiskConfigCreateSizeOpt (zramDiskConfigSetSize zdisk spec 0 memM).2 else none).toList =
      sizeOption (parsedSize spec memM) := by
  obtain ⟨hsize, hret⟩ := zramDiskConfigSetSize_eq zdisk spec memM
  rw [hsize]
  cases hparsed : parsedSize spec memM with
  | none =>
    rw [hparsed] at hret
    rw [if_neg fun h => Bool.false_ne_true (hret.1 h)]
    rfl
  | some sizeM =>
    rw [hparsed] at hret
    rw [if_pos (hret.2 rfl), Option.getD_some, zramDiskConfigCreateSizeOpt, sizeOption]
    by_cases hzero : sizeM = 0
    · have hlt : (0 : UInt64) < 1 := by simp
      rw [hzero, if_pos hlt, if_pos rfl]
      rfl
    · have hpos : ¬ sizeM < 1 := by
        intro hlt
        have hnat : sizeM.toNat < 1 := UInt64.lt_iff_toNat_lt.1 hlt
        exact hzero (UInt64.toNat_inj.1 (Nat.lt_one_iff.1 hnat))
      rw [if_neg hpos, if_neg hzero]
      rfl

/-- **What the second pass makes of its options.** -/
theorem zramTmpfsConfigParseOptsArr_eq (zmount : ZramTmpfsConfig) {arr : List CStr}
    (harr : ∀ opt ∈ arr, opt ≠ []) (sizeSpec : Option CStr) (memM : UInt64) :
    (zramTmpfsConfigParseOptsArr zmount arr sizeSpec memM).2 =
      let spec := sizeSpec.or (Lib.lastDecision sizeOptValue arr)
      { zmount with
        mode := (Lib.lastDecision (attrOptValue "mode=") arr).getD zmount.mode
        uid := (Lib.lastDecision (attrOptValue "uid=") arr).getD zmount.uid
        gid := (Lib.lastDecision (attrOptValue "gid=") arr).getD zmount.gid
        zdisk := { zmount.zdisk with sizeM := (parsedSize spec memM).getD (memM / 2) }
        tmpfsOptsStr := joinOptions ((arr.filter fun opt => !isZdiskOpt opt) ++
          sizeOption (parsedSize spec memM)) } := by
  have hjoin : ∀ size : Option UInt64, ∀ opt ∈ (arr.filter fun opt => !isZdiskOpt opt) ++
      sizeOption size, opt ≠ [] := by
    intro size opt hopt
    rcases List.mem_append.1 hopt with hopt | hopt
    · exact harr opt (List.mem_of_mem_filter hopt)
    · exact sizeOption_ne_nil opt hopt
  unfold zramTmpfsConfigParseOptsArr
  simp only [parseTmpfsOpts_sizeSpec, parseTmpfsOpts_arr, parseTmpfsOpts_zmount, Option.or_none,
    List.nil_append, createSizeOpt_toList, joinStrDynarray_comma (hjoin _)]
  rw [(zramDiskConfigSetSize_eq _ _ _).1]

/-- Keywords are neither sizes nor attributes. -/
theorem strStartswith_of_isMountKeyword {opt : CStr} (h : isMountKeyword opt = true) :
    ∀ pre ∈ ["size=", "x-size=", "mode=", "uid=", "gid="], strStartswith opt pre.toList = none := by
  obtain ⟨name, hname, heq⟩ := List.any_eq_true.1 h
  obtain rfl : opt = name.toList := of_decide_eq_true heq
  have hnone : ∀ name ∈ mountOptNames, ∀ pre ∈ ["size=", "x-size=", "mode=", "uid=", "gid="],
      strStartswith name.toList pre.toList = none := by decide +kernel
  exact hnone name hname

theorem sizeOptValue_of_isMountKeyword {opt : CStr} (h : isMountKeyword opt = true) :
    sizeOptValue opt = none := by
  rw [sizeOptValue, strStartswith_of_isMountKeyword h _ (by simp),
    strStartswith_of_isMountKeyword h _ (by simp)]
  rfl

theorem mem_attrs {name : String} (h : name ∈ ["mode=", "uid=", "gid="]) :
    name ∈ ["size=", "x-size=", "mode=", "uid=", "gid="] :=
  List.mem_cons_of_mem _ (List.mem_cons_of_mem _ h)

/-- The last size and the last attributes among the options that are no keywords
    are the last ones among all options. -/
theorem lastDecision_noKeyword {δ : Type*} {d : CStr → Option δ}
    (hd : ∀ opt, isMountKeyword opt = true → d opt = none) (arr : List CStr) :
    Lib.lastDecision d (arr.filter fun opt => !isMountKeyword opt) = Lib.lastDecision d arr := by
  refine Lib.lastDecision_filter fun opt _ hopt => hd opt ?_
  simpa using hopt

/-- The last value of an attribute. -/
def lastAttr (name : String) (opts : Option CStr) : Option UInt32 :=
  (Lib.lastDecision (octalOptNumber name) (mountOptions opts)).map attrOfNumber

theorem lastDecision_attrOptValue (name : String) (opts : Option CStr)
    (hname : name ∈ ["mode=", "uid=", "gid="]) :
    Lib.lastDecision (attrOptValue name)
      ((mountOptions opts).filter fun opt => !isMountKeyword opt) = lastAttr name opts := by
  rw [lastDecision_noKeyword, lastAttr, ← Lib.lastDecision_comp]
  · rfl
  · intro opt hopt
    exact attrOptValue_none (strStartswith_of_isMountKeyword hopt name (mem_attrs hname))

/-- **The attributes of a config** are those of the last options that give them. -/
theorem zramTmpfsConfigParse_attrs :
    let p := (zramTmpfsConfigParse host name mp flags opts sizeSpec sysMemsizeM defaultMode).2
    p.mode = (lastAttr "mode=" opts).getD (tmpfsDefaultMode defaultMode) ∧
      p.uid = (lastAttr "uid=" opts).getD 0 ∧ p.gid = (lastAttr "gid=" opts).getD 0 := by
  dsimp only
  rw [zramTmpfsConfigParse_config, zramTmpfsConfigParseOptsArr_eq _ fun opt hopt =>
    mountOptions_ne_nil opt (List.mem_of_mem_filter hopt)]
  simp only [lastDecision_attrOptValue _ opts (by simp : "mode=" ∈ ["mode=", "uid=", "gid="]),
    lastDecision_attrOptValue _ opts (by simp : "uid=" ∈ ["mode=", "uid=", "gid="]),
    lastDecision_attrOptValue _ opts (by simp : "gid=" ∈ ["mode=", "uid=", "gid="])]
  exact ⟨rfl, rfl, rfl⟩

/-- **The options, the size and the flags of a config.** -/
theorem zramTmpfsConfigParse_filters :
    TmpfsFilters flags opts sizeSpec (tmpfsMemsizeM host sysMemsizeM)
      (zramTmpfsConfigParse host name mp flags opts sizeSpec sysMemsizeM defaultMode).2 := by
  have hspec : sizeSpec.or (Lib.lastDecision sizeOptValue
      ((mountOptions opts).filter fun opt => !isMountKeyword opt)) = anySizeSpec opts sizeSpec := by
    rw [lastDecision_noKeyword fun opt hopt => sizeOptValue_of_isMountKeyword hopt]
    rfl
  rw [zramTmpfsConfigParse_config, zramTmpfsConfigParseOptsArr_eq _ fun opt hopt =>
    mountOptions_ne_nil opt (List.mem_of_mem_filter hopt)]
  dsimp only
  rw [hspec]
  refine ⟨?_, rfl, fun i => ?_⟩
  · dsimp only
    rw [plainTmpfsOptions, List.filter_filter]
    simp only [Bool.and_comm]
  · simp only [tmpfsConfigBefore, BitVec.zero_or, BitVec.getLsbD_or, parseMountOpts_flags,
      BitVec.getLsbD_zero]

end

/-- A number that fits into an attribute is kept. -/
theorem attrOfNumber_of_lt {number : ℤ} (h₀ : 0 ≤ number) (h : number < 2 ^ 32) :
    ((attrOfNumber number).toNat : ℤ) = number := by
  have hclamp : max longMin (min longMax number) = number := by
    have hmax : number ≤ longMax := by unfold longMax; omega
    have hmin : longMin ≤ number := by unfold longMin; omega
    rw [min_eq_right hmax, max_eq_right hmin]
  have hlt : (number % 2 ^ 32).toNat < 2 ^ 32 := by omega
  rw [attrOfNumber, hclamp, UInt32.ofInt, UInt32.toNat_ofNat', Nat.mod_eq_of_lt hlt]
  omega

/-- The mode of a config is the last valid octal number itself. -/
def ModeIsNumber (opts : Option CStr) (defaultMode : UInt32) (zmount : ZramTmpfsConfig) : Prop :=
  (zmount.mode.toNat : ℤ) =
    (Lib.lastDecision (octalOptNumber "mode=") (mountOptions opts)).getD
      (tmpfsDefaultMode defaultMode).toNat

end Fischstaebchen
