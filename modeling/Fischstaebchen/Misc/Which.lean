/-
  Searching for a program (`common/misc/which.c`).

  All paths are written into one string, which is cut back to the prefix before the next
  search directory, and to the prefix with the directory and the name before the next
  extension.

  * `tryProgNameVariants_ensures`, `searchPathLoop_ensures`: what the loops look at and
    find, nothing of an earlier path being left.
  * `WhichQuery.locate_ensures`: a search for a name.
  * `searchesNaively_iff`: when it is the search through the directories and extensions
    in order.
-/
import Fischstaebchen.Fs.MountOptsAlloc
import Fischstaebchen.Lib.Path
import Fischstaebchen.Lib.Scan
import Fischstaebchen.Strutil.Split

namespace Fischstaebchen

open Lib

/-! ## The functions -/

/-- `WHICH_STATUS_FOUND_PROG`. -/
def whichStatusFoundProg : ℤ := 0

/-- `WHICH_STATUS_DID_NOT_FIND_PROG`. -/
def whichStatusDidNotFindProg : ℤ := 1

/-- `WHICH_STATUS_BAD_USAGE`. -/
def whichStatusBadUsage : ℤ := 2

/-- `DEFAULT_SEARCH_PATH_SEP`, and `DEFAULT_SEARCH_PATHEXT_SEP`. -/
def defaultSearchPathSep : List UInt8 := [0x3A]

/-- `'/'`. -/
def slash : UInt8 := 0x2F

/-- `str_split` into a new array: the return value and the fields. -/
def strSplitBytes (str sep : List UInt8) : ℤ × List (List UInt8) :=
  let r := strSplit [] (some (ofBytes str)) none (some (ofBytes sep)) (-1)
  (r.ret, r.darr.map toBytes)

/-- `_locate_program__init_pathext_arr`: the return code and, if there are any, the
    extensions. -/
def initPathextArr (pathextSep pathext : Option (List UInt8)) :
    Alloc (ℤ × Option (List (List UInt8))) :=
  if pathext.getD [] = [] then pure (0, none)
  else do
    let granted ← request
    if granted then
      let r := strSplitBytes (pathext.getD []) (pathextSep.getD defaultSearchPathSep)
      if r.1 < 0 then pure (-1, none)
      else pure (0, if r.2.length < 1 then none else some r.2)
    else pure (-1, none)

/-- `_locate_program__init_search_path_arr`. -/
def initSearchPathArr (searchPathSep : Option (List UInt8)) (searchPath : List UInt8) :
    Alloc (ℤ × List (List UInt8)) := do
  let granted ← request
  if granted then
    if searchPath = [] then pure (0, [])
    else
      let r := strSplitBytes searchPath (searchPathSep.getD defaultSearchPathSep)
      if r.1 < 0 then pure (-1, []) else pure (0, r.2)
  else pure (-1, [])

/-- The root is neither empty nor `/`. -/
def IsRootPrefix (root : List UInt8) : Prop :=
  root ≠ [] ∧ (root.drop 1 ≠ [] ∨ root.head? ≠ some slash)

instance (root : List UInt8) : Decidable (IsRootPrefix root) :=
  inferInstanceAs (Decidable (_ ∧ _))

/-- `_locate_program__init_fspath_dynstr`. -/
def initFspathDynstr (root : Option (List UInt8)) : Alloc (ℤ × DynstrData) := do
  let r ← dynstrDataInit 64
  if r.1 ≠ 0 then pure (-1, r.2)
  else if IsRootPrefix (root.getD []) then
    let r ← dynstrDataAppendStrSimple r.2 (root.getD [])
    if r.1 ≠ 0 then pure (-1, dynstrDataFree r.2)
    else
      let last ← defined (r.2.data.bind fun cells => cells.load (r.2.currentSize - 1))
      if last ≠ slash then
        let r ← dynstrDataAppendChar r.2 slash
        if r.1 ≠ 0 then pure (-1, dynstrDataFree r.2) else pure (0, r.2)
      else pure (0, r.2)
  else pure (0, r.2)

/-- The string of a search and the paths that `check_fs_exefile` was called with. -/
structure WhichState where
  fspathDstr : DynstrData
  tried : List (List UInt8)

/-- `current_size = n`. -/
def WhichState.cut (st : WhichState) (n : ℕ) : WhichState :=
  { st with fspathDstr := { st.fspathDstr with currentSize := n } }

/-- `check_fs_exefile`, for the string. -/
def checkFsExefile (isExefile : List UInt8 → Bool) (st : WhichState) :
    Alloc (Bool × WhichState) := do
  let fspath ← defined (st.fspathDstr.data.bind cstring)
  pure (isExefile fspath, { st with tried := st.tried ++ [fspath] })

/-- Appends a string and a terminator. -/
def appendTerminated (pdata : DynstrData) (str : List UInt8) : Alloc (ℤ × DynstrData) := do
  let r ← dynstrDataAppendStrSimple pdata str
  if r.1 ≠ 0 then pure (-1, r.2) else dynstrDataAppendNull r.2

section
variable (isExefile : List UInt8 → Bool)

/-- The loop over the extensions; `nameLenSav` is the saved length. -/
def tryPathexts (nameLenSav : ℕ) : List (List UInt8) → WhichState → Alloc (ℤ × WhichState)
  | [], st => pure (whichStatusDidNotFindProg, st)
  | pathext :: pathextV, st =>
    if pathext = [] then tryPathexts nameLenSav pathextV (st.cut nameLenSav)
    else do
      let r ← appendTerminated st.fspathDstr pathext
      if r.1 ≠ 0 then pure (-1, { st with fspathDstr := r.2 })
      else
        let r ← checkFsExefile isExefile { st with fspathDstr := r.2 }
        if r.1 then pure (whichStatusFoundProg, r.2)
        else tryPathexts nameLenSav pathextV (r.2.cut nameLenSav)

/-- `_locate_program__try_prog_name_variants`. -/
def tryProgNameVariants (pathextV : List (List UInt8)) (progName : List UInt8) (st : WhichState) :
    Alloc (ℤ × WhichState) := do
  let r ← appendTerminated st.fspathDstr progName
  if r.1 ≠ 0 then pure (-1, { st with fspathDstr := r.2 })
  else
    let r ← checkFsExefile isExefile { st with fspathDstr := r.2 }
    if r.1 then pure (whichStatusFoundProg, r.2)
    else tryPathexts isExefile r.2.fspathDstr.currentSize pathextV r.2

/-- `_locate_progam__abspath`. -/
def locateAbspath (pathextV : List (List UInt8)) (progName : List UInt8) (st : WhichState) :
    Alloc (ℤ × WhichState) :=
  let effProgName :=
    if st.fspathDstr.currentSize > 0 then progName.dropWhile (· == slash) else progName
  if effProgName = [] then pure (whichStatusBadUsage, st)
  else tryProgNameVariants isExefile pathextV effProgName st

/-- The loop of `_locate_progam__name_in_search_path`. -/
def searchPathLoop (prefixLen : ℕ) (pathextV : List (List UInt8)) (progName : List UInt8) :
    List (List UInt8) → WhichState → Alloc (ℤ × WhichState)
  | [], st => pure (whichStatusDidNotFindProg, st)
  | path :: pathV, st => do
    let path := if prefixLen > 0 then path.dropWhile (· == slash) else path
    if path = [] then searchPathLoop prefixLen pathextV progName pathV (st.cut prefixLen)
    else
      let r ← dynstrDataAppendStrSimple st.fspathDstr path
      if r.1 ≠ 0 then pure (-1, { st with fspathDstr := r.2 })
      else
        let r ← dynstrDataAppendChar r.2 slash
        if r.1 ≠ 0 then pure (-1, { st with fspathDstr := r.2 })
        else
          let r ← tryProgNameVariants isExefile pathextV progName { st with fspathDstr := r.2 }
          if r.1 = whichStatusFoundProg then pure (0, r.2)
          else if r.1 = whichStatusDidNotFindProg then
            searchPathLoop prefixLen pathextV progName pathV (r.2.cut prefixLen)
          else pure (-1, r.2)

/-- `_locate_progam__name_in_search_path`. -/
def nameInSearchPath (pathV pathextV : List (List UInt8)) (progName : List UInt8)
    (st : WhichState) : Alloc (ℤ × WhichState) :=
  searchPathLoop isExefile st.fspathDstr.currentSize pathextV progName pathV st

/-- The return value of `_locate_progam`, what it stores in `prog_path_out`, and the
    paths it tried. -/
structure WhichResult where
  ret : ℤ
  progPathOut : Option (Block UInt8)
  tried : List (List UInt8)

/-- The part of `_locate_progam` that must not return directly. -/
def locateIn (searchPathSep searchPath : Option (List UInt8)) (pathextV : List (List UInt8))
    (progName : List UInt8) (st : WhichState) : Alloc (ℤ × WhichState) :=
  if progName.head? = some slash then locateAbspath isExefile pathextV progName st
  else
    match searchPath with
    | none => pure (whichStatusBadUsage, st)
    | some searchPath =>
      if searchPath = [] then pure (whichStatusDidNotFindProg, st)
      else do
        let r ← initSearchPathArr searchPathSep searchPath
        if r.1 ≠ 0 then pure (-1, st) else nameInSearchPath isExefile r.2 pathextV progName st

/-- `_locate_progam`; `wantsPath` if `prog_path_out` is not NULL. -/
def locateProgam (searchPathSep pathextSep searchPath pathext root progName : Option (List UInt8))
    (wantsPath : Bool) : Alloc WhichResult :=
  if progName.getD [] = [] then pure ⟨whichStatusBadUsage, none, []⟩
  else do
    let dstr ← initFspathDynstr root
    if dstr.1 ≠ 0 then pure ⟨-1, none, []⟩
    else
      let pathextArr ← initPathextArr pathextSep pathext
      if pathextArr.1 ≠ 0 then pure ⟨-1, none, []⟩
      else
        let r ← locateIn isExefile searchPathSep searchPath (pathextArr.2.getD [])
          (progName.getD []) ⟨dstr.2, []⟩
        let progPathOut := if r.1 = whichStatusFoundProg ∧ wantsPath then
          (dynstrDataUnref r.2.fspathDstr).1 else none
        pure ⟨r.1, progPathOut, r.2.tried⟩

end

/-! ## The loops -/

/-- The string is `l`, and terminated. -/
structure DynstrData.Terminated (d : DynstrData) (l : List UInt8) : Prop where
  holds : d.Holds l
  cstring : d.data.bind Fischstaebchen.cstring = some l

/-- How a search through `paths` with the string at `l` ends, unless it is refused memory. -/
def SearchEnds (refuses : Prop) (isExefile : List UInt8 → Bool) (paths : List (List UInt8))
    (l : List UInt8) (tried : List (List UInt8)) (r : ℤ × WhichState) : Prop :=
  (refuses ∧ r.1 = -1) ∨ r.2.tried = tried ++ upTo isExefile paths ∧
    ((∃ path, paths.find? isExefile = some path ∧ r.1 = whichStatusFoundProg ∧
        r.2.fspathDstr.data.bind cstring = some path) ∨
      (paths.find? isExefile = none ∧ r.1 = whichStatusDidNotFindProg ∧
        r.2.fspathDstr.Holds l))

/-- A search directory as it is appended to the prefix `l`. -/
def appendedDir (l path : List UInt8) : List UInt8 :=
  if l.length > 0 then path.dropWhile (· == slash) else path

/-- A directory that is searched. -/
def isAppended (l path : List UInt8) : Bool := appendedDir l path ≠ []

/-- A path as it is written into the string. -/
def writtenPath (l path progName pathext : List UInt8) : List UInt8 :=
  l ++ appendedDir l path ++ [slash] ++ progName ++ pathext

section
variable {refuses : Prop} {isExefile : List UInt8 → Bool} {d : DynstrData} {st : WhichState}
  {l l' path s : List UInt8} {paths paths' tried : List (List UInt8)} {r : ℤ × WhichState}

/-- Cutting the string back. -/
theorem DynstrData.Holds.truncate (h : d.Holds (l ++ l')) :
    DynstrData.Holds { d with currentSize := l.length } l where
  contents := by
    have htake := congrArg (List.take l.length) h.contents
    rw [DynstrData.contents, List.take_take, h.length, List.length_append,
      min_eq_left (Nat.le_add_right _ _), ← List.map_take, List.take_left' rfl] at htake
    exact htake
  length := rfl
  null hnone := by
    obtain ⟨hsize, hmax⟩ := h.null hnone
    rw [h.length, List.length_append] at hsize
    exact ⟨by dsimp only; omega, hmax⟩
  allocated := h.allocated
  unsized hmax := by
    have hsize := h.unsized hmax
    rw [h.length, List.length_append] at hsize
    dsimp only
    omega
  sized cells hcells hmax := by
    obtain ⟨hlen, hlt⟩ := h.sized cells hcells hmax
    rw [h.length, List.length_append] at hlt
    exact ⟨hlen, by dsimp only; omega⟩

theorem appendTerminated_ensures (h : d.Holds l) (hnul : 0 ∉ l ++ s)
    (hsize : (l ++ s).length + 1 < sizeMax / 4) :
    Ensures refuses (appendTerminated d s) (Outcome refuses fun d' => d'.Terminated (l ++ s)) := by
  have hs : l.length + s.length < sizeMax / 4 := by
    rw [List.length_append] at hsize
    omega
  refine Outcome.bind (dynstrDataAppendStrSimple_ensures h hs) (fun d₁ h₁ => ?_)
    fun hr => ensures_freed hr
  refine (dynstrDataAppendNull_ensures h₁ hsize).mono fun r hr => hr.imp fun d' hd' => ?_
  obtain ⟨h', cells, hcells, hload⟩ := hd'
  refine ⟨h', ?_⟩
  have htake : cells.take (l ++ s).length = (l ++ s).map some := by
    have := h'.contents
    rwa [DynstrData.contents, hcells, h'.length] at this
  rw [h'.length] at hload
  rw [hcells, Option.bind_some, cstring_eq htake hload hnul]

theorem checkFsExefile_ensures {Q : Bool × WhichState → Prop} (h : d.Terminated path)
    (hQ : Q (isExefile path, ⟨d, tried ++ [path]⟩)) :
    Ensures refuses (checkFsExefile isExefile ⟨d, tried⟩) Q := by
  refine Ensures.bind (ensures_defined h.cstring rfl) fun fspath heq => ?_
  subst heq
  exact Ensures.pure hQ

theorem searchEnds_nil (h : st.fspathDstr.Holds l) :
    SearchEnds refuses isExefile [] l st.tried (whichStatusDidNotFindProg, st) :=
  .inr ⟨(List.append_nil _).symm, .inr ⟨rfl, rfl, h⟩⟩

/-- The path is a hit. -/
theorem searchEnds_hit (h : d.Terminated path) (hpath : isExefile path = true) :
    SearchEnds refuses isExefile (path :: paths) l tried
      (whichStatusFoundProg, ⟨d, tried ++ [path]⟩) := by
  refine .inr ⟨?_, .inl ⟨path, List.find?_cons_of_pos hpath, rfl, h.cstring⟩⟩
  rw [upTo_cons_hit hpath]

/-- The path is none, and the search goes on. -/
theorem SearchEnds.miss (h : SearchEnds refuses isExefile paths l (tried ++ [path]) r)
    (hpath : isExefile path = false) :
    SearchEnds refuses isExefile (path :: paths) l tried r := by
  rcases h with hr | ⟨htried, hend⟩
  · exact .inl hr
  · refine .inr ⟨?_, ?_⟩
    · rw [htried, upTo_cons_miss hpath, List.append_assoc, List.singleton_append]
    · rwa [List.find?_cons_of_neg (by simp [hpath])]

/-- A search through some more paths, if there is no hit. -/
theorem SearchEnds.append (h : SearchEnds refuses isExefile paths' l' (tried ++ paths) r)
    (hmiss : paths.find? isExefile = none) :
    SearchEnds refuses isExefile (paths ++ paths') l' tried r := by
  have hany : paths.any isExefile = false := List.any_eq_false.2 (List.find?_eq_none.1 hmiss)
  rcases h with hr | ⟨htried, hend⟩
  · exact .inl hr
  · refine .inr ⟨?_, ?_⟩
    · rw [htried, upTo_append_miss hany, List.append_assoc]
    · rwa [List.find?_append, hmiss, Option.none_or]

/-- A hit among the first paths. -/
theorem SearchEnds.of_found (htried : r.2.tried = tried ++ upTo isExefile paths)
    (hfind : paths.find? isExefile = some path) (hret : r.1 = whichStatusFoundProg)
    (hpath : r.2.fspathDstr.data.bind cstring = some path) (paths' : List (List UInt8)) :
    SearchEnds refuses isExefile (paths ++ paths') l tried r := by
  have hany : paths.any isExefile = true :=
    List.any_eq_true.2 ⟨path, List.mem_of_find?_eq_some hfind, List.find?_some hfind⟩
  refine .inr ⟨?_, .inl ⟨path, ?_, hret, hpath⟩⟩
  · rw [htried, upTo_append_hit hany]
  · rw [List.find?_append, hfind, Option.some_or]

/-- **The extensions**: each is appended to the same name. -/
theorem tryPathexts_ensures {pathextV : List (List UInt8)} (st : WhichState)
    (h : st.fspathDstr.Holds l)
    (hv : ∀ e ∈ pathextV, e ≠ [] ∧ 0 ∉ l ++ e ∧ (l ++ e).length + 1 < sizeMax / 4) :
    Ensures refuses (tryPathexts isExefile l.length pathextV st)
      (SearchEnds refuses isExefile (pathextV.map (l ++ ·)) l st.tried) := by
  induction pathextV generalizing st with
  | nil => exact Ensures.pure (searchEnds_nil h)
  | cons e pathextV ih =>
    obtain ⟨hne, hnul, hsize⟩ := hv e List.mem_cons_self
    have hv := fun e' he' => hv e' (List.mem_cons_of_mem e he')
    rw [tryPathexts, if_neg hne]
    refine Outcome.bind (appendTerminated_ensures h hnul hsize) (fun d' hd' => ?_)
      fun hr => Ensures.pure (.inl ⟨hr, rfl⟩)
    refine Ensures.bind (checkFsExefile_ensures
      (Q := fun r => r = (isExefile (l ++ e), ⟨d', st.tried ++ [l ++ e]⟩)) hd' rfl) fun r hr => ?_
    subst hr
    dsimp only
    cases hhit : isExefile (l ++ e) with
    | true => exact Ensures.pure (searchEnds_hit hd' hhit)
    | false => exact (ih _ hd'.holds.truncate hv).mono fun r hr => hr.miss hhit

/-- **The name**, as it is and with the extensions. -/
theorem tryProgNameVariants_ensures {pathextV : List (List UInt8)} {progName : List UInt8}
    (st : WhichState) (h : st.fspathDstr.Holds l)
    (hv : ∀ e ∈ [] :: pathextV,
      0 ∉ l ++ progName ++ e ∧ (l ++ progName ++ e).length + 1 < sizeMax / 4)
    (hne : ∀ e ∈ pathextV, e ≠ []) :
    Ensures refuses (tryProgNameVariants isExefile pathextV progName st)
      (SearchEnds refuses isExefile (([] :: pathextV).map (l ++ progName ++ ·)) (l ++ progName)
        st.tried) := by
  obtain ⟨hnul, hsize⟩ := hv [] List.mem_cons_self
  rw [List.append_nil] at hnul hsize
  rw [List.map_cons, List.append_nil, tryProgNameVariants]
  refine Outcome.bind (appendTerminated_ensures h hnul hsize) (fun d' hd' => ?_)
    fun hr => Ensures.pure (.inl ⟨hr, rfl⟩)
  refine Ensures.bind (checkFsExefile_ensures
    (Q := fun r => r = (isExefile (l ++ progName), ⟨d', st.tried ++ [l ++ progName]⟩)) hd' rfl)
    fun r hr => ?_
  subst hr
  dsimp only
  cases hhit : isExefile (l ++ progName) with
  | true => exact Ensures.pure (searchEnds_hit hd' hhit)
  | false =>
    rw [if_neg Bool.false_ne_true, hd'.holds.length]
    refine (tryPathexts_ensures ⟨d', st.tried ++ [l ++ progName]⟩ hd'.holds
      fun e he => ⟨hne e he, hv e (List.mem_cons_of_mem [] he)⟩).mono fun r hr => ?_
    exact hr.miss hhit

/-- **The search directories**: each is appended to the same prefix. -/
theorem searchPathLoop_ensures {pathV pathextV : List (List UInt8)} {progName : List UInt8}
    (st : WhichState) (h : st.fspathDstr.Holds l) (hne : ∀ e ∈ pathextV, e ≠ [])
    (hv : ∀ path ∈ pathV, ∀ e ∈ [] :: pathextV, 0 ∉ writtenPath l path progName e ∧
      (writtenPath l path progName e).length + 1 < sizeMax / 4) :
    Ensures refuses (searchPathLoop isExefile l.length pathextV progName pathV st)
      (SearchEnds refuses isExefile ((pathV.filter (isAppended l)).flatMap fun path =>
        ([] :: pathextV).map (writtenPath l path progName)) l st.tried) := by
  induction pathV generalizing st with
  | nil => exact Ensures.pure (searchEnds_nil h)
  | cons path pathV ih =>
    have hpath := hv path List.mem_cons_self
    have hv := fun path' h' => hv path' (List.mem_cons_of_mem path h')
    rw [searchPathLoop, ← appendedDir]
    by_cases hempty : appendedDir l path = []
    · have hskip : isAppended l path = false := by simp [isAppended, hempty]
      rw [if_pos hempty, List.filter_cons_of_neg (by simp [hskip])]
      have hcut : (st.cut l.length).fspathDstr.Holds l := by
        have h : st.fspathDstr.Holds (l ++ []) := by rwa [List.append_nil]
        exact h.truncate
      exact ih _ hcut hv
    have hkept : isAppended l path = true := by simp [isAppended, hempty]
    rw [if_neg hempty, List.filter_cons_of_pos hkept, List.flatMap_cons]
    have hsize := (hpath [] List.mem_cons_self).2
    simp only [writtenPath, List.length_append, List.length_singleton] at hsize
    refine Outcome.bind (dynstrDataAppendStrSimple_ensures h (by omega)) (fun d₁ h₁ => ?_)
      fun hr => Ensures.pure (.inl ⟨hr, rfl⟩)
    refine Outcome.bind (dynstrDataAppendChar_ensures h₁ (by rw [List.length_append]; omega))
      (fun d₂ h₂ => ?_) fun hr => Ensures.pure (.inl ⟨hr, rfl⟩)
    refine Ensures.bind (tryProgNameVariants_ensures ⟨d₂, st.tried⟩ h₂ hpath hne)
      fun r hr => ?_
    obtain ⟨ret, st'⟩ := r
    rcases hr with ⟨hr, rfl⟩ | ⟨htried, ⟨p, hfind, rfl, hp⟩ | ⟨hmiss, rfl, h'⟩⟩
    · exact Ensures.pure (.inl ⟨hr, rfl⟩)
    · exact Ensures.pure (SearchEnds.of_found htried hfind rfl hp _)
    · have hcut : (st'.cut l.length).fspathDstr.Holds l := by
        simp only [List.append_assoc] at h'
        exact h'.truncate
      refine (ih _ hcut hv).mono fun r hr => ?_
      have hall : st'.tried = st.tried ++ ([] :: pathextV).map (writtenPath l path progName) := by
        have hany : (([] :: pathextV).map (writtenPath l path progName)).any isExefile = false :=
          List.any_eq_false.2 (List.find?_eq_none.1 hmiss)
        rw [← upTo_miss hany]
        exact htried
      change SearchEnds refuses isExefile _ l st'.tried r at hr
      rw [hall] at hr
      exact hr.append hmiss

end

/-! ## The root and the fields -/

/-- The prefix that a root becomes. -/
def fspathPrefix (root : List UInt8) : List UInt8 :=
  if IsRootPrefix root then
    if root.getLast? = some slash then root else root ++ [slash]
  else []

theorem initFspathDynstr_ensures {refuses : Prop} {root : Option (List UInt8)}
    (hsize : (root.getD []).length + 1 < sizeMax / 4) :
    Ensures refuses (initFspathDynstr root)
      (Outcome refuses fun d => d.Holds (fspathPrefix (root.getD []))) := by
  refine Outcome.bind dynstrDataInit_ensures (fun d h => ?_) fun hr => ensures_freed hr
  dsimp only
  rw [if_neg (by simp), fspathPrefix]
  by_cases hroot : IsRootPrefix (root.getD [])
  swap
  · rw [if_neg hroot, if_neg hroot]
    exact Ensures.pure (.inl ⟨rfl, h.1⟩)
  rw [if_pos hroot, if_pos hroot]
  have hroom : ([] : List UInt8).length + (root.getD []).length < sizeMax / 4 := by
    rw [List.length_nil]
    omega
  refine Outcome.bind (dynstrDataAppendStrSimple_ensures h.1 hroom) (fun d₁ h₁ => ?_)
    fun hr => ensures_freed hr
  rw [List.nil_append] at h₁
  dsimp only
  rw [if_neg (by simp)]
  obtain ⟨cells, heq, htake, -⟩ := h₁.data (h₁.data_ne_none_of_ne_nil hroot.1)
  have hpos : 0 < (root.getD []).length := List.length_pos_iff.2 hroot.1
  have hlast : (d₁.data.bind fun cells => cells.load (d₁.currentSize - 1)) =
      (root.getD []).getLast? := by
    rw [h₁.length, List.getLast?_eq_getElem?, heq]
    exact Block.load_of_take htake (by omega)
  obtain ⟨last, hgetLast⟩ := Option.ne_none_iff_exists'.1
    (mt List.getLast?_eq_none_iff.1 hroot.1)
  refine Ensures.bind (ensures_defined (hlast.trans hgetLast) rfl) fun last' hlast' => ?_
  subst hlast'
  rw [hgetLast]
  by_cases hslash : last = slash
  · rw [if_neg (not_not.2 hslash), if_pos (congrArg some hslash)]
    exact Ensures.pure (.inl ⟨rfl, h₁⟩)
  · rw [if_pos hslash, if_neg fun h => hslash (Option.some.inj h)]
    refine Outcome.bind (dynstrDataAppendChar_ensures h₁ hsize) (fun d₂ h₂ => ?_)
      fun hr => ensures_freed hr
    exact Ensures.pure (.inl ⟨rfl, h₂⟩)

/-- The fields of a list in memory, the default separators taking the place of NULL. -/
def listFields (sep : Option (List UInt8)) (str : List UInt8) : List (List UInt8) :=
  runs (fun chr => decide (chr ∈ sep.getD defaultSearchPathSep)) str

theorem strSplitBytes_eq (str : List UInt8) (sep : Option (List UInt8)) :
    strSplitBytes str (sep.getD defaultSearchPathSep) =
      (((listFields sep str).length : ℤ), listFields sep str) := by
  set ds := sep.getD defaultSearchPathSep with hds
  have hinj (a b : UInt8) (h : Char.ofNat a.toNat = Char.ofNat b.toNat) : a = b := by
    have h : ofBytes [a] = ofBytes [b] := congrArg (fun c => [c]) h
    have h := congrArg toBytes h
    rw [toBytes_ofBytes, toBytes_ofBytes] at h
    exact List.head_eq_of_cons_eq h
  have hdelim (chr : UInt8) :
      isDelim (ofBytes ds) (Char.ofNat chr.toNat) = decide (chr ∈ ds) := by
    rw [isDelim, List.contains_eq_mem, ofBytes, decide_eq_decide, List.mem_map]
    constructor
    · rintro ⟨a, ha, heq⟩
      exact hinj a chr heq ▸ ha
    · exact fun h => ⟨chr, h, rfl⟩
  have hfields : splitFields none (some (ofBytes ds)) (ofBytes str) =
      (listFields sep str).map ofBytes := by
    rw [listFields, ← hds]
    exact runs_map hdelim str
  have hmap : ((listFields sep str).map ofBytes).map toBytes = listFields sep str := by
    rw [List.map_map]
    exact (List.map_congr_left fun w _ => toBytes_ofBytes w).trans (List.map_id _)
  rw [strSplitBytes, strSplit_fields [] (ofBytes str) (by rfl), hfields]
  simp only [List.nil_append, hmap, List.length_map]

theorem initPathextArr_ensures {refuses : Prop} (pathextSep pathext : Option (List UInt8)) :
    Ensures refuses (initPathextArr pathextSep pathext) fun r => (refuses ∧ r.1 = -1) ∨
      r.1 = 0 ∧ r.2.getD [] = listFields pathextSep (pathext.getD []) := by
  rw [initPathextArr]
  by_cases hempty : pathext.getD [] = []
  · rw [if_pos hempty, hempty]
    exact Ensures.pure (.inr ⟨rfl, runs_nil.symm⟩)
  rw [if_neg hempty]
  refine ensures_request_bind ?_ fun hr => Ensures.pure (.inl ⟨hr, rfl⟩)
  rw [if_pos rfl, strSplitBytes_eq]
  dsimp only
  rw [if_neg (by omega)]
  refine Ensures.pure (.inr ⟨rfl, ?_⟩)
  split_ifs with hnone
  · exact (List.length_eq_zero_iff.1 (by omega)).symm
  · rfl

theorem initSearchPathArr_ensures {refuses : Prop} (searchPathSep : Option (List UInt8))
    (searchPath : List UInt8) :
    Ensures refuses (initSearchPathArr searchPathSep searchPath) fun r => (refuses ∧ r.1 = -1) ∨
      r = (0, listFields searchPathSep searchPath) := by
  refine ensures_request_bind ?_ fun hr => Ensures.pure (.inl ⟨hr, rfl⟩)
  rw [if_pos rfl]
  by_cases hempty : searchPath = []
  · rw [if_pos hempty, hempty]
    exact Ensures.pure (.inr (by rw [listFields, runs_nil]))
  rw [if_neg hempty, strSplitBytes_eq]
  dsimp only
  rw [if_neg (by omega)]
  exact Ensures.pure (.inr rfl)

/-! ## The naive search -/

/-- A search for a relative name.  The strings are C strings that are in memory at the
    same time. -/
structure WhichQuery where
  searchPathSep : Option (List UInt8)
  pathextSep : Option (List UInt8)
  searchPath : List UInt8
  pathext : Option (List UInt8)
  root : Option (List UInt8)
  progName : List UInt8
  searchPath_ne : searchPath ≠ []
  progName_ne : progName ≠ []
  relative : progName.head? ≠ some slash
  nul : 0 ∉ root.getD [] ++ searchPath ++ progName ++ pathext.getD []
  fits : (root.getD [] ++ searchPath ++ progName ++ pathext.getD []).length + 3 < sizeMax / 4

/-- A test for executable files.  Repeated slashes are like one in a path. -/
structure ExefileTest where
  isExefile : List UInt8 → Bool
  squeezed : ∀ path, isExefile (squeezed slash path) = isExefile path

namespace WhichQuery

/-- The search directories in order. -/
def searchDirs (q : WhichQuery) : List (List UInt8) := listFields q.searchPathSep q.searchPath

/-- The empty extension and the others in order. -/
def extensions (q : WhichQuery) : List (List UInt8) :=
  [] :: listFields q.pathextSep (q.pathext.getD [])

/-- What comes before a search directory. -/
def rootPrefix (q : WhichQuery) : List UInt8 :=
  if q.root.getD [] = [] ∨ q.root.getD [] = [slash] then [] else q.root.getD [] ++ [slash]

/-- The path of the program in a search directory, with an extension. -/
def naivePath (q : WhichQuery) (path pathext : List UInt8) : List UInt8 :=
  q.rootPrefix ++ path ++ [slash] ++ q.progName ++ pathext

def pathsIn (q : WhichQuery) (path : List UInt8) : List (List UInt8) :=
  q.extensions.map (q.naivePath path)

/-- All paths, by directory and then by extension. -/
def naivePaths (q : WhichQuery) : List (List UInt8) := q.searchDirs.flatMap q.pathsIn

/-- The search directories up to the first one with a hit. -/
def reachedDirs (q : WhichQuery) (test : ExefileTest) : List (List UInt8) :=
  upTo (fun path => (q.pathsIn path).any test.isExefile) q.searchDirs

/-- `_locate_progam`. -/
def locate (q : WhichQuery) (test : ExefileTest) (wantsPath : Bool) : Alloc WhichResult :=
  locateProgam test.isExefile q.searchPathSep q.pathextSep (some q.searchPath) q.pathext q.root
    (some q.progName) wantsPath

/-- The paths as the code writes them. -/
def writtenPaths (q : WhichQuery) : List (List UInt8) :=
  (q.searchDirs.filter (isAppended (fspathPrefix (q.root.getD [])))).flatMap fun path =>
    q.extensions.map (writtenPath (fspathPrefix (q.root.getD [])) path q.progName)

end WhichQuery

/-- The search tries the paths of the naive search up to the first hit, and returns this
    hit, all up to repeated slashes.  Otherwise it was refused memory. -/
def SearchesNaively (q : WhichQuery) (test : ExefileTest) (wantsPath : Bool) : Prop :=
  ∀ refuses : Prop, Ensures refuses (q.locate test wantsPath) fun r =>
    (refuses ∧ r.ret = -1) ∨
      r.tried.map (squeezed slash) =
          (upTo test.isExefile q.naivePaths).map (squeezed slash) ∧
        ((∃ path, q.naivePaths.find? test.isExefile = some path ∧ r.ret = whichStatusFoundProg ∧
            (wantsPath = true → ∃ out, r.progPathOut.bind cstring = some out ∧
              squeezed slash out = squeezed slash path)) ∨
          (q.naivePaths.find? test.isExefile = none ∧ r.ret = whichStatusDidNotFindProg))

section
variable {q : WhichQuery} {test : ExefileTest} {wantsPath : Bool} {refuses : Prop}
  {path e root : List UInt8}

theorem length_fspathPrefix_le (root : List UInt8) :
    (fspathPrefix root).length ≤ root.length + 1 := by
  rw [fspathPrefix]
  split_ifs
  · exact Nat.le_succ _
  · rw [List.length_append, List.length_singleton]
  · exact Nat.zero_le _

theorem mem_fspathPrefix {chr : UInt8} (h : chr ∈ fspathPrefix root) :
    chr ∈ root ∨ chr = slash := by
  rw [fspathPrefix] at h
  split_ifs at h
  · exact .inl h
  · simpa using h
  · cases h

theorem appendedDir_sublist (l path : List UInt8) : (appendedDir l path).Sublist path := by
  rw [appendedDir]
  split_ifs
  · exact List.dropWhile_sublist _
  · exact List.Sublist.refl path

/-- The paths are C strings for which there is room. -/
theorem writtenPath_fits (hpath : path ∈ q.searchDirs) (he : e ∈ q.extensions) :
    0 ∉ writtenPath (fspathPrefix (q.root.getD [])) path q.progName e ∧
      (writtenPath (fspathPrefix (q.root.getD [])) path q.progName e).length + 1 <
        sizeMax / 4 := by
  have hdir := (appendedDir_sublist (fspathPrefix (q.root.getD [])) path).trans
    (sublist_of_mem_runs hpath)
  have hext : e.Sublist (q.pathext.getD []) := by
    rcases List.mem_cons.1 he with rfl | he
    · exact List.nil_sublist _
    · exact sublist_of_mem_runs he
  constructor
  · have hnul := q.nul
    simp only [List.mem_append, not_or] at hnul
    obtain ⟨⟨⟨hroot, hsearch⟩, hname⟩, hpathext⟩ := hnul
    simp only [writtenPath, List.mem_append, List.mem_singleton, not_or]
    refine ⟨⟨⟨⟨fun h => ?_, fun h => hsearch (hdir.subset h)⟩, by decide⟩, hname⟩,
      fun h => hpathext (hext.subset h)⟩
    rcases mem_fspathPrefix h with h | h
    · exact hroot h
    · exact absurd h (by decide)
  · have hroot := length_fspathPrefix_le (q.root.getD [])
    have hdir := hdir.length_le
    have hext := hext.length_le
    have hfits := q.fits
    simp only [List.length_append] at hfits
    simp only [writtenPath, List.length_append, List.length_singleton]
    omega

/-- **A search for a name** looks at the paths that the code writes. -/
theorem WhichQuery.locate_ensures (q : WhichQuery) (test : ExefileTest) (wantsPath : Bool)
    (refuses : Prop) : Ensures refuses (q.locate test wantsPath) fun r => (refuses ∧ r.ret = -1) ∨
      r.tried = upTo test.isExefile q.writtenPaths ∧
        ((∃ path, q.writtenPaths.find? test.isExefile = some path ∧
            r.ret = whichStatusFoundProg ∧
            (wantsPath = true → r.progPathOut.bind cstring = some path)) ∨
          (q.writtenPaths.find? test.isExefile = none ∧ r.ret = whichStatusDidNotFindProg)) := by
  have hfits := q.fits
  simp only [List.length_append] at hfits
  rw [WhichQuery.locate, locateProgam, Option.getD_some, if_neg q.progName_ne]
  refine Outcome.bind (initFspathDynstr_ensures (by omega)) (fun d h => ?_)
    fun hr => Ensures.pure (.inl ⟨hr, rfl⟩)
  dsimp only
  rw [if_neg (by simp)]
  refine Ensures.bind (initPathextArr_ensures q.pathextSep q.pathext) fun exts hexts => ?_
  rcases hexts with ⟨hr, hret⟩ | ⟨hret, hexts⟩
  · rw [if_pos (by rw [hret]; decide)]
    exact Ensures.pure (.inl ⟨hr, rfl⟩)
  rw [if_neg (by rw [hret]; decide), hexts]
  have hsearch : Ensures refuses
      (locateIn test.isExefile q.searchPathSep (some q.searchPath)
        (listFields q.pathextSep (q.pathext.getD [])) q.progName ⟨d, []⟩)
      (SearchEnds refuses test.isExefile q.writtenPaths (fspathPrefix (q.root.getD [])) []) := by
    rw [locateIn, if_neg q.relative, if_neg q.searchPath_ne]
    refine Ensures.bind (initSearchPathArr_ensures q.searchPathSep q.searchPath)
      fun dirs hdirs => ?_
    rcases hdirs with ⟨hr, hret⟩ | rfl
    · rw [if_pos (by rw [hret]; decide)]
      exact Ensures.pure (.inl ⟨hr, rfl⟩)
    dsimp only
    rw [if_neg (by simp), nameInSearchPath, h.length]
    exact searchPathLoop_ensures ⟨d, []⟩ h (fun e he => runs_ne_nil he)
      fun path hpath e he => writtenPath_fits hpath he
  refine Ensures.bind hsearch fun r hr => Ensures.pure ?_
  obtain ⟨ret, st⟩ := r
  rcases hr with hr | ⟨htried, ⟨path, hfind, rfl, hpath⟩ | ⟨hmiss, rfl, -⟩⟩
  · exact .inl hr
  · refine .inr ⟨htried, .inl ⟨path, hfind, rfl, fun hwants => ?_⟩⟩
    rw [if_pos ⟨rfl, hwants⟩]
    exact hpath
  · exact .inr ⟨htried, .inr ⟨hmiss, rfl⟩⟩

/-! ## Comparing the searches -/

theorem isRootPrefix_iff : IsRootPrefix root ↔ ¬ (root = [] ∨ root = [slash]) := by
  cases root with
  | nil => simp [IsRootPrefix]
  | cons chr root => simp [IsRootPrefix]; tauto

/-- Without a root, both searches have no prefix. -/
theorem prefixes_of_not_isRootPrefix (h : ¬ IsRootPrefix (q.root.getD [])) :
    fspathPrefix (q.root.getD []) = [] ∧ q.rootPrefix = [] := by
  refine ⟨if_neg h, if_pos ?_⟩
  rwa [isRootPrefix_iff, not_not] at h

/-- The prefix that the code writes has a slash at its end, and the other one too. -/
theorem prefixes_of_isRootPrefix (h : IsRootPrefix (q.root.getD [])) :
    q.rootPrefix = q.root.getD [] ++ [slash] ∧ ∃ l, fspathPrefix (q.root.getD []) = l ++ [slash] ∧
      ∀ s, squeezed slash (q.root.getD [] ++ slash :: s) = squeezed slash (l ++ slash :: s) := by
  refine ⟨if_neg (isRootPrefix_iff.1 h), ?_⟩
  rw [fspathPrefix, if_pos h]
  by_cases hlast : (q.root.getD []).getLast? = some slash
  · obtain ⟨l, hl⟩ := List.getLast?_eq_some_iff.1 hlast
    refine ⟨l, by rw [if_pos hlast, hl], fun s => ?_⟩
    rw [hl, List.append_assoc, List.singleton_append, squeezed_append_sep]
  · exact ⟨q.root.getD [], if_neg hlast, fun _ => rfl⟩

/-- A directory is searched unless there is a root and it consists of slashes. -/
theorem isAppended_iff (hpath : path ∈ q.searchDirs) :
    isAppended (fspathPrefix (q.root.getD [])) path = true ↔
      (q.rootPrefix ≠ [] → ∃ chr ∈ path, chr ≠ slash) := by
  by_cases hroot : IsRootPrefix (q.root.getD [])
  · obtain ⟨hnaive, l, hl, -⟩ := prefixes_of_isRootPrefix hroot
    simp [isAppended, appendedDir, hnaive, hl, List.dropWhile_eq_nil_iff]
  · obtain ⟨hl, hnaive⟩ := prefixes_of_not_isRootPrefix hroot
    simp [isAppended, appendedDir, hnaive, hl, runs_ne_nil hpath]

/-- The paths of both searches are the same up to repeated slashes. -/
theorem squeezed_writtenPath (path e : List UInt8) :
    squeezed slash (q.naivePath path e) =
      squeezed slash (writtenPath (fspathPrefix (q.root.getD [])) path q.progName e) := by
  by_cases hroot : IsRootPrefix (q.root.getD [])
  · obtain ⟨hnaive, l, hl, hsqueezed⟩ := prefixes_of_isRootPrefix hroot
    have hdir : appendedDir (l ++ [slash]) path = path.dropWhile (· == slash) :=
      if_pos (by rw [List.length_append]; exact Nat.succ_pos _)
    rw [WhichQuery.naivePath, writtenPath, hnaive, hl, hdir]
    simp only [List.append_assoc, List.cons_append, List.nil_append]
    rw [hsqueezed, squeezed_append_dropWhile]
  · obtain ⟨hl, hnaive⟩ := prefixes_of_not_isRootPrefix hroot
    rw [WhichQuery.naivePath, writtenPath, hnaive, hl]
    rfl

/-- Paths without an extension in a directory of slashes and in one of others. -/
theorem squeezed_naivePath_ne {path' : List UInt8} (h : ∀ chr ∈ path, chr = slash)
    (h' : ∃ chr ∈ path', chr ≠ slash) :
    squeezed slash (q.naivePath path []) ≠ squeezed slash (q.naivePath path' []) := by
  intro heq
  have heq := congrArg (fun l => (l.filter (· ≠ slash)).length) heq
  simp only [filter_squeezed, WhichQuery.naivePath, List.filter_append, List.length_append] at heq
  have hnone : path.filter (· ≠ slash) = [] := by
    rw [List.filter_eq_nil_iff]
    intro chr hchr
    simp [h chr hchr]
  obtain ⟨chr, hmem, hchr⟩ := h'
  have hpos : 0 < (path'.filter (· ≠ slash)).length := by
    refine List.length_pos_of_mem (List.mem_filter.2 ⟨hmem, ?_⟩)
    simpa using hchr
  rw [hnone, List.length_nil] at heq
  omega

/-- **Both searches try the same** if and only if no directory that is reached is skipped. -/
theorem tried_eq_iff :
    (upTo test.isExefile q.writtenPaths).map (squeezed slash) =
        (upTo test.isExefile q.naivePaths).map (squeezed slash) ↔
      (q.rootPrefix ≠ [] → ∀ path ∈ q.reachedDirs test, ∃ chr ∈ path, chr ≠ slash) := by
  have hreached : ∀ path ∈ q.reachedDirs test, path ∈ q.searchDirs := fun path => mem_of_mem_upTo
  have hsame (path : List UInt8) : (q.pathsIn path).map (squeezed slash) =
      (q.extensions.map (writtenPath (fspathPrefix (q.root.getD [])) path q.progName)).map
        (squeezed slash) := by
    rw [WhichQuery.pathsIn, List.map_map, List.map_map]
    exact List.map_congr_left fun e _ => squeezed_writtenPath path e
  have hany (path : List UInt8) : (q.pathsIn path).any test.isExefile =
      ((q.pathsIn path).map (squeezed slash)).any test.isExefile := by
    rw [List.any_map]
    congr 1
    funext p
    exact (test.squeezed p).symm
  have hdiff : ∀ path ∈ q.searchDirs, ∀ path' ∈ q.searchDirs,
      isAppended (fspathPrefix (q.root.getD [])) path = false →
      isAppended (fspathPrefix (q.root.getD [])) path' = true →
      squeezed slash (q.naivePath path []) ≠ squeezed slash (q.naivePath path' []) := by
    intro path hpath path' hpath' hskip hkeep
    rw [← Bool.not_eq_true, isAppended_iff hpath] at hskip
    rw [isAppended_iff hpath'] at hkeep
    push Not at hskip
    exact squeezed_naivePath_ne hskip.2 (hkeep hskip.1)
  have hiff := upTo_flatMap_filter_iff (p := test.isExefile)
    (f := fun path => (q.pathsIn path).map (squeezed slash)) (fun _ _ => rfl)
    (fun path _ _ => hsame path) hdiff
  rw [map_upTo test.squeezed, map_upTo test.squeezed, WhichQuery.writtenPaths,
    WhichQuery.naivePaths, List.map_flatMap, List.map_flatMap, eq_comm, hiff]
  simp only [← hany]
  constructor
  · exact fun h hroot path hpath => (isAppended_iff (hreached path hpath)).1 (h path hpath) hroot
  · exact fun h path hpath => (isAppended_iff (hreached path hpath)).2 fun hroot =>
      h hroot path hpath

/-- In a naive search, the same is tried. -/
theorem SearchesNaively.tried_eq (h : SearchesNaively q test wantsPath) :
    (upTo test.isExefile q.writtenPaths).map (squeezed slash) =
      (upTo test.isExefile q.naivePaths).map (squeezed slash) := by
  have hgrants : Admits False fun _ => true := .inr fun _ => rfl
  obtain ⟨r, a, hrun, -, hcode⟩ := q.locate_ensures test wantsPath False _ hgrants
  obtain ⟨r', a', hrun', -, hnaive⟩ := h False _ hgrants
  obtain ⟨rfl, -⟩ := Prod.mk.inj (Option.some.inj (hrun.symm.trans hrun'))
  obtain ⟨htried, -⟩ := hcode.resolve_left fun h => h.1
  obtain ⟨htried', -⟩ := hnaive.resolve_left fun h => h.1
  rw [← htried, htried']

/-- **A search for a name** is the naive search if and only if, with a root other than `/`,
    no directory that it reaches consists of slashes. -/
theorem searchesNaively_iff (q : WhichQuery) (test : ExefileTest) (wantsPath : Bool) :
    SearchesNaively q test wantsPath ↔
      (q.rootPrefix ≠ [] → ∀ path ∈ q.reachedDirs test, ∃ chr ∈ path, chr ≠ slash) := by
  constructor
  · exact fun h => tried_eq_iff.1 h.tried_eq
  intro h
  have htried := tried_eq_iff.2 h
  have hfind : (q.writtenPaths.find? test.isExefile).map (squeezed slash) =
      (q.naivePaths.find? test.isExefile).map (squeezed slash) := by
    rw [← find?_upTo q.writtenPaths, ← find?_upTo q.naivePaths, map_find? test.squeezed,
      map_find? test.squeezed, htried]
  refine fun refuses => (q.locate_ensures test wantsPath refuses).mono fun r hr => ?_
  rcases hr with hr | ⟨hr, ⟨path, hpath, hret, hout⟩ | ⟨hmiss, hret⟩⟩
  · exact .inl hr
  · rw [hpath, Option.map_some] at hfind
    obtain ⟨path', hpath', heq⟩ := Option.map_eq_some_iff.1 hfind.symm
    refine .inr ⟨hr ▸ htried, .inl ⟨path', hpath', hret, fun hwants => ?_⟩⟩
    exact ⟨path, hout hwants, heq.symm⟩
  · rw [hmiss, Option.map_none] at hfind
    exact .inr ⟨hr ▸ htried, .inr ⟨Option.map_eq_none_iff.1 hfind.symm, hret⟩⟩

/-- Under the root `/r`, the search path `/` is not searched. -/
theorem root_dir_skipped : ∃ q : WhichQuery, ∃ test : ExefileTest,
    q.root = some [0x2F, 0x72] ∧ q.searchPath = [0x2F] ∧ q.progName = [0x78] ∧
      test.isExefile [0x2F, 0x72, 0x2F, 0x78] = true ∧ ¬ SearchesNaively q test true := by
  refine ⟨⟨none, none, [0x2F], none, some [0x2F, 0x72], [0x78], by decide, by decide, by decide,
    by decide, by decide⟩, ⟨fun path => squeezed slash path = [0x2F, 0x72, 0x2F, 0x78],
    fun path => by rw [squeezed_idem]⟩, rfl, rfl, rfl, by decide, fun h => ?_⟩
  have htried := congrArg List.length h.tried_eq
  revert htried
  simp only [List.length_map]
  decide

end

end Fischstaebchen
