/-
  The stagedive parameter (`stagedive/hooks/parse-cmdline.d/48-stagedive.sh`).

  The parameter selects an image file and hands it to the parser of the
  `volatile_rootfs` parameter, after words that are to clear its configuration.

  * `parseStagedive_args`: the words that the other parser reads.
  * `replacesLayers_iff`: when nothing of the configuration before is left.
-/
import Fischstaebchen.Overlay.UnionMountParser

namespace Fischstaebchen

open Lib.Shell (caseOf fields Unblank)

/-! ## The other parsers -/

/-- The variables of the hooks that parse the command line, as far as they matter. -/
structure HookState where
  unionMountFstype : CStr
  storageLayers : StorageLayers
  volatileRootfs : UnionConfig
  stagediveType : CStr
  stagediveAutosetFileCfg : CStr

/-- `parse_union_mount_base`. -/
def parseUnionMountBase : CmdlineParser HookState := fun _ vars st =>
  if caseOf vars.key ["union_fstype", "union_mount_fstype"] then
    some (true, vars, { st with unionMountFstype := vars.value })
  else if caseOf vars.key ["aufs"] then
    some (true, vars, { st with unionMountFstype := vars.key })
  else if caseOf vars.key ["overlayfs"] then
    some (true, vars, { st with unionMountFstype := "overlay".toList })
  else some (false, vars, st)

/-- `parse_storage_layers`, within the variables of all hooks. -/
def parseStorageLayersHook : CmdlineParser HookState := fun args vars st =>
  (parseStorageLayers args vars st.storageLayers).map fun r =>
    (r.1, r.2.1, { st with storageLayers := r.2.2 })

/-- `parse_volatile_rootfs`. -/
def parseVolatileRootfs (gh : GithubArchive) : CmdlineParser HookState := fun _ vars st =>
  let parse args c := (parseUnionMount (argIsRealFileUri gh) args c).map fun c => (true, c)
  (parseRemuxKey "volatile_rootfs".toList parse vars st.volatileRootfs).map fun r =>
    (r.1, vars, { st with volatileRootfs := r.2 })

/-- The parsers in the order of their registration; those after `volatile_rootfs` do
    not matter here. -/
def registeredParsers (gh : GithubArchive) (others : List (CmdlineParser HookState)) :
    List (CmdlineParser HookState) :=
  parseUnionMountBase :: parseStorageLayersHook :: parseVolatileRootfs gh :: others

/-! ## Stagedive -/

/-- No comma and no blank. -/
def Plain (s : CStr) : Prop := ∀ c ∈ s, c ≠ ',' ∧ Lib.Shell.isIfsBlank c = false

instance (s : CStr) : Decidable (Plain s) := List.decidableBAll _ s

/-- The machine and the profiles, whose names have neither commas nor blanks. -/
structure StagediveEnv where
  arch : CStr
  altArch : CStr
  /-- There is a file `${STAGEDIVE_PROFILES_DIR}/<type>.sh`. -/
  isProfile : CStr → Bool
  plain_altArch : Plain altArch
  plain_profile : ∀ type, isProfile type = true → Plain type

/-- The first `case` of `parse_stagedive__stagedive`: `stage_type` and `arg`. -/
def splitStagedive (value : CStr) : CStr × CStr :=
  if caseOf value ["*,*"] then (afterFirst [','] value, beforeFirst [','] value)
  else if caseOf value ["*/*"] then ("gentoo-stage3".toList, value)
  else (value, [])

/-- The second `case`. -/
def unaliasStageType (stageType : CStr) : CStr :=
  if caseOf stageType ["default", "_"] then "default".toList
  else if caseOf stageType ["gentoo"] then "gentoo".toList
  else if caseOf stageType ["g"] then "gentoo-stage3".toList
  else if caseOf stageType ["G"] then "gentoo-stage4".toList
  else if (strStartswith stageType "stage".toList).any fun s => s.length = 1 && s.all Char.isDigit then
    "gentoo-".toList ++ stageType
  else stageType

/-- `stage_file` and `STAGEDIVE_AUTOSET_FILE_CFG`; `none` if the process dies. -/
def stageFile (env : StagediveEnv) (stageType arg : CStr) : Option (CStr × CStr) :=
  if caseOf arg ["none"] then some ([], [])
  else if caseOf arg ["?*/"] then
    if caseOf stageType ["gentoo-stage*"] then
      some ("tarball=".toList ++ arg ++ '/' :: withoutPrefix "gentoo-".toList stageType ++
        '-' :: env.altArch ++ ".tar.bz2".toList, [])
    else none
  else if caseOf arg ["?*/?*"] then some (arg, [])
  else if caseOf stageType ["gentoo-stage3"] then
    some ("@bootstrap".toList, if caseOf arg ["*:*"] then arg else
      env.arch ++ ':' :: env.altArch ++ (if arg = [] then [] else '-' :: arg))
  else if caseOf stageType ["archstrap*"] then
    some ("@bootstrap".toList, if arg = [] then env.arch else arg)
  else none

/-- The last `case`: the argument for `volatile_rootfs`. -/
def stageArg (stageFile : CStr) : CStr :=
  if caseOf stageFile [""] then []
  else if caseOf stageFile ["@bootstrap"] then "yes".toList
  else if caseOf stageFile ["squashfs=*", "sfs=*"] then "file=".toList ++ valueOf stageFile
  else if caseOf stageFile ["tarball=*", "tb=*"] then "low_tarball=".toList ++ valueOf stageFile
  else if caseOf stageFile ["*.squashfs", "*.sfs"] then "file=".toList ++ stageFile
  else "low_tarball=".toList ++ stageFile

/-- The words for `volatile_rootfs` before the argument. -/
def clearingWords : CStr := "no_mem,no_file,no_overlay,no_tarball,no_low_tarball,".toList

/-- The state after `do_parse_cmdline`, unless the process has exited. -/
def ParseEnd.state? {σ : Type} : ParseEnd σ → Option σ
  | .done st => some st.state
  | .exited => none

/-- `parse_stagedive__stagedive`, for a value; `none` if the process exits.  One step
    of `do_parse_cmdline` handles the word, and another ends the loop. -/
def parseStagediveStagedive (gh : GithubArchive) (env : StagediveEnv)
    (others : List (CmdlineParser HookState)) (vars : ParseVars) (st : HookState) :
    Option HookState :=
  let (stageType, arg) := splitStagedive vars.value
  let stageType := unaliasStageType stageType
  if env.isProfile stageType then
    match stageFile env stageType arg with
    | none => none
    | some (file, autoset) =>
      let st := { st with stagediveType := stageType, stagediveAutosetFileCfg := autoset }
      let arg := stageArg file
      if arg = [] then some st
      else
        (doParseCmdline (registeredParsers gh others) 2
          ["volatile_rootfs=".toList ++ (clearingWords ++ arg)] ⟨vars, st, []⟩).bind ParseEnd.state?
  else none

/-! ## What a value selects -/

/-- An image file. -/
inductive StageImage
  | squashfs (uri : CStr)
  | lowTarball (uri : CStr)

/-- The word of `volatile_rootfs` that selects an image. -/
def StageImage.word : StageImage → CStr
  | .squashfs uri => "file=".toList ++ uri
  | .lowTarball uri => "low_tarball=".toList ++ uri

/-- The value selects an image file. -/
def SelectsImage (env : StagediveEnv) (value : CStr) (image : StageImage) : Prop :=
  ∃ file autoset, stageFile env (unaliasStageType (splitStagedive value).1)
    (splitStagedive value).2 = some (file, autoset) ∧ stageArg file = image.word

@[simp] theorem word_squashfs (uri : CStr) :
    (StageImage.squashfs uri).word = "file=".toList ++ uri := rfl

@[simp] theorem word_lowTarball (uri : CStr) :
    (StageImage.lowTarball uri).word = "low_tarball=".toList ++ uri := rfl

theorem StageImage.word_ne_nil (image : StageImage) : image.word ≠ [] := by
  cases image with
  | squashfs uri => exact List.append_ne_nil_of_left_ne_nil (by simp) uri
  | lowTarball uri => exact List.append_ne_nil_of_left_ne_nil (by simp) uri

/-- The base file that an image is. -/
def StageImage.baseFile (gh : GithubArchive) : StageImage → Option CStr
  | .squashfs uri => (argIsRealFileUri gh (StageImage.squashfs uri).word).join
  | .lowTarball _ => none

/-- The low-layer tarballs that an image is. -/
def StageImage.lowTarballs (gh : GithubArchive) : StageImage → CStr
  | .squashfs _ => []
  | .lowTarball uri => ((argIsRealFileUri gh uri).join).getD []

/-- No base file is configured. -/
def NoBaseFile (c : UnionConfig) : Prop := c .file = [] ∨ c .file = "none".toList

/-- **Only the image is configured**: nothing of an earlier configuration is left. -/
structure OnlyImage (gh : GithubArchive) (image : StageImage) (c : UnionConfig) : Prop where
  backingMem : c .backingMem = []
  overlays : c .overlayFiles = []
  tarballs : c .tarballFiles = []
  lowTarballs : c .tarballLowlayerFiles = image.lowTarballs gh
  file : NoBaseFile c ∨ image.baseFile gh = some (c .file)

/-! ## The words -/

theorem mem_of_mem_beforeFirst {sep s : CStr} {c : Char} (h : c ∈ beforeFirst sep s) : c ∈ s := by
  induction s with
  | nil => exact h
  | cons x s ih =>
    rw [beforeFirst] at h
    split_ifs at h
    · cases h
    · rcases List.mem_cons.1 h with rfl | h
      · exact List.mem_cons_self
      · exact List.mem_cons_of_mem _ (ih h)

theorem not_mem_beforeFirst (c : Char) (s : CStr) : c ∉ beforeFirst [c] s := by
  induction s with
  | nil => exact List.not_mem_nil
  | cons x s ih =>
    rw [beforeFirst]
    split_ifs with h
    · exact List.not_mem_nil
    · intro hmem
      rcases List.mem_cons.1 hmem with rfl | hmem
      · simp at h
      · exact ih hmem

theorem mem_of_mem_valueOf {s : CStr} {c : Char} (h : c ∈ valueOf s) : c ∈ s := by
  rw [valueOf] at h
  split_ifs at h
  · exact List.dropWhile_subset _ (List.mem_of_mem_drop h)
  · exact h

theorem mem_of_mem_withoutPrefix {pre s : CStr} {c : Char} (h : c ∈ withoutPrefix pre s) :
    c ∈ s := by
  rw [withoutPrefix] at h
  cases hs : strStartswith s pre with
  | none => rwa [hs] at h
  | some rest =>
    rw [hs] at h
    rw [strStartswith_eq_some.1 hs]
    exact List.mem_append_right _ h

/-- The part of the value that names a file is plain. -/
theorem plain_splitStagedive {value : CStr} (h : Unblank value) : Plain (splitStagedive value).2 := by
  rw [splitStagedive]
  split_ifs with hcomma
  · intro c hc
    refine ⟨fun he => ?_, h c (mem_of_mem_beforeFirst hc)⟩
    subst he
    exact not_mem_beforeFirst _ _ hc
  · intro c hc
    refine ⟨fun he => hcomma ?_, h c hc⟩
    subst he
    exact (Lib.Shell.matches_char (by decide) rfl).2 hc
  · intro c hc
    cases hc

theorem Plain.append {s s' : CStr} (h : Plain s) (h' : Plain s') : Plain (s ++ s') := by
  intro c hc
  rcases List.mem_append.1 hc with hc | hc
  · exact h c hc
  · exact h' c hc

theorem Plain.subset {s s' : CStr} (h : Plain s) (hsub : ∀ c ∈ s', c ∈ s) : Plain s' :=
  fun c hc => h c (hsub c hc)

theorem plain_stageFile {env : StagediveEnv} {stageType arg file autoset : CStr}
    (htype : Plain stageType) (harg : Plain arg)
    (h : stageFile env stageType arg = some (file, autoset)) : Plain file := by
  rw [stageFile] at h
  split_ifs at h
  all_goals obtain ⟨rfl, -⟩ := Prod.mk.inj (Option.some.inj h)
  · decide
  · have hrest : Plain (withoutPrefix "gentoo-".toList stageType) :=
      htype.subset fun c hc => mem_of_mem_withoutPrefix hc
    have halt : Plain env.altArch := env.plain_altArch
    have htarball : Plain "tarball=".toList := by decide
    have hslash : Plain ['/'] := by decide
    have hdash : Plain ['-'] := by decide
    have hext : Plain ".tar.bz2".toList := by decide
    exact (((htarball.append harg).append (hslash.append hrest)).append
      (hdash.append halt)).append hext
  · exact harg
  all_goals decide

theorem plain_stageArg {file : CStr} (h : Plain file) : Plain (stageArg file) := by
  have hvalue : Plain (valueOf file) := h.subset fun c hc => mem_of_mem_valueOf hc
  rw [stageArg]
  split_ifs
  · decide
  · decide
  · exact Plain.append (by decide) hvalue
  · exact Plain.append (by decide) hvalue
  · exact Plain.append (by decide) h
  · exact Plain.append (by decide) h

/-- **The words that the parser of `volatile_rootfs` reads.** -/
theorem parseStagedive_args {arg : CStr} (hne : arg ≠ []) (harg : Plain arg) :
    fields (splitStr ',' (clearingWords ++ arg)) = ["no_mem".toList, "no_file".toList,
      "no_overlay".toList, "no_tarball".toList, "no_low_tarball".toList, arg] := by
  have hclear : Unblank clearingWords := by decide
  have hunblank : Unblank (clearingWords ++ arg) := by
    intro c hc
    rcases List.mem_append.1 hc with hc | hc
    · exact hclear c hc
    · exact (harg c hc).2
  have hplain : ∀ w ∈ ["no_mem".toList, "no_file".toList, "no_overlay".toList,
      "no_tarball".toList, "no_low_tarball".toList], w ≠ [] ∧ Plain w := by decide
  have hwords : ∀ w ∈ ["no_mem".toList, "no_file".toList, "no_overlay".toList,
      "no_tarball".toList, "no_low_tarball".toList], w ≠ [] ∧ ∀ c ∈ w, (c == ',') = false := by
    intro w hw
    obtain ⟨hne, hw⟩ := hplain w hw
    exact ⟨hne, fun c hc => by simpa using (hw c hc).1⟩
  have hterminated : clearingWords = Lib.terminated ',' ["no_mem".toList, "no_file".toList,
      "no_overlay".toList, "no_tarball".toList, "no_low_tarball".toList] := by
    decide
  have hcomma : ∀ c ∈ arg, (c == ',') = false := by
    intro c hc
    simpa using (harg c hc).1
  rw [splitStr, Lib.Shell.fields_joined_fieldsAt hunblank, hterminated,
    Lib.runs_terminated_append (p := (· == ',')) rfl arg hwords, Lib.runs_word hne hcomma]
  rfl

/-! ## The parser of `volatile_rootfs` -/

section
variable {gh : GithubArchive} {others : List (CmdlineParser HookState)} {st : HookState}

/-- A word for `volatile_rootfs` is handled by its parser. -/
theorem doParseCmdline_volatileRootfs (value : CStr) (vars : ParseVars) :
    (doParseCmdline (registeredParsers gh others) 2 ["volatile_rootfs=".toList ++ value]
      ⟨vars, st, []⟩).bind ParseEnd.state? =
    (parseUnionMount (argIsRealFileUri gh) (fields (splitStr ',' value)) st.volatileRootfs).map
      fun c => { st with volatileRootfs := c } := by
  have hvars : setKeyValue ("volatile_rootfs=".toList ++ value) vars =
      { vars with key := "volatile_rootfs".toList, value, haveValue := true } := rfl
  have hbase : ∀ args vars st, vars.key = "volatile_rootfs".toList →
      parseUnionMountBase args vars st = some (false, vars, st) := by
    intro args vars st hkey
    rw [parseUnionMountBase, hkey]
    rfl
  have hstorage : ∀ args vars st, vars.key = "volatile_rootfs".toList →
      parseStorageLayersHook args vars st = some (false, vars, st) := by
    intro args vars st hkey
    rw [parseStorageLayersHook, parseStorageLayers, hkey]
    rfl
  have hvolatile : ∀ args vars st, vars.key = "volatile_rootfs".toList →
      parseVolatileRootfs gh args vars st = (parseUnionMount (argIsRealFileUri gh)
        (fields vars.valueComponents) st.volatileRootfs).map
          fun c => (true, vars, { st with volatileRootfs := c }) := by
    intro args vars st hkey
    rw [parseVolatileRootfs, parseRemuxKey, if_pos hkey, Option.map_map]
    rfl
  rw [doParseCmdline]
  dsimp only
  rw [hvars, if_neg (by simp)]
  rw [registeredParsers, forParsers, hbase _ _ _ rfl]
  dsimp only
  rw [if_neg (by simp), forParsers, hstorage _ _ _ rfl]
  dsimp only
  rw [if_neg (by simp), forParsers, hvolatile _ _ _ rfl]
  dsimp only
  cases parseUnionMount (argIsRealFileUri gh) (fields (splitStr ',' value)) st.volatileRootfs with
  | none => rfl
  | some c => rfl

/-- What the clearing words leave of a configuration. -/
def cleared (c : UnionConfig) : UnionConfig :=
  assignAll [(.backingMem, []), (.overlayFiles, []), (.overlayIncremental, "n".toList),
    (.tarballFiles, []), (.tarballLowlayerFiles, [])] c

/-- `no_file` is no word of the parser, which does not even take it for a file uri. -/
theorem unionArm_noFile (c : UnionConfig) :
    (unionArm "no_file".toList).run (argIsRealFileUri gh) c = some c := by
  have harm : unionArm "no_file".toList = .fileUri "no_file".toList := by decide
  have hcheck : argIsRealFileUri gh "no_file".toList = some none := rfl
  rw [harm, run_fileUri, hcheck]
  rfl

theorem parseUnionMount_cleared (arg : CStr) (c : UnionConfig) :
    parseUnionMount (argIsRealFileUri gh) ["no_mem".toList, "no_file".toList,
      "no_overlay".toList, "no_tarball".toList, "no_low_tarball".toList, arg] c =
    (unionArm arg).run (argIsRealFileUri gh) (cleared c) := by
  have hmem : unionArm "no_mem".toList = .assign [(.backingMem, [])] := by decide
  have hoverlay : unionArm "no_overlay".toList =
      .assign [(.overlayFiles, []), (.overlayIncremental, "n".toList)] := by decide
  have htarball : unionArm "no_tarball".toList = .assign [(.tarballFiles, [])] := by decide
  have hlow : unionArm "no_low_tarball".toList = .assign [(.tarballLowlayerFiles, [])] := by decide
  rw [parseUnionMount_cons, hmem, run_assign, Option.bind_some]
  rw [parseUnionMount_cons, unionArm_noFile, Option.bind_some]
  rw [parseUnionMount_cons, hoverlay, run_assign, Option.bind_some]
  rw [parseUnionMount_cons, htarball, run_assign, Option.bind_some]
  rw [parseUnionMount_cons, hlow, run_assign, Option.bind_some]
  rw [parseUnionMount_cons]
  exact Option.bind_fun_some _

/-- The configuration that a squashfs file leads to. -/
theorem run_squashfs {uri : CStr} {c c' : UnionConfig}
    (hrun : (unionArm (StageImage.squashfs uri).word).run (argIsRealFileUri gh) c = some c') :
    c' = setFile c ((StageImage.squashfs uri).baseFile gh) := by
  have harm : unionArm ("file=".toList ++ uri) = .fileUri ("file=".toList ++ uri) := by rfl
  rw [word_squashfs, harm, run_fileUri] at hrun
  rw [StageImage.baseFile, word_squashfs]
  cases hcheck : argIsRealFileUri gh ("file=".toList ++ uri) with
  | none => rw [hcheck] at hrun; cases hrun
  | some r =>
    rw [hcheck] at hrun
    exact (Option.some.inj hrun).symm

/-- The configuration that a low-layer tarball leads to, if there is no other. -/
theorem run_lowTarball {uri : CStr} {c c' : UnionConfig} (hc : c .tarballLowlayerFiles = [])
    (hrun : (unionArm (StageImage.lowTarball uri).word).run (argIsRealFileUri gh) c = some c') :
    c' .tarballLowlayerFiles = (StageImage.lowTarball uri).lowTarballs gh ∧
      ∀ var, var ≠ .tarballLowlayerFiles → c' var = c var := by
  cases uri with
  | nil =>
    have harm : unionArm "low_tarball=".toList = .assign [(.tarballLowlayerFiles, [])] := by decide
    have hword : (StageImage.lowTarball []).word = "low_tarball=".toList := List.append_nil _
    rw [hword, harm, run_assign] at hrun
    obtain rfl := Option.some.inj hrun
    exact ⟨rfl, fun var hvar => Function.update_of_ne hvar _ _⟩
  | cons x v =>
    have hmem : ("low_tarball=", UnionVar.tarballLowlayerFiles) ∈ uriPrefixes := by decide
    rw [word_lowTarball, unionArm_uri hmem x v (by simp), run_addUri] at hrun
    rw [StageImage.lowTarballs]
    cases hcheck : argIsRealFileUri gh (x :: v) with
    | none => rw [hcheck] at hrun; cases hrun
    | some r =>
      rw [hcheck] at hrun
      obtain rfl := Option.some.inj hrun
      cases r with
      | none => exact ⟨hc, fun _ _ => rfl⟩
      | some u =>
        refine ⟨?_, fun var hvar => Function.update_of_ne hvar _ _⟩
        show Function.update c .tarballLowlayerFiles (appendUri _ u) .tarballLowlayerFiles = u
        rw [Function.update_self, hc]
        rfl

/-- **Only the image is left** unless there is a base file that it does not replace. -/
theorem onlyImage_iff {image : StageImage} {c c' : UnionConfig}
    (hrun : (unionArm image.word).run (argIsRealFileUri gh) (cleared c) = some c') :
    OnlyImage gh image c' ↔ NoBaseFile c ∨ (image.baseFile gh).isSome = true := by
  have hfile : cleared c .file = c .file := rfl
  cases image with
  | squashfs uri =>
    obtain rfl := run_squashfs hrun
    have hother : ∀ var, var ≠ .file →
        setFile (cleared c) ((StageImage.squashfs uri).baseFile gh) var = cleared c var :=
      fun var hvar => setFile_of_ne _ hvar
    cases hbase : (StageImage.squashfs uri).baseFile gh with
    | none =>
      rw [or_iff_left (by simp)]
      constructor
      · intro h
        exact h.file.resolve_right (by rw [hbase]; simp)
      · intro h
        exact ⟨rfl, rfl, rfl, rfl, .inl h⟩
    | some u =>
      rw [hbase] at hother
      refine iff_of_true ⟨?_, ?_, ?_, ?_, .inr ?_⟩ (.inr rfl)
      · rw [hother _ (by simp)]; rfl
      · rw [hother _ (by simp)]; rfl
      · rw [hother _ (by simp)]; rfl
      · rw [hother _ (by simp)]; rfl
      · rw [hbase, setFile_file]; rfl
  | lowTarball uri =>
    obtain ⟨hlow, hother⟩ := run_lowTarball rfl hrun
    have hbase : (StageImage.lowTarball uri).baseFile gh = none := rfl
    have hfile' : c' .file = c .file := hother _ (by simp)
    rw [hbase, or_iff_left (by simp)]
    constructor
    · intro h
      have hno := h.file.resolve_right (by rw [hbase]; simp)
      rwa [NoBaseFile, hfile'] at hno
    · intro h
      refine ⟨?_, ?_, ?_, hlow, .inl (by rwa [NoBaseFile, hfile'])⟩
      · rw [hother _ (by simp)]; rfl
      · rw [hother _ (by simp)]; rfl
      · rw [hother _ (by simp)]; rfl

end

/-! ## Replacing the layers -/

/-- **Stagedive replaces the layers** exactly if no base file is configured before, or
    the image is one. -/
theorem replacesLayers_iff {gh : GithubArchive} {env : StagediveEnv}
    {others : List (CmdlineParser HookState)} {vars : ParseVars} {st st' : HookState}
    {image : StageImage} (hvalue : Unblank vars.value) (himage : SelectsImage env vars.value image)
    (hrun : parseStagediveStagedive gh env others vars st = some st') :
    OnlyImage gh image st'.volatileRootfs ↔
      NoBaseFile st.volatileRootfs ∨ (image.baseFile gh).isSome = true := by
  obtain ⟨file, autoset, hfile, hword⟩ := himage
  have harg := plain_splitStagedive hvalue
  rw [parseStagediveStagedive] at hrun
  dsimp only at hrun
  split_ifs at hrun with hprofile
  rw [hfile] at hrun
  dsimp only at hrun
  have hplain : Plain image.word := by
    rw [← hword]
    exact plain_stageArg (plain_stageFile (env.plain_profile _ hprofile) harg hfile)
  have hne : image.word ≠ [] := StageImage.word_ne_nil image
  rw [hword, if_neg hne] at hrun
  rw [doParseCmdline_volatileRootfs, parseStagedive_args hne hplain,
    parseUnionMount_cleared] at hrun
  obtain ⟨c', hc', rfl⟩ := Option.map_eq_some_iff.1 hrun
  exact onlyImage_iff hc'

/-- A machine with a profile for Gentoo stages. -/
def gentooEnv : StagediveEnv where
  arch := "x86_64".toList
  altArch := "amd64".toList
  isProfile type := type = "gentoo-stage3".toList
  plain_altArch := by decide
  plain_profile type h := by
    rw [of_decide_eq_true h]
    decide

/-- The hooks after some parameters `volatile_rootfs`. -/
def gentooHooks (args : List CStr) : Option HookState :=
  (parseUnionMount (argIsRealFileUri githubArchive) args .init).map fun c =>
    ⟨[], ⟨true, true, true⟩, c, [], []⟩

/-- The value of a stagedive parameter. -/
def stagediveVars (value : CStr) : ParseVars := ⟨"stagedive".toList, value, true, [], 1⟩

theorem replacesLayers_tarball : ∃ st st', gentooHooks ["no_mem".toList] = some st ∧
    parseStagediveStagedive githubArchive gentooEnv [] (stagediveVars "/new/root.tar.gz".toList)
      st = some st' ∧
    OnlyImage githubArchive (.lowTarball "/new/root.tar.gz".toList) st'.volatileRootfs := by
  have hrun : ((gentooHooks ["no_mem".toList]).bind fun st =>
      (parseStagediveStagedive githubArchive gentooEnv []
        (stagediveVars "/new/root.tar.gz".toList) st).map fun _ => st.volatileRootfs .file) =
      some [] := by
    decide
  obtain ⟨st, hst, hrun⟩ := Option.bind_eq_some_iff.1 hrun
  obtain ⟨st', hst', hfile⟩ := Option.map_eq_some_iff.1 hrun
  have hvalue : Unblank (stagediveVars "/new/root.tar.gz".toList).value := by decide
  have himage : SelectsImage gentooEnv "/new/root.tar.gz".toList
      (.lowTarball "/new/root.tar.gz".toList) := ⟨_, _, rfl, by decide⟩
  exact ⟨st, st', hst, hst', (replacesLayers_iff hvalue himage hst').2 (.inl (.inl hfile))⟩

/-- A base file that has been given before stays. -/
theorem replacesLayers_staleFile : ∃ st st', gentooHooks ["/old/usr.sfs".toList] = some st ∧
    parseStagediveStagedive githubArchive gentooEnv [] (stagediveVars "/new/root.tar.gz".toList)
      st = some st' ∧
    SelectsImage gentooEnv "/new/root.tar.gz".toList (.lowTarball "/new/root.tar.gz".toList) ∧
    ¬ OnlyImage githubArchive (.lowTarball "/new/root.tar.gz".toList) st'.volatileRootfs := by
  have hrun : ((gentooHooks ["/old/usr.sfs".toList]).bind fun st =>
      (parseStagediveStagedive githubArchive gentooEnv []
        (stagediveVars "/new/root.tar.gz".toList) st).map fun st' => st'.volatileRootfs .file) =
      some "/old/usr.sfs".toList := by
    decide
  obtain ⟨st, hst, hrun⟩ := Option.bind_eq_some_iff.1 hrun
  obtain ⟨st', hst', hfile⟩ := Option.map_eq_some_iff.1 hrun
  refine ⟨st, st', hst, hst', ⟨_, _, rfl, by decide⟩, fun h => ?_⟩
  rcases h.file with h | h
  · rw [NoBaseFile, hfile] at h
    exact absurd h (by simp)
  · cases h

end Fischstaebchen
