/-
  The parser of the union mount parameters
  (`union_mount_base/metascript/union_mount_parser.mscript`).

  The arguments of a parameter such as `volatile_rootfs` are read one after the
  other by a single `case` statement.  There is no callback parser; the flag file is
  not modelled.

  * `unionArm_spec`: which arm of the `case` statement an argument reaches.
  * `documentedStep_iff`: when an argument has the documented effect.
  * `documentedRun_iff`: the runs in which each configuration is the documented one.
-/
import Fischstaebchen.Lib.Script
import Fischstaebchen.Overlay.FileUri
import Fischstaebchen.Overlay.ParseCmdline

namespace Fischstaebchen

open Lib.Shell (caseOf joined selectArm)

/-! ## The parser -/

/-- The variables of a union mount, `@V@_<var>`. -/
inductive UnionVar
  | file
  | overlayFiles
  | tarballFiles
  | tarballLowlayerFiles
  | backingDisk
  | backingDiskType
  | backingDiskOpts
  | backingMem
  | backingMemSize
  | copyFilesToMem
  | overlayIncremental
  | wantRotateFile
  | wantResquash
  deriving DecidableEq

/-- The values of the variables. -/
abbrev UnionConfig := UnionVar → CStr

/-- The values before any parameter. -/
def UnionConfig.init : UnionConfig
  | .backingMem => "zram".toList
  | _ => []

/-- What the arms of the `case` statement do. -/
inductive UnionArm
  /-- They assign values to variables, -/
  | assign (values : List (UnionVar × CStr))
  /-- handle the base file, -/
  | base (v0 : CStr)
  /-- add a file uri to a list, -/
  | addUri (var : UnionVar) (arg : CStr)
  /-- add backing memory, -/
  | rw
  /-- or look for an implicit file uri. -/
  | fileUri (arg : CStr)
  deriving DecidableEq

open UnionVar UnionArm in
/-- The arms of the `case` statement of `__parse_@F@`, but the last. -/
def unionArms : List (List String × (CStr → UnionArm)) :=
  let yes := "y".toList
  let no := "n".toList
  [ -- base squashfs params
    (["auto"], fun _ => assign [(file, "auto".toList)]),
    (["nofile"], fun _ => assign [(file, "none".toList)]),
    (["base=*"], fun arg => base (valueOf arg)),
    (["volatile", "copy", "import"], fun _ => assign [(copyFilesToMem, yes)]),
    (["no_volatile", "no_copy", "no_import"], fun _ => assign [(copyFilesToMem, no)]),
    (["rotate", "rot"], fun _ => assign [(wantRotateFile, yes)]),
    (["no_rotate"], fun _ => assign [(wantRotateFile, no)]),
    (["resquash"], fun _ => assign [(wantResquash, yes)]),
    (["no_resquash"], fun _ => assign [(wantResquash, no)]),
    -- overlay squashfs params
    (["overlay=", "no_overlay"], fun _ => assign [(overlayFiles, []), (overlayIncremental, no)]),
    (["overlay=incremental"], fun _ => assign [(overlayIncremental, yes)]),
    (["overlay=*"], fun arg => addUri overlayFiles (valueOf arg)),
    -- low-layer tarball files (below squashfs layer)
    (["low_tarball=", "ltb=", "no_low_tarball", "no_ltb"],
      fun _ => assign [(tarballLowlayerFiles, [])]),
    (["low_tarball=*", "ltb=*"], fun arg => addUri tarballLowlayerFiles (valueOf arg)),
    -- tarball files
    (["tarball=", "tb=", "no_tarball", "no_tb"], fun _ => assign [(tarballFiles, [])]),
    (["tarball=*", "tb=*"], fun arg => addUri tarballFiles (valueOf arg)),
    -- backing disk
    (["disk=", "nodisk", "no_disk"], fun _ => assign [(backingDisk, [])]),
    (["disk=*"], fun arg => assign [(backingDisk, valueOf arg)]),
    (["disk_type=*"], fun arg => assign [(backingDiskType, valueOf arg)]),
    (["disk_opts", "disk_flags=*"], fun arg => assign [(backingDiskOpts, valueOf arg)]),
    -- backing memory
    (["mem=", "nomem", "no_mem", "nonmem"], fun _ => assign [(backingMem, [])]),
    (["mem"], fun _ => assign [(backingMem, "zram".toList)]),
    (["mem=*"], fun arg => assign [(backingMem, valueOf arg)]),
    (["mem_size=*", "size=*"], fun arg => assign [(backingMemSize, valueOf arg)]),
    -- "special" parameters
    (["rw"], fun _ => rw),
    (["cam"], fun _ =>
      assign [(file, "auto".toList), (backingMem, "zram".toList), (copyFilesToMem, yes)])]

/-- The arm of `__parse_@F@` for an argument. -/
def unionArm (arg : CStr) : UnionArm :=
  if arg = "yes".toList then .assign []
  else
    match selectArm unionArms arg with
    | some body => body arg
    | none => .fileUri arg

/-- Assigns values one after the other. -/
def assignAll (values : List (UnionVar × CStr)) (c : UnionConfig) : UnionConfig :=
  values.foldl (fun c value => Function.update c value.1 value.2) c

/-- `[ -z "${files}" ]`: a uri is appended to a list of uris. -/
def appendUri (files uri : CStr) : CStr := if files = [] then uri else files ++ ' ' :: uri

/-- A file uri becomes the base file. -/
def setFile (c : UnionConfig) (r : Option CStr) : UnionConfig :=
  r.elim c fun uri => Function.update c .file uri

section
variable (check : CStr → Option (Option CStr))

/-- An arm, for the function `arg_is_real_file_uri`; `none` if it kills the process. -/
def UnionArm.run (c : UnionConfig) : UnionArm → Option UnionConfig
  | .assign values => some (assignAll values c)
  | .base v0 =>
    -- `none` and `auto` are only put into `v0`
    if v0 = [] ∨ v0 = "auto".toList ∨ v0 = "none".toList then some c
    else (check v0).map (setFile c)
  | .addUri var arg =>
    (check arg).map fun r => r.elim c fun uri => Function.update c var (appendUri (c var) uri)
  | .rw =>
    some (if c .backingDisk = [] ∧ c .backingMem = [] then
      Function.update c .backingMem "zram".toList else c)
  | .fileUri arg => (check arg).map (setFile c)

/-- `__parse_@F@`; `none` if it kills the process. -/
def parseUnionMount (args : List CStr) (c : UnionConfig) : Option UnionConfig :=
  args.foldlM (fun c arg => (unionArm arg).run check c) c

end

@[simp] theorem run_assign (check : CStr → Option (Option CStr)) (c : UnionConfig)
    (values : List (UnionVar × CStr)) :
    (UnionArm.assign values).run check c = some (assignAll values c) := rfl

@[simp] theorem run_addUri (check : CStr → Option (Option CStr)) (c : UnionConfig)
    (var : UnionVar) (arg : CStr) : (UnionArm.addUri var arg).run check c =
      (check arg).map fun r => r.elim c fun uri =>
        Function.update c var (appendUri (c var) uri) := rfl

@[simp] theorem run_fileUri (check : CStr → Option (Option CStr)) (c : UnionConfig) (arg : CStr) :
    (UnionArm.fileUri arg).run check c = (check arg).map (setFile c) := rfl

theorem parseUnionMount_cons (check : CStr → Option (Option CStr)) (arg : CStr)
    (args : List CStr) (c : UnionConfig) : parseUnionMount check (arg :: args) c =
      ((unionArm arg).run check c).bind (parseUnionMount check args) :=
  List.foldlM_cons

/-! ## The documented configuration -/

/-- The arguments that are file uris, with their canonical form, for an
    `arg_is_real_file_uri` that does not kill the process. -/
structure FileUris where
  uriOf : CStr → Option CStr
  nonempty : ∀ {arg uri}, uriOf arg = some uri → uri ≠ []

/-- `arg_is_real_file_uri`, where it does not kill the process. -/
def FileUris.real (gh : GithubArchive) : FileUris where
  uriOf arg := (argIsRealFileUri gh arg).join
  nonempty h := argIsRealFileUri_ne_nil (Option.join_eq_some_iff.1 h)

/-- The words that are parameters. -/
def paramWords : List String :=
  ["yes", "auto", "nofile", "volatile", "copy", "import", "no_volatile", "no_copy", "no_import",
    "rotate", "rot", "no_rotate", "resquash", "no_resquash", "no_overlay", "no_low_tarball",
    "no_ltb", "no_tarball", "no_tb", "nodisk", "no_disk", "disk_opts", "nomem", "no_mem", "nonmem",
    "mem", "rw", "cam"]

/-- What the parameters with a value start with. -/
def paramPrefixes : List String :=
  ["base=", "overlay=", "low_tarball=", "ltb=", "tarball=", "tb=", "disk=", "disk_type=",
    "disk_opts=", "disk_flags=", "mem=", "mem_size=", "size="]

/-- The argument is a parameter, and so no implicit file uri. -/
def IsParameter (arg : CStr) : Prop :=
  (∃ w ∈ paramWords, arg = w.toList) ∨ ∃ p ∈ paramPrefixes, p.toList <+: arg

instance (arg : CStr) : Decidable (IsParameter arg) := inferInstanceAs (Decidable (_ ∨ _))

/-- The value of a parameter with one of the prefixes. -/
def givenValue (prefixes : List String) (arg : CStr) : Option CStr :=
  prefixes.findSome? fun p => strStartswith arg p.toList

/-- A list of file uris. -/
structure UriList where
  var : UnionVar
  /-- The arguments that clear the list. -/
  clears : List String
  prefixes : List String
  /-- The arguments with such a prefix that give no uri. -/
  keywords : List String

def overlayList : UriList :=
  ⟨.overlayFiles, ["overlay=", "no_overlay"], ["overlay="], ["overlay=incremental"]⟩

def tarballList : UriList :=
  ⟨.tarballFiles, ["tarball=", "tb=", "no_tarball", "no_tb"], ["tarball=", "tb="], []⟩

def lowTarballList : UriList :=
  ⟨.tarballLowlayerFiles, ["low_tarball=", "ltb=", "no_low_tarball", "no_ltb"],
    ["low_tarball=", "ltb="], []⟩

def uriLists : List UriList := [overlayList, tarballList, lowTarballList]

/-- The argument clears the list. -/
def UriList.isClear (L : UriList) (arg : CStr) : Bool := L.clears.any fun w => arg = w.toList

section
variable (R : FileUris)

/-- The base file that an argument selects. -/
def fileSetting (arg : CStr) : Option CStr :=
  if arg ∈ ["auto", "cam", "base=auto"].map String.toList then some "auto".toList
  else if arg ∈ ["nofile", "base=none", "base="].map String.toList then some "none".toList
  else
    match givenValue ["base="] arg with
    | some v => R.uriOf v
    | none => if IsParameter arg then none else R.uriOf arg

/-- The mount options that an argument gives. -/
def optsSetting (arg : CStr) : Option CStr := givenValue ["disk_opts=", "disk_flags="] arg

/-- The uri that an argument gives for the list. -/
def UriList.given (L : UriList) (arg : CStr) : Option CStr :=
  if arg ∈ L.keywords.map String.toList then none else (givenValue L.prefixes arg).bind R.uriOf

/-- The uris given since the list has last been cleared. -/
def UriList.uris (L : UriList) (args : List CStr) : List CStr :=
  (args.rtakeWhile fun arg => !L.isClear arg).filterMap (L.given R)

/-- **The documented configuration** after the arguments: the last one that selects a
    base file or gives mount options wins, and each list has the uris given since it
    has last been cleared. -/
structure IsDocumented (args : List CStr) (c : UnionConfig) : Prop where
  file : c .file = (Lib.lastDecision (fileSetting R) args).getD []
  lists : ∀ L ∈ uriLists, c L.var = joined (L.uris R args)
  opts : c .backingDiskOpts = (Lib.lastDecision optsSetting args).getD []

/-- The parser, for a function `arg_is_real_file_uri` that does not kill the process. -/
def FileUris.parse (args : List CStr) : Option UnionConfig :=
  parseUnionMount (fun arg => some (R.uriOf arg)) args .init

/-- Where the `case` statement does what is documented: a special base file is
    selected already, `disk_opts` stands with its value and is no file uri. -/
structure IsHandled (c : UnionConfig) (arg : CStr) : Prop where
  base_none : arg ∈ ["base=", "base=none"].map String.toList → c .file = "none".toList
  base_auto : arg = "base=auto".toList → c .file = "auto".toList
  disk_opts : arg = "disk_opts".toList → c .backingDiskOpts = "disk_opts".toList
  disk_opts_value : ∀ opts, arg = "disk_opts=".toList ++ opts →
    c .backingDiskOpts = opts ∧ ∀ uri, R.uriOf arg = some uri → c .file = uri

end

/-! ## The arms -/

open UnionVar in
/-- What the words assign. -/
def wordValues : List (String × List (UnionVar × String)) :=
  [("yes", []), ("auto", [(file, "auto")]), ("nofile", [(file, "none")]),
    ("volatile", [(copyFilesToMem, "y")]), ("copy", [(copyFilesToMem, "y")]),
    ("import", [(copyFilesToMem, "y")]), ("no_volatile", [(copyFilesToMem, "n")]),
    ("no_copy", [(copyFilesToMem, "n")]), ("no_import", [(copyFilesToMem, "n")]),
    ("rotate", [(wantRotateFile, "y")]), ("rot", [(wantRotateFile, "y")]),
    ("no_rotate", [(wantRotateFile, "n")]), ("resquash", [(wantResquash, "y")]),
    ("no_resquash", [(wantResquash, "n")]),
    ("overlay=", [(overlayFiles, ""), (overlayIncremental, "n")]),
    ("no_overlay", [(overlayFiles, ""), (overlayIncremental, "n")]),
    ("overlay=incremental", [(overlayIncremental, "y")]),
    ("low_tarball=", [(tarballLowlayerFiles, "")]), ("ltb=", [(tarballLowlayerFiles, "")]),
    ("no_low_tarball", [(tarballLowlayerFiles, "")]), ("no_ltb", [(tarballLowlayerFiles, "")]),
    ("tarball=", [(tarballFiles, "")]), ("tb=", [(tarballFiles, "")]),
    ("no_tarball", [(tarballFiles, "")]), ("no_tb", [(tarballFiles, "")]),
    ("nodisk", [(backingDisk, "")]), ("no_disk", [(backingDisk, "")]),
    ("nomem", [(backingMem, "")]), ("no_mem", [(backingMem, "")]),
    ("nonmem", [(backingMem, "")]), ("mem", [(backingMem, "zram")]),
    ("cam", [(file, "auto"), (backingMem, "zram"), (copyFilesToMem, "y")])]

open UnionVar in
/-- The variables that get the value of a parameter. -/
def valuePrefixes : List (String × UnionVar) :=
  [("disk=", backingDisk), ("disk_type=", backingDiskType), ("disk_flags=", backingDiskOpts),
    ("mem=", backingMem), ("mem_size=", backingMemSize), ("size=", backingMemSize)]

open UnionVar in
/-- The lists that get the file uri of a parameter. -/
def uriPrefixes : List (String × UnionVar) :=
  [("overlay=", overlayFiles), ("low_tarball=", tarballLowlayerFiles),
    ("ltb=", tarballLowlayerFiles), ("tarball=", tarballFiles), ("tb=", tarballFiles)]

/-- The forms of the arguments, with the arms that they reach. -/
inductive ArgForm : CStr → UnionArm → Prop
  | word {w values} (h : (w, values) ∈ wordValues) :
      ArgForm w.toList (.assign (values.map fun value => (value.1, value.2.toList)))
  | value {p var} (h : (p, var) ∈ valuePrefixes) (v : CStr) :
      ArgForm (p.toList ++ v) (.assign [(var, v)])
  | uri {p var} (h : (p, var) ∈ uriPrefixes) (c : Char) (v : CStr)
      (hword : p.toList ++ c :: v ≠ "overlay=incremental".toList) :
      ArgForm (p.toList ++ c :: v) (.addUri var (c :: v))
  | base (v : CStr) : ArgForm ("base=".toList ++ v) (.base v)
  | rw : ArgForm "rw".toList .rw
  /-- The pattern for the value of `disk_opts` lacks it. -/
  | diskOpts : ArgForm "disk_opts".toList (.assign [(.backingDiskOpts, "disk_opts".toList)])
  | diskOptsValue (v : CStr) :
      ArgForm ("disk_opts=".toList ++ v) (.fileUri ("disk_opts=".toList ++ v))
  | fileUri {arg} (h : ¬ IsParameter arg) : ArgForm arg (.fileUri arg)

theorem unionArm_word : ∀ e ∈ wordValues, unionArm e.1.toList =
    .assign (e.2.map fun value => (value.1, value.2.toList)) := by
  decide +kernel

theorem unionArm_value {p : String} {var : UnionVar} (h : (p, var) ∈ valuePrefixes) (v : CStr) :
    unionArm (p.toList ++ v) = .assign [(var, v)] := by
  simp only [valuePrefixes, List.mem_cons, List.not_mem_nil, or_false, Prod.mk.injEq] at h
  rcases h with ⟨rfl, rfl⟩ | ⟨rfl, rfl⟩ | ⟨rfl, rfl⟩ | ⟨rfl, rfl⟩ | ⟨rfl, rfl⟩ | ⟨rfl, rfl⟩
  all_goals cases v <;> rfl

theorem unionArm_overlay {c : Char} {v : CStr}
    (h : "overlay=".toList ++ c :: v ≠ "overlay=incremental".toList) :
    unionArm ("overlay=".toList ++ c :: v) = .addUri .overlayFiles (c :: v) := by
  have hword : caseOf ("overlay=".toList ++ c :: v) ["overlay=incremental"] = false := by
    by_contra hcase
    obtain ⟨w, hw, hs⟩ := (Lib.Shell.matches_words (by decide)).1 (eq_true_of_ne_false hcase)
    rw [List.mem_singleton.1 hw] at hs
    exact h hs
  have hbefore : (unionArms.take 11).all
      (fun arm => !caseOf ("overlay=".toList ++ c :: v) arm.1) = true := by
    rw [show unionArms.take 11 = unionArms.take 10 ++ (unionArms.drop 10).take 1 from rfl,
      List.all_append]
    have hlast : ((unionArms.drop 10).take 1).all
        (fun arm => !caseOf ("overlay=".toList ++ c :: v) arm.1) =
          !caseOf ("overlay=".toList ++ c :: v) ["overlay=incremental"] := Bool.and_true _
    rw [hlast, hword]
    rfl
  have harm : selectArm unionArms ("overlay=".toList ++ c :: v) =
      some fun arg => .addUri .overlayFiles (valueOf arg) :=
    Lib.Shell.selectArm_of_split rfl hbefore rfl
  rw [unionArm, if_neg (by simp), harm]
  rfl

theorem unionArm_uri {p : String} {var : UnionVar} (h : (p, var) ∈ uriPrefixes) (c : Char)
    (v : CStr) (hword : p.toList ++ c :: v ≠ "overlay=incremental".toList) :
    unionArm (p.toList ++ c :: v) = .addUri var (c :: v) := by
  simp only [uriPrefixes, List.mem_cons, List.not_mem_nil, or_false, Prod.mk.injEq] at h
  rcases h with ⟨rfl, rfl⟩ | ⟨rfl, rfl⟩ | ⟨rfl, rfl⟩ | ⟨rfl, rfl⟩ | ⟨rfl, rfl⟩
  · exact unionArm_overlay hword
  all_goals rfl

/-- Each pattern is a parameter or the start of one. -/
theorem unionArms_patterns : ∀ patterns ∈ unionArms.map Prod.fst, ∀ p ∈ patterns,
    Lib.Shell.IsLiteral p.toList ∧ IsParameter p.toList ∨
      ∃ q ∈ paramPrefixes, Lib.Shell.IsLiteral q.toList ∧ p.toList = q.toList ++ ['*'] := by
  decide +kernel

theorem unionArm_fileUri {arg : CStr} (h : ¬ IsParameter arg) : unionArm arg = .fileUri arg := by
  have hnone : selectArm unionArms arg = none := by
    rw [Lib.Shell.selectArm_eq_none]
    intro arm harm
    by_contra hcase
    obtain ⟨p, hp, hglob⟩ := List.any_eq_true.1 (eq_true_of_ne_false hcase)
    rcases unionArms_patterns arm.1 (List.mem_map_of_mem harm) p hp with
      ⟨hplain, hparam⟩ | ⟨q, hq, hplain, hpq⟩
    · rw [Lib.Shell.glob_word hplain] at hglob
      rw [hglob] at h
      exact h hparam
    · rw [hpq, List.map_append] at hglob
      obtain ⟨r, rfl, -⟩ := (Lib.Shell.glob_plain_append hplain _ _).1 hglob
      exact h (.inr ⟨q, hq, List.prefix_append _ _⟩)
  have hyes : arg ≠ "yes".toList := by
    rintro rfl
    exact h (.inl ⟨"yes", by decide, rfl⟩)
  rw [unionArm, if_neg hyes, hnone]

/-- The words are those whose values are known, or have an arm of their own. -/
theorem paramWords_values : ∀ w ∈ paramWords,
    w = "rw" ∨ w = "disk_opts" ∨ ∃ e ∈ wordValues, e.1 = w := by
  decide

/-- So are the prefixes. -/
theorem paramPrefixes_values : ∀ p ∈ paramPrefixes, p = "base=" ∨ p = "disk_opts=" ∨
    (∃ e ∈ valuePrefixes, e.1 = p) ∨
      ∃ e ∈ uriPrefixes, e.1 = p ∧ ∃ word ∈ wordValues, word.1 = p := by
  decide

/-- **Each argument has one of the forms**, and reaches its arm. -/
theorem unionArm_spec (arg : CStr) : ArgForm arg (unionArm arg) := by
  have hform : ∀ {w : String} {values}, (w, values) ∈ wordValues →
      ArgForm w.toList (unionArm w.toList) := fun hw => by
    rw [unionArm_word _ hw]
    exact .word hw
  by_cases hparam : IsParameter arg
  · rcases hparam with ⟨w, hw, rfl⟩ | ⟨p, hp, v, rfl⟩
    · rcases paramWords_values w hw with rfl | rfl | ⟨⟨w, values⟩, he, rfl⟩
      · exact .rw
      · exact .diskOpts
      · exact hform he
    · rcases paramPrefixes_values p hp with
        rfl | rfl | ⟨⟨p, var⟩, he, rfl⟩ | ⟨⟨_, var⟩, he, rfl, ⟨p, values⟩, hw, rfl⟩
      · exact .base v
      · exact .diskOptsValue v
      · rw [unionArm_value he v]
        exact .value he v
      · cases v with
        | nil =>
          rw [List.append_nil]
          exact hform hw
        | cons c v =>
          by_cases hword : p.toList ++ c :: v = "overlay=incremental".toList
          · rw [hword]
            have hvalues : ("overlay=incremental", [(UnionVar.overlayIncremental, "y")]) ∈
                wordValues := by decide
            exact hform hvalues
          · rw [unionArm_uri he c v hword]
            exact .uri he c v hword
  · rw [unionArm_fileUri hparam]
    exact .fileUri hparam

/-! ## One argument -/

/-- The value that is assigned last to a variable. -/
def assigned (var : UnionVar) (values : List (UnionVar × CStr)) : Option CStr :=
  Lib.lastDecision (fun value => if value.1 = var then some value.2 else none) values

theorem assignAll_apply (values : List (UnionVar × CStr)) (c : UnionConfig) (var : UnionVar) :
    assignAll values c var = (assigned var values).getD (c var) := by
  induction values generalizing c with
  | nil => rfl
  | cons value values ih =>
    have hcons : assignAll (value :: values) c =
        assignAll values (Function.update c value.1 value.2) := rfl
    rw [hcons, ih, assigned, assigned, Lib.lastDecision_cons]
    cases Lib.lastDecision (fun value => if value.1 = var then some value.2 else none) values with
    | some v => rfl
    | none =>
      rw [Option.getD_none, Option.none_or, Function.update_apply]
      split_ifs with h h' h'
      · rfl
      · exact absurd h.symm h'
      · exact absurd h'.symm h
      · rfl

section
variable {R : FileUris} {c c' : UnionConfig} {arg : CStr} {args : List CStr}

/-- What the argument does to a list. -/
def UriList.next (R : FileUris) (L : UriList) (arg files : CStr) : CStr :=
  if L.isClear arg then [] else (L.given R arg).elim files (appendUri files)

/-- The argument has the documented effect. -/
structure DocumentedStep (R : FileUris) (c : UnionConfig) (arg : CStr) (c' : UnionConfig) :
    Prop where
  file : c' .file = (fileSetting R arg).getD (c .file)
  lists : ∀ L ∈ uriLists, c' L.var = L.next R arg (c L.var)
  opts : c' .backingDiskOpts = (optsSetting arg).getD (c .backingDiskOpts)

/-- What is documented for the words. -/
theorem wordValues_documented : ∀ e ∈ wordValues,
    (IsParameter e.1.toList ∧ givenValue ["base="] e.1.toList = none ∧
      optsSetting e.1.toList = none ∧ strStartswith e.1.toList "disk_opts=".toList = none ∧
      e.1 ≠ "disk_opts") ∧
    assigned .file (e.2.map fun value => (value.1, value.2.toList)) =
      (if e.1.toList ∈ ["auto", "cam", "base=auto"].map String.toList then some "auto".toList
      else if e.1.toList ∈ ["nofile", "base=none", "base="].map String.toList then
        some "none".toList
      else none) ∧
    assigned .backingDiskOpts (e.2.map fun value => (value.1, value.2.toList)) = none ∧
    ∀ L ∈ uriLists, assigned L.var (e.2.map fun value => (value.1, value.2.toList)) =
        (if L.isClear e.1.toList then some [] else none) ∧
      (L.isClear e.1.toList = false → e.1.toList ∈ L.keywords.map String.toList ∨
        givenValue L.prefixes e.1.toList = none) := by
  decide +kernel

theorem fileSetting_param (hparam : IsParameter arg) (hbase : givenValue ["base="] arg = none) :
    fileSetting R arg = if arg ∈ ["auto", "cam", "base=auto"].map String.toList then
        some "auto".toList
      else if arg ∈ ["nofile", "base=none", "base="].map String.toList then some "none".toList
      else none := by
  rw [fileSetting, hbase]
  dsimp only
  rw [if_pos hparam]

/-- Only the base file and the options of the disk need care. -/
theorem isHandled_of (hbase : givenValue ["base="] arg = none)
    (hopts : strStartswith arg "disk_opts=".toList = none)
    (hne : arg ≠ "disk_opts".toList) : IsHandled R c arg where
  base_none h := by
    rcases List.mem_cons.1 h with rfl | h
    · cases hbase
    · rw [List.mem_singleton.1 h] at hbase
      cases hbase
  base_auto h := by
    rw [h] at hbase
    cases hbase
  disk_opts h := absurd h hne
  disk_opts_value opts h := by
    rw [strStartswith_eq_some.2 h] at hopts
    cases hopts

theorem documentedStep_word {w : String} {values : List (UnionVar × String)}
    (h : (w, values) ∈ wordValues) :
    DocumentedStep R c w.toList
      (assignAll (values.map fun value => (value.1, value.2.toList)) c) := by
  obtain ⟨⟨hparam, hbase, hopts, -, -⟩, hfile, hopts', hlists⟩ := wordValues_documented _ h
  refine ⟨?_, fun L hL => ?_, ?_⟩
  · rw [assignAll_apply, hfile, fileSetting_param hparam hbase]
  · obtain ⟨hassigned, hgiven⟩ := hlists L hL
    rw [assignAll_apply, hassigned, UriList.next]
    cases hclear : L.isClear w.toList with
    | true => rfl
    | false =>
      have hnone : L.given R w.toList = none := by
        rw [UriList.given]
        split_ifs with hkey
        · rfl
        · rw [(hgiven hclear).resolve_left hkey, Option.bind_none]
      rw [hnone]
      rfl
  · rw [assignAll_apply, hopts', hopts]

theorem documentedStep_value {p : String} {var : UnionVar} (h : (p, var) ∈ valuePrefixes)
    (v : CStr) : DocumentedStep R c (p.toList ++ v) (assignAll [(var, v)] c) := by
  simp only [valuePrefixes, List.mem_cons, List.not_mem_nil, or_false, Prod.mk.injEq] at h
  rcases h with ⟨rfl, rfl⟩ | ⟨rfl, rfl⟩ | ⟨rfl, rfl⟩ | ⟨rfl, rfl⟩ | ⟨rfl, rfl⟩ | ⟨rfl, rfl⟩
  all_goals
    refine ⟨rfl, fun L hL => ?_, rfl⟩
    simp only [uriLists, List.mem_cons, List.not_mem_nil, or_false] at hL
    rcases hL with rfl | rfl | rfl <;> rfl

theorem valuePrefixes_plain {p : String} {var : UnionVar} (h : (p, var) ∈ valuePrefixes)
    (v : CStr) : givenValue ["base="] (p.toList ++ v) = none ∧
      strStartswith (p.toList ++ v) "disk_opts=".toList = none ∧
      p.toList ++ v ≠ "disk_opts".toList := by
  simp only [valuePrefixes, List.mem_cons, List.not_mem_nil, or_false, Prod.mk.injEq] at h
  rcases h with ⟨rfl, -⟩ | ⟨rfl, -⟩ | ⟨rfl, -⟩ | ⟨rfl, -⟩ | ⟨rfl, -⟩ | ⟨rfl, -⟩
  all_goals exact ⟨rfl, rfl, by simp⟩

/-- What is documented for the file uris. -/
theorem uriPrefixes_documented {p : String} {var : UnionVar} (h : (p, var) ∈ uriPrefixes)
    {L : UriList} (hL : L ∈ uriLists) (x : Char) (v : CStr) :
    L.isClear (p.toList ++ x :: v) = false ∧
      (∀ w ∈ L.keywords.map String.toList, w = "overlay=incremental".toList) ∧
      givenValue L.prefixes (p.toList ++ x :: v) = if L.var = var then some (x :: v) else none := by
  simp only [uriPrefixes, List.mem_cons, List.not_mem_nil, or_false, Prod.mk.injEq] at h
  simp only [uriLists, List.mem_cons, List.not_mem_nil, or_false] at hL
  rcases h with ⟨rfl, rfl⟩ | ⟨rfl, rfl⟩ | ⟨rfl, rfl⟩ | ⟨rfl, rfl⟩ | ⟨rfl, rfl⟩ <;>
    rcases hL with rfl | rfl | rfl
  all_goals exact ⟨rfl, by decide, rfl⟩

theorem uriPrefixes_params : ∀ e ∈ uriPrefixes, e.1 ∈ paramPrefixes ∧ e.2 ≠ .file ∧
    e.2 ≠ .backingDiskOpts := by
  decide

/-- A file uri for a list is neither a base file nor an option. -/
theorem uriPrefixes_plain {p : String} {var : UnionVar} (h : (p, var) ∈ uriPrefixes) (v : CStr) :
    fileSetting R (p.toList ++ v) = none ∧ optsSetting (p.toList ++ v) = none ∧
      givenValue ["base="] (p.toList ++ v) = none ∧
      strStartswith (p.toList ++ v) "disk_opts=".toList = none ∧
      p.toList ++ v ≠ "disk_opts".toList := by
  have hparam : IsParameter (p.toList ++ v) :=
    .inr ⟨p, (uriPrefixes_params _ h).1, List.prefix_append _ _⟩
  have hbase : givenValue ["base="] (p.toList ++ v) = none ∧ optsSetting (p.toList ++ v) = none ∧
      strStartswith (p.toList ++ v) "disk_opts=".toList = none ∧
      p.toList ++ v ≠ "disk_opts".toList ∧
      p.toList ++ v ∉ ["auto", "cam", "base=auto"].map String.toList ∧
      p.toList ++ v ∉ ["nofile", "base=none", "base="].map String.toList := by
    simp only [uriPrefixes, List.mem_cons, List.not_mem_nil, or_false, Prod.mk.injEq] at h
    rcases h with ⟨rfl, -⟩ | ⟨rfl, -⟩ | ⟨rfl, -⟩ | ⟨rfl, -⟩ | ⟨rfl, -⟩
    all_goals exact ⟨rfl, rfl, rfl, by simp, by simp, by simp⟩
  obtain ⟨hbase, hopts, hstart, hne, hauto, hnone⟩ := hbase
  refine ⟨?_, hopts, hbase, hstart, hne⟩
  rw [fileSetting_param hparam hbase, if_neg hauto, if_neg hnone]

theorem documentedStep_uri {p : String} {var : UnionVar} (h : (p, var) ∈ uriPrefixes) {x : Char}
    {v : CStr} (hword : p.toList ++ x :: v ≠ "overlay=incremental".toList) :
    DocumentedStep R c (p.toList ++ x :: v) ((R.uriOf (x :: v)).elim c fun uri =>
      Function.update c var (appendUri (c var) uri)) := by
  obtain ⟨hfile, hopts, -, -, -⟩ := uriPrefixes_plain (R := R) h (x :: v)
  obtain ⟨-, hnefile, hneopts⟩ := uriPrefixes_params _ h
  have hother : ∀ other, other ≠ var → (R.uriOf (x :: v)).elim c (fun uri =>
      Function.update c var (appendUri (c var) uri)) other = c other := by
    intro other hne
    cases R.uriOf (x :: v) with
    | none => rfl
    | some uri => exact Function.update_of_ne hne _ _
  refine ⟨?_, fun L hL => ?_, ?_⟩
  · rw [hfile, hother _ hnefile.symm]
    rfl
  · obtain ⟨hclear, hkeywords, hgiven⟩ := uriPrefixes_documented h hL x v
    have hkey : p.toList ++ x :: v ∉ L.keywords.map String.toList := fun hmem =>
      hword (hkeywords _ hmem)
    rw [UriList.next, hclear, UriList.given, if_neg hkey, hgiven]
    by_cases hvar : L.var = var
    · rw [if_pos hvar, ← hvar, Option.bind_some]
      cases R.uriOf (x :: v) with
      | none => rfl
      | some uri => exact Function.update_self _ _ _
    · rw [if_neg hvar, hother _ hvar]
      rfl
  · rw [hopts, hother _ hneopts.symm]
    rfl

/-- An argument that no list knows. -/
theorem next_of_unlisted {L : UriList} (hclear : L.isClear arg = false)
    (hgiven : givenValue L.prefixes arg = none) (files : CStr) : L.next R arg files = files := by
  have hnone : L.given R arg = none := by
    rw [UriList.given, hgiven]
    split_ifs <;> rfl
  rw [UriList.next, hclear, hnone]
  rfl

theorem lists_of_unlisted (hunlisted : ∀ L ∈ uriLists, L.isClear arg = false ∧
    givenValue L.prefixes arg = none ∧ c' L.var = c L.var) :
    ∀ L ∈ uriLists, c' L.var = L.next R arg (c L.var) := by
  intro L hL
  obtain ⟨hclear, hgiven, hvar⟩ := hunlisted L hL
  rw [next_of_unlisted hclear hgiven, hvar]

theorem uriLists_vars : ∀ L ∈ uriLists, L.var ≠ .file ∧ L.var ≠ .backingDiskOpts := by decide

/-- Setting the base file changes neither the lists nor the options. -/
theorem setFile_of_ne (r : Option CStr) {var : UnionVar} (h : var ≠ .file) :
    setFile c r var = c var := by
  cases r with
  | none => rfl
  | some uri => exact Function.update_of_ne h _ _

theorem setFile_file (r : Option CStr) : setFile c r .file = r.getD (c .file) := by
  cases r with
  | none => rfl
  | some uri => simp [setFile]

/-- What `base=<file>` asks for. -/
theorem fileSetting_base (v : CStr) : fileSetting R ("base=".toList ++ v) =
    if v = "auto".toList then some "auto".toList
    else if v = [] ∨ v = "none".toList then some "none".toList else R.uriOf v := by
  have hauto : "base=".toList ++ v ∈ ["auto", "cam", "base=auto"].map String.toList ↔
      v = "auto".toList := by
    simp
  have hnone : "base=".toList ++ v ∈ ["nofile", "base=none", "base="].map String.toList ↔
      v = [] ∨ v = "none".toList := by
    simp [or_comm]
  rw [fileSetting]
  simp only [hauto, hnone]
  rfl

/-- The special values of `base=<file>` have to be there already. -/
theorem isHandled_base_iff (v : CStr) : IsHandled R c ("base=".toList ++ v) ↔
    (v = "auto".toList → c .file = "auto".toList) ∧
      (v = [] ∨ v = "none".toList → c .file = "none".toList) := by
  constructor
  · intro h
    exact ⟨fun hv => h.base_auto (by simpa using hv),
      fun hv => h.base_none (by simpa [or_comm] using hv)⟩
  · rintro ⟨h₁, h₂⟩
    refine ⟨fun hmem => h₂ (by simpa [or_comm] using hmem), fun he => h₁ (by simpa using he),
      fun he => ?_, fun opts he => ?_⟩
    · simp at he
    · simp at he

/-- `base=<file>`. -/
theorem documentedStep_base {v : CStr}
    (hrun : (UnionArm.base v).run (fun arg => some (R.uriOf arg)) c = some c') :
    DocumentedStep R c ("base=".toList ++ v) c' ↔ IsHandled R c ("base=".toList ++ v) := by
  have hunlisted : ∀ L ∈ uriLists, L.isClear ("base=".toList ++ v) = false ∧
      givenValue L.prefixes ("base=".toList ++ v) = none := by
    intro L hL
    simp only [uriLists, List.mem_cons, List.not_mem_nil, or_false] at hL
    rcases hL with rfl | rfl | rfl <;> exact ⟨rfl, rfl⟩
  have hother : ∀ var, var ≠ .file → c' var = c var := by
    intro var hvar
    rw [UnionArm.run] at hrun
    split_ifs at hrun
    · rw [← Option.some.inj hrun]
    · rw [← Option.some.inj hrun]
      exact setFile_of_ne _ hvar
  have hiff : DocumentedStep R c ("base=".toList ++ v) c' ↔
      c' .file = (fileSetting R ("base=".toList ++ v)).getD (c .file) := by
    refine ⟨fun h => h.file, fun h => ⟨h, lists_of_unlisted fun L hL => ?_, ?_⟩⟩
    · exact ⟨(hunlisted L hL).1, (hunlisted L hL).2, hother _ (uriLists_vars L hL).1⟩
    · exact hother _ (by simp)
  rw [hiff, isHandled_base_iff, fileSetting_base]
  rw [UnionArm.run] at hrun
  split_ifs at hrun with hspecial
  · obtain rfl := Option.some.inj hrun
    by_cases hv : v = "auto".toList
    · rw [if_pos hv]
      refine ⟨fun h => ⟨fun _ => h, fun hv' => ?_⟩, fun h => h.1 hv⟩
      rw [hv] at hv'
      exact absurd hv' (by simp)
    · have hv' : v = [] ∨ v = "none".toList := hspecial.imp id fun h => h.resolve_left hv
      rw [if_neg hv, if_pos hv']
      exact ⟨fun h => ⟨fun h' => absurd h' hv, fun _ => h⟩, fun h => h.2 hv'⟩
  · obtain rfl := Option.some.inj hrun
    rw [if_neg fun h => hspecial (.inr (.inl h)), if_neg fun h => hspecial (h.imp id .inr)]
    refine iff_of_true (setFile_file _) ⟨fun h => absurd (.inr (.inl h)) hspecial,
      fun h => absurd (h.imp id .inr) hspecial⟩

/-- `disk_opts=<options>` reaches the arm of the file uris. -/
theorem documentedStep_diskOptsValue {v : CStr}
    (hrun : (UnionArm.fileUri ("disk_opts=".toList ++ v)).run (fun arg => some (R.uriOf arg)) c =
      some c') :
    DocumentedStep R c ("disk_opts=".toList ++ v) c' ↔
      IsHandled R c ("disk_opts=".toList ++ v) := by
  have hc' : c' = setFile c (R.uriOf ("disk_opts=".toList ++ v)) := (Option.some.inj hrun).symm
  have hfile : fileSetting R ("disk_opts=".toList ++ v) = none := rfl
  have hopts : optsSetting ("disk_opts=".toList ++ v) = some v := rfl
  constructor
  · intro h
    refine ⟨fun hmem => ?_, fun he => ?_, fun he => ?_, fun opts he => ?_⟩
    · simp at hmem
    · simp at he
    · simp at he
    · obtain rfl : v = opts := List.append_cancel_left he
      have h₁ := h.opts
      have h₂ := h.file
      rw [hopts, hc', setFile_of_ne _ (by simp), Option.getD_some] at h₁
      rw [hfile, hc', setFile_file, Option.getD_none] at h₂
      refine ⟨h₁, fun uri huri => ?_⟩
      rw [huri] at h₂
      exact h₂.symm
  · intro h
    obtain ⟨hopts', huri⟩ := h.disk_opts_value v rfl
    refine ⟨?_, lists_of_unlisted fun L hL => ?_, ?_⟩
    · rw [hfile, hc', setFile_file, Option.getD_none]
      cases hr : R.uriOf ("disk_opts=".toList ++ v) with
      | none => rfl
      | some uri => exact (huri uri hr).symm
    · rw [hc', setFile_of_ne _ (uriLists_vars L hL).1]
      simp only [uriLists, List.mem_cons, List.not_mem_nil, or_false] at hL
      rcases hL with rfl | rfl | rfl <;> exact ⟨rfl, rfl, rfl⟩
    · rw [hopts, hc', setFile_of_ne _ (by simp), hopts']
      rfl

/-- What the lists know are parameters. -/
theorem uriLists_params : ∀ L ∈ uriLists, (∀ w ∈ L.clears, IsParameter w.toList) ∧
    ∀ p ∈ L.prefixes, p ∈ paramPrefixes := by
  decide

theorem givenValue_eq_none {prefixes : List String} (hprefixes : ∀ p ∈ prefixes, p ∈ paramPrefixes)
    (hparam : ¬ IsParameter arg) : givenValue prefixes arg = none := by
  rw [givenValue, List.findSome?_eq_none_iff]
  intro p hp
  rw [strStartswith_eq_none]
  exact fun hpre => hparam (.inr ⟨p, hprefixes p hp, hpre⟩)

/-- An implicit file uri. -/
theorem documentedStep_fileUri (hparam : ¬ IsParameter arg)
    (hrun : (UnionArm.fileUri arg).run (fun arg => some (R.uriOf arg)) c = some c') :
    DocumentedStep R c arg c' ∧ IsHandled R c arg := by
  have hc' : c' = setFile c (R.uriOf arg) := (Option.some.inj hrun).symm
  have hword : ∀ w : String, IsParameter w.toList → arg ≠ w.toList := by
    rintro w hw rfl
    exact hparam hw
  have hbase : givenValue ["base="] arg = none := givenValue_eq_none (by decide) hparam
  have hstart : strStartswith arg "disk_opts=".toList = none :=
    strStartswith_eq_none.2 fun hpre => hparam (.inr ⟨_, by decide, hpre⟩)
  have hfile : fileSetting R arg = R.uriOf arg := by
    have hspecial : ∀ ws : List String, (∀ w ∈ ws, IsParameter w.toList) →
        arg ∉ ws.map String.toList := by
      intro ws hws hmem
      obtain ⟨w, hw, he⟩ := List.mem_map.1 hmem
      exact hword w (hws w hw) he.symm
    rw [fileSetting, if_neg (hspecial _ (by decide)), if_neg (hspecial _ (by decide)), hbase]
    dsimp only
    rw [if_neg hparam]
  refine ⟨⟨?_, lists_of_unlisted fun L hL => ⟨?_, ?_, ?_⟩, ?_⟩, ?_⟩
  · rw [hfile, hc', setFile_file]
  · rw [UriList.isClear, List.any_eq_false]
    intro w hw he
    exact hword w ((uriLists_params L hL).1 w hw) (of_decide_eq_true he)
  · exact givenValue_eq_none (uriLists_params L hL).2 hparam
  · rw [hc', setFile_of_ne _ (uriLists_vars L hL).1]
  · rw [optsSetting, givenValue_eq_none (by decide) hparam, hc', setFile_of_ne _ (by decide)]
    rfl
  · exact isHandled_of hbase hstart (hword _ (by decide))

theorem documentedStep_rw
    (hrun : UnionArm.rw.run (fun arg => some (R.uriOf arg)) c = some c') :
    DocumentedStep R c "rw".toList c' := by
  have hother : ∀ var, var ≠ .backingMem → c' var = c var := by
    intro var hvar
    rw [← Option.some.inj hrun]
    split_ifs
    · exact Function.update_of_ne hvar _ _
    · rfl
  refine ⟨hother _ (by simp), lists_of_unlisted fun L hL => ?_, hother _ (by simp)⟩
  simp only [uriLists, List.mem_cons, List.not_mem_nil, or_false] at hL
  rcases hL with rfl | rfl | rfl <;> exact ⟨rfl, rfl, hother _ (by decide)⟩

/-- `disk_opts` alone is taken for a value. -/
theorem documentedStep_diskOpts : DocumentedStep R c "disk_opts".toList
    (assignAll [(.backingDiskOpts, "disk_opts".toList)] c) ↔ IsHandled R c "disk_opts".toList := by
  constructor
  · intro h
    refine ⟨fun hmem => ?_, fun he => ?_, fun _ => h.opts.symm, fun opts he => ?_⟩
    · simp at hmem
    · simp at he
    · simp at he
  · intro h
    refine ⟨rfl, lists_of_unlisted fun L hL => ?_, (h.disk_opts rfl).symm⟩
    simp only [uriLists, List.mem_cons, List.not_mem_nil, or_false] at hL
    rcases hL with rfl | rfl | rfl <;> exact ⟨rfl, rfl, rfl⟩

/-- **An argument has the documented effect** exactly if it is handled. -/
theorem documentedStep_iff
    (hrun : (unionArm arg).run (fun arg => some (R.uriOf arg)) c = some c') :
    DocumentedStep R c arg c' ↔ IsHandled R c arg := by
  have hform := unionArm_spec arg
  revert hrun hform
  generalize unionArm arg = arm
  intro hrun hform
  cases hform with
  | word h =>
    obtain ⟨⟨-, hbase, -, hstart, hne⟩, -⟩ := wordValues_documented _ h
    have hne' : _ ≠ "disk_opts".toList := fun he => hne (String.toList_inj.1 he)
    rw [← Option.some.inj hrun]
    exact iff_of_true (documentedStep_word h) (isHandled_of hbase hstart hne')
  | value h v =>
    rw [← Option.some.inj hrun]
    obtain ⟨hbase, hstart, hne⟩ := valuePrefixes_plain h v
    exact iff_of_true (documentedStep_value h v) (isHandled_of hbase hstart hne)
  | uri h x v hword =>
    obtain ⟨-, -, hbase, hstart, hne⟩ := uriPrefixes_plain (R := R) h (x :: v)
    rw [← Option.some.inj hrun]
    exact iff_of_true (documentedStep_uri h hword) (isHandled_of hbase hstart hne)
  | base v => exact documentedStep_base hrun
  | rw => exact iff_of_true (documentedStep_rw hrun) (isHandled_of rfl rfl (by simp))
  | diskOpts =>
    rw [← Option.some.inj hrun]
    exact documentedStep_diskOpts
  | diskOptsValue v => exact documentedStep_diskOptsValue hrun
  | fileUri h =>
    obtain ⟨hdoc, hhandled⟩ := documentedStep_fileUri h hrun
    exact iff_of_true hdoc hhandled

/-! ## Runs -/

theorem joined_ne_nil {uris : List CStr} (hne : uris ≠ []) (huris : ∀ uri ∈ uris, uri ≠ []) :
    joined uris ≠ [] := by
  obtain ⟨u, us, rfl⟩ := List.exists_cons_of_ne_nil hne
  have hu : u ≠ [] := huris u (by simp)
  cases us with
  | nil => simpa [joined, List.intercalate] using hu
  | cons u' us => simp [Lib.Shell.joined_cons]

theorem joined_append (uris : List CStr) (huris : ∀ uri ∈ uris, uri ≠ []) (uri : CStr) :
    joined (uris ++ [uri]) = appendUri (joined uris) uri := by
  induction uris with
  | nil => simp [joined, List.intercalate, appendUri]
  | cons v uris ih =>
    have hv : v ≠ [] := huris v (by simp)
    rw [List.cons_append, Lib.Shell.joined_cons v (by simp), ih fun u hu => huris u (by simp [hu])]
    by_cases huris' : uris = []
    · subst huris'
      simp [joined, List.intercalate, appendUri, hv]
    · have hne : joined uris ≠ [] := joined_ne_nil huris' fun u hu => huris u (by simp [hu])
      rw [Lib.Shell.joined_cons v huris', appendUri, if_neg hne, appendUri, if_neg (by simp)]
      simp

theorem uris_nonempty {L : UriList} {uri : CStr} (h : uri ∈ L.uris R args) : uri ≠ [] := by
  obtain ⟨arg, -, hgiven⟩ := List.mem_filterMap.1 h
  rw [UriList.given] at hgiven
  split_ifs at hgiven
  obtain ⟨v, -, huri⟩ := Option.bind_eq_some_iff.1 hgiven
  exact R.nonempty huri

/-- What a further argument does to a list. -/
theorem joined_uris_concat (L : UriList) :
    joined (L.uris R (args ++ [arg])) = L.next R arg (joined (L.uris R args)) := by
  rw [UriList.uris, UriList.next]
  cases hclear : L.isClear arg with
  | true =>
    rw [List.rtakeWhile_concat_neg _ _ _ (by simp [hclear])]
    rfl
  | false =>
    rw [List.rtakeWhile_concat_pos _ _ _ (by simp [hclear]), List.filterMap_append]
    cases hgiven : L.given R arg with
    | none => simp [hgiven, UriList.uris]
    | some uri =>
      have hone : [arg].filterMap (L.given R) = [uri] := by simp [hgiven]
      rw [hone, joined_append]
      · rfl
      · exact fun uri huri => uris_nonempty huri

theorem lastDecision_concat {δ : Type} (d : CStr → Option δ) :
    Lib.lastDecision d (args ++ [arg]) = (d arg).or (Lib.lastDecision d args) := by
  rw [Lib.lastDecision, Lib.lastDecision, List.filterMap_append, List.getLast?_append]
  cases hd : d arg <;> simp [hd]

theorem isDocumented_concat (h : IsDocumented R args c) :
    IsDocumented R (args ++ [arg]) c' ↔ DocumentedStep R c arg c' := by
  have hfile : (Lib.lastDecision (fileSetting R) (args ++ [arg])).getD [] =
      (fileSetting R arg).getD (c .file) := by
    rw [lastDecision_concat, h.file]
    cases fileSetting R arg <;> rfl
  have hopts : (Lib.lastDecision optsSetting (args ++ [arg])).getD [] =
      (optsSetting arg).getD (c .backingDiskOpts) := by
    rw [lastDecision_concat, h.opts]
    cases optsSetting arg <;> rfl
  have hlists : ∀ L ∈ uriLists, joined (L.uris R (args ++ [arg])) = L.next R arg (c L.var) :=
    fun L hL => by rw [joined_uris_concat, h.lists L hL]
  constructor
  · intro h'
    exact ⟨h'.file.trans hfile, fun L hL => (h'.lists L hL).trans (hlists L hL),
      h'.opts.trans hopts⟩
  · intro h'
    exact ⟨h'.file.trans hfile.symm, fun L hL => (h'.lists L hL).trans (hlists L hL).symm,
      h'.opts.trans hopts.symm⟩

theorem isDocumented_init : IsDocumented R [] .init := by
  refine ⟨rfl, fun L hL => ?_, rfl⟩
  simp only [uriLists, List.mem_cons, List.not_mem_nil, or_false] at hL
  rcases hL with rfl | rfl | rfl <;> rfl

theorem run_total (arm : UnionArm) (c : UnionConfig) :
    ∃ c', arm.run (fun arg => some (R.uriOf arg)) c = some c' := by
  cases arm with
  | base v0 =>
    rw [UnionArm.run]
    split_ifs
    · exact ⟨c, rfl⟩
    · exact ⟨_, rfl⟩
  | _ => exact ⟨_, rfl⟩

theorem parse_concat (h : R.parse args = some c) :
    R.parse (args ++ [arg]) = (unionArm arg).run (fun arg => some (R.uriOf arg)) c := by
  have hparse := h
  rw [FileUris.parse, parseUnionMount] at hparse
  rw [FileUris.parse, parseUnionMount, List.foldlM_append, hparse]
  simp

end

/-- Every configuration of a run is the documented one. -/
def RunsAsDocumented (R : FileUris) (args : List CStr) : Prop :=
  ∀ pre, pre <+: args → ∃ c, R.parse pre = some c ∧ IsDocumented R pre c

/-- Every argument of a run is handled in the configuration before it. -/
def AllHandled (R : FileUris) (args : List CStr) : Prop :=
  ∀ pre arg post, args = pre ++ arg :: post → ∃ c, R.parse pre = some c ∧ IsHandled R c arg

/-- **The configuration is the documented one throughout a run** exactly if each
    argument is handled. -/
theorem runsAsDocumented_iff (R : FileUris) (args : List CStr) :
    RunsAsDocumented R args ↔ AllHandled R args := by
  induction args using List.reverseRecOn with
  | nil =>
    refine iff_of_true (fun pre hpre => ?_) fun pre arg post h => ?_
    · rw [List.prefix_nil.1 hpre]
      exact ⟨_, rfl, isDocumented_init⟩
    · simp at h
  | append_singleton args arg ih =>
    have hruns : RunsAsDocumented R (args ++ [arg]) ↔ RunsAsDocumented R args ∧
        ∃ c, R.parse (args ++ [arg]) = some c ∧ IsDocumented R (args ++ [arg]) c := by
      constructor
      · intro h
        exact ⟨fun pre hpre => h pre (hpre.trans (List.prefix_append _ _)), h _ List.prefix_rfl⟩
      · rintro ⟨h, hlast⟩ pre hpre
        rcases List.prefix_concat_iff.1 hpre with rfl | hpre
        · exact hlast
        · exact h pre hpre
    have hall : AllHandled R (args ++ [arg]) ↔ AllHandled R args ∧
        ∃ c, R.parse args = some c ∧ IsHandled R c arg := by
      constructor
      · intro h
        refine ⟨fun pre a post he => h pre a (post ++ [arg]) (by simp [he]), h args arg [] rfl⟩
      · rintro ⟨h, hlast⟩ pre a post he
        rcases List.eq_nil_or_concat post with rfl | ⟨post, b, rfl⟩
        · obtain ⟨rfl, ha⟩ := List.append_inj' he rfl
          obtain rfl := List.singleton_inj.1 ha
          exact hlast
        · rw [List.concat_eq_append, ← List.cons_append, ← List.append_assoc] at he
          exact h pre a post (List.append_inj' he rfl).1
    rw [hruns, hall, ih]
    refine and_congr_right fun hargs => ?_
    obtain ⟨c, hc, hdoc⟩ := ih.2 hargs args List.prefix_rfl
    obtain ⟨c', hrun⟩ := run_total (R := R) (unionArm arg) c
    have hc' := (parse_concat hc).trans hrun
    rw [hc, hc']
    simp only [Option.some.injEq, exists_eq_left']
    rw [isDocumented_concat hdoc, documentedStep_iff hrun]

/-- `base=` does not disable the base file, and `disk_opts=noatime` is lost. -/
theorem runsAsDocumented_slips :
    ¬ RunsAsDocumented (.real githubArchive) ["/a.sfs".toList, "base=".toList] ∧
      ¬ RunsAsDocumented (.real githubArchive) ["disk_opts=noatime".toList] := by
  set R : FileUris := .real githubArchive with hR
  constructor
  · intro h
    obtain ⟨c, hc, hdoc⟩ := h _ List.prefix_rfl
    have hcode : (R.parse ["/a.sfs".toList, "base=".toList]).map (· .file) =
        some "/a.sfs".toList := by rw [hR]; decide
    have hfile : (Lib.lastDecision (fileSetting R) ["/a.sfs".toList, "base=".toList]).getD [] =
        "none".toList := by rw [hR]; decide
    rw [hc, Option.map_some, Option.some.injEq, hdoc.file, hfile] at hcode
    exact absurd hcode (by simp)
  · intro h
    obtain ⟨c, hc, hdoc⟩ := h _ List.prefix_rfl
    have hcode : (R.parse ["disk_opts=noatime".toList]).map (· .backingDiskOpts) = some [] := by
      rw [hR]; decide
    have hopts : (Lib.lastDecision optsSetting ["disk_opts=noatime".toList]).getD [] =
        "noatime".toList := by decide
    rw [hc, Option.map_some, Option.some.injEq, hdoc.opts, hopts] at hcode
    exact absurd hcode (by simp)

end Fischstaebchen
