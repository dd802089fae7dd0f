/-
  `filescan` (`app/filescan/main.c`).

  The paths are made of base paths and suffixes.  The requested types are or-ed
  together, and a file is taken if its mode has a bit of them.

  * `scanPaths_eq`: the two loops, as one search.
  * `Invocation.main_eq`: how arguments are read.
  * `mode_and_wantMode`: which files have a bit of the requested types.
  * `scansRight_iff`: when the first requested file is found.
-/
import Fischstaebchen.Fs.Devfs
import Fischstaebchen.Lib.Scan
import Fischstaebchen.Sys

namespace Fischstaebchen

open Lib

/-- What `stat(2)` says about a path: the file and its permissions.  There is no file at
    the empty path. -/
structure StatFs where
  stat : FilePath → Option (NodeKind × Mode)
  stat_nil : stat [] = none

/-- An argument. -/
abbrev Arg := List UInt8

/-- What a program has printed and its exit code. -/
structure ProgramEnd where
  code : ℤ
  out : List UInt8
  deriving DecidableEq

/-- `_IS_SHORTOPT`: the char of a short option. -/
def shortopt : Arg → Option UInt8
  | [dash, c] => if dash = 0x2D then some c else none
  | _ => none

/-- The loop over the type options: the mode and the number of arguments that are read. -/
def typeOptions : List Arg → Mode → Mode × ℕ
  | [], want => (want, 0)
  | arg :: args, want =>
    let next := fun want' => ((typeOptions args want').1, (typeOptions args want').2 + 1)
    if shortopt arg = some 0x65 then next sIfmt
    else if shortopt arg = some 0x66 then next (want ||| 0x8000)
    else if shortopt arg = some 0x64 then next (want ||| 0x4000)
    else if shortopt arg = some 0x62 then next (want ||| 0x6000)
    else if shortopt arg = some 0x63 then next (want ||| 0x2000)
    else if shortopt arg = some 0x2D then (want, 1)
    else (want, 0)

/-- The loop that looks for the marker between base paths and suffixes. -/
def findMarker : List Arg → ℕ
  | [] => 0
  | arg :: args => if shortopt arg = some 0x2D then 0 else findMarker args + 1

section
variable (grants : List UInt8 → Bool) (fs : StatFs) (want : Mode)

/-- `check_stat`. -/
def checkStat (path : FilePath) : ℤ :=
  if path = [] then -1
  else
    match fs.stat path with
    | none => -1
    | some (kind, perm) => if (kind.mode ||| perm &&& permissionMask) &&& want ≠ 0 then 0 else 1

/-- The inner loop of `_filescan`; `asprintf` fails for the strings that are not granted. -/
def scanSuffixes (basepath : Arg) : List Arg → Option ProgramEnd
  | [] => none
  | suffix :: suffixes =>
    if suffix = [] ∨ suffix = [0x2E] then
      if checkStat fs want basepath = 0 then some ⟨exitSuccess, basepath ++ [0x0A]⟩
      else scanSuffixes basepath suffixes
    else if grants (basepath ++ suffix) then
      if checkStat fs want (basepath ++ suffix) = 0 then
        some ⟨exitSuccess, basepath ++ suffix ++ [0x0A]⟩
      else scanSuffixes basepath suffixes
    else some ⟨exSoftware, []⟩

/-- The outer loop of `_filescan`. -/
def scanBasepaths (suffixes : List Arg) : List Arg → ProgramEnd
  | [] => ⟨exitFailure, []⟩
  | basepath :: basepaths =>
    (scanSuffixes grants fs want basepath suffixes).getD (scanBasepaths suffixes basepaths)

/-- `_filescan`. -/
def filescan (argv : List Arg) (basepathStart basepathEnd suffixStart : ℕ) : ProgramEnd :=
  if basepathStart ≥ argv.length ∨ basepathEnd ≥ argv.length ∨ basepathStart ≥ basepathEnd ∨
      suffixStart ≥ argv.length ∨ want = 0 then ⟨exUsage, []⟩
  else
    scanBasepaths grants fs want (argv.drop suffixStart)
      ((argv.take basepathEnd).drop basepathStart)

/-- `main`. -/
def filescanMain (argv : List Arg) : ProgramEnd :=
  let options := typeOptions (argv.drop 1) 0
  let argshift := 1 + options.2
  let want := if options.1 = 0 then 0x8000 else options.1
  if argv.length < argshift + 2 then ⟨exUsage, []⟩
  else
    let argsplit := argshift + findMarker (argv.drop argshift)
    if argsplit ≥ argv.length then
      filescan grants fs want argv argshift (argshift + 1) (argshift + 1)
    else filescan grants fs want argv argshift argsplit (argsplit + 1)

end

/-! ## The search -/

/-- A base path and a suffix. -/
def scanPath (basepath suffix : Arg) : FilePath :=
  if suffix = [] ∨ suffix = [0x2E] then basepath else basepath ++ suffix

/-- All paths, for one base path after the other. -/
def scanPaths (basepaths suffixes : List Arg) : List FilePath :=
  basepaths.flatMap fun basepath => suffixes.map (scanPath basepath)

/-- The result of a search. -/
def scanEnd : Option FilePath → ProgramEnd
  | none => ⟨exitFailure, []⟩
  | some path => ⟨exitSuccess, path ++ [0x0A]⟩

section
variable {fs : StatFs} {want : Mode}

theorem scanEnd_injective : Function.Injective scanEnd := by
  intro r r' h
  cases r with
  | none =>
    cases r' with
    | none => rfl
    | some path => cases h
  | some path =>
    cases r' with
    | none => cases h
    | some path' => exact congrArg some (List.append_cancel_right (congrArg ProgramEnd.out h))

theorem scanSuffixes_eq (fs : StatFs) (want : Mode) (basepath : Arg) (suffixes : List Arg) :
    scanSuffixes (fun _ => true) fs want basepath suffixes =
      ((suffixes.map (scanPath basepath)).find? fun path => checkStat fs want path = 0).map
        fun path => scanEnd (some path) := by
  induction suffixes with
  | nil => rfl
  | cons suffix suffixes ih =>
    rw [scanSuffixes, List.map_cons, List.find?_cons, scanPath, ih]
    by_cases hsuffix : suffix = [] ∨ suffix = [0x2E]
    · rw [if_pos hsuffix, if_pos hsuffix]
      by_cases hcheck : checkStat fs want basepath = 0
      · simp [hcheck, scanEnd]
      · simp [hcheck]
    · rw [if_neg hsuffix, if_neg hsuffix, if_pos rfl]
      by_cases hcheck : checkStat fs want (basepath ++ suffix) = 0
      · simp [hcheck, scanEnd]
      · simp [hcheck]

/-- **The two loops** are one search. -/
theorem scanPaths_eq (fs : StatFs) (want : Mode) (basepaths suffixes : List Arg) :
    scanBasepaths (fun _ => true) fs want suffixes basepaths =
      scanEnd ((scanPaths basepaths suffixes).find? fun path => checkStat fs want path = 0) := by
  induction basepaths with
  | nil => rfl
  | cons basepath basepaths ih =>
    rw [scanBasepaths, scanSuffixes_eq, ih]
    simp only [scanPaths, List.flatMap_cons, List.find?_append]
    cases (suffixes.map (scanPath basepath)).find? fun path => checkStat fs want path = 0 with
    | none => rfl
    | some path => rfl

end

/-! ## The arguments -/

/-- `-e`, `-f`, `-d`, `-b` and `-c`. -/
inductive TypeOption
  | any
  | reg
  | dir
  | blk
  | chr
  deriving DecidableEq

namespace TypeOption

/-- The char of an option. -/
def char : TypeOption → UInt8
  | any => 0x65
  | reg => 0x66
  | dir => 0x64
  | blk => 0x62
  | chr => 0x63

/-- An option as an argument. -/
def arg (option : TypeOption) : Arg := [0x2D, option.char]

/-- What an option does to the mode. -/
def add (want : Mode) : TypeOption → Mode
  | any => sIfmt
  | reg => want ||| 0x8000
  | dir => want ||| 0x4000
  | blk => want ||| 0x6000
  | chr => want ||| 0x2000

/-- The files that an option stands for. -/
def wants : TypeOption → NodeKind → Bool
  | any, _ => true
  | reg, .reg => true
  | dir, .dir => true
  | blk, .blk _ => true
  | chr, .chr _ => true
  | _, _ => false

/-- The files that share a bit with an option that does not stand for them. -/
def mistakes : TypeOption → NodeKind → Bool
  | reg, .sock => true
  | dir, .blk _ => true
  | dir, .sock => true
  | blk, .chr _ => true
  | blk, .dir => true
  | blk, .sock => true
  | chr, .blk _ => true
  | _, _ => false

end TypeOption

/-- `--`. -/
def marker : Arg := [0x2D, 0x2D]

/-- What `filescan` is called with. -/
structure Invocation where
  options : List TypeOption
  basepaths : List Arg
  suffixes : List Arg
  basepaths_ne : basepaths ≠ []
  suffixes_ne : suffixes ≠ []
  no_marker : marker ∉ basepaths

namespace Invocation
variable (inv : Invocation)

/-- The options that are in force. -/
def types : List TypeOption := if inv.options = [] then [.reg] else inv.options

/-- The arguments for a call.  The options may be ended by a marker, and have to be if the
    first base path looks like one.  The marker between base paths and suffixes may be left
    out if there is one base path and no suffix looks like a marker. -/
def Argv (argv : List Arg) : Prop :=
  ∃ program ending mark,
    argv = program :: (inv.options.map TypeOption.arg ++ ending) ++
      (inv.basepaths ++ (mark ++ inv.suffixes)) ∧
    (ending = [marker] ∨
      ending = [] ∧ ∀ basepath ∈ inv.basepaths.head?, ∀ option, basepath ≠ TypeOption.arg option) ∧
    (mark = [marker] ∨ mark = [] ∧ inv.basepaths.length = 1 ∧ marker ∉ inv.suffixes)

/-- A file of a requested type. -/
def isRequested (fs : StatFs) (path : FilePath) : Bool :=
  (fs.stat path).any fun file => inv.types.any fun option => option.wants file.1

/-- The mode that is looked for. -/
def want : Mode := if inv.options = [] then 0x8000 else inv.options.foldl TypeOption.add 0

/-- **The first requested file is found.** -/
def ScansRight (fs : StatFs) : Prop :=
  ∀ argv, inv.Argv argv → filescanMain (fun _ => true) fs argv =
    scanEnd ((scanPaths inv.basepaths inv.suffixes).find? (inv.isRequested fs))

end Invocation

section
variable {args : List Arg} {arg : Arg} {c : UInt8} {fs : StatFs} {want : Mode}
  {kind : NodeKind} {inv : Invocation} {path : FilePath}

theorem shortopt_eq_some : shortopt arg = some c ↔ arg = [0x2D, c] := by
  constructor
  · intro h
    rcases arg with _ | ⟨dash, _ | ⟨d, _ | ⟨e, arg⟩⟩⟩
    · cases h
    · cases h
    · rw [shortopt] at h
      split_ifs at h with hdash
      cases h
      rw [hdash]
    · cases h
  · rintro rfl
    rfl

/-- The options are read one by one. -/
theorem typeOptions_options (options : List TypeOption) (rest : List Arg) (want : Mode) :
    typeOptions (options.map TypeOption.arg ++ rest) want =
      ((typeOptions rest (options.foldl TypeOption.add want)).1,
        (typeOptions rest (options.foldl TypeOption.add want)).2 + options.length) := by
  induction options generalizing want with
  | nil => rfl
  | cons option options ih =>
    have hstep : typeOptions (option.arg :: (options.map TypeOption.arg ++ rest)) want =
        ((typeOptions (options.map TypeOption.arg ++ rest) (option.add want)).1,
          (typeOptions (options.map TypeOption.arg ++ rest) (option.add want)).2 + 1) := by
      cases option <;> rfl
    rw [List.map_cons, List.cons_append, hstep, ih]
    rfl

/-- Another argument ends the options. -/
theorem typeOptions_other (harg : ∀ option, arg ≠ TypeOption.arg option) (hmark : arg ≠ marker)
    (rest : List Arg) (want : Mode) : typeOptions (arg :: rest) want = (want, 0) := by
  have hne : ∀ option : TypeOption, ¬ shortopt arg = some option.char := fun option h =>
    harg option (shortopt_eq_some.1 h)
  have hdash : ¬ shortopt arg = some 0x2D := fun h => hmark (shortopt_eq_some.1 h)
  rw [typeOptions]
  exact (if_neg (hne .any)).trans <| (if_neg (hne .reg)).trans <| (if_neg (hne .dir)).trans <|
    (if_neg (hne .blk)).trans <| (if_neg (hne .chr)).trans (if_neg hdash)

theorem findMarker_append (h : marker ∉ args) (rest : List Arg) :
    findMarker (args ++ rest) = args.length + findMarker rest := by
  induction args with
  | nil => simp
  | cons arg args ih =>
    rw [List.mem_cons, not_or] at h
    have hne : ¬ shortopt arg = some 0x2D := fun hopt => h.1 (shortopt_eq_some.1 hopt).symm
    rw [List.cons_append, findMarker, if_neg hne, ih h.2, List.length_cons]
    omega

theorem TypeOption.add_ne_zero (option : TypeOption) (want : Mode) : option.add want ≠ 0 := by
  cases option with
  | any => exact nofun
  | _ =>
    intro h
    cases (BitVec.or_eq_zero_iff.1 h).2

theorem foldl_add_eq_zero (options : List TypeOption) :
    options.foldl TypeOption.add 0 = 0 ↔ options = [] := by
  constructor
  · intro h
    by_contra hne
    obtain ⟨options', option, rfl⟩ := (List.eq_nil_or_concat' options).resolve_left hne
    rw [List.foldl_append] at h
    exact option.add_ne_zero _ h
  · rintro rfl
    rfl

theorem Invocation.want_eq (inv : Invocation) :
    (if inv.options.foldl TypeOption.add 0 = 0 then 0x8000
      else inv.options.foldl TypeOption.add 0) = inv.want := by
  simp only [foldl_add_eq_zero]
  rfl

theorem Invocation.want_ne_zero (inv : Invocation) : inv.want ≠ 0 := by
  rw [Invocation.want]
  split_ifs with hnil
  · exact nofun
  · exact fun h => hnil ((foldl_add_eq_zero inv.options).1 h)

/-- Base paths and suffixes by their places. -/
theorem filescan_eq (fs : StatFs) (front mark : List Arg) {basepaths suffixes : List Arg}
    (hbase : basepaths ≠ []) (hsuffix : suffixes ≠ []) (hwant : want ≠ 0) :
    filescan (fun _ => true) fs want (front ++ (basepaths ++ (mark ++ suffixes))) front.length
        (front.length + basepaths.length) (front.length + basepaths.length + mark.length) =
      scanEnd ((scanPaths basepaths suffixes).find? fun path => checkStat fs want path = 0) := by
  have hbpos := List.length_pos_iff.2 hbase
  have hspos := List.length_pos_iff.2 hsuffix
  have hguard : ¬ (front.length ≥ (front ++ (basepaths ++ (mark ++ suffixes))).length ∨
      front.length + basepaths.length ≥ (front ++ (basepaths ++ (mark ++ suffixes))).length ∨
      front.length ≥ front.length + basepaths.length ∨
      front.length + basepaths.length + mark.length ≥
        (front ++ (basepaths ++ (mark ++ suffixes))).length ∨ want = 0) := by
    simp only [List.length_append]
    rintro (h | h | h | h | h)
    · omega
    · omega
    · omega
    · omega
    · exact hwant h
  have hdrop : (front ++ (basepaths ++ (mark ++ suffixes))).drop
      (front.length + basepaths.length + mark.length) = suffixes := by
    rw [← List.append_assoc, ← List.append_assoc]
    exact List.drop_left' (by simp [Nat.add_assoc])
  have htake : ((front ++ (basepaths ++ (mark ++ suffixes))).take
      (front.length + basepaths.length)).drop front.length = basepaths := by
    rw [← List.append_assoc, List.take_left' (by simp), List.drop_left]
  rw [filescan, if_neg hguard, hdrop, htake, scanPaths_eq]

/-- **How arguments are read.** -/
theorem Invocation.main_eq {argv : List Arg} (h : inv.Argv argv) (fs : StatFs) :
    filescanMain (fun _ => true) fs argv =
      scanEnd ((scanPaths inv.basepaths inv.suffixes).find?
        fun path => checkStat fs inv.want path = 0) := by
  obtain ⟨program, ending, mark, hargv, hending, hmark⟩ := h
  let front := program :: (inv.options.map TypeOption.arg ++ ending)
  let rest := inv.basepaths ++ (mark ++ inv.suffixes)
  have htypes : typeOptions (argv.drop 1) 0 =
      (inv.options.foldl TypeOption.add 0, ending.length + inv.options.length) := by
    have hdrop : argv.drop 1 = inv.options.map TypeOption.arg ++ (ending ++ rest) := by
      rw [hargv, List.cons_append, List.drop_succ_cons, List.drop_zero, List.append_assoc]
    rw [hdrop, typeOptions_options]
    rcases hending with rfl | ⟨rfl, hother⟩
    · rfl
    · obtain ⟨basepath, basepaths, hcons⟩ := List.exists_cons_of_ne_nil inv.basepaths_ne
      have hmem : basepath ∈ inv.basepaths := by rw [hcons]; exact List.mem_cons_self
      have hrest : rest = basepath :: (basepaths ++ (mark ++ inv.suffixes)) := by
        rw [← List.cons_append, ← hcons]
      rw [List.nil_append, hrest, typeOptions_other (hother basepath (by rw [hcons]; rfl))
        (fun heq => inv.no_marker (heq ▸ hmem))]
      rfl
  have hshift : 1 + (ending.length + inv.options.length) = front.length := by
    simp [front]
    omega
  have hdrop : argv.drop front.length = rest := by
    rw [hargv]
    exact List.drop_left
  have hlen : argv.length = front.length + rest.length := by
    rw [hargv]
    exact List.length_append
  have hbpos := List.length_pos_iff.2 inv.basepaths_ne
  have hspos := List.length_pos_iff.2 inv.suffixes_ne
  have hrlen : rest.length = inv.basepaths.length + (mark.length + inv.suffixes.length) := by
    simp [rest]
  have hfind := findMarker_append inv.no_marker (mark ++ inv.suffixes)
  have hscan := filescan_eq fs front mark inv.basepaths_ne inv.suffixes_ne inv.want_ne_zero
  rw [filescanMain, htypes]
  dsimp only
  rw [hshift, if_neg (by omega), hdrop, Invocation.want_eq, hfind]
  rcases hmark with rfl | ⟨rfl, hone, hno⟩
  · have hlt : ¬ front.length + (inv.basepaths.length + findMarker ([marker] ++ inv.suffixes)) ≥
        argv.length := by
      have hzero : findMarker ([marker] ++ inv.suffixes) = 0 := rfl
      rw [hzero, hlen, hrlen]
      omega
    rw [if_neg hlt, hargv]
    exact hscan
  · have hsuffixes := findMarker_append hno []
    rw [List.append_nil] at hsuffixes
    have hge : front.length + (inv.basepaths.length + findMarker ([] ++ inv.suffixes)) ≥
        argv.length := by
      rw [List.nil_append, hsuffixes, hlen, hrlen]
      simp
    rw [if_pos hge, hargv]
    rw [hone] at hscan
    exact hscan

/-! ## The types -/

@[simp] theorem NodeKind.mode_chr (dev : Dev) : (NodeKind.chr dev).mode = 0x2000 := rfl

@[simp] theorem NodeKind.mode_blk (dev : Dev) : (NodeKind.blk dev).mode = 0x6000 := rfl

theorem NodeKind.and_sIfmt (kind : NodeKind) : kind.mode &&& sIfmt ≠ 0 := by
  cases kind with
  | chr dev =>
    rw [NodeKind.mode_chr]
    decide
  | blk dev =>
    rw [NodeKind.mode_blk]
    decide
  | _ => decide

/-- The bits of one option. -/
theorem TypeOption.and_add (option : TypeOption) (want : Mode) (kind : NodeKind) :
    kind.mode &&& option.add want ≠ 0 ↔
      kind.mode &&& want ≠ 0 ∨ option.wants kind = true ∨ option.mistakes kind = true := by
  have hor : ∀ mode : Mode, kind.mode &&& (want ||| mode) ≠ 0 ↔
      kind.mode &&& want ≠ 0 ∨ kind.mode &&& mode ≠ 0 := by
    intro mode
    rw [BitVec.and_or_distrib_left, ← not_and_or]
    exact not_congr BitVec.or_eq_zero_iff
  cases option with
  | any => exact iff_of_true kind.and_sIfmt (.inr (.inl rfl))
  | reg | dir | blk | chr =>
    refine (hor _).trans (or_congr_right ?_)
    cases kind with
    | chr dev =>
      rw [NodeKind.mode_chr]
      simp [wants, mistakes]
    | blk dev =>
      rw [NodeKind.mode_blk]
      simp [wants, mistakes]
    | _ => decide

theorem foldl_and_add (options : List TypeOption) (want : Mode) (kind : NodeKind) :
    kind.mode &&& options.foldl TypeOption.add want ≠ 0 ↔ kind.mode &&& want ≠ 0 ∨
      ∃ option ∈ options, option.wants kind = true ∨ option.mistakes kind = true := by
  induction options generalizing want with
  | nil => simp
  | cons option options ih =>
    rw [List.foldl_cons, ih, option.and_add, or_assoc, List.exists_mem_cons_iff]

/-- **Which files have a bit of the mode**: those of a requested type and others. -/
theorem mode_and_want (inv : Invocation) (kind : NodeKind) :
    kind.mode &&& inv.want ≠ 0 ↔
      ∃ option ∈ inv.types, option.wants kind = true ∨ option.mistakes kind = true := by
  have hzero : ¬ kind.mode &&& (0 : Mode) ≠ 0 := by simp
  rw [Invocation.want, Invocation.types]
  by_cases hnil : inv.options = []
  · rw [if_pos hnil, if_pos hnil]
    have hreg := foldl_and_add [.reg] 0 kind
    rwa [or_iff_right hzero] at hreg
  · rw [if_neg hnil, if_neg hnil, foldl_and_add, or_iff_right hzero]

/-- No permission is requested. -/
theorem mask_and_want (inv : Invocation) : permissionMask &&& inv.want = 0 := by
  have hfold : ∀ (options : List TypeOption) (want : Mode), permissionMask &&& want = 0 →
      permissionMask &&& options.foldl TypeOption.add want = 0 := by
    intro options
    induction options with
    | nil => exact fun want h => h
    | cons option options ih =>
      intro want h
      refine ih _ ?_
      cases option with
      | any => simp [TypeOption.add, permissionMask, sIfmt]
      | reg | dir | blk | chr =>
        rw [TypeOption.add, BitVec.and_or_distrib_left, h]
        simp [permissionMask]
  rw [Invocation.want]
  split_ifs
  · simp [permissionMask]
  · exact hfold inv.options 0 (BitVec.and_zero)

theorem checkStat_eq_zero (h : permissionMask &&& want = 0) :
    checkStat fs want path = 0 ↔ ∃ kind perm, fs.stat path = some (kind, perm) ∧
      kind.mode &&& want ≠ 0 := by
  rw [checkStat]
  by_cases hnil : path = []
  · rw [if_pos hnil, hnil, fs.stat_nil]
    simp
  · rw [if_neg hnil]
    rcases fs.stat path with _ | ⟨kind, perm⟩
    · simp
    · have htype : (kind.mode ||| perm &&& permissionMask) &&& want = kind.mode &&& want := by
        rw [BitVec.and_or_distrib_right, BitVec.and_assoc, h]
        simp
      dsimp only
      rw [htype, code_eq_zero one_ne_zero]
      simp

/-- Which files are taken. -/
theorem checkStat_want :
    checkStat fs inv.want path = 0 ↔ ∃ kind perm, fs.stat path = some (kind, perm) ∧
      ∃ option ∈ inv.types, option.wants kind = true ∨ option.mistakes kind = true := by
  rw [checkStat_eq_zero (mask_and_want inv)]
  simp only [mode_and_want]

theorem isRequested_iff :
    inv.isRequested fs path = true ↔ ∃ kind perm, fs.stat path = some (kind, perm) ∧
      ∃ option ∈ inv.types, option.wants kind = true := by
  rw [Invocation.isRequested]
  rcases fs.stat path with _ | ⟨kind, perm⟩
  · simp
  · simp

/-! ## The first requested file -/

/-- Arguments for each call. -/
theorem Invocation.exists_argv (inv : Invocation) : ∃ argv, inv.Argv argv :=
  ⟨_, [], [marker], [marker], rfl, .inl rfl, .inl rfl⟩

/-- The first requested file is found by the test of the code. -/
theorem Invocation.scansRight_find (inv : Invocation) (fs : StatFs) :
    inv.ScansRight fs ↔
      ((scanPaths inv.basepaths inv.suffixes).find? fun path => checkStat fs inv.want path = 0) =
        (scanPaths inv.basepaths inv.suffixes).find? (inv.isRequested fs) := by
  constructor
  · intro h
    obtain ⟨argv, hargv⟩ := inv.exists_argv
    exact scanEnd_injective ((Invocation.main_eq hargv fs).symm.trans (h argv hargv))
  · intro h argv hargv
    rw [Invocation.main_eq hargv fs, h]

/-- **When the first requested file is found.** -/
theorem scansRight_iff (inv : Invocation) (fs : StatFs) :
    inv.ScansRight fs ↔
      ∀ path ∈ (scanPaths inv.basepaths inv.suffixes).takeWhile fun path =>
          !inv.isRequested fs path,
        ∀ kind perm, fs.stat path = some (kind, perm) →
          ∀ option ∈ inv.types, option.mistakes kind = false := by
  have hweak : ∀ path, inv.isRequested fs path = true →
      decide (checkStat fs inv.want path = 0) = true := by
    intro path hpath
    obtain ⟨kind, perm, hstat, option, hmem, hwants⟩ := isRequested_iff.1 hpath
    exact decide_eq_true (checkStat_want.2 ⟨kind, perm, hstat, option, hmem, .inl hwants⟩)
  rw [inv.scansRight_find, find?_eq_iff hweak]
  refine forall₂_congr fun path hpath => ?_
  have hnot : ¬ inv.isRequested fs path = true := by
    have h := List.mem_takeWhile_imp hpath
    simpa using h
  rw [decide_eq_false_iff_not, checkStat_want]
  constructor
  · intro hcheck kind perm hstat option hmem
    by_contra hmistakes
    exact hcheck ⟨kind, perm, hstat, option, hmem, .inr (Bool.eq_true_of_not_eq_false hmistakes)⟩
  · rintro hall ⟨kind, perm, hstat, option, hmem, hwants | hmistakes⟩
    · exact hnot (isRequested_iff.2 ⟨kind, perm, hstat, option, hmem, hwants⟩)
    · rw [hall kind perm hstat option hmem] at hmistakes
      cases hmistakes

/-- A block device at `a`. -/
def blockAtA : StatFs where
  stat path := if path = [0x61] then some (.blk ⟨8, 0⟩, 0) else none
  stat_nil := rfl

/-- `filescan -c -- a -- .` prints the path of a block device. -/
theorem block_for_char :
    ¬ (⟨[.chr], [[0x61]], [[0x2E]], by simp, by simp, by simp [marker]⟩ : Invocation).ScansRight
      blockAtA := by
  intro h
  have hrun := h [[], [0x2D, 0x63], marker, [0x61], marker, [0x2E]]
    ⟨[], [marker], [marker], rfl, .inl rfl, .inl rfl⟩
  have hout : (filescanMain (fun _ => true) blockAtA
      [[], [0x2D, 0x63], marker, [0x61], marker, [0x2E]]).out = [0x61, 0x0A] := by rfl
  rw [hrun] at hout
  cases hout

end

end Fischstaebchen
