/-
  Union mounts with overlayfs (`union_mount_base/rootfs/bin/aufs-overlayfs-genscript`,
  `union_mount/10-varsbase.sh`, `80-union-aufs.sh`, `81-union-overlayfs.sh`).

  The branches of a union mount are kept in the string that aufs reads.  For overlayfs
  a program turns this string into a script with the mount command.

  * `branches_runBranchOps`: the string lists the branches from top to bottom.
  * `lowerLoop_spec`: reversing the branches twice gives the lower directories.
  * `overlayMountOf_mount`, `overlayMountOf_other`: what a printed line mounts.
  * `genscript_agreesWithAufs`: both file systems get the same layers.
-/
import Fischstaebchen.Lib.Command
import Fischstaebchen.Overlay.FileUri
import Fischstaebchen.Overlay.ParseCmdline

namespace Fischstaebchen

open Lib.Shell (Quotable caseOf isIfsBlank fields)

/-! ## Branches -/

/-- A char of a path that needs no quoting in a list of branches. -/
def IsPathChar (c : Char) : Prop :=
  isIfsBlank c = false ∧ c ∉ [':', '=', ','] ∧ Lib.Shell.IsQuoted c ∧ c ≠ '\''

instance (c : Char) : Decidable (IsPathChar c) := inferInstanceAs (Decidable (_ ∧ _))

def IsPath (s : CStr) : Prop := ∀ c ∈ s, IsPathChar c

instance (s : CStr) : Decidable (IsPath s) := List.decidableBAll _ s

/-- An absolute path. -/
structure PlainPath where
  path : CStr
  absolute : ∃ rest, path = '/' :: rest
  plain : IsPath path

inductive BranchMode
  | rw
  | ro
  | rr
  deriving DecidableEq

def BranchMode.name : BranchMode → CStr
  | .rw => "rw".toList
  | .ro => "ro".toList
  | .rr => "rr".toList

/-- A branch of a union mount. -/
structure Branch extends PlainPath where
  mode : BranchMode

/-- `${2:?}=${1:?}`. -/
def Branch.text (b : Branch) : CStr := b.path ++ '=' :: b.mode.name

/-- The variables of a union mount. -/
structure UnionMount where
  branches : CStr
  prevBranchWasMem : Bool

/-- `_union_mount_add_branch`. -/
def unionMountAddBranch (b : Branch) (u : UnionMount) : UnionMount :=
  { branches := if u.branches = [] then b.text else b.text ++ ':' :: u.branches
    prevBranchWasMem := false }

/-- `_union_mount_append_branch`. -/
def unionMountAppendBranch (b : Branch) (u : UnionMount) : UnionMount :=
  { branches := if u.branches = [] then b.text else u.branches ++ ':' :: b.text
    prevBranchWasMem := false }

/-- `union_mount_mark_prev_branch_as_mem`. -/
def unionMountMarkPrevBranchAsMem (u : UnionMount) : UnionMount :=
  { u with prevBranchWasMem := true }

inductive BranchOp
  | add (b : Branch)
  | append (b : Branch)
  | markPrevAsMem

def BranchOp.run (u : UnionMount) : BranchOp → UnionMount
  | .add b => unionMountAddBranch b u
  | .append b => unionMountAppendBranch b u
  | .markPrevAsMem => unionMountMarkPrevBranchAsMem u

/-- The union mount after some operations. -/
def runBranchOps (ops : List BranchOp) : UnionMount := ops.foldl BranchOp.run ⟨[], false⟩

/-- The options of `union_mount_aufs`. -/
def aufsOpts (u : UnionMount) : CStr := "dirperm1,br:".toList ++ u.branches

/-! ## The script generator -/

/-- `s,([^/])/+$,\1,` -/
def sedTrailingSlashes (s : CStr) : CStr :=
  if s.rdropWhile (· == '/') = [] then s else s.rdropWhile (· == '/')

/-- `s,/+,/,` -/
def sedSlashes : CStr → CStr
  | [] => []
  | c :: s => if c = '/' then '/' :: s.dropWhile (· == '/') else c :: sedSlashes s

/-- `s,/[.]/,/,` -/
def sedDot : CStr → CStr
  | [] => []
  | c :: s => if "/./".toList <+: c :: s then '/' :: s.drop 2 else c :: sedDot s

/-- `s,^[/]?[.][/]?$,.,` -/
def sedOnlyDot (s : CStr) : CStr :=
  if ([".", "/.", "./", "/./"].map String.toList).contains s then ".".toList else s

/-- `s,/[.]$,,` -/
def sedFinalDot (s : CStr) : CStr := if "/.".toList <:+ s then s.dropLast.dropLast else s

/-- `strip_fspath`. -/
def stripFspath (s : CStr) : CStr :=
  sedFinalDot (sedOnlyDot (sedDot (sedSlashes (sedTrailingSlashes s))))

/-- `fspath_arg`: `v0`. -/
def fspathArg (s : CStr) : Option CStr :=
  if s = [] ∨ stripFspath s = [] then none else some (stripFspath s)

/-- The options of the program. -/
structure GenscriptOpts where
  layerRoot : CStr
  lastBranchIsOvDir : Bool

/-- The first loop over the arguments; `none` if the program exits, or if the fuel
    does not suffice. -/
def optionLoop : ℕ → List CStr → GenscriptOpts → Option (List CStr × GenscriptOpts)
  | 0, _, _ => none
  | _ + 1, [], o => some ([], o)
  | fuel + 1, arg :: args, o =>
    if caseOf arg ["^^^"] then some (arg :: args, o)
    else if caseOf arg ["--"] then some (args, o)
    else if caseOf arg [""] then optionLoop fuel (arg :: args) o
    else if caseOf arg ["-L", "--layer-root"] then
      match fspathArg (args.headD []) with
      | none => none
      | some v0 => optionLoop fuel args.tail { o with layerRoot := v0 }
    else if caseOf arg ["-M", "--mem"] then
      optionLoop fuel args { o with lastBranchIsOvDir := true }
    else if caseOf arg ["-h", "--help"] then none
    else optionLoop fuel (args ++ [arg]) o

/-- The second loop over the arguments. -/
def rotateLoop : ℕ → List CStr → Option (List CStr)
  | 0, _ => none
  | _ + 1, [] => some []
  | fuel + 1, arg :: args =>
    if caseOf arg ["^^^"] then some args else rotateLoop fuel (args ++ [arg])

/-- One step of the loop of `add_branches`. -/
def addBranch (branches br : CStr) : Option CStr :=
  if caseOf br [""] then some branches
  else if caseOf br ["*=*=*"] then none
  -- `/*=r[row]`
  else if caseOf br ["/*=rr", "/*=ro", "/*=rw"] then some (br ++ ' ' :: branches)
  else if caseOf br ["*=*"] then none
  else if caseOf br ["/*"] then some (br ++ "=rw ".toList ++ branches)
  else none

/-- `add_branches`, with `IFS="${DEFAULT_IFS}:"`; empty fields have no effect. -/
def addBranches (branches arg : CStr) : Option CStr :=
  (Lib.runs (fun c => isIfsBlank c || c == ':') arg).foldlM addBranch branches

/-- `get_branch_vars`: `branch_mnt_mode` and `branch_src`. -/
def getBranchVars (str : CStr) : Option (CStr × CStr) :=
  let mode := afterLast '=' str
  let src := beforeLast '=' str
  if src = [] then none
  else if caseOf mode ["ro", "rr"] then some ("ro".toList, src)
  else if caseOf mode ["rw"] then some ("rw".toList, src)
  else none

/-- The loop that builds `lowerdirs`: the string, and the last argument. -/
def lowerLoop : List CStr → CStr → Option (CStr × CStr)
  | [], _ => none
  | [str], lowerdirs => some (lowerdirs, str)
  | str :: strs, lowerdirs =>
    match getBranchVars str with
    | none => none
    | some (_, src) => lowerLoop strs (src ++ ':' :: lowerdirs)

/-- `print_cmdstr`, with `AOV_CMD_PREFIX=autodie`. -/
def printCmdstr (str : CStr) : CStr := "autodie ".toList ++ str

/-- `print_mkdirp`: the lines that it prints. -/
def printMkdirp (dirs : List CStr) : List CStr :=
  let s := withoutPrefix [' '] (dirs.foldl (fun s d => s ++ " \"".toList ++ d ++ "\"".toList) [])
  if s = [] then [] else [printCmdstr ("mkdir -p -- ".toList ++ s)]

/-- `print_mount_overlay`. -/
def printMountOverlay (mode lowerdir upperdir workdir mountpoint : CStr) : List CStr :=
  printMkdirp [mountpoint] ++
    [printCmdstr ("mount -t overlay -o \"".toList ++ mode ++ ",lowerdir=".toList ++ lowerdir ++
      ",upperdir=".toList ++ upperdir ++ ",workdir=".toList ++ workdir ++
      "\" overlay \"".toList ++ mountpoint ++ "\"".toList)]

/-- The check of a toplevel branch whose path ends in `/data`. -/
def printWorkdirCheck (src : CStr) : CStr :=
  printCmdstr ("[ -d \"".toList ++ src ++
    "/workdir\" ] || \x7b\n   printf \"%s\\n\" \"toplevel branch is not a ".toList ++
    "suitable overlay dir.\" 1>&2;\n   exit 5;\n\x7d".toList)

/-- The part of the program that prints, for the arguments after `set -- ${branches}`. -/
def printScript (o : GenscriptOpts) (args : List CStr) (mnt : CStr) : Option (List CStr) :=
  match lowerLoop args [] with
  | none => none
  | some (lowerdirs, top) =>
    let lowerdirs := if lowerdirs.getLast? = some ':' then lowerdirs.dropLast else lowerdirs
    match getBranchVars top with
    | none => none
    | some (mode, src) =>
      let isData : Bool := "/data".toList <:+ src
      let src' := if isData then src.take (src.length - 5) else src
      if lowerdirs = [] ∨ (isData = false ∧ o.lastBranchIsOvDir = false) then none
      else some ((if isData then [printWorkdirCheck src'] else []) ++
        (if o.lastBranchIsOvDir then
          printMkdirp [src' ++ "/data".toList, src' ++ "/workdir".toList] else []) ++
        printMountOverlay mode lowerdirs (src' ++ "/data".toList) (src' ++ "/workdir".toList) mnt)

/-- `aufs-overlayfs-genscript`: the lines that it prints; `none` if it dies. -/
def genscript (fuel : ℕ) (args : List CStr) : Option (List CStr) :=
  match optionLoop fuel (args ++ ["^^^".toList]) ⟨[], false⟩ with
  | none => none
  | some (args, o) =>
    match rotateLoop fuel args with
    | none => none
    | some args =>
      if args.length < 2 ∨ args.headD [] = [] ∨ args.tail.headD [] = [] then none
      else
        match args.dropLast.foldlM addBranches [], fspathArg (args.getLastD []) with
        | some branches, some mnt =>
          let args := fields branches
          if args.length < 2 ∨ 10000 ≤ args.length ∨ o.layerRoot = [] then none
          else printScript o args mnt
        | _, _ => none

/-- `union_mount_overlayfs__genscript`. -/
def unionMountOverlayfsGenscript (fuel : ℕ) (u : UnionMount) (auxMntRoot mp : CStr) :
    Option (List CStr) :=
  let args := (if u.prevBranchWasMem then ["-M".toList] else []) ++
    ["-L".toList, auxMntRoot ++ "/layers".toList, u.branches, mp]
  (genscript fuel args).map fun lines => ["#!/bin/sh".toList, "set -e".toList] ++ lines

/-! ## What is mounted -/

/-- An overlay mount, with its layers from top to bottom. -/
structure OverlayMount where
  lowerdirs : List CStr
  upperdir : CStr
  workdir : CStr
  mountpoint : CStr

/-- The value of an option in a list of mount options. -/
def mountOption (name : String) (opts : CStr) : Option CStr :=
  (opts.splitOn ',').findSome? fun opt => strStartswith opt (name.toList ++ ['='])

/-- The mount that a line of a script makes, as the shell reads it. -/
def overlayMountOf (line : CStr) : Option OverlayMount :=
  match Lib.Shell.tokens line with
  | some [.word cmd, .word mount, .word t, .word fstype, .word o, .word opts, .word _, .word mp] =>
    if [cmd, mount, t, fstype, o] =
        ["autodie", "mount", "-t", "overlay", "-o"].map String.toList then
      match mountOption "lowerdir" opts, mountOption "upperdir" opts,
        mountOption "workdir" opts with
      | some lower, some upper, some work => some ⟨lower.splitOn ':', upper, work, mp⟩
      | _, _, _ => none
    else none
  | _ => none

/-- The paths in the `br:` option of aufs, from top to bottom. -/
def aufsBranches (opts : CStr) : List CStr :=
  match (opts.splitOn ',').findSome? fun opt => strStartswith opt "br:".toList with
  | some branches => (branches.splitOn ':').map keyOf
  | none => []

/-- The upper directory for a top branch. -/
def upperdirOf (top : CStr) : CStr :=
  if "/data".toList <:+ top then top else top ++ "/data".toList

/-- **The overlay has the layers of aufs**: the script makes one mount, its upper
    directory is in the top branch, and its lower directories are the other branches
    in their order. -/
def AgreesWithAufs (u : UnionMount) (lines : List CStr) : Prop :=
  ∃ m top lower, lines.filterMap overlayMountOf = [m] ∧
    aufsBranches (aufsOpts u) = top :: lower ∧ m.upperdir = upperdirOf top ∧ m.lowerdirs = lower

/-! ## The string of the branches -/

/-- What an operation does to the branches, from top to bottom. -/
def BranchOp.layers (bs : List Branch) : BranchOp → List Branch
  | .add b => b :: bs
  | .append b => bs ++ [b]
  | .markPrevAsMem => bs

/-- The branches after some operations, from top to bottom. -/
def branchList (ops : List BranchOp) : List Branch := ops.foldl BranchOp.layers []

theorem Branch.text_ne_nil (b : Branch) : b.text ≠ [] := by
  simp [Branch.text]

/-- The texts of some branches, joined. -/
def branchString (bs : List Branch) : CStr := [':'].intercalate (bs.map Branch.text)

theorem branchString_cons (b : Branch) {bs : List Branch} (h : bs ≠ []) :
    branchString (b :: bs) = b.text ++ ':' :: branchString bs := by
  rw [branchString, List.map_cons, List.intercalate_cons_of_ne_nil (by simpa using h)]
  simp [branchString]

theorem branchString_concat {bs : List Branch} (b : Branch) (h : bs ≠ []) :
    branchString (bs ++ [b]) = branchString bs ++ ':' :: b.text := by
  induction bs with
  | nil => exact absurd rfl h
  | cons b' bs ih =>
    rw [List.cons_append, branchString_cons b' (by simp)]
    by_cases hbs : bs = []
    · subst hbs
      simp [branchString, List.intercalate]
    · rw [ih hbs, branchString_cons b' hbs]
      simp

theorem branchString_eq_nil {bs : List Branch} : branchString bs = [] ↔ bs = [] := by
  constructor
  · intro h
    by_contra hbs
    obtain ⟨b, bs, rfl⟩ := List.exists_cons_of_ne_nil hbs
    have hb := b.text_ne_nil
    cases bs with
    | nil => simp [branchString, List.intercalate, hb] at h
    | cons b' bs => rw [branchString_cons b (by simp)] at h; simp at h
  · rintro rfl
    rfl

/-- **The string lists the branches** from top to bottom. -/
theorem branches_runBranchOps (ops : List BranchOp) :
    (runBranchOps ops).branches = branchString (branchList ops) := by
  induction ops using List.reverseRecOn with
  | nil => rfl
  | append_singleton ops op ih =>
    have hrun : runBranchOps (ops ++ [op]) = BranchOp.run (runBranchOps ops) op := by
      rw [runBranchOps, List.foldl_append]
      rfl
    have hlist : branchList (ops ++ [op]) = BranchOp.layers (branchList ops) op := by
      rw [branchList, List.foldl_append]
      rfl
    rw [hrun, hlist]
    cases op with
    | add b =>
      rw [BranchOp.run, BranchOp.layers, unionMountAddBranch, ih]
      dsimp only
      split_ifs with hnil
      · rw [branchString_eq_nil.1 hnil]
        simp [branchString]
      · rw [branchString_cons b fun h => hnil (branchString_eq_nil.2 h)]
    | append b =>
      rw [BranchOp.run, BranchOp.layers, unionMountAppendBranch, ih]
      dsimp only
      split_ifs with hnil
      · rw [branchString_eq_nil.1 hnil]
        simp [branchString]
      · rw [branchString_concat b fun h => hnil (branchString_eq_nil.2 h)]
    | markPrevAsMem => exact ih

/-! ## One branch -/

/-- The mode with which a branch is mounted. -/
def BranchMode.mount : BranchMode → CStr
  | .rw => "rw".toList
  | .ro | .rr => "ro".toList

theorem BranchMode.name_plain (m : BranchMode) : IsPath m.name := by
  cases m <;> decide

section
variable (b : Branch)

theorem isPathChar_ne {c d : Char} (h : IsPathChar c) (hd : d ∈ [':', '=', ',']) : c ≠ d := by
  rintro rfl
  exact h.2.1 hd

theorem Branch.count_text : b.text.count '=' = 1 := by
  have hpath : b.path.count '=' = 0 :=
    List.count_eq_zero.2 fun h => isPathChar_ne (b.plain _ h) (by simp) rfl
  have hmode : b.mode.name.count '=' = 0 :=
    List.count_eq_zero.2 fun h => isPathChar_ne (b.mode.name_plain _ h) (by simp) rfl
  rw [Branch.text, List.count_append, List.count_cons_self, hpath, hmode]

/-- The text of a branch has the chars of a path, and `=`. -/
theorem Branch.mem_text {c : Char} (h : c ∈ b.text) : IsPathChar c ∨ c = '=' := by
  rcases List.mem_append.1 h with h | h
  · exact .inl (b.plain c h)
  · rcases List.mem_cons.1 h with rfl | h
    · exact .inr rfl
    · exact .inl (b.mode.name_plain c h)

/-- A branch is put before the others. -/
theorem addBranch_text (branches : CStr) :
    addBranch branches b.text = some (b.text ++ ' ' :: branches) := by
  obtain ⟨rest, hrest⟩ := b.absolute
  have hempty : caseOf b.text [""] = false := by
    rw [Branch.text, hrest]
    rfl
  have htwo : caseOf b.text ["*=*=*"] = false := by
    by_contra h
    obtain ⟨p, hp, hglob⟩ := List.any_eq_true.1 (eq_true_of_ne_false h)
    rw [List.mem_singleton.1 hp] at hglob
    have hcount := Lib.Shell.count_le_of_glob '=' _ hglob
    rw [b.count_text] at hcount
    exact absurd hcount (by decide)
  have hmode : caseOf b.text ["/*=rr", "/*=ro", "/*=rw"] = true := by
    have hends : ∀ (p : String) (suf : CStr), p.toList = ['/'] ++ '*' :: suf →
        Lib.Shell.IsLiteral suf → b.text = ['/'] ++ rest ++ suf →
        p ∈ ["/*=rr", "/*=ro", "/*=rw"] → caseOf b.text ["/*=rr", "/*=ro", "/*=rw"] = true := by
      intro p suf hp hsuf htext hmem
      refine List.any_eq_true.2 ⟨p, hmem, ?_⟩
      rw [htext]
      exact Lib.Shell.matches_ends hp (by decide) hsuf rest
    have htext : b.text = ['/'] ++ rest ++ '=' :: b.mode.name := by
      rw [Branch.text, hrest]
      rfl
    cases hm : b.mode with
    | rw => exact hends "/*=rw" "=rw".toList rfl (by decide) (by rw [htext, hm]; rfl) (by decide)
    | ro => exact hends "/*=ro" "=ro".toList rfl (by decide) (by rw [htext, hm]; rfl) (by decide)
    | rr => exact hends "/*=rr" "=rr".toList rfl (by decide) (by rw [htext, hm]; rfl) (by decide)
  rw [addBranch, hempty, htwo, hmode]
  rfl

theorem getBranchVars_text : getBranchVars b.text = some (b.mode.mount, b.path) := by
  obtain ⟨rest, hrest⟩ := b.absolute
  have hmode : ∀ c ∈ b.mode.name.reverse, (c != '=') = true := by
    intro c hc
    simpa using isPathChar_ne (b.mode.name_plain c (List.mem_reverse.1 hc)) (by simp)
  have hreverse : b.text.reverse = b.mode.name.reverse ++ '=' :: b.path.reverse := by
    simp [Branch.text]
  have hafter : afterLast '=' b.text = b.mode.name := by
    rw [afterLast, hreverse, List.takeWhile_append_of_pos hmode,
      List.takeWhile_cons_of_neg (by simp)]
    simp
  have hbefore : beforeLast '=' b.text = b.path := by
    have hmem : '=' ∈ b.text := by simp [Branch.text]
    rw [beforeLast, if_pos hmem, hreverse, List.dropWhile_append_of_pos hmode,
      List.dropWhile_cons_of_neg (by simp)]
    simp
  have hne : b.path ≠ [] := by rw [hrest]; exact List.cons_ne_nil _ _
  rw [getBranchVars, hafter, hbefore, if_neg hne]
  cases b.mode <;> rfl

end

/-! ## The loops -/

/-- The branches are put before each other, which reverses them. -/
theorem foldlM_addBranch (bs : List Branch) (acc : List CStr) :
    (bs.map Branch.text).foldlM addBranch (Lib.terminated ' ' acc) =
      some (Lib.terminated ' ' ((bs.map Branch.text).reverse ++ acc)) := by
  induction bs generalizing acc with
  | nil => rfl
  | cons b bs ih =>
    have hcons : b.text ++ ' ' :: Lib.terminated ' ' acc = Lib.terminated ' ' (b.text :: acc) :=
      (Lib.terminated_cons _ _ _).symm
    rw [List.map_cons, List.foldlM_cons, addBranch_text, hcons]
    refine (ih (b.text :: acc)).trans ?_
    rw [List.reverse_cons, List.append_assoc]
    rfl

/-- The text of a branch is one word, whether blanks or colons split the string. -/
theorem texts_words (bs : List Branch) :
    ∀ w ∈ bs.map Branch.text, w ≠ [] ∧ ∀ c ∈ w, (isIfsBlank c || c == ':') = false := by
  intro w hw
  obtain ⟨b, -, rfl⟩ := List.mem_map.1 hw
  refine ⟨b.text_ne_nil, fun c hc => ?_⟩
  rcases b.mem_text hc with hplain | rfl
  · have hcolon : c ≠ ':' := isPathChar_ne hplain (by simp)
    simp [hplain.1, hcolon]
  · decide

/-- `add_branches` reads the string of the branches. -/
theorem addBranches_branchString (bs : List Branch) :
    addBranches [] (branchString bs) =
      some (Lib.terminated ' ' (bs.map Branch.text).reverse) := by
  have hruns : Lib.runs (fun c => isIfsBlank c || c == ':') (branchString bs) =
      bs.map Branch.text := Lib.runs_intercalate_of (by simp) (texts_words bs)
  rw [addBranches, hruns]
  have hfold := foldlM_addBranch bs []
  rwa [List.append_nil] at hfold

/-- `set -- ${branches}` -/
theorem fields_terminated (bs : List Branch) :
    fields (Lib.terminated ' ' (bs.map Branch.text)) = bs.map Branch.text := by
  have hwords : ∀ w ∈ bs.map Branch.text, w ≠ [] ∧ ∀ c ∈ w, isIfsBlank c = false := by
    intro w hw
    obtain ⟨hne, hplain⟩ := texts_words bs w hw
    exact ⟨hne, fun c hc => (Bool.or_eq_false_iff.1 (hplain c hc)).1⟩
  have hfields := Lib.runs_terminated_append Lib.Shell.isIfsBlank_space [] hwords
  rwa [List.append_nil, Lib.runs_nil, List.append_nil] at hfields

/-- **The loop that builds the lower directories** reverses the branches again. -/
theorem lowerLoop_spec (top : Branch) (bs : List Branch) (acc : List CStr) :
    lowerLoop ((bs ++ [top]).map Branch.text) (Lib.terminated ':' acc) =
      some (Lib.terminated ':' ((bs.map fun b => b.path).reverse ++ acc), top.text) := by
  induction bs generalizing acc with
  | nil => rfl
  | cons b bs ih =>
    obtain ⟨str, strs, hstrs⟩ : ∃ str strs, (bs ++ [top]).map Branch.text = str :: strs :=
      List.exists_cons_of_ne_nil (by simp)
    have hcons : b.path ++ ':' :: Lib.terminated ':' acc = Lib.terminated ':' (b.path :: acc) :=
      (Lib.terminated_cons _ _ _).symm
    have ih := ih (b.path :: acc)
    rw [hstrs] at ih
    rw [List.cons_append, List.map_cons, hstrs, lowerLoop, getBranchVars_text]
    · dsimp only
      rw [hcons, ih, List.map_cons, List.reverse_cons, List.append_assoc]
      rfl
    · exact List.cons_ne_nil _ _

/-- The loop, for the branches from bottom to top. -/
theorem lowerLoop_reverse (top : Branch) (rest : List Branch) :
    lowerLoop ((top :: rest).reverse.map Branch.text) [] =
      some (Lib.terminated ':' (rest.map fun b => b.path), top.text) := by
  have hspec := lowerLoop_spec top rest.reverse []
  rw [List.map_reverse (f := fun b : Branch => b.path), List.reverse_reverse,
    List.append_nil] at hspec
  rw [List.reverse_cons]
  exact hspec

/-- The lower directories without the last colon. -/
theorem dropLast_terminated {paths : List CStr} (h : paths ≠ []) :
    (Lib.terminated ':' paths).getLast? = some ':' ∧
      (Lib.terminated ':' paths).dropLast = [':'].intercalate paths := by
  obtain ⟨paths, path, rfl⟩ := (List.eq_nil_or_concat paths).resolve_left h
  rw [List.concat_eq_append, Lib.terminated_append, Lib.intercalate_concat]
  have hlast : Lib.terminated ':' [path] = path ++ [':'] := by simp [Lib.terminated]
  rw [hlast, ← List.append_assoc]
  simp

/-! ## Paths -/

theorem sedSlashes_subset {c : Char} : ∀ {s : CStr}, c ∈ sedSlashes s → c ∈ s
  | [], h => h
  | x :: s, h => by
    rw [sedSlashes] at h
    split_ifs at h with hx
    · rcases List.mem_cons.1 h with rfl | h
      · rw [hx]; exact List.mem_cons_self
      · exact List.mem_cons_of_mem _ (List.dropWhile_subset _ h)
    · rcases List.mem_cons.1 h with rfl | h
      · exact List.mem_cons_self
      · exact List.mem_cons_of_mem _ (sedSlashes_subset h)

theorem sedDot_subset {c : Char} : ∀ {s : CStr}, c ∈ sedDot s → c ∈ s
  | [], h => h
  | x :: s, h => by
    rw [sedDot] at h
    split_ifs at h with hx
    · rcases List.mem_cons.1 h with rfl | h
      · exact hx.subset List.mem_cons_self
      · exact List.mem_cons_of_mem _ (List.mem_of_mem_drop h)
    · rcases List.mem_cons.1 h with rfl | h
      · exact List.mem_cons_self
      · exact List.mem_cons_of_mem _ (sedDot_subset h)

theorem sedOnlyDot_subset {c : Char} {s : CStr} (h : c ∈ sedOnlyDot s) : c ∈ s := by
  rw [sedOnlyDot] at h
  split_ifs at h with hs
  · obtain rfl : c = '.' := List.mem_singleton.1 h
    obtain ⟨w, hw, rfl⟩ := List.mem_map.1 (List.contains_iff_mem.1 hs)
    revert w
    decide
  · exact h

/-- Stripping a path adds no chars to it. -/
theorem stripFspath_subset {c : Char} {s : CStr} (h : c ∈ stripFspath s) : c ∈ s := by
  have hfinal : c ∈ sedOnlyDot (sedDot (sedSlashes (sedTrailingSlashes s))) := by
    rw [stripFspath, sedFinalDot] at h
    split_ifs at h
    · exact List.dropLast_subset _ (List.dropLast_subset _ h)
    · exact h
  have htrailing : c ∈ sedTrailingSlashes s :=
    sedSlashes_subset (sedDot_subset (sedOnlyDot_subset hfinal))
  rw [sedTrailingSlashes] at htrailing
  split_ifs at htrailing
  · exact htrailing
  · exact (List.rdropWhile_prefix _ _).subset htrailing

/-- **Stripping a path** leaves something of it. -/
theorem stripFspath_ne_nil {s : CStr} (h : s ≠ []) : stripFspath s ≠ [] := by
  have htrailing : sedTrailingSlashes s ≠ [] := by
    rw [sedTrailingSlashes]
    split_ifs with hs
    · exact h
    · exact hs
  have hslashes : ∀ {s : CStr}, s ≠ [] → sedSlashes s ≠ [] := by
    intro s hs
    obtain ⟨c, s, rfl⟩ := List.exists_cons_of_ne_nil hs
    rw [sedSlashes]
    split_ifs <;> exact List.cons_ne_nil _ _
  have hdot : ∀ {s : CStr}, s ≠ [] → sedDot s ≠ [] := by
    intro s hs
    obtain ⟨c, s, rfl⟩ := List.exists_cons_of_ne_nil hs
    rw [sedDot]
    split_ifs <;> exact List.cons_ne_nil _ _
  have honly : ∀ {s : CStr}, s ≠ [] → sedOnlyDot s ≠ [] ∧ sedOnlyDot s ≠ "/.".toList := by
    intro s hs
    rw [sedOnlyDot]
    split_ifs with hmem
    · decide
    · exact ⟨hs, fun he => hmem (by rw [he]; decide)⟩
  obtain ⟨hne, hnotDot⟩ := honly (hdot (hslashes htrailing))
  rw [stripFspath, sedFinalDot]
  split_ifs with hsuf
  · obtain ⟨pre, hpre⟩ := hsuf
    rw [← hpre] at hnotDot ⊢
    cases pre with
    | nil => exact absurd rfl hnotDot
    | cons c pre =>
      have hdrop : (c :: pre ++ "/.".toList).dropLast.dropLast = c :: pre := by
        rw [show c :: pre ++ "/.".toList = (c :: pre ++ ['/']) ++ ['.'] by simp,
          List.dropLast_concat, List.dropLast_concat]
      rw [hdrop]
      exact List.cons_ne_nil _ _
  · exact hne

theorem fspathArg_eq {s : CStr} (h : s ≠ []) : fspathArg s = some (stripFspath s) := by
  rw [fspathArg, if_neg (not_or.2 ⟨h, stripFspath_ne_nil h⟩)]

/-! ## The arguments -/

/-- An absolute path is moved to the end of the arguments. -/
theorem optionLoop_path (fuel : ℕ) (rest : CStr) (args : List CStr) (o : GenscriptOpts) :
    optionLoop (fuel + 1) (('/' :: rest) :: args) o =
      optionLoop fuel (args ++ ['/' :: rest]) o := rfl

theorem optionLoop_layerRoot (fuel : ℕ) {root : CStr} (hroot : root ≠ []) (args : List CStr)
    (o : GenscriptOpts) : optionLoop (fuel + 1) ("-L".toList :: root :: args) o =
      optionLoop fuel args { o with layerRoot := stripFspath root } := by
  have hloop : optionLoop (fuel + 1) ("-L".toList :: root :: args) o =
      match fspathArg root with
      | none => none
      | some v0 => optionLoop fuel args { o with layerRoot := v0 } := rfl
  rw [hloop, fspathArg_eq hroot]

/-- The arguments after both loops. -/
theorem optionLoop_args (mem : Bool) {root branches mp : CStr} (hroot : root ≠ [])
    (hbranches : ∃ rest, branches = '/' :: rest) (hmp : ∃ rest, mp = '/' :: rest) :
    optionLoop 6 ((if mem then ["-M".toList] else []) ++
        ["-L".toList, root, branches, mp] ++ ["^^^".toList]) ⟨[], false⟩ =
      some (["^^^".toList, branches, mp], ⟨stripFspath root, mem⟩) := by
  obtain ⟨rest, rfl⟩ := hbranches
  obtain ⟨rest', rfl⟩ := hmp
  have hpaths : ∀ (fuel : ℕ) (o : GenscriptOpts), optionLoop (fuel + 4)
      ["-L".toList, root, '/' :: rest, '/' :: rest', "^^^".toList] o =
        some (["^^^".toList, '/' :: rest, '/' :: rest'],
          { o with layerRoot := stripFspath root }) := by
    intro fuel o
    rw [optionLoop_layerRoot _ hroot, optionLoop_path]
    show optionLoop (fuel + 2) (('/' :: rest') :: ["^^^".toList, '/' :: rest]) _ = _
    rw [optionLoop_path]
    rfl
  cases mem with
  | false => exact hpaths 2 ⟨[], false⟩
  | true =>
    have hmem : ∀ (fuel : ℕ) (args : List CStr) (o : GenscriptOpts),
        optionLoop (fuel + 1) ("-M".toList :: args) o =
          optionLoop fuel args { o with lastBranchIsOvDir := true } := fun _ _ _ => rfl
    rw [if_pos rfl]
    exact (hmem 5 _ _).trans (hpaths 1 _)

theorem branchString_absolute {bs : List Branch} (h : bs ≠ []) :
    ∃ rest, branchString bs = '/' :: rest := by
  obtain ⟨b, bs, rfl⟩ := List.exists_cons_of_ne_nil h
  obtain ⟨rest, hrest⟩ := b.absolute
  by_cases hbs : bs = []
  · subst hbs
    exact ⟨rest ++ '=' :: b.mode.name, by simp [branchString, Branch.text, hrest]⟩
  · exact ⟨rest ++ '=' :: b.mode.name ++ ':' :: branchString bs, by
      rw [branchString_cons b hbs, Branch.text, hrest]; simp⟩

/-- The program, for any number of branches. -/
theorem genscript_eq {bs : List Branch} (hbs : bs ≠ []) (mem : Bool) {root : CStr}
    (hroot : root ≠ []) (mp : PlainPath) :
    genscript 6 ((if mem then ["-M".toList] else []) ++
        ["-L".toList, root, branchString bs, mp.path]) =
      if bs.length < 2 ∨ 10000 ≤ bs.length then none
      else printScript ⟨stripFspath root, mem⟩ (bs.reverse.map Branch.text)
        (stripFspath mp.path) := by
  have hstring : branchString bs ≠ [] := fun h => hbs (branchString_eq_nil.1 h)
  have hmp : mp.path ≠ [] := by
    obtain ⟨rest, hrest⟩ := mp.absolute
    rw [hrest]
    exact List.cons_ne_nil _ _
  have hrotate : rotateLoop 6 ["^^^".toList, branchString bs, mp.path] =
      some [branchString bs, mp.path] := rfl
  have hfields : fields (Lib.terminated ' ' (bs.map Branch.text).reverse) =
      bs.reverse.map Branch.text := by
    rw [← List.map_reverse]
    exact fields_terminated bs.reverse
  rw [genscript, optionLoop_args mem hroot (branchString_absolute hbs) mp.absolute]
  dsimp only
  rw [hrotate]
  dsimp only
  rw [if_neg (by simp [hstring, hmp])]
  have hbranches : ([branchString bs, mp.path].dropLast).foldlM addBranches [] =
      some (Lib.terminated ' ' (bs.map Branch.text).reverse) := by
    show (addBranches [] (branchString bs)).bind some = _
    rw [Option.bind_fun_some, addBranches_branchString]
  have hlast : [branchString bs, mp.path].getLastD [] = mp.path := rfl
  rw [hbranches, hlast, fspathArg_eq hmp]
  dsimp only
  have hroot' := stripFspath_ne_nil hroot
  rw [hfields, List.length_map, List.length_reverse]
  simp only [hroot', or_false]

/-- **The program prints for the branches from bottom to top.** -/
theorem genscript_branchString {bs : List Branch} (hcount : 2 ≤ bs.length)
    (hmax : bs.length < 10000) (mem : Bool) {root : CStr} (hroot : root ≠ []) (mp : PlainPath) :
    genscript 6 ((if mem then ["-M".toList] else []) ++
        ["-L".toList, root, branchString bs, mp.path]) =
      printScript ⟨stripFspath root, mem⟩ (bs.reverse.map Branch.text) (stripFspath mp.path) := by
  have hbs : bs ≠ [] := by rintro rfl; simp at hcount
  rw [genscript_eq hbs mem hroot mp, if_neg (by omega)]

/-! ## The commands that are printed -/

/-- The command that makes the mount, with the mount options `opts`. -/
def mountArgs (opts mp : CStr) : List Lib.Shell.Arg :=
  [.bare "autodie".toList, .bare "mount".toList, .bare "-t".toList, .bare "overlay".toList,
    .bare "-o".toList, .quoted opts, .bare "overlay".toList, .quoted mp]

theorem mountArgs_plain {opts mp : CStr} (hopts : Quotable opts) (hmp : Quotable mp) :
    ∀ a ∈ mountArgs opts mp, a.Plain := by
  have hautodie : Lib.Shell.IsBareWord "autodie".toList := by decide
  have hmount : Lib.Shell.IsBareWord "mount".toList := by decide
  have ht : Lib.Shell.IsBareWord "-t".toList := by decide
  have hoverlay : Lib.Shell.IsBareWord "overlay".toList := by decide
  have ho : Lib.Shell.IsBareWord "-o".toList := by decide
  intro a ha
  simp only [mountArgs, List.mem_cons, List.not_mem_nil, or_false] at ha
  rcases ha with rfl | rfl | rfl | rfl | rfl | rfl | rfl | rfl
  · exact hautodie
  · exact hmount
  · exact ht
  · exact hoverlay
  · exact ho
  · exact hopts
  · exact hoverlay
  · exact hmp

/-- The options of the mount. -/
def overlayOpts (mode lowerdir upperdir workdir : CStr) : CStr :=
  mode ++ ",lowerdir=".toList ++ lowerdir ++ ",upperdir=".toList ++ upperdir ++
    ",workdir=".toList ++ workdir

/-- The line that `_print_mount_overlay` prints is the command. -/
theorem render_mountArgs (opts mp : CStr) :
    Lib.Shell.render (mountArgs opts mp) =
      printCmdstr ("mount -t overlay -o \"".toList ++ opts ++ "\" overlay \"".toList ++ mp ++
        "\"".toList) := by
  have hline : printCmdstr ("mount -t overlay -o \"".toList ++ opts ++ "\" overlay \"".toList ++
      mp ++ "\"".toList) = "autodie mount -t overlay -o \"".toList ++
        (opts ++ ("\" overlay \"".toList ++ (mp ++ "\"".toList))) := by
    rw [List.append_assoc, List.append_assoc, List.append_assoc]
    rfl
  rw [hline, mountArgs]
  iterate 7 rw [Lib.Shell.render_cons _ (List.cons_ne_nil _ _)]
  rw [Lib.Shell.render_singleton, Lib.Shell.Arg.text_quoted_append]
  rfl

/-! ## What the commands mount -/

/-- The first option of the name, after the options `pre`. -/
theorem mountOption_eq {name : String} {opts rem : CStr} (pre : List CStr) {suf : List CStr}
    (hopts : opts.splitOn ',' = pre ++ (name.toList ++ '=' :: rem) :: suf)
    (hpre : ∀ opt ∈ pre, ¬ name.toList ++ ['='] <+: opt) : mountOption name opts = some rem := by
  have hnone : pre.findSome? (fun opt => strStartswith opt (name.toList ++ ['='])) = none :=
    List.findSome?_eq_none_iff.2 fun opt hopt => strStartswith_eq_none.2 (hpre opt hopt)
  have hfirst : strStartswith (name.toList ++ '=' :: rem) (name.toList ++ ['=']) = some rem :=
    strStartswith_eq_some.2 (by simp)
  rw [mountOption, hopts, List.findSome?_append, hnone, List.findSome?_cons, hfirst]
  rfl

/-- The options of the mount, one by one. -/
theorem splitOn_overlayOpts {mode lower upper work : CStr} (hmode : ',' ∉ mode)
    (hlower : ',' ∉ lower) (hupper : ',' ∉ upper) (hwork : ',' ∉ work) :
    (overlayOpts mode lower upper work).splitOn ',' =
      [mode, "lowerdir=".toList ++ lower, "upperdir=".toList ++ upper,
        "workdir=".toList ++ work] := by
  have hname : ∀ {name : String} {dir : CStr}, ',' ∉ name.toList → ',' ∉ dir →
      ',' ∉ name.toList ++ dir := fun h h' hc => (List.mem_append.1 hc).elim h h'
  have hopts : overlayOpts mode lower upper work = mode ++ ',' :: ("lowerdir=".toList ++ lower ++
      ',' :: ("upperdir=".toList ++ upper ++ ',' :: ("workdir=".toList ++ work))) := by
    rw [overlayOpts, List.append_assoc, List.append_assoc, List.append_assoc, List.append_assoc,
      List.append_assoc, List.append_assoc]
    rfl
  rw [hopts, List.splitOn_append_cons_self_of_not_mem hmode,
    List.splitOn_append_cons_self_of_not_mem (hname (by simp) hlower),
    List.splitOn_append_cons_self_of_not_mem (hname (by simp) hupper),
    List.splitOn_eq_singleton (hname (by simp) hwork)]

theorem not_prefix_of_head {c d : Char} {s t : CStr} (h : c ≠ d) : ¬ c :: s <+: d :: t :=
  fun hpre => h (List.cons_prefix_cons.1 hpre).1

/-- **The command makes the overlay mount** with its directories. -/
theorem overlayMountOf_mount (mode : BranchMode) {lower upper work mp : CStr}
    (hlower : Quotable lower ∧ ',' ∉ lower) (hupper : Quotable upper ∧ ',' ∉ upper)
    (hwork : Quotable work ∧ ',' ∉ work) (hmp : Quotable mp) :
    overlayMountOf (Lib.Shell.render (mountArgs (overlayOpts mode.mount lower upper work) mp)) =
      some ⟨lower.splitOn ':', upper, work, mp⟩ := by
  have hmode : Quotable mode.mount ∧ ',' ∉ mode.mount ∧ ∃ s, mode.mount = 'r' :: s := by
    cases mode
    · exact ⟨by decide, by decide, _, rfl⟩
    · exact ⟨by decide, by decide, _, rfl⟩
    · exact ⟨by decide, by decide, _, rfl⟩
  obtain ⟨hquotable, hcomma, s, hs⟩ := hmode
  have hsplit := splitOn_overlayOpts hcomma hlower.2 hupper.2 hwork.2
  have hopts : Quotable (overlayOpts mode.mount lower upper work) := by
    have hnames : Quotable ",lowerdir=".toList ∧ Quotable ",upperdir=".toList ∧
        Quotable ",workdir=".toList := ⟨by decide, by decide, by decide⟩
    exact (((((hquotable.append hnames.1).append hlower.1).append hnames.2.1).append
      hupper.1).append hnames.2.2).append hwork.1
  have hl : mountOption "lowerdir" (overlayOpts mode.mount lower upper work) = some lower := by
    refine mountOption_eq [mode.mount] hsplit fun opt hopt => ?_
    rw [List.mem_singleton.1 hopt, hs]
    exact not_prefix_of_head (by decide)
  have hu : mountOption "upperdir" (overlayOpts mode.mount lower upper work) = some upper := by
    refine mountOption_eq [mode.mount, "lowerdir=".toList ++ lower] hsplit
      fun opt hopt => ?_
    rcases List.mem_cons.1 hopt with rfl | hopt
    · rw [hs]
      exact not_prefix_of_head (by decide)
    · rw [List.mem_singleton.1 hopt]
      exact not_prefix_of_head (by decide)
  have hw : mountOption "workdir" (overlayOpts mode.mount lower upper work) = some work := by
    refine mountOption_eq [mode.mount, "lowerdir=".toList ++ lower,
      "upperdir=".toList ++ upper] hsplit fun opt hopt => ?_
    rcases List.mem_cons.1 hopt with rfl | hopt
    · rw [hs]
      exact not_prefix_of_head (by decide)
    · rcases List.mem_cons.1 hopt with rfl | hopt
      · exact not_prefix_of_head (by decide)
      · rw [List.mem_singleton.1 hopt]
        exact not_prefix_of_head (by decide)
  rw [overlayMountOf, Lib.Shell.tokens_render (mountArgs_plain hopts hmp)]
  simp only [mountArgs, List.map_cons, List.map_nil, Lib.Shell.Arg.word, if_true, hl, hu, hw]

/-- **A command other than `mount`** makes no mount, whatever its arguments are. -/
theorem overlayMountOf_other {cmd : String} (hcmd : (Lib.Shell.Arg.bare cmd.toList).Plain)
    (hne : cmd.toList ≠ "mount".toList) (s : CStr) :
    overlayMountOf (printCmdstr (cmd.toList ++ ' ' :: s)) = none := by
  have hautodie : Lib.Shell.IsBareWord "autodie".toList := by decide
  have hline : printCmdstr (cmd.toList ++ ' ' :: s) =
      Lib.terminated ' ' ([.bare "autodie".toList, .bare cmd.toList].map Lib.Shell.Arg.text) ++
        s := by
    simp only [List.map_cons, List.map_nil, Lib.terminated_cons, Lib.terminated_nil]
    rw [List.append_assoc, List.cons_append, List.append_assoc]
    rfl
  rw [overlayMountOf, hline]
  split
  · next htokens =>
    -- the first words are read, whatever follows them
    rw [Lib.Shell.tokens] at htokens
    split_ifs at htokens
    have hstart : Lib.Shell.Lexer.init = Lib.Shell.between [] := rfl
    rw [Lib.Shell.run_append, hstart, Lib.Shell.run_rendered [] (by
      intro a ha
      simp only [List.mem_cons, List.not_mem_nil, or_false] at ha
      rcases ha with rfl | rfl
      · exact hautodie
      · exact hcmd)] at htokens
    obtain ⟨rest, hrest⟩ := Lib.Shell.run_toks htokens
    have hsecond : cmd.toList = _ :=
      Lib.Shell.Token.word.inj (List.cons.inj (List.cons.inj hrest).2).1
    rw [if_neg]
    rw [← hsecond]
    intro h
    exact hne (List.cons.inj (List.cons.inj h).2).1
  · rfl

theorem filterMap_printMkdirp (dirs : List CStr) :
    (printMkdirp dirs).filterMap overlayMountOf = [] := by
  rw [printMkdirp]
  split_ifs with hs
  · rfl
  · have hmkdir : Lib.Shell.IsBareWord "mkdir".toList := by decide
    exact List.filterMap_eq_nil_iff.2 fun line hline => by
      rw [List.mem_singleton.1 hline]
      exact overlayMountOf_other hmkdir (by simp) ("-p -- ".toList ++ _)

theorem overlayMountOf_workdirCheck (src : CStr) :
    overlayMountOf (printWorkdirCheck src) = none := by
  have hbracket : Lib.Shell.IsBareWord "[".toList := by decide
  rw [printWorkdirCheck, List.append_assoc, List.append_assoc]
  exact overlayMountOf_other hbracket (by simp) ("-d \"".toList ++ _)

/-! ## The layers -/

theorem Branch.keyOf_text (b : Branch) : keyOf b.text = b.path := by
  have hpath : ∀ c ∈ b.path, (c != '=') = true := by
    intro c hc
    simpa using isPathChar_ne (b.plain c hc) (by simp)
  rw [keyOf, Branch.text, List.takeWhile_append_of_pos hpath, List.takeWhile_cons_of_neg (by simp),
    List.append_nil]

/-- The string of the branches has no other chars than the branches, and colons. -/
theorem mem_branchString {bs : List Branch} {c : Char} (hc : c ∈ branchString bs) :
    IsPathChar c ∨ c = '=' ∨ c = ':' := by
  rcases Lib.mem_intercalate hc with hc | ⟨w, hw, hc⟩
  · exact .inr (.inr hc)
  · obtain ⟨b, -, rfl⟩ := List.mem_map.1 hw
    exact (b.mem_text hc).imp_right .inl

/-- **The layers of aufs** are the branches, from top to bottom. -/
theorem aufsBranches_branchString {bs : List Branch} (h : bs ≠ []) (mem : Bool) :
    aufsBranches (aufsOpts ⟨branchString bs, mem⟩) = bs.map fun b => b.path := by
  have hcomma : ',' ∉ "br:".toList ++ branchString bs := by
    intro hc
    rcases List.mem_append.1 hc with hc | hc
    · revert hc
      decide
    · rcases mem_branchString hc with hc | hc | hc
      · exact isPathChar_ne hc (d := ',') (by simp) rfl
      · revert hc; decide
      · revert hc; decide
  have hopts : (aufsOpts ⟨branchString bs, mem⟩).splitOn ',' =
      ["dirperm1".toList, "br:".toList ++ branchString bs] := by
    have hcons : aufsOpts ⟨branchString bs, mem⟩ =
        "dirperm1".toList ++ ',' :: ("br:".toList ++ branchString bs) := rfl
    rw [hcons, List.splitOn_append_cons_self_of_not_mem (by simp),
      List.splitOn_eq_singleton hcomma]
  have hbr : strStartswith ("br:".toList ++ branchString bs) "br:".toList =
      some (branchString bs) := strStartswith_eq_some.2 rfl
  have hfirst : strStartswith "dirperm1".toList "br:".toList = none :=
    strStartswith_eq_none.2 (by simp)
  have hcolon : ∀ w ∈ bs.map Branch.text, ':' ∉ w := by
    intro w hw hc
    obtain ⟨b, -, rfl⟩ := List.mem_map.1 hw
    rcases b.mem_text hc with hc | hc
    · exact isPathChar_ne hc (d := ':') (by simp) rfl
    · revert hc; decide
  rw [aufsBranches, hopts, List.findSome?_cons, hfirst, List.findSome?_cons, hbr]
  dsimp only
  rw [branchString, List.splitOn_intercalate ':' hcolon (by simpa using h), List.map_map]
  exact List.map_congr_left fun b _ => b.keyOf_text

/-- A suffix that is cut off and added again. -/
theorem take_append_data {src : CStr} (h : "/data".toList <:+ src) :
    src.take (src.length - 5) ++ "/data".toList = src := by
  obtain ⟨pre, rfl⟩ := h
  have hlength : (pre ++ "/data".toList).length - 5 = pre.length := by
    rw [List.length_append]
    exact Nat.add_sub_cancel _ 5
  rw [hlength, List.take_left]

/-- **What the program prints** for some branches: the last line makes the mount. -/
theorem printScript_branches (o : GenscriptOpts) (top : Branch) {rest : List Branch}
    (hrest : rest ≠ []) (mnt : CStr)
    (htop : "/data".toList <:+ top.path ∨ o.lastBranchIsOvDir = true) :
    ∃ checks src, printScript o ((top :: rest).reverse.map Branch.text) mnt =
        some (checks ++ [Lib.Shell.render (mountArgs (overlayOpts top.mode.mount
          ([':'].intercalate (rest.map fun b => b.path)) (upperdirOf top.path)
          (src ++ "/workdir".toList)) mnt)]) ∧
      checks.filterMap overlayMountOf = [] ∧ src <+: top.path := by
  have hpaths : (rest.map fun b => b.path) ≠ [] := by simpa using hrest
  obtain ⟨hlast, hdrop⟩ := dropLast_terminated hpaths
  have hlower : [':'].intercalate (rest.map fun b => b.path) ≠ [] := by
    obtain ⟨b, rest, rfl⟩ := List.exists_cons_of_ne_nil hrest
    obtain ⟨path, hpath⟩ := b.absolute
    rw [List.map_cons, hpath]
    cases rest <;> simp [List.intercalate]
  have hloop := lowerLoop_reverse top rest
  -- the directory of `data` and `workdir`
  let src : CStr := if ("/data".toList <:+ top.path : Bool) then
    top.path.take (top.path.length - 5) else top.path
  have hsrc : src <+: top.path := by
    show (if _ then _ else _) <+: _
    split_ifs
    · exact List.take_prefix _ _
    · exact List.prefix_rfl
  have hup : upperdirOf top.path = src ++ "/data".toList := by
    show _ = (if _ then _ else _) ++ _
    rw [upperdirOf]
    split_ifs with hdata hdata' hdata'
    · exact (take_append_data hdata).symm
    · exact absurd (decide_eq_true hdata) hdata'
    · exact absurd (of_decide_eq_true hdata') hdata
    · rfl
  refine ⟨(if ("/data".toList <:+ top.path : Bool) then [printWorkdirCheck src] else []) ++
    (if o.lastBranchIsOvDir then
      printMkdirp [src ++ "/data".toList, src ++ "/workdir".toList] else []) ++ printMkdirp [mnt],
    src, ?_, ?_, hsrc⟩
  · rw [printScript, hloop]
    dsimp only
    rw [if_pos hlast, hdrop, getBranchVars_text]
    dsimp only
    rw [if_neg, hup, render_mountArgs, List.append_assoc _ (printMkdirp [mnt])]
    · rfl
    · rintro (h | ⟨hdata, hmem⟩)
      · exact hlower h
      · rcases htop with h | h
        · exact absurd h (of_decide_eq_false hdata)
        · rw [h] at hmem
          cases hmem
  · rw [List.filterMap_append, List.filterMap_append, filterMap_printMkdirp]
    split_ifs
    all_goals simp [overlayMountOf_workdirCheck, filterMap_printMkdirp]

/-- The top branch of a script that is printed. -/
theorem top_of_printScript {o : GenscriptOpts} {top : Branch} {rest : List Branch}
    (hrest : rest ≠ []) {mnt : CStr} {lines : List CStr}
    (h : printScript o ((top :: rest).reverse.map Branch.text) mnt = some lines) :
    "/data".toList <:+ top.path ∨ o.lastBranchIsOvDir = true := by
  have hpaths : (rest.map fun b => b.path) ≠ [] := by simpa using hrest
  obtain ⟨hlast, hdrop⟩ := dropLast_terminated hpaths
  rw [printScript, lowerLoop_reverse top rest] at h
  dsimp only at h
  rw [if_pos hlast, hdrop, getBranchVars_text] at h
  dsimp only at h
  by_contra hnot
  rw [not_or, Bool.not_eq_true] at hnot
  rw [if_pos (.inr ⟨decide_eq_false hnot.1, hnot.2⟩)] at h
  cases h

/-- A path needs no quoting in a list of mount options. -/
theorem quotable_of_isPath {s : CStr} (h : IsPath s) : Quotable s ∧ ',' ∉ s :=
  ⟨fun c hc => (h c hc).2.2.1, fun hc => isPathChar_ne (h _ hc) (d := ',') (by simp) rfl⟩

theorem quotable_lowerdirs (bs : List Branch) :
    Quotable ([':'].intercalate (bs.map fun b => b.path)) ∧
      ',' ∉ [':'].intercalate (bs.map fun b => b.path) := by
  have hmem : ∀ c ∈ [':'].intercalate (bs.map fun b => b.path), c = ':' ∨ IsPathChar c := by
    intro c hc
    rcases Lib.mem_intercalate hc with hc | ⟨w, hw, hc⟩
    · exact .inl hc
    · obtain ⟨b, -, rfl⟩ := List.mem_map.1 hw
      exact .inr (b.plain c hc)
  constructor
  · intro c hc
    rcases hmem c hc with rfl | hc
    · decide
    · exact hc.2.2.1
  · intro hc
    rcases hmem _ hc with hc | hc
    · revert hc; decide
    · exact isPathChar_ne hc (d := ',') (by simp) rfl

theorem mem_upperdirOf {b : Branch} {c : Char} (hc : c ∈ upperdirOf b.path) : IsPathChar c := by
  have hdata : IsPath "/data".toList := by decide
  rw [upperdirOf] at hc
  split_ifs at hc
  · exact b.plain c hc
  · exact (List.mem_append.1 hc).elim (b.plain c) (hdata c)

/-- **The script mounts the branches**: the top one as upper directory, the others as
    lower directories. -/
theorem printScript_mount (o : GenscriptOpts) (top : Branch) {rest : List Branch}
    (hrest : rest ≠ []) (mp : PlainPath)
    (htop : "/data".toList <:+ top.path ∨ o.lastBranchIsOvDir = true) :
    ∃ lines m, printScript o ((top :: rest).reverse.map Branch.text) (stripFspath mp.path) =
        some lines ∧ lines.filterMap overlayMountOf = [m] ∧
      m.upperdir = upperdirOf top.path ∧ m.lowerdirs = rest.map fun b => b.path := by
  obtain ⟨checks, src, hscript, hchecks, hsrc⟩ :=
    printScript_branches o top hrest (stripFspath mp.path) htop
  have hworkdir : IsPath "/workdir".toList := by decide
  have hwork := quotable_of_isPath fun c (hc : c ∈ src ++ "/workdir".toList) =>
    (List.mem_append.1 hc).elim (fun h => top.plain c (hsrc.subset h)) (hworkdir c)
  have hmp := quotable_of_isPath fun c (hc : c ∈ stripFspath mp.path) =>
    mp.plain c (stripFspath_subset hc)
  have hmount := overlayMountOf_mount top.mode (quotable_lowerdirs rest)
    (quotable_of_isPath fun c (hc : c ∈ upperdirOf top.path) => mem_upperdirOf hc) hwork hmp.1
  have hmounts : (checks ++ [Lib.Shell.render (mountArgs (overlayOpts top.mode.mount
      ([':'].intercalate (rest.map fun b => b.path)) (upperdirOf top.path)
      (src ++ "/workdir".toList)) (stripFspath mp.path))]).filterMap overlayMountOf =
        [⟨([':'].intercalate (rest.map fun b => b.path)).splitOn ':', upperdirOf top.path,
          src ++ "/workdir".toList, stripFspath mp.path⟩] := by
    rw [List.filterMap_append, hchecks, List.nil_append, List.filterMap_cons, hmount]
    rfl
  refine ⟨_, _, hscript, hmounts, rfl, ?_⟩
  have hcolon : ∀ w ∈ rest.map fun b => b.path, ':' ∉ w := by
    intro w hw hc
    obtain ⟨b, -, rfl⟩ := List.mem_map.1 hw
    exact isPathChar_ne (b.plain _ hc) (d := ':') (by simp) rfl
  exact List.splitOn_intercalate ':' hcolon (by simpa using hrest)

/-- **Both file systems get the same layers**: for every sequence of operations that
    gives enough branches, the program prints a script, and the overlay that it mounts
    agrees with the `br:` option of aufs. -/
theorem genscript_agreesWithAufs (ops : List BranchOp) (auxMntRoot mp : PlainPath)
    (hcount : 2 ≤ (branchList ops).length) (hmax : (branchList ops).length < 10000)
    (htop : ∀ top ∈ (branchList ops).head?,
      "/data".toList <:+ top.path ∨ (runBranchOps ops).prevBranchWasMem = true) :
    ∃ fuel lines,
      unionMountOverlayfsGenscript fuel (runBranchOps ops) auxMntRoot.path mp.path = some lines ∧
        AgreesWithAufs (runBranchOps ops) lines := by
  obtain ⟨top, rest, hlist, hrest⟩ :
      ∃ top rest, branchList ops = top :: rest ∧ rest ≠ [] := by
    match h : branchList ops with
    | top :: b :: rest => exact ⟨top, b :: rest, rfl, List.cons_ne_nil _ _⟩
    | [_] | [] => rw [h] at hcount; simp at hcount
  have hbranches := branches_runBranchOps ops
  rw [hlist] at hcount hmax htop hbranches
  have hroot : auxMntRoot.path ++ "/layers".toList ≠ [] := by simp
  obtain ⟨lines, m, hscript, hmount, hupper, hlower⟩ := printScript_mount
    ⟨stripFspath (auxMntRoot.path ++ "/layers".toList), (runBranchOps ops).prevBranchWasMem⟩
    top hrest mp (htop top rfl)
  have hprogram := genscript_branchString hcount hmax (runBranchOps ops).prevBranchWasMem hroot mp
  rw [← hbranches, hscript] at hprogram
  have haufs : aufsBranches (aufsOpts (runBranchOps ops)) =
      top.path :: rest.map fun b => b.path := by
    have h := aufsBranches_branchString (List.cons_ne_nil top rest)
      (runBranchOps ops).prevBranchWasMem
    rwa [← hbranches] at h
  have hhead : (["#!/bin/sh".toList, "set -e".toList] : List CStr).filterMap overlayMountOf =
      [] := rfl
  refine ⟨6, ["#!/bin/sh".toList, "set -e".toList] ++ lines, ?_, ?_⟩
  · rw [unionMountOverlayfsGenscript, hprogram, Option.map_some]
  · refine ⟨m, top.path, rest.map fun b => b.path, ?_, haufs, hupper, hlower⟩
    rw [List.filterMap_append, hhead, hmount, List.nil_append]

/-- A read-only squashfs layer under a memory branch. -/
theorem genscript_agreesWithAufs_memBranch :
    let squashfs : Branch := ⟨⟨"/layers/usr".toList, ⟨_, rfl⟩, by decide⟩, .rr⟩
    let mem : Branch := ⟨⟨"/layers/mem".toList, ⟨_, rfl⟩, by decide⟩, .rw⟩
    let ops : List BranchOp := [.add squashfs, .add mem, .markPrevAsMem]
    ∃ fuel lines, unionMountOverlayfsGenscript fuel (runBranchOps ops) "/aux".toList
      "/newroot".toList = some lines ∧ AgreesWithAufs (runBranchOps ops) lines :=
  genscript_agreesWithAufs _ ⟨_, ⟨_, rfl⟩, by decide⟩ ⟨_, ⟨_, rfl⟩, by decide⟩
    (by decide) (by decide) fun _ _ => .inr rfl

end Fischstaebchen
