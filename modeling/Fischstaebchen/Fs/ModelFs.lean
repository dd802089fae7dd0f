/-
  A model file system: a tree of directories and files.

  A location is the list of names that lead to it from the root.  A path is
  resolved name by name from the root or the working directory, `.` and `..`
  included; every location on the way has to be a directory.  Permissions and
  symbolic links are not modelled.

  * `FileSystem`: the tree, with its invariants.
  * `isDirAt_iff`: names lead to a directory if all their prefixes do.
  * `mkdir_cases`: what creating a directory in an existing one does.
  * `AddedAlong`: a file system with the directories along a path in addition.
    They are added one by one (`AddedAlong.step`), and in one way only
    (`AddedAlong.unique`).
-/
import Fischstaebchen.Fs.Fspath

namespace Fischstaebchen

open Lib

/-- Why a path is not resolved or not created. -/
inductive FsError
  | enoent
  | enotdir
  | eexist
  deriving DecidableEq

/-- A file name. -/
abbrev FileName := List UInt8

/-- A location in the tree. -/
abbrev Loc := List FileName

/-- A file system and the working directory of the process. -/
structure FileSystem where
  cwd : Loc
  dirs : Finset Loc
  files : Finset Loc
  root_mem : [] ∈ dirs
  cwd_mem : cwd ∈ dirs
  parent_mem : ∀ loc ∈ dirs, loc.dropLast ∈ dirs
  disjoint : ∀ loc ∈ dirs, loc ∉ files

/-- `".."`. -/
def dotdot : FileName := [0x2E, 0x2E]

/-- The location that a name stands for in a directory. -/
def enter (loc : Loc) (name : FileName) : Loc :=
  if name = dot then loc else if name = dotdot then loc.dropLast else loc ++ [name]

/-- The location that names lead to, if they lead anywhere. -/
def destination (loc : Loc) (names : List FileName) : Loc := names.foldl enter loc

theorem destination_concat (loc : Loc) (names : List FileName) (name : FileName) :
    destination loc (names ++ [name]) = enter (destination loc names) name := by
  rw [destination, List.foldl_append]
  rfl

namespace FileSystem
variable (fs : FileSystem)

/-- Resolves names, of which the last one need not exist. -/
def resolve : Loc → List FileName → Except FsError Loc
  | loc, [] => .ok loc
  | loc, name :: names =>
    if loc ∈ fs.dirs then resolve (enter loc name) names
    else if loc ∈ fs.files then .error .enotdir
    else .error .enoent

/-- Where a path starts. -/
def start (path : List UInt8) : Loc := if isAbs delimiter path then [] else fs.cwd

/-- The location of a path. -/
def locate (path : List UInt8) : Except FsError Loc :=
  if path = [] then .error .enoent
  else fs.resolve (fs.start path) (components delimiter path)

/-- A new directory. -/
def addDir (loc : Loc) (hparent : loc.dropLast ∈ fs.dirs) (hfile : loc ∉ fs.files) :
    FileSystem where
  cwd := fs.cwd
  dirs := insert loc fs.dirs
  files := fs.files
  root_mem := Finset.mem_insert_of_mem fs.root_mem
  cwd_mem := Finset.mem_insert_of_mem fs.cwd_mem
  parent_mem := by
    intro loc' h
    rcases Finset.mem_insert.1 h with rfl | h
    · exact Finset.mem_insert_of_mem hparent
    · exact Finset.mem_insert_of_mem (fs.parent_mem loc' h)
  disjoint := by
    intro loc' h
    rcases Finset.mem_insert.1 h with rfl | h
    · exact hfile
    · exact fs.disjoint loc' h

/-- `mkdir(2)`. -/
def mkdir (path : List UInt8) : Except FsError FileSystem :=
  match fs.locate path with
  | .error errno => .error errno
  | .ok loc =>
    if loc ∈ fs.dirs then .error .eexist
    else if hfile : loc ∈ fs.files then .error .eexist
    else if hparent : loc.dropLast ∈ fs.dirs then .ok (fs.addDir loc hparent hfile)
    else .error .enoent

/-- `unlink(2)`, which removes files only. -/
def unlink (path : List UInt8) : FileSystem :=
  match fs.locate path with
  | .error _ => fs
  | .ok loc => { fs with
      files := fs.files.erase loc
      disjoint := fun loc' h hfile => fs.disjoint loc' h (Finset.mem_of_mem_erase hfile) }

/-- Names that lead to a directory. -/
def IsDirAt (loc : Loc) (names : List FileName) : Prop :=
  ∃ loc', fs.resolve loc names = .ok loc' ∧ loc' ∈ fs.dirs

/-- A path to a directory. -/
def IsDir (path : List UInt8) : Prop := ∃ loc, fs.locate path = .ok loc ∧ loc ∈ fs.dirs

/-- Another file system with the same directories and more. -/
structure Extends (fs' : FileSystem) : Prop where
  cwd : fs'.cwd = fs.cwd
  dirs : fs.dirs ⊆ fs'.dirs

/-- Another file system with one more directory, or the same ones if it was there. -/
structure Gains (fs' : FileSystem) (loc : Loc) : Prop where
  cwd : fs'.cwd = fs.cwd
  dirs : fs'.dirs = insert loc fs.dirs
  files : fs'.files ⊆ fs.files

/-- Another file system that has the directories along a path in addition. -/
structure AddedAlong (fs' : FileSystem) (base : Loc) (names : List FileName) : Prop where
  cwd : fs'.cwd = fs.cwd
  dirs : ∀ loc, loc ∈ fs'.dirs ↔ loc ∈ fs.dirs ∨ ∃ vs, vs <+: names ∧ loc = destination base vs
  files : fs'.files ⊆ fs.files

variable {fs} {fs' fs'' : FileSystem} {loc loc' base : Loc} {names names' : List FileName}
  {name : FileName} {path : List UInt8}

theorem Extends.start (h : fs.Extends fs') (path : List UInt8) :
    fs'.start path = fs.start path := by
  rw [FileSystem.start, FileSystem.start, h.cwd]

theorem start_mem (path : List UInt8) : fs.start path ∈ fs.dirs := by
  unfold FileSystem.start
  split_ifs
  · exact fs.root_mem
  · exact fs.cwd_mem

/-! ## Resolving names -/

theorem isDirAt_cons :
    fs.IsDirAt loc (name :: names) ↔ loc ∈ fs.dirs ∧ fs.IsDirAt (enter loc name) names := by
  constructor
  · rintro ⟨loc', hres, hmem⟩
    rw [resolve] at hres
    split_ifs at hres with hloc
    exact ⟨hloc, loc', hres, hmem⟩
  · rintro ⟨hloc, loc', hres, hmem⟩
    exact ⟨loc', by rw [resolve, if_pos hloc, hres], hmem⟩

/-- **Names lead to a directory** if all their prefixes do. -/
theorem isDirAt_iff :
    fs.IsDirAt loc names ↔ ∀ vs, vs <+: names → destination loc vs ∈ fs.dirs := by
  induction names generalizing loc with
  | nil =>
    constructor
    · rintro ⟨_, ⟨⟩, hmem⟩ vs hvs
      rw [List.prefix_nil.1 hvs]
      exact hmem
    · intro h
      exact ⟨loc, rfl, h [] (List.prefix_refl [])⟩
  | cons name names ih =>
    rw [isDirAt_cons, ih]
    constructor
    · rintro ⟨hloc, h⟩ vs hvs
      cases vs with
      | nil => exact hloc
      | cons v vs =>
        obtain ⟨rfl, hrest⟩ := List.cons_prefix_cons.1 hvs
        exact h vs hrest
    · intro h
      exact ⟨h [] List.nil_prefix, fun vs hvs => h (name :: vs) (List.cons_prefix_cons.2 ⟨rfl, hvs⟩)⟩

theorem isDirAt_start (path : List UInt8) : fs.IsDirAt (fs.start path) [] :=
  ⟨_, rfl, start_mem path⟩

theorem IsDirAt.mem (h : fs.IsDirAt loc names) : destination loc names ∈ fs.dirs :=
  isDirAt_iff.1 h names (List.prefix_refl names)

/-- Only directories lie on the way to one. -/
theorem IsDirAt.take (h : fs.IsDirAt loc names) (hpre : names' <+: names) :
    fs.IsDirAt loc names' :=
  isDirAt_iff.2 fun vs hvs => isDirAt_iff.1 h vs (hvs.trans hpre)

theorem Extends.isDirAt (h : fs.Extends fs') (hdir : fs.IsDirAt loc names) :
    fs'.IsDirAt loc names :=
  isDirAt_iff.2 fun vs hvs => h.dirs (isDirAt_iff.1 hdir vs hvs)

/-- The last name need not exist. -/
theorem IsDirAt.resolve_concat (h : fs.IsDirAt loc names) (name : FileName) :
    fs.resolve loc (names ++ [name]) = .ok (destination loc (names ++ [name])) := by
  induction names generalizing loc with
  | nil =>
    have hloc : loc ∈ fs.dirs := h.mem
    rw [List.nil_append, resolve, if_pos hloc]
    rfl
  | cons first names ih =>
    obtain ⟨hloc, hnext⟩ := isDirAt_cons.1 h
    rw [List.cons_append, resolve, if_pos hloc]
    exact ih hnext

/-- The others have to be directories. -/
theorem isDirAt_of_resolve (h : fs.resolve loc (names ++ [name]) = .ok loc') :
    fs.IsDirAt loc names := by
  induction names generalizing loc with
  | nil =>
    rw [List.nil_append, resolve] at h
    split_ifs at h with hloc
    exact ⟨loc, rfl, hloc⟩
  | cons first names ih =>
    rw [List.cons_append, resolve] at h
    split_ifs at h with hloc
    exact isDirAt_cons.2 ⟨hloc, ih h⟩

theorem resolve_ne_eexist : fs.resolve loc names ≠ .error .eexist := by
  induction names generalizing loc with
  | nil => exact nofun
  | cons name names ih =>
    rw [resolve]
    split_ifs
    · exact ih
    · exact nofun
    · exact nofun

theorem isDir_iff (hne : path ≠ []) :
    fs.IsDir path ↔ fs.IsDirAt (fs.start path) (components delimiter path) := by
  rw [IsDir, locate, if_neg hne]
  rfl

/-! ## Creating a directory -/

/-- `.` and `..` of a directory exist; other names may not. -/
theorem enter_cases (h : loc ∈ fs.dirs) (name : FileName) :
    enter loc name ∈ fs.dirs ∨ (enter loc name).dropLast = loc := by
  unfold enter
  split_ifs
  · exact Or.inl h
  · exact Or.inl (fs.parent_mem loc h)
  · exact Or.inr List.dropLast_concat

/-- **Creating a directory in an existing one**: it is there already, or a file
    is, or it is there afterwards. -/
theorem mkdir_cases (hne : path ≠ []) (hcomp : components delimiter path = names ++ [name])
    (hparent : fs.IsDirAt (fs.start path) names)
    (hloc : loc = destination (fs.start path) (names ++ [name])) :
    fs.locate path = .ok loc ∧
      ((loc ∈ fs.dirs ∧ fs.mkdir path = .error .eexist) ∨
        (loc ∉ fs.dirs ∧ loc ∈ fs.files ∧ fs.mkdir path = .error .eexist) ∨
        (loc ∉ fs.dirs ∧ loc ∉ fs.files ∧ ∃ fs', fs.mkdir path = .ok fs' ∧ fs.Gains fs' loc)) := by
  have hlocate : fs.locate path = .ok loc := by
    rw [locate, if_neg hne, hcomp, hloc]
    exact hparent.resolve_concat name
  refine ⟨hlocate, ?_⟩
  rw [mkdir, hlocate]
  dsimp only
  by_cases hdir : loc ∈ fs.dirs
  · exact Or.inl ⟨hdir, if_pos hdir⟩
  rw [if_neg hdir]
  by_cases hfile : loc ∈ fs.files
  · exact Or.inr (Or.inl ⟨hdir, hfile, dif_pos hfile⟩)
  have hdrop : loc.dropLast ∈ fs.dirs := by
    rw [hloc, destination_concat] at hdir ⊢
    rcases enter_cases hparent.mem name with hexists | hdrop
    · exact absurd hexists hdir
    · rw [hdrop]
      exact hparent.mem
  rw [dif_neg hfile, dif_pos hdrop]
  exact Or.inr (Or.inr ⟨hdir, hfile, _, rfl, rfl, rfl, Finset.Subset.refl _⟩)

/-- Nothing is created where the parent directory is missing. -/
theorem mkdir_no_parent (hne : path ≠ []) (hcomp : components delimiter path = names ++ [name])
    (hparent : ¬ fs.IsDirAt (fs.start path) names) :
    ∃ errno, fs.mkdir path = .error errno ∧ errno ≠ .eexist := by
  rw [mkdir, locate, if_neg hne, hcomp]
  cases hres : fs.resolve (fs.start path) (names ++ [name]) with
  | ok loc' => exact absurd (isDirAt_of_resolve hres) hparent
  | error errno =>
    refine ⟨errno, rfl, ?_⟩
    rintro rfl
    exact resolve_ne_eexist hres

/-! ## Directories along a path -/

theorem Gains.of_mem (h : loc ∈ fs.dirs) : fs.Gains fs loc :=
  ⟨rfl, (Finset.insert_eq_of_mem h).symm, Finset.Subset.refl _⟩

theorem AddedAlong.extends (h : fs.AddedAlong fs' base names) : fs.Extends fs' :=
  ⟨h.cwd, fun loc hloc => (h.dirs loc).2 (Or.inl hloc)⟩

theorem AddedAlong.isDirAt (h : fs.AddedAlong fs' base names) : fs'.IsDirAt base names :=
  isDirAt_iff.2 fun vs hvs => (h.dirs _).2 (Or.inr ⟨vs, hvs, rfl⟩)

/-- Nothing is added if all directories exist. -/
theorem IsDirAt.addedAlong (h : fs.IsDirAt base names) : fs.AddedAlong fs base names where
  cwd := rfl
  dirs := by
    intro loc
    refine ⟨Or.inl, ?_⟩
    rintro (hloc | ⟨vs, hvs, rfl⟩)
    · exact hloc
    · exact isDirAt_iff.1 h vs hvs
  files := Finset.Subset.refl _

/-- **One directory after the other.** -/
theorem AddedAlong.step (h : fs.AddedAlong fs' base names)
    (hgains : fs'.Gains fs'' (destination base (names ++ [name]))) :
    fs.AddedAlong fs'' base (names ++ [name]) where
  cwd := hgains.cwd.trans h.cwd
  dirs := by
    intro loc
    rw [hgains.dirs, Finset.mem_insert, h.dirs]
    constructor
    · rintro (rfl | hloc | ⟨vs, hvs, rfl⟩)
      · exact Or.inr ⟨_, List.prefix_refl _, rfl⟩
      · exact Or.inl hloc
      · exact Or.inr ⟨vs, hvs.trans (List.prefix_append names [name]), rfl⟩
    · rintro (hloc | ⟨vs, hvs, rfl⟩)
      · exact Or.inr (Or.inl hloc)
      · rcases List.prefix_concat_iff.1 hvs with rfl | hvs
        · exact Or.inl rfl
        · exact Or.inr (Or.inr ⟨vs, hvs, rfl⟩)
  files := hgains.files.trans h.files

/-- **There is one way** to add the directories along a path. -/
theorem AddedAlong.unique (h : fs.AddedAlong fs' base names) (h' : fs.AddedAlong fs'' base names)
    (hfiles : fs.files = ∅) : fs' = fs'' := by
  have hcwd : fs'.cwd = fs''.cwd := h.cwd.trans h'.cwd.symm
  have hdirs : fs'.dirs = fs''.dirs := Finset.ext fun loc => (h.dirs loc).trans (h'.dirs loc).symm
  have hnone : fs'.files = fs''.files := by
    have hempty := h.files
    have hempty' := h'.files
    rw [hfiles, Finset.subset_empty] at hempty hempty'
    rw [hempty, hempty']
  cases fs'
  cases fs''
  cases hcwd
  cases hdirs
  cases hnone
  rfl

end FileSystem

end Fischstaebchen
