/-
  Creating directories (`common/fs/baseops.c`).

  `makedirs_mode` walks down the path and creates each prefix of it that is not
  a directory, after removing a file of this name.

  * `dodirMode_below`: what this does below an existing directory.
  * `dodirCallback_prefixes`: hence each call of the walk finds the directory
    that the previous one left.
  * `makedirsMode_run`: exactly the directories along a path are added.
  * `walk_makedirs`: the walk of `fspath_downwards_do` and what `makedirs_mode`
    does with it.
-/
import Fischstaebchen.Fs.Downwards
import Fischstaebchen.Fs.ModelFs

namespace Fischstaebchen

open Lib

/-- `check_dir_exists`. -/
def checkDirExists (fspath : List UInt8) (fs : FileSystem) : ℤ :=
  match fs.locate fspath with
  | .error _ => -1
  | .ok loc => if loc ∈ fs.dirs then 0 else if loc ∈ fs.files then 1 else -1

/-- `dodir_mode`. -/
def dodirMode (fspath : List UInt8) (fs : FileSystem) : ℤ × FileSystem :=
  if checkDirExists fspath fs = 0 then (0, fs)
  else
    let fs := fs.unlink fspath
    match fs.mkdir fspath with
    | .ok fs => (0, fs)
    | .error _ => (-1, fs)

/-- `_dodir_callback`. -/
def dodirCallback : FspathCallback FileSystem := fun fspath _ fs =>
  let r := dodirMode fspath fs
  (if r.1 = 0 then 0 else -5, r.2)

/-- `makedirs_mode`. -/
def makedirsMode (fspath : List UInt8) (fs : FileSystem) : Alloc (ℤ × FileSystem) :=
  if checkDirExists fspath fs = 0 then pure (0, fs)
  else fspathDownwardsDo (some fspath) (some dodirCallback) (some dodirCallback) fs

/-! ## One directory -/

section
variable {fs fs' : FileSystem} {p : List UInt8} {names : List FileName} {name : FileName}

theorem checkDirExists_eq_zero : checkDirExists p fs = 0 ↔ fs.IsDir p := by
  unfold checkDirExists FileSystem.IsDir
  cases fs.locate p with
  | error errno => exact iff_of_false (by simp) fun ⟨_, h, _⟩ => nomatch h
  | ok loc =>
    dsimp only
    split_ifs with hdir
    · exact iff_of_true rfl ⟨loc, rfl, hdir⟩
    · refine iff_of_false (by simp) ?_
      rintro ⟨_, ⟨⟩, h⟩
      exact hdir h
    · refine iff_of_false (by simp) ?_
      rintro ⟨_, ⟨⟩, h⟩
      exact hdir h

/-- Removing a file. -/
theorem unlink_spec (p : List UInt8) (fs : FileSystem) :
    (fs.unlink p).cwd = fs.cwd ∧ (fs.unlink p).dirs = fs.dirs ∧ (fs.unlink p).files ⊆ fs.files ∧
      ∀ loc, fs.locate p = .ok loc → loc ∉ (fs.unlink p).files := by
  unfold FileSystem.unlink
  cases fs.locate p with
  | error errno => exact ⟨rfl, rfl, Finset.Subset.refl _, nofun⟩
  | ok loc =>
    refine ⟨rfl, rfl, Finset.erase_subset loc fs.files, ?_⟩
    rintro _ ⟨⟩
    exact Finset.notMem_erase loc fs.files

/-- **One step down**: below a directory, a directory is there afterwards. -/
theorem dodirMode_below (hne : p ≠ []) (hcomp : components delimiter p = names ++ [name])
    (hparent : fs.IsDirAt (fs.start p) names) :
    (dodirMode p fs).1 = 0 ∧
      fs.Gains (dodirMode p fs).2 (destination (fs.start p) (names ++ [name])) := by
  unfold dodirMode
  by_cases hexists : checkDirExists p fs = 0
  · have hdir := (FileSystem.isDir_iff hne).1 (checkDirExists_eq_zero.1 hexists)
    rw [hcomp] at hdir
    rw [if_pos hexists]
    exact ⟨rfl, .of_mem hdir.mem⟩
  rw [if_neg hexists]
  obtain ⟨hcwd, hdirs, hfiles, hgone⟩ := unlink_spec p fs
  have hext : fs.Extends (fs.unlink p) := ⟨hcwd, hdirs ▸ Finset.Subset.refl _⟩
  have hparent' : (fs.unlink p).IsDirAt ((fs.unlink p).start p) names := by
    rw [hext.start]
    exact hext.isDirAt hparent
  -- the location is the same as before the file was removed
  obtain ⟨hlocate, -⟩ := FileSystem.mkdir_cases hne hcomp hparent rfl
  obtain ⟨-, hcases⟩ := FileSystem.mkdir_cases hne hcomp hparent'
    (congrArg (destination · (names ++ [name])) (hext.start p).symm)
  rcases hcases with ⟨hdir, -⟩ | ⟨-, hfile, -⟩ | ⟨-, -, fs', hmkdir, hgains⟩
  · rw [hdirs] at hdir
    exact absurd (checkDirExists_eq_zero.2 ⟨_, hlocate, hdir⟩) hexists
  · exact absurd hfile (hgone _ hlocate)
  · dsimp only
    rw [hmkdir]
    refine ⟨rfl, hgains.cwd.trans hcwd, ?_, hgains.files.trans hfiles⟩
    rw [hgains.dirs, hdirs]

/-! ## All directories -/

/-- The prefixes of a path start where the path does. -/
theorem start_joinPath (fs : FileSystem) (p : List UInt8) {ws : List FileName}
    (hws : AreNames delimiter ws) :
    fs.start (joinPath delimiter (isAbs delimiter p) ws) = fs.start p := by
  rw [FileSystem.start, FileSystem.start, isAbs_joinPath hws]

/-- A call for the next prefix. -/
theorem dodirCallback_call {fs₁ : FileSystem}
    (hnames : AreNames delimiter (names ++ [name])) (h : fs.AddedAlong fs₁ (fs.start p) names) :
    ∃ fs₂, (prefixCall (some dodirCallback) (isAbs delimiter p) (names ++ [name])).run fs₁ =
        (0, fs₂) ∧ fs.AddedAlong fs₂ (fs.start p) (names ++ [name]) := by
  have hne : joinPath delimiter (isAbs delimiter p) (names ++ [name]) ≠ [] := by
    rw [Ne, joinPath_eq_nil hnames]
    simp
  have hstart : fs₁.start (joinPath delimiter (isAbs delimiter p) (names ++ [name])) =
      fs.start p := by
    rw [h.extends.start, start_joinPath fs p hnames]
  obtain ⟨hret, hgains⟩ := dodirMode_below hne (components_joinPath hnames)
    (hstart.symm ▸ h.isDirAt)
  rw [hstart] at hgains
  exact ⟨_, Prod.ext (if_pos hret) rfl, h.step hgains⟩

/-- **The walk finds what it needs**: each call finds the directory that the
    previous one left. -/
theorem dodirCallback_prefixes : ∀ (pre rest : List FileName) {fs₁ : FileSystem}, rest ≠ [] →
    AreNames delimiter (pre ++ rest) → fs.AddedAlong fs₁ (fs.start p) pre →
    ∃ fs₂, runPathCalls
        ((properPrefixes rest).map (fun ps =>
            prefixCall (some dodirCallback) (isAbs delimiter p) (pre ++ ps)) ++
          [prefixCall (some dodirCallback) (isAbs delimiter p) (pre ++ rest)]) fs₁ = (0, fs₂) ∧
      fs.AddedAlong fs₂ (fs.start p) (pre ++ rest)
  | _, [], _, hne, _, _ => absurd rfl hne
  | pre, [w], fs₁, _, hnames, h => by
    obtain ⟨fs₂, hcall, h₂⟩ := dodirCallback_call hnames h
    refine ⟨fs₂, ?_, h₂⟩
    show runPathCalls
      [prefixCall (some dodirCallback) (isAbs delimiter p) (pre ++ [w])] fs₁ = _
    rw [runPathCalls_singleton, hcall]
  | pre, w :: v :: rest, fs₁, _, hnames, h => by
    have hsplit : pre ++ w :: v :: rest = (pre ++ [w]) ++ v :: rest := by simp
    rw [hsplit] at hnames ⊢
    obtain ⟨fs₂, hcall, h₂⟩ := dodirCallback_call hnames.append_left h
    obtain ⟨fs₃, hrest, h₃⟩ := dodirCallback_prefixes (pre ++ [w]) (v :: rest)
      (List.cons_ne_nil _ _) hnames h₂
    have hcalls : (properPrefixes (w :: v :: rest)).map
          (fun ps => prefixCall (some dodirCallback) (isAbs delimiter p) (pre ++ ps)) =
        prefixCall (some dodirCallback) (isAbs delimiter p) (pre ++ [w]) ::
          (properPrefixes (v :: rest)).map fun ps =>
            prefixCall (some dodirCallback) (isAbs delimiter p) ((pre ++ [w]) ++ ps) := by
      rw [properPrefixes_cons_cons, List.map_cons, List.map_map]
      simp [Function.comp_def]
    refine ⟨fs₃, ?_, h₃⟩
    rw [hcalls, List.cons_append, runPathCalls, hcall, if_pos rfl]
    exact hrest

/-- The directories along a path were created, and none was removed. -/
structure DirsMade (fs fs' : FileSystem) (p : List UInt8) : Prop where
  extends_ : fs.Extends fs'
  prefixes : ∀ ws, ws ≠ [] → ws <+: components delimiter p →
    fs'.IsDir (joinPath delimiter (isAbs delimiter p) ws)
  whole : p ≠ [] → fs'.IsDir p

theorem DirsMade.of_addedAlong (h : fs.AddedAlong fs' (fs.start p) (components delimiter p)) :
    DirsMade fs fs' p where
  extends_ := h.extends
  prefixes := by
    intro ws hne hpre
    have hnames : AreNames delimiter ws := fun w hw => areNames_components p w (hpre.subset hw)
    have hpath : joinPath delimiter (isAbs delimiter p) ws ≠ [] := by
      rw [Ne, joinPath_eq_nil hnames]
      exact fun hnil => hne hnil.2
    rw [FileSystem.isDir_iff hpath, components_joinPath hnames, h.extends.start,
      start_joinPath fs p hnames]
    exact h.isDirAt.take hpre
  whole := by
    intro hne
    rw [FileSystem.isDir_iff hne, h.extends.start]
    exact h.isDirAt

/-- **Creating all directories of a path** adds exactly the directories along it. -/
theorem makedirsMode_run (hnul : 0 ∉ p) {a : Allocator} (ha : a 0 = true) (fs : FileSystem) :
    ∃ fs' a', (makedirsMode p fs).run a = some ((0, fs'), a') ∧
      fs.AddedAlong fs' (fs.start p) (components delimiter p) := by
  unfold makedirsMode
  by_cases hexists : checkDirExists p fs = 0
  · have hdir := checkDirExists_eq_zero.1 hexists
    have hne : p ≠ [] := by
      rintro rfl
      obtain ⟨loc, hloc, -⟩ := hdir
      cases hloc
    rw [if_pos hexists]
    exact ⟨fs, a, rfl, ((FileSystem.isDir_iff hne).1 hdir).addedAlong⟩
  rw [if_neg hexists]
  by_cases hne : p = []
  · -- the empty path has no components
    subst hne
    exact ⟨fs, a, rfl, (FileSystem.isDirAt_start []).addedAlong⟩
  have hws : components delimiter p ≠ [] := by
    intro hws
    refine hexists (checkDirExists_eq_zero.2 ((FileSystem.isDir_iff hne).2 ?_))
    rw [hws]
    exact FileSystem.isDirAt_start p
  obtain ⟨fs', hcalls, h⟩ := dodirCallback_prefixes [] (components delimiter p) hws
    (areNames_components p) (FileSystem.isDirAt_start p).addedAlong
  refine ⟨fs', fun n => a (n + 1), ?_, h⟩
  rw [fspathDownwardsDo_run (some dodirCallback) (some dodirCallback) hne hnul ha fs]
  exact congrArg (fun r => some (r, fun n => a (n + 1))) hcalls

/-- The walk of any path: the empty path is not walked, and neither is one that
    cannot be copied. -/
theorem fspathDownwardsDo_cases {σ : Type} (hnul : 0 ∉ p) (parent final : Option (FspathCallback σ))
    (s : σ) (a : Allocator) :
    ∃ a', (fspathDownwardsDo (some p) parent final s).run a =
      some (if p = [] then (0, s)
        else if a 0 = true then runPathCalls (walkCalls parent final p) s
        else (-1, s), a') := by
  by_cases hne : p = []
  · subst hne
    exact ⟨a, rfl⟩
  refine ⟨fun n => a (n + 1), ?_⟩
  rw [if_neg hne]
  by_cases ha : a 0 = true
  · rw [if_pos ha]
    exact fspathDownwardsDo_run parent final hne hnul ha s
  · rw [if_neg ha, fspathDownwardsDo, if_neg (by simpa using hne), StateT.run_bind,
      fspathStrip_refused hne (Bool.eq_false_of_not_eq_true ha)]
    rfl

/-- **The walk down a path, and the directories that are created on it.** -/
theorem walk_makedirs (hnul : 0 ∉ p) :
    (∀ (σ : Type) (parent final : Option (FspathCallback σ)) (s : σ) (a : Allocator),
      ∃ a', (fspathDownwardsDo (some p) parent final s).run a =
        some (if p = [] then (0, s)
          else if a 0 = true then runPathCalls (walkCalls parent final p) s
          else (-1, s), a')) ∧
    ∀ (fs : FileSystem) (a : Allocator), a 0 = true →
      ∃ fs' a', (makedirsMode p fs).run a = some ((0, fs'), a') ∧ DirsMade fs fs' p :=
  ⟨fun _ => fspathDownwardsDo_cases hnul, fun fs _ ha =>
    let ⟨fs', a', hrun, hadded⟩ := makedirsMode_run hnul ha fs
    ⟨fs', a', hrun, .of_addedAlong hadded⟩⟩

/-- `/a//b`. -/
theorem walk_makedirs_slashes :
    (∀ (σ : Type) (parent final : Option (FspathCallback σ)) (s : σ) (a : Allocator),
      ∃ a', (fspathDownwardsDo (some [0x2F, 0x61, 0x2F, 0x2F, 0x62]) parent final s).run a =
        some (if [0x2F, 0x61, 0x2F, 0x2F, 0x62] = ([] : List UInt8) then (0, s)
          else if a 0 = true then
            runPathCalls (walkCalls parent final [0x2F, 0x61, 0x2F, 0x2F, 0x62]) s
          else (-1, s), a')) ∧
    ∀ (fs : FileSystem) (a : Allocator), a 0 = true →
      ∃ fs' a', (makedirsMode [0x2F, 0x61, 0x2F, 0x2F, 0x62] fs).run a = some ((0, fs'), a') ∧
        DirsMade fs fs' [0x2F, 0x61, 0x2F, 0x2F, 0x62] :=
  walk_makedirs (by simp)

/-- Counts its calls and fails. -/
def countCall : FspathCallback ℕ := fun _ _ calls => (1, calls + 1)

/-- The final callback is not called for the empty path, nor without memory. -/
theorem final_not_called :
    (fspathDownwardsDo (some []) none (some countCall) 0).run (fun _ => true) =
        some ((0, 0), fun _ => true) ∧
      runPathCalls (walkCalls none (some countCall) []) 0 = (1, 1) ∧
    (fspathDownwardsDo (some [0x61]) none (some countCall) 0).run (fun _ => false) =
        some ((-1, 0), fun _ => false) ∧
      runPathCalls (walkCalls none (some countCall) [0x61]) 0 = (1, 1) :=
  ⟨rfl, rfl, rfl, rfl⟩

end

end Fischstaebchen
