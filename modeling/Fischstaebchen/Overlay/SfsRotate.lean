/-
  Rotating sfs files (`union_mount_base/functions/union_mount/19-sfsrotate.sh`).

  A new file `X.new` takes the place of `X`, which becomes `X.old`; a former `X.old` gets
  the date or the epoch as a suffix.

  * `linkOrMove_spec`, `rotateOldLoop_spec`, `rotateBaseToOld_spec`: what the three
    rotations do.
  * `rotate_ends`: whichever commands fail, no content is lost; if only links have failed,
    nothing is changed, or all files have got their new names.
-/
import Fischstaebchen.Lib.Glob
import Fischstaebchen.Lib.Rename
import Fischstaebchen.Overlay.FileUri

namespace Fischstaebchen

open Lib (contents moved)

variable {κ : Type*}

/-! ## Commands -/

/-- The commands that change a directory. -/
inductive FileCmd
  | mv (src dst : CStr)
  | ln (src dst : CStr)
  | rm (path : CStr)
  deriving DecidableEq

/-- The regular files of a directory, the commands that have been run with their outcomes,
    and the variable `sfs_filepath`.  A path names a regular file or nothing. -/
structure RotateState (κ : Type*) where
  files : CStr → Option κ
  ran : List (FileCmd × Bool)
  sfsFilepath : CStr

/-- What a command does to the files; `none` if it fails without a cause from outside. -/
def FileCmd.effect (files : CStr → Option κ) : FileCmd → Option (CStr → Option κ)
  | .mv src dst =>
    if (files src).isSome ∧ src ≠ dst then some (moved files src dst) else none
  | .ln src dst =>
    if (files src).isSome ∧ files dst = none then
      some (Function.update files dst (files src))
    else none
  | .rm path => if (files path).isSome then some (Function.update files path none) else none

/-- What the functions read: the variables, the output of the two `date` commands, whether
    `get_newroot_rw` succeeds, and which commands fail, by their position in the run. -/
structure RotateEnv where
  newroot : CStr
  oldnewMatchSuffix : CStr
  date : CStr
  epoch : CStr
  getNewrootRw : Bool
  fails : ℕ → Bool

namespace RotateEnv
variable (env : RotateEnv)

/-- Runs a command.  If it fails, the files are unchanged. -/
def run (c : FileCmd) (s : RotateState κ) : Bool × RotateState κ :=
  match if env.fails s.ran.length then none else c.effect s.files with
  | some files => (true, { s with files := files, ran := s.ran ++ [(c, true)] })
  | none => (false, { s with ran := s.ran ++ [(c, false)] })

/-- `autodie`: the process exits if the command fails.  An exit is `none` here. -/
def autodie (c : FileCmd) (s : RotateState κ) : Option ℤ × RotateState κ :=
  let (ok, s) := env.run c s
  (if ok then some 0 else none, s)

/-! ## The functions -/

/-- The loop of `union_mount_find_file__rotate_old`. -/
def rotateOldLoop (path : CStr) : List CStr → RotateState κ → Option ℤ × RotateState κ
  | [], s => (some 1, s)
  | datestr :: rest, s =>
    if datestr = [] then (some 1, s)
    else if s.files (path ++ '.' :: datestr) = none then
      env.autodie (.mv path (path ++ '.' :: datestr)) s
    else rotateOldLoop path rest s

/-- `union_mount_find_file__rotate_old`. -/
def rotateOld (path : CStr) (s : RotateState κ) : Option ℤ × RotateState κ :=
  env.rotateOldLoop path [env.date, env.epoch] s

def old (path : CStr) : CStr := path ++ ".old".toList

def new (path : CStr) : CStr := path ++ ".new".toList

/-- `union_mount_find_file__rotate_base_to_old`. -/
def rotateBaseToOld (path : CStr) (s : RotateState κ) : Option ℤ × RotateState κ :=
  -- the expansion `${1:?}`
  if path = [] then (none, s)
  else if (s.files (old path)).isSome then
    match env.rotateOld (old path) s with
    | (some 0, s) => env.autodie (.mv path (old path)) s
    | failed => failed
  else env.autodie (.mv path (old path)) s

/-- The second part of `union_mount_find_file__rotate_new`. -/
def linkOrMove (path basepath : CStr) (s : RotateState κ) : Option ℤ × RotateState κ :=
  match env.run (.ln path basepath) s with
  | (true, s) => env.autodie (.rm path) { s with sfsFilepath := basepath }
  | (false, s) =>
    match env.autodie (.mv path basepath) s with
    | (some _, s) => (some 0, { s with sfsFilepath := basepath })
    | died => died

/-- `union_mount_find_file__rotate_new`. -/
def rotateNew (path basepath : CStr) (s : RotateState κ) : Option ℤ × RotateState κ :=
  if (s.files basepath).isSome then
    match env.rotateBaseToOld basepath s with
    | (some 0, s) => env.linkOrMove path basepath s
    | (some _, s) => (some 0, s)
    | died => died
  else env.linkOrMove path basepath s

/-- `union_mount_find_file__do_rotate`. -/
def doRotate (path : CStr) (s : RotateState κ) : Option ℤ × RotateState κ :=
  if withoutPrefix ".".toList env.oldnewMatchSuffix = "new".toList then
    let basepath := Lib.Shell.withoutSuffix ".new".toList path
    if path = basepath then (none, s)
    else if env.newroot ++ ['/'] <+: path ∧ env.getNewrootRw = false then (none, s)
    else env.rotateNew path basepath s
  else (some 0, s)

/-- Rotates the file `path` of a directory. -/
def rotate (path : CStr) (files : CStr → Option κ) : Option ℤ × RotateState κ :=
  env.doRotate path ⟨files, [], path⟩

end RotateEnv

/-! ## What has been lost or changed -/

/-- A file could not be moved or removed. -/
def MoveFailed (s : RotateState κ) : Prop :=
  ∃ c, (c, false) ∈ s.ran ∧ ∀ src dst, c ≠ .ln src dst

/-- No suffix for the file `path` can be used: all that are read are taken. -/
def NoSuffix (files : CStr → Option κ) (path : CStr) (dates : List CStr) : Prop :=
  ∀ d ∈ dates.takeWhile (· ≠ []), files (path ++ '.' :: d) ≠ none

open RotateEnv (old new)

/-- The files have got their new names; `archive` is the one of the former `X.old`. -/
structure Rotated (dates : List CStr) (x : CStr) (f g : CStr → Option κ)
    (archive : Option CStr) : Prop where
  atBase : g x = f (new x)
  atNew : f (new x) ≠ none ∧ g (new x) = none
  atOld : f x ≠ none → g (old x) = f x
  archived : f x ≠ none ∧ f (old x) ≠ none ↔ archive ≠ none
  atArchive : ∀ a ∈ archive,
    (∃ d ∈ dates, a = old x ++ '.' :: d) ∧ f a = none ∧ g a = f (old x)
  others : ∀ p, p ≠ x → p ≠ new x → (p = old x → f x = none) → p ∉ archive → g p = f p

/-- Why a rotation is not possible. -/
def Impossible (env : RotateEnv) (x : CStr) (f : CStr → Option κ) : Prop :=
  (env.newroot ++ ['/'] <+: new x ∧ env.getNewrootRw = false) ∨
  (f x ≠ none ∧ (x = [] ∨ f (old x) ≠ none ∧ NoSuffix f (old x) [env.date, env.epoch]))

section
variable {env : RotateEnv} {s s' : RotateState κ} {src dst path x : CStr} {ok : Bool}
  {rc : Option ℤ}

/-! ## Commands -/

/-- **What a command does.** -/
theorem run_cases {c : FileCmd} (h : env.run c s = (ok, s')) :
    (ok = false ∧ s' = { s with ran := s.ran ++ [(c, false)] }) ∨
    (ok = true ∧ ∃ files, c.effect s.files = some files ∧
      s' = { s with files := files, ran := s.ran ++ [(c, true)] }) := by
  rw [RotateEnv.run] at h
  split at h
  · next files heq =>
    obtain ⟨rfl, rfl⟩ := Prod.mk.inj h
    split at heq
    · cases heq
    · exact .inr ⟨rfl, files, heq, rfl⟩
  · obtain ⟨rfl, rfl⟩ := Prod.mk.inj h
    exact .inl ⟨rfl, rfl⟩

/-- A file has been moved, or the process has exited without a change of the files. -/
def MovedOrDied (s : RotateState κ) (src dst : CStr) (r : Option ℤ × RotateState κ) : Prop :=
  (r.1 = some 0 ∧ s.files src ≠ none ∧ src ≠ dst ∧ r.2.files = moved s.files src dst) ∨
  (r.1 = none ∧ r.2.files = s.files ∧ MoveFailed r.2)

theorem autodie_mv (env : RotateEnv) (s : RotateState κ) (src dst : CStr) :
    MovedOrDied s src dst (env.autodie (.mv src dst) s) := by
  rw [RotateEnv.autodie]
  rcases hrun : env.run (.mv src dst) s with ⟨ok, s'⟩
  rcases run_cases hrun with ⟨rfl, rfl⟩ | ⟨rfl, files, heffect, rfl⟩
  · refine .inr ⟨rfl, rfl, .mv src dst, by simp, ?_⟩
    intro src' dst'
    simp
  · rw [FileCmd.effect] at heffect
    split_ifs at heffect with hmoves
    obtain rfl := Option.some.inj heffect
    exact .inl ⟨rfl, Option.isSome_iff_ne_none.1 hmoves.1, hmoves.2, rfl⟩

/-- The new file has got its place, or it could not be moved or removed. -/
def PlacedOrFailed (f : CStr → Option κ) (src dst : CStr) (s' : RotateState κ) : Prop :=
  contents f ⊆ contents s'.files ∧
    (MoveFailed s' ∨ f src ≠ none ∧ s'.files = moved f src dst)

/-- **The new file gets its place**, by a link or not. -/
theorem linkOrMove_spec (env : RotateEnv) (src : CStr) (hfree : s.files dst = none) :
    PlacedOrFailed s.files src dst (env.linkOrMove src dst s).2 := by
  rw [RotateEnv.linkOrMove]
  rcases hrun : env.run (.ln src dst) s with ⟨ok, s₁⟩
  rcases run_cases hrun with ⟨rfl, rfl⟩ | ⟨rfl, files, heffect, rfl⟩
  · dsimp only
    generalize hs₁ : ({ s with ran := s.ran ++ [(.ln src dst, false)] } : RotateState κ) = s₁
    have hfiles₁ : s₁.files = s.files := by rw [← hs₁]
    have hmoved := autodie_mv env s₁ src dst
    rcases hmv : env.autodie (.mv src dst) s₁ with ⟨rc, s₂⟩
    rw [hmv, MovedOrDied, hfiles₁] at hmoved
    rcases hmoved with ⟨hrc, hsrc, -, hfiles⟩ | ⟨hrc, hfiles, hfailed⟩
    · dsimp only at hrc hfiles
      subst hrc
      refine ⟨?_, .inr ⟨hsrc, hfiles⟩⟩
      show contents s.files ⊆ contents s₂.files
      rw [hfiles]
      exact Lib.contents_moved hfree
    · dsimp only at hrc hfiles
      subst hrc
      refine ⟨?_, .inl hfailed⟩
      show contents s.files ⊆ contents s₂.files
      rw [hfiles]
  · rw [FileCmd.effect] at heffect
    split_ifs at heffect with hlinks
    obtain rfl := Option.some.inj heffect
    have hsrc : s.files src ≠ none := Option.isSome_iff_ne_none.1 hlinks.1
    have hne : src ≠ dst := by
      rintro rfl
      exact hsrc hfree
    dsimp only
    rw [RotateEnv.autodie]
    rcases hrm : env.run (.rm src) _ with ⟨ok, s₂⟩
    rcases run_cases hrm with ⟨rfl, rfl⟩ | ⟨rfl, files, heffect, rfl⟩
    · -- the file has both names
      refine ⟨Lib.contents_update hfree _, .inl ⟨.rm src, by simp, ?_⟩⟩
      intro src' dst'
      simp
    · rw [FileCmd.effect] at heffect
      split_ifs at heffect
      obtain rfl := Option.some.inj heffect
      dsimp only
      rw [PlacedOrFailed, Lib.removed_linked hne]
      exact ⟨Lib.contents_moved hfree, .inr ⟨hsrc, rfl⟩⟩

/-! ## The old files -/

/-- **A former `X.old` gets a suffix** that is not used, if there is one. -/
theorem rotateOldLoop_spec (env : RotateEnv) (path : CStr) :
    ∀ (dates : List CStr) (s : RotateState κ),
    (env.rotateOldLoop path dates s = (some 1, s) ∧ NoSuffix s.files path dates) ∨
    ∃ d ∈ dates, s.files (path ++ '.' :: d) = none ∧
      MovedOrDied s path (path ++ '.' :: d) (env.rotateOldLoop path dates s)
  | [], s => .inl ⟨rfl, by simp [NoSuffix]⟩
  | d :: dates, s => by
    rw [RotateEnv.rotateOldLoop]
    by_cases hempty : d = []
    · rw [if_pos hempty]
      exact .inl ⟨rfl, by simp [NoSuffix, hempty]⟩
    · rw [if_neg hempty]
      by_cases hfree : s.files (path ++ '.' :: d) = none
      · rw [if_pos hfree]
        exact .inr ⟨d, by simp, hfree, autodie_mv ..⟩
      · rw [if_neg hfree]
        rcases rotateOldLoop_spec env path dates s with ⟨hloop, hnone⟩ | ⟨d', hd', hfree', hmoved⟩
        · refine .inl ⟨hloop, ?_⟩
          simp only [NoSuffix, ne_eq, hempty, not_false_eq_true, decide_true,
            List.takeWhile_cons_of_pos, List.forall_mem_cons]
          exact ⟨hfree, hnone⟩
        · exact .inr ⟨d', List.mem_cons_of_mem d hd', hfree', hmoved⟩

/-- The files after a former `X.old` has got its suffix. -/
def archivedFiles (f : CStr → Option κ) (x : CStr) (archive : Option CStr) : CStr → Option κ :=
  archive.elim f (moved f (old x))

/-- The name for a former `X.old`: it is chosen exactly if there is one, and it is free. -/
structure ArchiveFor (dates : List CStr) (x : CStr) (f : CStr → Option κ)
    (archive : Option CStr) : Prop where
  chosen : f (old x) ≠ none ↔ archive ≠ none
  free : ∀ a ∈ archive, (∃ d ∈ dates, a = old x ++ '.' :: d) ∧ f a = none

namespace ArchiveFor
variable {dates : List CStr} {f : CStr → Option κ} {archive : Option CStr}

theorem contents_subset (h : ArchiveFor dates x f archive) :
    contents f ⊆ contents (archivedFiles f x archive) := by
  cases archive with
  | none => exact subset_rfl
  | some a => exact Lib.contents_moved (h.free a rfl).2

/-- Then the name `X.old` is free. -/
theorem old_free (h : ArchiveFor dates x f archive) : archivedFiles f x archive (old x) = none := by
  cases archive with
  | none =>
    by_contra hne
    exact h.chosen.1 hne rfl
  | some a =>
    obtain ⟨⟨d, -, rfl⟩, -⟩ := h.free a rfl
    exact Lib.moved_src (by simp)

theorem archived_of_ne (h : ArchiveFor dates x f archive) {p : CStr} (hold : p ≠ old x)
    (harchive : p ∉ archive) : archivedFiles f x archive p = f p := by
  cases archive with
  | none => rfl
  | some a => exact Lib.moved_of_ne hold fun hp => harchive (by rw [hp]; rfl)

end ArchiveFor

/-- What `rotate_base_to_old` leads to: no change, a failure, or a free name `X`. -/
inductive BaseEnds (dates : List CStr) (x : CStr) (s : RotateState κ) :
    Option ℤ × RotateState κ → Prop
  | unchanged {rc : Option ℤ} (hrc : rc ≠ some 0)
      (h : x = [] ∨ s.files (old x) ≠ none ∧ NoSuffix s.files (old x) dates) :
      BaseEnds dates x s (rc, s)
  | died {s' : RotateState κ} (hkept : contents s.files ⊆ contents s'.files)
      (hfailed : MoveFailed s') : BaseEnds dates x s (none, s')
  | done {s' : RotateState κ} (archive : Option CStr) (ha : ArchiveFor dates x s.files archive)
      (hfiles : s'.files = moved (archivedFiles s.files x archive) x (old x)) :
      BaseEnds dates x s (some 0, s')

/-- The last command of `rotate_base_to_old`. -/
theorem baseEnds_of_mv {dates : List CStr} {s₁ : RotateState κ} {archive : Option CStr}
    (ha : ArchiveFor dates x s.files archive)
    (hs₁ : s₁.files = archivedFiles s.files x archive) :
    BaseEnds dates x s (env.autodie (.mv x (old x)) s₁) := by
  have hmoved := autodie_mv env s₁ x (old x)
  rcases hmv : env.autodie (.mv x (old x)) s₁ with ⟨rc, s₂⟩
  rw [hmv, MovedOrDied, hs₁] at hmoved
  rcases hmoved with ⟨hrc, -, -, hfiles⟩ | ⟨hrc, hfiles, hfailed⟩ <;> dsimp only at hrc hfiles
  · subst hrc
    exact .done archive ha hfiles
  · subst hrc
    refine .died ?_ hfailed
    rw [hfiles]
    exact ha.contents_subset

/-- **What becomes of a former `X`.** -/
theorem rotateBaseToOld_spec (env : RotateEnv) (x : CStr) (s : RotateState κ) :
    BaseEnds [env.date, env.epoch] x s (env.rotateBaseToOld x s) := by
  rw [RotateEnv.rotateBaseToOld]
  by_cases hempty : x = []
  · rw [if_pos hempty]
    exact .unchanged (by simp) (.inl hempty)
  rw [if_neg hempty]
  by_cases hold : s.files (old x) = none
  · rw [if_neg (by simp [hold])]
    have ha : ArchiveFor [env.date, env.epoch] x s.files none :=
      ⟨iff_of_false (fun h => h hold) (fun h => h rfl), by simp⟩
    exact baseEnds_of_mv ha rfl
  · rw [if_pos (Option.isSome_iff_ne_none.2 hold), RotateEnv.rotateOld]
    rcases rotateOldLoop_spec env (old x) [env.date, env.epoch] s with
      ⟨hloop, hnone⟩ | ⟨d, hd, hfree, hmoved⟩
    · rw [hloop]
      exact .unchanged (by simp) (.inr ⟨hold, hnone⟩)
    · rcases hloop : env.rotateOldLoop (old x) [env.date, env.epoch] s with ⟨rc, s₁⟩
      rw [hloop] at hmoved
      rcases hmoved with ⟨hrc, -, -, hfiles⟩ | ⟨hrc, hfiles, hfailed⟩ <;> dsimp only at hrc hfiles
      · subst hrc
        have ha : ArchiveFor [env.date, env.epoch] x s.files (some (old x ++ '.' :: d)) := by
          refine ⟨iff_of_true hold (by simp), ?_⟩
          intro a h
          obtain rfl := Option.some.inj h
          exact ⟨⟨d, hd, rfl⟩, hfree⟩
        exact baseEnds_of_mv ha hfiles
      · subst hrc
        refine .died ?_ hfailed
        rw [hfiles]

/-! ## The new file -/

theorem new_ne (x : CStr) : new x ≠ x := by simp [RotateEnv.new]

theorem old_ne (x : CStr) : old x ≠ x := by simp [RotateEnv.old]

theorem new_ne_old (x : CStr) : new x ≠ old x := by
  intro h
  exact absurd (List.append_cancel_left h) (by decide)

/-- The name for a former `X.old` is none of the others. -/
theorem archive_ne (x d : CStr) : old x ++ '.' :: d ≠ x ∧ old x ++ '.' :: d ≠ new x := by
  constructor <;> intro h <;> have hlen := congrArg List.length h <;>
    simp [RotateEnv.old, RotateEnv.new] at hlen

namespace ArchiveFor
variable {dates : List CStr} {f : CStr → Option κ} {archive : Option CStr}

theorem base_notMem (h : ArchiveFor dates x f archive) : x ∉ archive := by
  intro hmem
  obtain ⟨⟨d, -, heq⟩, -⟩ := h.free x hmem
  exact (archive_ne x d).1 heq.symm

theorem new_notMem (h : ArchiveFor dates x f archive) : new x ∉ archive := by
  intro hmem
  obtain ⟨⟨d, -, heq⟩, -⟩ := h.free (new x) hmem
  exact (archive_ne x d).2 heq.symm

end ArchiveFor

/-- There was no former `X`. -/
theorem rotated_of_absent {dates : List CStr} {f : CStr → Option κ} (hx : f x = none)
    (hnew : f (new x) ≠ none) : Rotated dates x f (moved f (new x) x) none where
  atBase := Lib.moved_dst
  atNew := ⟨hnew, Lib.moved_src (new_ne x)⟩
  atOld h := absurd hx h
  archived := iff_of_false (fun h => h.1 hx) (fun h => h rfl)
  atArchive a h := by cases h
  others p hbase hp _ _ := Lib.moved_of_ne hp hbase

/-- There was a former `X`. -/
theorem rotated_of_present {dates : List CStr} {f : CStr → Option κ} {archive : Option CStr}
    (ha : ArchiveFor dates x f archive) (hnew : f (new x) ≠ none) (hx : f x ≠ none) :
    Rotated dates x f (moved (moved (archivedFiles f x archive) x (old x)) (new x) x) archive where
  atBase := by
    rw [Lib.moved_dst, Lib.moved_of_ne (new_ne x) (new_ne_old x),
      ha.archived_of_ne (new_ne_old x) ha.new_notMem]
  atNew := ⟨hnew, Lib.moved_src (new_ne x)⟩
  atOld _ := by
    rw [Lib.moved_of_ne (new_ne_old x).symm (old_ne x), Lib.moved_dst,
      ha.archived_of_ne (old_ne x).symm ha.base_notMem]
  archived := by rw [and_iff_right hx, ha.chosen]
  atArchive a h := by
    obtain rfl := h
    obtain ⟨⟨d, hd, rfl⟩, hfree⟩ := ha.free a rfl
    obtain ⟨hbase, hnew⟩ := archive_ne x d
    refine ⟨⟨d, hd, rfl⟩, hfree, ?_⟩
    rw [Lib.moved_of_ne hnew hbase, Lib.moved_of_ne hbase (by simp)]
    exact Lib.moved_dst
  others p hbase hp hold harchive := by
    have hold : p ≠ old x := fun h => hx (hold h)
    rw [Lib.moved_of_ne hp hbase, Lib.moved_of_ne hbase hold, ha.archived_of_ne hold harchive]

/-! ## The rotation -/

/-- What a rotation leads to. -/
def RotateEnds (env : RotateEnv) (x : CStr) (f : CStr → Option κ) (s' : RotateState κ) : Prop :=
  contents f ⊆ contents s'.files ∧
    (MoveFailed s' ∨ (s'.files = f ∧ Impossible env x f) ∨
      ∃ archive, Rotated [env.date, env.epoch] x f s'.files archive)

theorem rotateNew_ends (env : RotateEnv) (x : CStr) (s : RotateState κ) :
    RotateEnds env x s.files (env.rotateNew (new x) x s).2 := by
  rw [RotateEnv.rotateNew]
  by_cases hx : s.files x = none
  · rw [if_neg (by simp [hx])]
    obtain ⟨hkept, hfailed | ⟨hnew, hfiles⟩⟩ := linkOrMove_spec env (new x) hx
    · exact ⟨hkept, .inl hfailed⟩
    · refine ⟨hkept, .inr (.inr ⟨none, ?_⟩)⟩
      rw [hfiles]
      exact rotated_of_absent hx hnew
  rw [if_pos (Option.isSome_iff_ne_none.2 hx)]
  have hends := rotateBaseToOld_spec env x s
  generalize env.rotateBaseToOld x s = r at hends
  cases hends with
  | @unchanged rc hrc h =>
    have himpossible : Impossible env x s.files := .inr ⟨hx, h⟩
    cases rc with
    | none => exact ⟨subset_rfl, .inr (.inl ⟨rfl, himpossible⟩)⟩
    | some rc =>
      split
      · next heq =>
        exact absurd (Prod.mk.inj heq).1 hrc
      · next heq =>
        obtain ⟨-, rfl⟩ := Prod.mk.inj heq
        exact ⟨subset_rfl, .inr (.inl ⟨rfl, himpossible⟩)⟩
      · next hcases => exact absurd rfl (hcases rc s)
  | died hkept hfailed => exact ⟨hkept, .inl hfailed⟩
  | @done s₁ archive ha hfiles =>
    have hfree : s₁.files x = none := by
      rw [hfiles]
      exact Lib.moved_src (old_ne x).symm
    have hkept : contents s.files ⊆ contents s₁.files := by
      rw [hfiles]
      exact ha.contents_subset.trans (Lib.contents_moved ha.old_free)
    obtain ⟨hkept', hfailed | ⟨hnew, hplaced⟩⟩ :=
      linkOrMove_spec env (new x) hfree
    · exact ⟨hkept.trans hkept', .inl hfailed⟩
    · refine ⟨hkept.trans hkept', .inr (.inr ⟨archive, ?_⟩)⟩
      rw [hfiles, Lib.moved_of_ne (new_ne x) (new_ne_old x),
        ha.archived_of_ne (new_ne_old x) ha.new_notMem] at hnew
      show Rotated _ x s.files (env.linkOrMove (new x) x s₁).2.files archive
      rw [hplaced, hfiles]
      exact rotated_of_present ha hnew hx

/-- **A rotation loses nothing.**  If no file could not be moved or removed, it has been
    impossible and nothing is changed, or all files have got their new names. -/
theorem rotate_ends (hsuffix : withoutPrefix ".".toList env.oldnewMatchSuffix =
    "new".toList) (x : CStr) (f : CStr → Option κ) :
    contents f ⊆ contents (env.rotate (new x) f).2.files ∧
    (¬ MoveFailed (env.rotate (new x) f).2 →
      ((env.rotate (new x) f).2.files = f ∧ Impossible env x f) ∨
      ∃ archive, Rotated [env.date, env.epoch] x f (env.rotate (new x) f).2.files archive) := by
  have hends : RotateEnds env x f (env.rotate (new x) f).2 := by
    rw [RotateEnv.rotate, RotateEnv.doRotate, if_pos hsuffix]
    have hbase : Lib.Shell.withoutSuffix ".new".toList (new x) = x :=
      Lib.Shell.withoutSuffix_append x _
    rw [hbase, if_neg (new_ne x)]
    by_cases hrw : env.newroot ++ ['/'] <+: new x ∧ env.getNewrootRw = false
    · rw [if_pos hrw]
      exact ⟨subset_rfl, .inr (.inl ⟨rfl, .inl hrw⟩)⟩
    · rw [if_neg hrw]
      exact rotateNew_ends env x ⟨f, [], new x⟩
  obtain ⟨hkept, hends⟩ := hends
  exact ⟨hkept, hends.resolve_left⟩

end

/-- Three files, of which the oldest one gets the date as its suffix. -/
theorem rotate_three :
    let env : RotateEnv :=
      ⟨[], ".new".toList, "2015-01-31".toList, "1422662400".toList, true, fun _ => false⟩
    let files : CStr → Option ℕ := fun p => ["a.new".toList, "a".toList, "a.old".toList].idxOf? p
    ∃ archive, Rotated [env.date, env.epoch] "a".toList files
      (env.rotate (new "a".toList) files).2.files archive := by
  intro env files
  have hran : ∀ e ∈ (env.rotate (new "a".toList) files).2.ran, e.2 = true := by decide
  have hmoved : (env.rotate (new "a".toList) files).2.files "a.new".toList ≠
      files "a.new".toList := by decide
  have hsuffix : withoutPrefix ".".toList env.oldnewMatchSuffix = "new".toList := rfl
  refine ((rotate_ends hsuffix "a".toList files).2 ?_).resolve_left fun h => ?_
  · rintro ⟨c, hc, -⟩
    cases hran _ hc
  · exact hmoved (congrFun h.1 _)

end Fischstaebchen
