/-
  The directory that `untar` unpacks to (`app/untar/untar.c`).

  `_mkdirp` creates a directory and its parents by itself.  It cuts a copy of
  the path at each slash; of an absolute path the first cut leaves the empty
  path, which cannot be created.

  * `dodir_below`: what `_dodir` does below an existing directory.
  * `mkdirpLoop_eq`: the loop adds the directories along a relative path.
  * `mkdirp_agrees_iff`: when `_mkdirp` does what `makedirs` does.
-/
import Fischstaebchen.Fs.Makedirs

namespace Fischstaebchen

open Lib

namespace Untar

/-- `_dodir`. -/
def dodir (dirpath : List UInt8) (fs : FileSystem) : ℤ × FileSystem :=
  match fs.mkdir dirpath with
  | .ok fs => (0, fs)
  | .error .eexist => (0, fs)
  | .error _ => (-1, fs)

/-- `strdup`. -/
def strdup (s : List UInt8) : Alloc (Option (Block UInt8)) := do
  let granted ← request
  pure (if granted then some (s.map some ++ [some 0]) else none)

/-- The loop of `_mkdirp`: looks for a slash from a position on and creates what
    is before it. -/
def mkdirpLoop : ℕ → Block UInt8 → ℕ → FileSystem → Option (ℤ × FileSystem)
  | 0, _, _, _ => none
  | fuel + 1, workpath, pos, fs => do
    let str ← cstring (workpath.drop pos)
    match str.idxOf? delimiter with
    | none => some (0, fs)
    | some off =>
      let splitPos := pos + off
      let workpath ← workpath.store splitPos 0
      let cut ← cstring workpath
      let r := dodir cut fs
      if r.1 ≠ 0 then some (-1, r.2)
      else
        let workpath ← workpath.store splitPos delimiter
        mkdirpLoop fuel workpath (splitPos + 1) r.2

/-- `_mkdirp` with a copy of the path. -/
def mkdirpCuts (path : List UInt8) (workpath : Block UInt8) (fs : FileSystem) :
    Option (ℤ × FileSystem) := do
  let r ← mkdirpLoop (path.length + 1) workpath 0 fs
  if r.1 ≠ 0 then some (-1, r.2) else some (dodir path r.2)

/-- `_mkdirp`. -/
def mkdirp (dirpath : Option (List UInt8)) (fs : FileSystem) : Alloc (ℤ × FileSystem) :=
  match dirpath with
  | none | some [] => pure (0, fs)
  | some path =>
    let r := dodir path fs
    if r.1 = 0 then pure (0, r.2)
    else do
      let workpath ← strdup path
      match workpath with
      | none => pure (-1, r.2)
      | some workpath => defined (mkdirpCuts path workpath r.2)

/-- `_mkdirp` returns 0, the directories along the path exist, and this is what
    `makedirs` leaves. -/
def Agrees (fs : FileSystem) (p : List UInt8) (a : Allocator) : Prop :=
  ∃ fs' a', (mkdirp (some p) fs).run a = some ((0, fs'), a') ∧ DirsMade fs fs' p ∧
    ∀ b : Allocator, b 0 = true → ∃ b', (makedirsMode p fs).run b = some ((0, fs'), b')

/-! ## One directory -/

section
variable {fs : FileSystem} {p : List UInt8} {names : List FileName} {name : FileName}

/-- **Below a directory**, a directory is there afterwards, if there are no files. -/
theorem dodir_below (hne : p ≠ []) (hcomp : components delimiter p = names ++ [name])
    (hparent : fs.IsDirAt (fs.start p) names) (hfiles : fs.files = ∅) :
    (dodir p fs).1 = 0 ∧
      fs.Gains (dodir p fs).2 (destination (fs.start p) (names ++ [name])) := by
  obtain ⟨-, hcases⟩ := FileSystem.mkdir_cases hne hcomp hparent rfl
  unfold dodir
  rcases hcases with ⟨hdir, hmkdir⟩ | ⟨-, hfile, -⟩ | ⟨-, -, fs', hmkdir, hgains⟩
  · rw [hmkdir]
    exact ⟨rfl, .of_mem hdir⟩
  · rw [hfiles] at hfile
    exact absurd hfile (Finset.notMem_empty _)
  · rw [hmkdir]
    exact ⟨rfl, hgains⟩

/-- A directory that exists is left alone. -/
theorem dodir_exists (hne : p ≠ []) (hdir : fs.IsDirAt (fs.start p) (components delimiter p)) :
    dodir p fs = (0, fs) := by
  obtain ⟨loc, hlocate, hmem⟩ := (FileSystem.isDir_iff hne).2 hdir
  have hmkdir : fs.mkdir p = .error .eexist := by
    rw [FileSystem.mkdir, hlocate]
    exact if_pos hmem
  rw [dodir, hmkdir]

/-- Without the parent directory, nothing is created. -/
theorem dodir_no_parent (hne : p ≠ []) (hcomp : components delimiter p = names ++ [name])
    (hparent : ¬ fs.IsDirAt (fs.start p) names) : dodir p fs = (-1, fs) := by
  obtain ⟨errno, hmkdir, herrno⟩ := FileSystem.mkdir_no_parent hne hcomp hparent
  rw [dodir, hmkdir]
  cases errno with
  | eexist => exact absurd rfl herrno
  | enoent => rfl
  | enotdir => rfl

/-- The next directory along a path, or once more the last one. -/
theorem dodir_next {fs₁ : FileSystem} {loc : Loc} {w : List UInt8} (hne : p ≠ []) (hstart : fs.start p = loc)
    (hcomp : components delimiter p = names ++ components delimiter w) (hw : delimiter ∉ w)
    (hfiles : fs.files = ∅) (h : fs.AddedAlong fs₁ loc names) :
    (dodir p fs₁).1 = 0 ∧ fs.AddedAlong (dodir p fs₁).2 loc (components delimiter p) := by
  have hstart₁ : fs₁.start p = loc := (h.extends.start p).trans hstart
  have hfiles₁ : fs₁.files = ∅ := by
    have hsub := h.files
    rwa [hfiles, Finset.subset_empty] at hsub
  rw [components_word hw] at hcomp
  split_ifs at hcomp with hempty
  · rw [List.append_nil] at hcomp
    have hdir : fs₁.IsDirAt (fs₁.start p) (components delimiter p) := by
      rw [hstart₁, hcomp]
      exact h.isDirAt
    rw [dodir_exists hne hdir, hcomp]
    exact ⟨rfl, h⟩
  · obtain ⟨hret, hgains⟩ := dodir_below hne hcomp (hstart₁ ▸ h.isDirAt) hfiles₁
    rw [hstart₁] at hgains
    rw [hcomp]
    exact ⟨hret, h.step hgains⟩

/-! ## The loop -/

theorem start_of_relative (fs : FileSystem) (h : isAbs delimiter p = false) :
    fs.start p = fs.cwd := by
  rw [FileSystem.start, h]
  rfl

/-- The directories along a path, up to the place where a component may begin. -/
structure CutAt (fs fs₁ : FileSystem) (u : List UInt8) : Prop where
  components_append : ∀ w,
    components delimiter (u ++ w) = components delimiter u ++ components delimiter w
  added : fs.AddedAlong fs₁ fs.cwd (components delimiter u)

/-- **One cut**: behind the slash, another component may begin. -/
theorem CutAt.dodir {fs₁ : FileSystem} {u w : List UInt8} (h : CutAt fs fs₁ u)
    (hfiles : fs.files = ∅) (hw : delimiter ∉ w) (hne : u ++ w ≠ [])
    (hrel : isAbs delimiter (u ++ w) = false) :
    (dodir (u ++ w) fs₁).1 = 0 ∧
      fs.AddedAlong (dodir (u ++ w) fs₁).2 fs.cwd (components delimiter (u ++ w)) ∧
      CutAt fs (Untar.dodir (u ++ w) fs₁).2 (u ++ w ++ [delimiter]) := by
  obtain ⟨hret, hadded⟩ := dodir_next hne (start_of_relative fs hrel) (h.components_append w) hw
    hfiles h.added
  refine ⟨hret, hadded, fun x => ?_, ?_⟩
  · have hnil : components delimiter (u ++ w ++ [delimiter]) = components delimiter (u ++ w) := by
      rw [components_append_sep, components_nil, List.append_nil]
    rw [hnil, List.append_assoc, List.singleton_append, components_append_sep]
  · rw [components_append_sep, components_nil, List.append_nil]
    exact hadded

/-- **The loop** adds the directories along what is before the last slash. -/
theorem mkdirpLoop_eq (hfiles : fs.files = ∅) : ∀ (fuel : ℕ) {buf : Block UInt8}
    {fs₁ : FileSystem} {u v : List UInt8}, v.length < fuel → cstring buf = some (u ++ v) →
    isAbs delimiter (u ++ v) = false → CutAt fs fs₁ u →
    ∃ fs₂ u' w, mkdirpLoop fuel buf u.length fs₁ = some (0, fs₂) ∧ u ++ v = u' ++ w ∧
      delimiter ∉ w ∧ CutAt fs fs₂ u'
  | 0, _, _, _, _, hfuel, _, _, _ => absurd hfuel (Nat.not_lt_zero _)
  | fuel + 1, buf, fs₁, u, v, hfuel, hbuf, hrel, h => by
    have hstr := cstring_drop hbuf
    by_cases hslash : delimiter ∈ v
    · obtain ⟨w, v', rfl, hw⟩ := List.eq_append_cons_of_mem hslash
      -- a relative path does not begin with a slash
      have hne : u ++ w ≠ [] := by
        intro hnil
        rw [← List.append_assoc, hnil] at hrel
        simp [isAbs] at hrel
      have hrel' : isAbs delimiter (u ++ w) = false := by
        obtain ⟨c, cs, hc⟩ := List.exists_cons_of_ne_nil hne
        rw [← List.append_assoc, hc] at hrel
        rw [hc]
        exact hrel
      obtain ⟨hret, -, hcut⟩ := h.dodir hfiles hw hne hrel'
      rw [← List.append_assoc] at hbuf hrel
      obtain ⟨buf', hstore, hcutstr, -, hrestore⟩ := cutString hbuf
      have hlength : (u ++ w ++ [delimiter]).length = u.length + w.length + 1 := by
        simp [Nat.add_assoc]
      have hrest : u ++ w ++ delimiter :: v' = u ++ w ++ [delimiter] ++ v' := by simp
      rw [hrest] at hbuf hrel
      rw [List.length_append, List.length_cons] at hfuel
      obtain ⟨fs₂, u', w', hloop, hsplit, hw', h'⟩ :=
        mkdirpLoop_eq hfiles fuel (by omega) hbuf hrel hcut
      refine ⟨fs₂, u', w', ?_, ?_, hw', h'⟩
      · rw [List.length_append] at hstore hrestore
        rw [hlength] at hloop
        rw [mkdirpLoop, hstr, Option.bind_eq_bind, Option.bind_some, idxOf?_delimiter hw]
        simp only [Option.bind_eq_bind, hstore, Option.bind_some, hcutstr, hret, ne_eq,
          not_true_eq_false, if_false, hrestore]
        exact hloop
      · rw [← List.append_assoc, hrest]
        exact hsplit
    · refine ⟨fs₁, u, v, ?_, rfl, hslash, h⟩
      rw [mkdirpLoop, hstr, Option.bind_eq_bind, Option.bind_some,
        List.idxOf?_eq_none_iff.2 hslash]

/-- An absolute path is cut to the empty path first. -/
theorem mkdirpLoop_absolute {buf : Block UInt8} {v : List UInt8}
    (hbuf : cstring buf = some (delimiter :: v)) (fuel : ℕ) (fs : FileSystem) :
    mkdirpLoop (fuel + 1) buf 0 fs = some (-1, fs) := by
  have hstr : cstring (buf.drop 0) = some (delimiter :: v) := hbuf
  obtain ⟨buf', hstore, hcutstr, -⟩ := cutString (u := []) hbuf
  have hempty : dodir [] fs = (-1, fs) := rfl
  rw [List.length_nil] at hstore
  have hslash : (delimiter :: v).idxOf? delimiter = some 0 := by simp [List.idxOf?_cons]
  rw [mkdirpLoop, hstr, Option.bind_eq_bind, Option.bind_some, hslash]
  simp only [Nat.add_zero, Option.bind_eq_bind, hstore, Option.bind_some, hcutstr, hempty]
  rfl

/-! ## The whole function -/

theorem mkdirp_made (hne : p ≠ []) (hret : (dodir p fs).1 = 0) (a : Allocator) :
    (mkdirp (some p) fs).run a = some ((0, (dodir p fs).2), a) := by
  obtain ⟨c, cs, rfl⟩ := List.exists_cons_of_ne_nil hne
  exact congrArg (StateT.run · a) (if_pos hret)

/-- The loop is reached if the directory cannot be made at once, and there is memory. -/
theorem mkdirp_unmade (hne : p ≠ []) (hfail : dodir p fs = (-1, fs)) (a : Allocator) :
    (mkdirp (some p) fs).run a =
      if a 0 = true then
        (mkdirpCuts p (p.map some ++ [some 0]) fs).map fun r => (r, fun n => a (n + 1))
      else some ((-1, fs), fun n => a (n + 1)) := by
  obtain ⟨c, cs, rfl⟩ := List.exists_cons_of_ne_nil hne
  have hret : ¬ (dodir (c :: cs) fs).1 = 0 := by
    rw [hfail]
    exact neg_ne_zero.2 one_ne_zero
  refine (congrArg (StateT.run · a) (if_neg hret)).trans ?_
  rw [hfail, strdup, StateT.run_bind, run_request_bind]
  cases a 0 <;> rfl

/-- **A relative path**: the directories along it are added. -/
theorem mkdirpCuts_relative (hfiles : fs.files = ∅) (hne : p ≠ []) (hnul : 0 ∉ p)
    (hrel : isAbs delimiter p = false) :
    ∃ fs', mkdirpCuts p (p.map some ++ [some 0]) fs = some (0, fs') ∧
      fs.AddedAlong fs' (fs.start p) (components delimiter p) := by
  have hstart : CutAt fs fs [] :=
    ⟨fun _ => rfl, (start_of_relative fs hrel ▸ FileSystem.isDirAt_start p).addedAlong⟩
  obtain ⟨fs₂, u, w, hloop, rfl, hw, hcut⟩ := mkdirpLoop_eq hfiles (p.length + 1) (u := []) (v := p)
    (Nat.lt_succ_self _) (cstring_terminated hnul []) hrel hstart
  obtain ⟨hret, hadded, -⟩ := hcut.dodir hfiles hw hne hrel
  refine ⟨(dodir (u ++ w) fs₂).2, ?_, start_of_relative fs hrel ▸ hadded⟩
  rw [List.length_nil] at hloop
  rw [mkdirpCuts, hloop]
  exact congrArg some (Prod.ext hret rfl)

/-- An absolute path: nothing is created. -/
theorem mkdirpCuts_absolute (hnul : 0 ∉ p) (habs : isAbs delimiter p = true) :
    mkdirpCuts p (p.map some ++ [some 0]) fs = some (-1, fs) := by
  obtain ⟨v, rfl⟩ : ∃ v, p = delimiter :: v := by
    cases p with
    | nil => cases habs
    | cons c v =>
      have hc : c = delimiter := by simpa [isAbs] using habs
      exact ⟨v, by rw [hc]⟩
  have hloop := mkdirpLoop_absolute (cstring_terminated hnul []) (delimiter :: v).length fs
  rw [mkdirpCuts, hloop]
  rfl

/-- With the parent directory, `_mkdirp` does not need the loop. -/
theorem dodir_parent (hfiles : fs.files = ∅) (hne : p ≠ [])
    (hparent : fs.IsDirAt (fs.start p) (components delimiter p).dropLast) :
    (dodir p fs).1 = 0 ∧
      fs.AddedAlong (dodir p fs).2 (fs.start p) (components delimiter p) := by
  rcases List.eq_nil_or_concat (components delimiter p) with hnil | ⟨names, name, hconcat⟩
  · have hdir : fs.IsDirAt (fs.start p) (components delimiter p) := by
      rw [hnil]
      exact FileSystem.isDirAt_start p
    rw [dodir_exists hne hdir]
    exact ⟨rfl, hdir.addedAlong⟩
  · rw [List.concat_eq_append] at hconcat
    rw [hconcat, List.dropLast_concat] at hparent
    obtain ⟨hret, hgains⟩ := dodir_below hne hconcat hparent hfiles
    rw [hconcat]
    exact ⟨hret, hparent.addedAlong.step hgains⟩

/-- Without it, the first call fails. -/
theorem dodir_fails (hne : p ≠ [])
    (hparent : ¬ fs.IsDirAt (fs.start p) (components delimiter p).dropLast) :
    dodir p fs = (-1, fs) := by
  rcases List.eq_nil_or_concat (components delimiter p) with hnil | ⟨names, name, hconcat⟩
  · rw [hnil] at hparent
    exact absurd (FileSystem.isDirAt_start p) hparent
  · rw [List.concat_eq_append] at hconcat
    rw [hconcat, List.dropLast_concat] at hparent
    exact dodir_no_parent hne hconcat hparent

theorem Agrees.of_addedAlong {fs' : FileSystem} {a a' : Allocator} (hfiles : fs.files = ∅)
    (hnul : 0 ∉ p) (hrun : (mkdirp (some p) fs).run a = some ((0, fs'), a'))
    (h : fs.AddedAlong fs' (fs.start p) (components delimiter p)) : Agrees fs p a := by
  refine ⟨fs', a', hrun, .of_addedAlong h, fun b hb => ?_⟩
  obtain ⟨fs'', b', hmakedirs, h'⟩ := makedirsMode_run hnul hb fs
  rw [h.unique h' hfiles]
  exact ⟨b', hmakedirs⟩

/-- **`_mkdirp` does what `makedirs` does** if the parent directory exists, or the
    path is relative and can be copied. -/
theorem mkdirp_agrees_iff (hfiles : fs.files = ∅) (hne : p ≠ []) (hnul : 0 ∉ p) (a : Allocator) :
    Agrees fs p a ↔
      fs.IsDirAt (fs.start p) (components delimiter p).dropLast ∨
        (isAbs delimiter p = false ∧ a 0 = true) := by
  by_cases hparent : fs.IsDirAt (fs.start p) (components delimiter p).dropLast
  · refine iff_of_true ?_ (Or.inl hparent)
    obtain ⟨hret, h⟩ := dodir_parent hfiles hne hparent
    exact .of_addedAlong hfiles hnul (mkdirp_made hne hret a) h
  have hfail := dodir_fails hne hparent
  constructor
  · rintro ⟨fs', a', hrun, -⟩
    refine Or.inr ?_
    by_cases ha : a 0 = true
    · rw [mkdirp_unmade hne hfail, if_pos ha] at hrun
      refine ⟨?_, ha⟩
      by_contra habs
      rw [mkdirpCuts_absolute hnul (Bool.eq_true_of_not_eq_false habs)] at hrun
      cases hrun
    · rw [mkdirp_unmade hne hfail, if_neg ha] at hrun
      cases hrun
  · rintro (h | ⟨hrel, ha⟩)
    · exact absurd h hparent
    · obtain ⟨fs', hcuts, h⟩ := mkdirpCuts_relative hfiles hne hnul hrel
      have hrun : (mkdirp (some p) fs).run a = some ((0, fs'), fun n => a (n + 1)) := by
        rw [mkdirp_unmade hne hfail, if_pos ha, hcuts]
        rfl
      exact .of_addedAlong hfiles hnul hrun h

/-- The root directory, and nothing else. -/
def onlyRoot : FileSystem where
  cwd := []
  dirs := {[]}
  files := ∅
  root_mem := Finset.mem_singleton_self []
  cwd_mem := Finset.mem_singleton_self []
  parent_mem := by
    intro loc h
    rw [Finset.mem_singleton.1 h]
    exact Finset.mem_singleton_self []
  disjoint := fun loc _ => Finset.notMem_empty loc

/-- `a//b/`, below the root. -/
theorem mkdirp_agrees_relative : Agrees onlyRoot [0x61, 0x2F, 0x2F, 0x62, 0x2F] (fun _ => true) ↔
    onlyRoot.IsDirAt (onlyRoot.start [0x61, 0x2F, 0x2F, 0x62, 0x2F])
        (components delimiter [0x61, 0x2F, 0x2F, 0x62, 0x2F]).dropLast ∨
      (isAbs delimiter [0x61, 0x2F, 0x2F, 0x62, 0x2F] = false ∧ true = true) :=
  mkdirp_agrees_iff rfl (by simp) (by simp) fun _ => true

/-- `/a/b`: the copy is cut to the empty path first. -/
theorem mkdirp_absolute_fails : (mkdirp (some [0x2F, 0x61, 0x2F, 0x62]) onlyRoot).run
        (fun _ => true) = some ((-1, onlyRoot), fun _ => true) ∧
    ¬ Agrees onlyRoot [0x2F, 0x61, 0x2F, 0x62] (fun _ => true) := by
  have hrun : (mkdirp (some [0x2F, 0x61, 0x2F, 0x62]) onlyRoot).run (fun _ => true) =
      some ((-1, onlyRoot), fun _ => true) := rfl
  refine ⟨hrun, ?_⟩
  rintro ⟨fs', a', hok, -⟩
  rw [hrun] at hok
  cases hok

end

end Untar

end Fischstaebchen
