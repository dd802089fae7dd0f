/-
  Private temporary directories (`app/create-user-tmpdirs/create-user-tmpdirs.c`).

  Below the tmpdir root there is a directory `@BY-UID` with one directory for each uid, and
  for each user a link to the directory of its uid.  The entries of a passwd file are
  handled one after the other; their names and uids may repeat.

  * `UserTmp`: what is at the tmpdir root and below; `TmpdirEnv`: the system calls around
    it, each of which but `unlink` may fail.
  * `createUserTmpdir_spec`: what a call for one entry leaves behind.
  * `entryLoop_spec`: what the loop leaves behind; `rootDirs`: the two directories above.
  * `privateTmpdirs_iff`: when every user ends up with a private directory.
-/
import Fischstaebchen.Fs.Devfs
import Fischstaebchen.Fs.ModelFs
import Fischstaebchen.Lib.Decimal
import Fischstaebchen.Lib.LastWrite
import Fischstaebchen.Sys

namespace Fischstaebchen

open Lib

/-- `S_IRWXU`. -/
def sIrwxu : Mode := 0x1C0

/-- `S_IXGRP`. -/
def sIxgrp : Mode := 0x8

/-- `S_IXOTH`. -/
def sIxoth : Mode := 0x1

/-- `EEXIST`. -/
def eexist : Errno := .other 17

/-- `"@BY-UID"`. -/
def byUid : FileName := [0x40, 0x42, 0x59, 0x2D, 0x55, 0x49, 0x44]

/-! ## The files -/

/-- The directory among what may be at a path. -/
def dirInode : Option DirEntry → Option Inode
  | some (.file inode) => if inode.kind = .dir then some inode else none
  | _ => none

/-- What is at the tmpdir root, `[]`, and below it.  No file belongs to the id -1. -/
structure UserTmp where
  entry : Loc → Option DirEntry
  parent : ∀ loc, loc ≠ [] → entry loc ≠ none → (dirInode (entry loc.dropLast)).isSome
  ids : ∀ loc inode, entry loc = some (.file inode) → inode.uid ≠ -1 ∧ inode.gid ≠ -1

/-- What does not change: the path of the tmpdir root, the process and which calls fail for
    a reason of their own.  The umask leaves the bits of the owner. -/
structure TmpdirEnv where
  tmpdirRoot : List UInt8
  umask : Mode
  umask_owner : umask &&& sIrwxu = 0
  uid : Unsigned
  gid : Unsigned
  ids : uid ≠ -1 ∧ gid ≠ -1
  fault : ℕ → SysAnswer

/-- The files and the number of calls so far. -/
structure TmpWorld where
  files : UserTmp
  calls : ℕ

namespace UserTmp
variable (files : UserTmp)

/-- The directory at a location. -/
def dirAt (loc : Loc) : Option Inode := dirInode (files.entry loc)

/-- What may be put at a location. -/
structure Allows (loc : Loc) (new : Option DirEntry) : Prop where
  parent : new ≠ none → loc ≠ [] → (files.dirAt loc.dropLast).isSome
  dir : (files.dirAt loc).isSome → (dirInode new).isSome
  ids : ∀ inode, new = some (.file inode) → inode.uid ≠ -1 ∧ inode.gid ≠ -1

/-- Another entry at a location. -/
def put (loc : Loc) (new : Option DirEntry) (h : files.Allows loc new) : UserTmp where
  entry := Function.update files.entry loc new
  parent := by
    intro loc' hne hsome
    have hparent : (files.dirAt loc'.dropLast).isSome := by
      by_cases heq : loc' = loc
      · rw [heq, Function.update_self] at hsome
        exact heq ▸ h.parent hsome (heq ▸ hne)
      · rw [Function.update_of_ne heq] at hsome
        exact files.parent loc' hne hsome
    by_cases heq : loc'.dropLast = loc
    · rw [heq, Function.update_self]
      exact h.dir (heq ▸ hparent)
    · rw [Function.update_of_ne heq]
      exact hparent
  ids := by
    intro loc' inode hentry
    by_cases heq : loc' = loc
    · rw [heq, Function.update_self] at hentry
      exact h.ids inode hentry
    · rw [Function.update_of_ne heq] at hentry
      exact files.ids loc' inode hentry

theorem allows_none {loc : Loc} (h : ¬ (files.dirAt loc).isSome) : files.Allows loc none where
  parent hne := absurd rfl hne
  dir hdir := absurd hdir h
  ids := by
    intro inode hinode
    cases hinode

/-- `unlink(2)`, which removes whatever is not a directory. -/
def unlink (loc : Loc) : UserTmp :=
  if h : (files.dirAt loc).isSome then files else files.put loc none (files.allows_none h)

end UserTmp

/-! ## The system calls -/

/-- The location of a path that begins with the tmpdir root.  The directory above the root is
    not told apart from the root. -/
def TmpdirEnv.locate (env : TmpdirEnv) (path : List UInt8) : Loc :=
  destination [] (components delimiter (path.drop env.tmpdirRoot.length))

/-- A change of a directory that keeps its type and its ids other than -1. -/
structure DirChange where
  apply : Inode → Inode
  kind : ∀ inode, (apply inode).kind = inode.kind
  ids : ∀ inode, inode.uid ≠ -1 ∧ inode.gid ≠ -1 →
    (apply inode).uid ≠ -1 ∧ (apply inode).gid ≠ -1

/-- Other permissions. -/
def DirChange.chmod (mode : Mode) : DirChange where
  apply inode := { inode with perm := mode &&& permissionMask }
  kind _ := rfl
  ids _ h := h

/-- Another owner and group; the id -1 means no change. -/
def DirChange.chown (uid gid : Unsigned) : DirChange where
  apply inode := { inode with
    uid := if uid = -1 then inode.uid else uid
    gid := if gid = -1 then inode.gid else gid }
  kind _ := rfl
  ids := by
    intro inode h
    refine ⟨?_, ?_⟩
    · show (if uid = -1 then inode.uid else uid) ≠ -1
      split
      · exact h.1
      · assumption
    · show (if gid = -1 then inode.gid else gid) ≠ -1
      split
      · exact h.2
      · assumption

theorem entry_of_dirAt {files : UserTmp} {loc : Loc} {inode : Inode}
    (h : files.dirAt loc = some inode) :
    files.entry loc = some (.file inode) ∧ inode.kind = .dir := by
  rw [UserTmp.dirAt] at h
  unfold dirInode at h
  split at h
  · rename_i inode' hentry
    rw [hentry]
    split at h
    · cases h
      exact ⟨rfl, ‹_›⟩
    · cases h
  · cases h

theorem dirInode_file {inode : Inode} (h : inode.kind = .dir) :
    dirInode (some (.file inode)) = some inode := if_pos h

theorem UserTmp.dirAt_dir {files : UserTmp} {dir name : FileName} {entry : DirEntry}
    (h : files.entry [dir, name] = some entry) : (files.dirAt [dir]).isSome :=
  files.parent [dir, name] (by simp) (by simp [h])

/-- There are directories above a file, up to the tmpdir root. -/
theorem UserTmp.dirAt_root {files : UserTmp} {dir name : FileName} {entry : DirEntry}
    (h : files.entry [dir, name] = some entry) : (files.dirAt []).isSome := by
  obtain ⟨inode, hinode⟩ := Option.isSome_iff_exists.1 (files.dirAt_dir h)
  exact files.parent [dir] (by simp) (by simp [(entry_of_dirAt hinode).1])

/-- A changed directory may be put where it was. -/
theorem UserTmp.allows_change {files : UserTmp} {loc : Loc} {inode : Inode}
    (h : files.dirAt loc = some inode) (change : DirChange) :
    files.Allows loc (some (.file (change.apply inode))) where
  parent _ hne := by
    refine files.parent loc hne ?_
    rw [(entry_of_dirAt h).1]
    simp
  dir _ := by
    rw [dirInode_file ((change.kind inode).trans (entry_of_dirAt h).2)]
    rfl
  ids := by
    rintro _ ⟨⟩
    exact change.ids inode (files.ids loc inode (entry_of_dirAt h).1)

/-- A new directory. -/
def TmpdirEnv.newDir (env : TmpdirEnv) (mode : Mode) : Inode :=
  ⟨.dir, mode &&& permissionMask &&& ~~~env.umask, env.uid, env.gid⟩

theorem UserTmp.allows_new {files : UserTmp} {loc : Loc} {new : DirEntry}
    (hnone : files.entry loc = none) (hparent : loc ≠ [] → (files.dirAt loc.dropLast).isSome)
    (hids : ∀ inode, new = .file inode → inode.uid ≠ -1 ∧ inode.gid ≠ -1) :
    files.Allows loc (some new) where
  parent _ := hparent
  dir := by
    rw [UserTmp.dirAt, hnone]
    intro h
    cases h
  ids := by
    rintro inode ⟨⟩
    exact hids inode rfl

namespace TmpWorld
variable (env : TmpdirEnv) (w : TmpWorld)

/-- One more call. -/
def tick : TmpWorld := { w with calls := w.calls + 1 }

/-- A call that puts something new at a location. -/
def create (loc : Loc) (new : DirEntry)
    (hids : ∀ inode, new = .file inode → inode.uid ≠ -1 ∧ inode.gid ≠ -1) :
    SysAnswer × TmpWorld :=
  if (env.fault w.calls).isSome then (env.fault w.calls, w.tick)
  else if hnone : w.files.entry loc = none then
    if hparent : loc ≠ [] → (w.files.dirAt loc.dropLast).isSome then
      (none, ⟨w.files.put loc (some new) (UserTmp.allows_new hnone hparent hids), w.calls + 1⟩)
    else (some .ENOENT, w.tick)
  else (some eexist, w.tick)

/-- `mkdir(2)`. -/
def mkdir (path : List UInt8) (mode : Mode) : SysAnswer × TmpWorld :=
  w.create env (env.locate path) (.file (env.newDir mode)) (by
    rintro _ ⟨⟩
    exact env.ids)

/-- `symlink(2)`. -/
def symlink (target path : List UInt8) : SysAnswer × TmpWorld :=
  w.create env (env.locate path) (.symlink target) (by
    rintro _ ⟨⟩)

/-- `unlink(2)`; its answer is ignored. -/
def unlink (path : List UInt8) : TmpWorld :=
  { w with files := w.files.unlink (env.locate path) }

/-- A call that changes a directory. -/
def change (loc : Loc) (dirChange : DirChange) : ℤ × TmpWorld :=
  match h : w.files.dirAt loc with
  | some inode =>
    if (env.fault w.calls).isSome then (-1, w.tick)
    else
      (0, ⟨w.files.put loc (some (.file (dirChange.apply inode)))
        (UserTmp.allows_change h dirChange), w.calls + 1⟩)
  | none => (-1, w.tick)

/-- `chmod(2)`, where there is a directory or nothing at the path. -/
def chmod (path : List UInt8) (mode : Mode) : ℤ × TmpWorld :=
  w.change env (env.locate path) (.chmod mode)

/-- `chown(2)`, where there is a directory or nothing at the path. -/
def chown (path : List UInt8) (uid gid : Unsigned) : ℤ × TmpWorld :=
  w.change env (env.locate path) (.chown uid gid)

/-- `asprintf(3)` that prints `text`. -/
def asprintf (text : List UInt8) : Option (List UInt8) × TmpWorld :=
  (if (env.fault w.calls).isSome then none else some text, w.tick)

end TmpWorld

/-! ## The program -/

/-- What is read of `struct passwd`; a name has no slashes. -/
structure Passwd where
  name : FileName
  uid : Unsigned
  gid : Unsigned
  noSlash : delimiter ∉ name
  deriving DecidableEq

/-- `_dodir`; `unlink` leaves nothing but a directory at the path. -/
def TmpWorld.dodir (env : TmpdirEnv) (w : TmpWorld) (path : List UInt8) (mode : Mode)
    (uid gid : Unsigned) : ℤ × TmpWorld :=
  let made := (w.unlink env path).mkdir env path mode
  if made.1 ≠ none then
    if made.1 = some eexist then
      let chmoded := made.2.chmod env path mode
      if chmoded.1 ≠ 0 then (-1, chmoded.2) else chmoded.2.chown env path uid gid
    else (-1, made.2)
  else made.2.chown env path uid gid

/-- `link_buf`: the directory of a uid below the tmpdir root. -/
def linkBuf (uid : Unsigned) : List UInt8 := byUid ++ delimiter :: decimalText uid.toNat

/-- The end of `_create_user_tmpdir`. -/
def linkUserTmpdir (env : TmpdirEnv) (w : TmpWorld) (name link : List UInt8) : ℤ × TmpWorld :=
  let printed := w.asprintf env (env.tmpdirRoot ++ delimiter :: name)
  match printed.1 with
  | none => (-1, printed.2)
  | some buf =>
    let linked := (printed.2.unlink env buf).symlink env link buf
    (if linked.1 = none then 0 else 2, linked.2)

/-- `_create_user_tmpdir`. -/
def createUserTmpdir (env : TmpdirEnv) (w : TmpWorld) (name : List UInt8) (uid gid : Unsigned) :
    ℤ × TmpWorld :=
  let linkPrinted := w.asprintf env (linkBuf uid)
  match linkPrinted.1 with
  | none => (-1, linkPrinted.2)
  | some link =>
    let printed := linkPrinted.2.asprintf env (env.tmpdirRoot ++ delimiter :: link)
    match printed.1 with
    | none => (-1, printed.2)
    | some buf =>
      let made := printed.2.dodir env buf sIrwxu uid gid
      let retcode := if made.1 = 0 then 0 else 1
      if retcode = 0 then linkUserTmpdir env made.2 name link else (retcode, made.2)

/-- `"root"`. -/
def rootName : FileName := [0x72, 0x6F, 0x6F, 0x74]

/-- `_create_user_tmpdir_root`. -/
def createUserTmpdirRoot (env : TmpdirEnv) (w : TmpWorld) : ℤ × TmpWorld :=
  let root := w.dodir env env.tmpdirRoot (sIrwxu ||| sIxgrp ||| sIxoth) 0 0
  if root.1 ≠ 0 then (-1, root.2)
  else
    let printed := root.2.asprintf env (env.tmpdirRoot ++ delimiter :: byUid)
    match printed.1 with
    | none => (-1, printed.2)
    | some buf =>
      let made := printed.2.dodir env buf (sIrwxu ||| sIxgrp ||| sIxoth) 0 0
      if made.1 ≠ 0 then (-1, made.2) else createUserTmpdir env made.2 rootName 0 0

/-- `_tmpdir_filter_user`. -/
def tmpdirFilterUser (_name : FileName) (uid : Unsigned) : ℤ := if uid = 0 then 1 else 0

/-- An iteration of the loop of `create_user_tmpdirs`. -/
def entryStep (env : TmpdirEnv) (entry : Passwd) (retcode : ℤ) (w : TmpWorld) : ℤ × TmpWorld :=
  if tmpdirFilterUser entry.name entry.uid = 0 then
    let created := createUserTmpdir env w entry.name entry.uid entry.gid
    (if created.1 ≠ 0 then 2 else retcode, created.2)
  else (retcode, w)

/-- The loop over what `fgetpwent` returns. -/
def entryLoop (env : TmpdirEnv) : List Passwd → ℤ → TmpWorld → ℤ × TmpWorld
  | [], retcode, w => (retcode, w)
  | entry :: entries, retcode, w =>
    if 0 ≤ retcode then
      entryLoop env entries (entryStep env entry retcode w).1 (entryStep env entry retcode w).2
    else (retcode, w)

/-- `create_user_tmpdirs` with the entries of the passwd file, which is opened by one more
    call. -/
def createUserTmpdirs (env : TmpdirEnv) (entries : List Passwd) (w : TmpWorld) : ℤ × TmpWorld :=
  let root := createUserTmpdirRoot env w
  if root.1 ≠ 0 then (-1, root.2)
  else if (env.fault root.2.calls).isSome then (-1, root.2.tick)
  else entryLoop env entries 0 root.2.tick

/-! ## What the system calls do -/

/-- At most `loc` has changed, and a directory there has stayed one. -/
structure OnlyAt (loc : Loc) (files files' : UserTmp) : Prop where
  frame : ∀ loc', loc' ≠ loc → files'.entry loc' = files.entry loc'
  dir : (files.dirAt loc).isSome → (files'.dirAt loc).isSome

section
variable {loc loc' : Loc} {files files' files'' : UserTmp}

theorem OnlyAt.refl (loc : Loc) (files : UserTmp) : OnlyAt loc files files := ⟨fun _ _ => rfl, id⟩

theorem OnlyAt.trans (h : OnlyAt loc files files') (h' : OnlyAt loc files' files'') :
    OnlyAt loc files files'' where
  frame loc' hne := (h'.frame loc' hne).trans (h.frame loc' hne)
  dir hdir := h'.dir (h.dir hdir)

/-- Directories stay directories. -/
theorem OnlyAt.dirAt (h : OnlyAt loc files files') (hdir : (files.dirAt loc').isSome) :
    (files'.dirAt loc').isSome := by
  by_cases heq : loc' = loc
  · rw [heq] at hdir ⊢
    exact h.dir hdir
  · rw [UserTmp.dirAt, h.frame loc' heq]
    exact hdir

namespace UserTmp

@[simp] theorem put_self {new : Option DirEntry} (h : files.Allows loc new) :
    (files.put loc new h).entry loc = new := by
  show Function.update files.entry loc new loc = new
  exact Function.update_self loc new files.entry

theorem put_onlyAt {new : Option DirEntry} (h : files.Allows loc new) :
    OnlyAt loc files (files.put loc new h) where
  frame loc' hne := by
    show Function.update files.entry loc new loc' = files.entry loc'
    exact Function.update_of_ne hne new files.entry
  dir hdir := by
    rw [UserTmp.dirAt, put_self]
    exact h.dir hdir

theorem unlink_onlyAt (files : UserTmp) (loc : Loc) : OnlyAt loc files (files.unlink loc) := by
  rw [unlink]
  split
  · exact OnlyAt.refl loc files
  · exact put_onlyAt _

/-- `unlink` leaves a directory or nothing, so that `chmod` and `chown` meet nothing else. -/
theorem unlink_left (files : UserTmp) (loc : Loc) :
    (files.unlink loc).entry loc = none ∨ ((files.unlink loc).dirAt loc).isSome := by
  rw [unlink]
  split
  · rename_i hdir
    exact .inr hdir
  · exact .inl (put_self _)

end UserTmp

variable (env : TmpdirEnv) (w : TmpWorld)

theorem TmpWorld.unlink_onlyAt (path : List UInt8) :
    OnlyAt (env.locate path) w.files (w.unlink env path).files :=
  w.files.unlink_onlyAt (env.locate path)

/-- A call that creates something fails or puts it where nothing was. -/
theorem TmpWorld.create_cases (loc : Loc) (new : DirEntry)
    (hids : ∀ inode, new = .file inode → inode.uid ≠ -1 ∧ inode.gid ≠ -1) :
    (∃ errno, w.create env loc new hids = (some errno, w.tick)) ∨
      w.files.entry loc = none ∧
        ∃ files', w.create env loc new hids = (none, ⟨files', w.calls + 1⟩) ∧
          files'.entry loc = some new ∧ OnlyAt loc w.files files' := by
  rw [create]
  split
  · rename_i hfault
    obtain ⟨errno, herrno⟩ := Option.isSome_iff_exists.1 hfault
    exact .inl ⟨errno, by rw [herrno]⟩
  split
  · rename_i hnone
    split
    · exact .inr ⟨hnone, _, rfl, UserTmp.put_self _, UserTmp.put_onlyAt _⟩
    · exact .inl ⟨_, rfl⟩
  · exact .inl ⟨_, rfl⟩

/-- A call that changes a directory fails or changes it. -/
theorem TmpWorld.change_cases (loc : Loc) (dirChange : DirChange) :
    w.change env loc dirChange = (-1, w.tick) ∨
      ∃ inode files', w.files.dirAt loc = some inode ∧
        w.change env loc dirChange = (0, ⟨files', w.calls + 1⟩) ∧
        files'.entry loc = some (.file (dirChange.apply inode)) ∧ OnlyAt loc w.files files' := by
  rw [change]
  split
  · rename_i inode hdir
    split
    · exact .inl rfl
    · exact .inr ⟨inode, _, hdir, rfl, UserTmp.put_self _, UserTmp.put_onlyAt _⟩
  · exact .inl rfl

end

/-! ## Making a directory -/

/-- A directory with the mode and the owner that were asked for; the ids -1 ask for none. -/
structure MadeDir (env : TmpdirEnv) (mode : Mode) (uid gid : Unsigned) (inode : Inode) :
    Prop where
  kind : inode.kind = .dir
  perm : inode.perm = mode &&& permissionMask ∨
    inode.perm = mode &&& permissionMask &&& ~~~env.umask
  uid : uid ≠ -1 → inode.uid = uid
  gid : gid ≠ -1 → inode.gid = gid

/-- The umask does not touch the bits of the owner. -/
theorem owner_not_masked {umask : Mode} (h : umask &&& sIrwxu = 0) :
    sIrwxu &&& permissionMask &&& ~~~umask = sIrwxu := by
  have hmask : sIrwxu &&& permissionMask = sIrwxu := rfl
  rw [hmask]
  ext i hi
  have hbit : (umask &&& sIrwxu)[i] = (0 : Mode)[i] := by rw [h]
  simp only [BitVec.getElem_and, BitVec.getElem_not] at hbit ⊢
  revert hbit
  cases umask[i] <;> cases sIrwxu[i] <;> simp

theorem MadeDir.perm_owner {env : TmpdirEnv} {uid gid : Unsigned} {inode : Inode}
    (h : MadeDir env sIrwxu uid gid inode) : inode.perm = sIrwxu := by
  rcases h.perm with hperm | hperm
  · rw [hperm]
    rfl
  · rw [hperm, owner_not_masked env.umask_owner]

/-- What `chown` makes of a directory with the mode that was asked for. -/
theorem madeDir_chown {env : TmpdirEnv} {mode : Mode} {inode : Inode} (hkind : inode.kind = .dir)
    (hperm : inode.perm = mode &&& permissionMask ∨
      inode.perm = mode &&& permissionMask &&& ~~~env.umask) (uid gid : Unsigned) :
    MadeDir env mode uid gid ((DirChange.chown uid gid).apply inode) where
  kind := hkind
  perm := hperm
  uid hne := if_neg hne
  gid hne := if_neg hne

section
variable {env : TmpdirEnv} {w : TmpWorld} {path : List UInt8} {mode : Mode} {uid gid : Unsigned}

/-- The last step of `_dodir`. -/
theorem TmpWorld.chown_spec {inode : Inode}
    (hentry : w.files.entry (env.locate path) = some (.file inode)) (hkind : inode.kind = .dir)
    (hperm : inode.perm = mode &&& permissionMask ∨
      inode.perm = mode &&& permissionMask &&& ~~~env.umask)
    (h : (w.chown env path uid gid).1 = 0) :
    OnlyAt (env.locate path) w.files (w.chown env path uid gid).2.files ∧
      ∃ inode, (w.chown env path uid gid).2.files.entry (env.locate path) = some (.file inode) ∧
        MadeDir env mode uid gid inode := by
  rw [chown] at h ⊢
  rcases w.change_cases env (env.locate path) (.chown uid gid) with
    hfail | ⟨inode', files', hdir, hchown, hentry', honly⟩
  · rw [hfail] at h
    cases h
  · rw [UserTmp.dirAt, hentry, dirInode_file hkind] at hdir
    cases hdir
    rw [hchown]
    exact ⟨honly, _, hentry', madeDir_chown hkind hperm uid gid⟩

/-- **`_dodir`**: on success there is such a directory. -/
theorem TmpWorld.dodir_spec (h : (w.dodir env path mode uid gid).1 = 0) :
    OnlyAt (env.locate path) w.files (w.dodir env path mode uid gid).2.files ∧
      ∃ inode, (w.dodir env path mode uid gid).2.files.entry (env.locate path) =
          some (.file inode) ∧ MadeDir env mode uid gid inode := by
  have hunlink := w.unlink_onlyAt env path
  rw [dodir] at h ⊢
  rcases (w.unlink env path).create_cases env (env.locate path) (.file (env.newDir mode))
    (by rintro _ ⟨⟩; exact env.ids) with ⟨errno, hmkdir⟩ | ⟨-, files', hmkdir, hentry, honly⟩
  · -- there is something already, or the call fails
    have hmade : (w.unlink env path).mkdir env path mode = (some errno, (w.unlink env path).tick) :=
      hmkdir
    rw [hmade] at h ⊢
    simp only [ne_eq, reduceCtorEq, not_false_eq_true, if_true, Option.some.injEq] at h ⊢
    by_cases hexists : errno = eexist
    · simp only [hexists, if_true] at h ⊢
      rw [chmod] at h ⊢
      rcases (w.unlink env path).tick.change_cases env (env.locate path) (.chmod mode) with
        hfail | ⟨inode, files', hdir, hchmod, hentry, honly⟩
      · rw [hfail] at h
        cases h
      · rw [hchmod] at h ⊢
        simp only [not_true_eq_false, if_false] at h ⊢
        have hkind : ((DirChange.chmod mode).apply inode).kind = .dir := (entry_of_dirAt hdir).2
        obtain ⟨honly', hmade⟩ := chown_spec hentry hkind (.inl rfl) h
        exact ⟨(hunlink.trans honly).trans honly', hmade⟩
    · simp only [hexists, if_false] at h
      cases h
  · have hmade : (w.unlink env path).mkdir env path mode =
        (none, ⟨files', (w.unlink env path).calls + 1⟩) := hmkdir
    rw [hmade] at h ⊢
    simp only [ne_eq, not_true_eq_false, if_false] at h ⊢
    obtain ⟨honly', hmade⟩ := chown_spec hentry rfl (.inr rfl) h
    exact ⟨(hunlink.trans honly).trans honly', hmade⟩

end

/-! ## One entry -/

/-- The directory of a uid. -/
def uidLoc (uid : Unsigned) : Loc := [byUid, decimalText uid.toNat]

theorem uidLoc_injective : Function.Injective uidLoc := by
  intro uid uid' h
  rw [uidLoc, uidLoc, List.cons.injEq, List.cons.injEq] at h
  exact BitVec.eq_of_toNat_eq (decimalText_injective h.2.1)

theorem uidLoc_ne_singleton (uid : Unsigned) (name : FileName) : uidLoc uid ≠ [name] := by
  intro h
  cases h

theorem delimiter_not_mem_byUid : delimiter ∉ byUid := by simp [byUid, delimiter]

theorem delimiter_not_mem_rootName : delimiter ∉ rootName := by simp [rootName, delimiter]

theorem not_isDigit_delimiter : isDigit delimiter = false := rfl

theorem delimiter_not_mem_decimalText (n : ℕ) : delimiter ∉ decimalText n := by
  intro h
  have hdigit := isDigit_of_mem_decimalText delimiter h
  rw [not_isDigit_delimiter] at hdigit
  cases hdigit

/-- Digits are the name of a file of their own. -/
theorem enter_decimalText (loc : Loc) (n : ℕ) :
    enter loc (decimalText n) = loc ++ [decimalText n] := by
  have hdigit : ∀ s : FileName, 0x2E ∈ s → decimalText n ≠ s := by
    rintro s hs rfl
    exact absurd (isDigit_of_mem_decimalText _ hs) (by decide)
  rw [enter, if_neg (hdigit dot (by simp [dot])), if_neg (hdigit dotdot (by simp [dotdot]))]

section
variable {env : TmpdirEnv} {w : TmpWorld} {name link : FileName} {uid gid : Unsigned}

theorem locate_root (env : TmpdirEnv) : env.locate env.tmpdirRoot = [] := by
  rw [TmpdirEnv.locate, List.drop_length, components_nil]
  rfl

theorem locate_below (env : TmpdirEnv) (path : List UInt8) :
    env.locate (env.tmpdirRoot ++ delimiter :: path) =
      destination [] (components delimiter path) := by
  rw [TmpdirEnv.locate, List.drop_left, components_cons_sep]

/-- A name is that of a file in the tmpdir root, or stands for a directory. -/
theorem locate_name (env : TmpdirEnv) (h : delimiter ∉ name) :
    env.locate (env.tmpdirRoot ++ delimiter :: name) = [] ∨
      env.locate (env.tmpdirRoot ++ delimiter :: name) = [name] := by
  rw [locate_below, components_word h]
  split
  · exact .inl rfl
  show enter [] name = [] ∨ enter [] name = [name]
  rw [enter]
  split
  · exact .inl rfl
  split
  · exact .inl rfl
  · exact .inr rfl

theorem locate_link (env : TmpdirEnv) (uid : Unsigned) :
    env.locate (env.tmpdirRoot ++ delimiter :: linkBuf uid) = uidLoc uid := by
  rw [locate_below, linkBuf, components_append_sep, components_word delimiter_not_mem_byUid,
    components_word (delimiter_not_mem_decimalText _), if_neg (by simp [byUid]),
    if_neg (decimalText_ne_nil _)]
  show enter [byUid] (decimalText uid.toNat) = uidLoc uid
  rw [enter_decimalText]
  rfl

theorem locate_byUid (env : TmpdirEnv) :
    env.locate (env.tmpdirRoot ++ delimiter :: byUid) = [byUid] := by
  rw [locate_below, components_word delimiter_not_mem_byUid]
  rfl

theorem asprintf_cases (env : TmpdirEnv) (w : TmpWorld) (text : List UInt8) :
    w.asprintf env text = (none, w.tick) ∨ w.asprintf env text = (some text, w.tick) := by
  rw [TmpWorld.asprintf]
  split
  · exact .inl rfl
  · exact .inr rfl

/-- The link of a user, where the tmpdir root is a directory. -/
theorem linkUserTmpdir_spec (hname : delimiter ∉ name) (hroot : (w.files.dirAt []).isSome)
    (h : (linkUserTmpdir env w name link).1 = 0) :
    (linkUserTmpdir env w name link).2.files.entry [name] = some (.symlink link) ∧
      OnlyAt [name] w.files (linkUserTmpdir env w name link).2.files := by
  unfold linkUserTmpdir at h ⊢
  rcases asprintf_cases env w (env.tmpdirRoot ++ delimiter :: name) with hprint | hprint
  · rw [hprint] at h
    cases h
  rw [hprint] at h ⊢
  simp only at h ⊢
  have hunlink : OnlyAt _ w.files _ :=
    w.tick.unlink_onlyAt env (env.tmpdirRoot ++ delimiter :: name)
  rcases (w.tick.unlink env (env.tmpdirRoot ++ delimiter :: name)).create_cases env
    (env.locate (env.tmpdirRoot ++ delimiter :: name)) (.symlink link) (by rintro _ ⟨⟩) with
    ⟨errno, hfail⟩ | ⟨hnone, files', hsymlink, hentry, honly⟩
  · rw [TmpWorld.symlink, hfail] at h
    cases h
  · -- the tmpdir root itself is not free
    have hloc : env.locate (env.tmpdirRoot ++ delimiter :: name) = [name] := by
      rcases locate_name env hname with hloc | hloc
      · have hdir := hunlink.dirAt hroot
        rw [hloc] at hnone
        rw [UserTmp.dirAt, hnone] at hdir
        cases hdir
      · exact hloc
    rw [TmpWorld.symlink, hsymlink]
    rw [hloc] at hentry honly hunlink
    exact ⟨hentry, hunlink.trans honly⟩

/-- **`_create_user_tmpdir`**: on success there are the directory and the link. -/
theorem createUserTmpdir_spec (hname : delimiter ∉ name)
    (h : (createUserTmpdir env w name uid gid).1 = 0) :
    (∃ inode, (createUserTmpdir env w name uid gid).2.files.entry (uidLoc uid) =
        some (.file inode) ∧ MadeDir env sIrwxu uid gid inode) ∧
      (createUserTmpdir env w name uid gid).2.files.entry [name] =
        some (.symlink (linkBuf uid)) ∧
      ∀ loc, loc ≠ uidLoc uid → loc ≠ [name] →
        (createUserTmpdir env w name uid gid).2.files.entry loc = w.files.entry loc := by
  unfold createUserTmpdir at h ⊢
  rcases asprintf_cases env w (linkBuf uid) with hprint | hprint
  · rw [hprint] at h
    cases h
  rw [hprint] at h ⊢
  simp only at h ⊢
  rcases asprintf_cases env w.tick (env.tmpdirRoot ++ delimiter :: linkBuf uid) with
    hprint' | hprint'
  · rw [hprint'] at h
    cases h
  rw [hprint'] at h ⊢
  simp only at h ⊢
  by_cases hmade : (w.tick.tick.dodir env (env.tmpdirRoot ++ delimiter :: linkBuf uid) sIrwxu
    uid gid).1 = 0
  · simp only [hmade, if_true] at h ⊢
    obtain ⟨honly, inode, hinode, hdir⟩ := TmpWorld.dodir_spec hmade
    rw [locate_link] at honly hinode
    -- above the directory of the uid there are directories
    have hroot := UserTmp.dirAt_root hinode
    obtain ⟨hlink, honly'⟩ := linkUserTmpdir_spec hname hroot h
    refine ⟨⟨inode, ?_, hdir⟩, hlink, ?_⟩
    · rw [honly'.frame _ (uidLoc_ne_singleton uid name)]
      exact hinode
    · intro loc huid hlast
      rw [honly'.frame loc hlast]
      exact honly.frame loc huid
  · simp only [hmade, if_false] at h
    cases h

/-- There is no user of the name `@BY-UID`: a directory is in the way. -/
theorem name_ne_byUid (hname : delimiter ∉ name)
    (h : (createUserTmpdir env w name uid gid).1 = 0) : name ≠ byUid := by
  rintro rfl
  obtain ⟨⟨inode, hinode, -⟩, hlink, -⟩ := createUserTmpdir_spec hname h
  have hdir := UserTmp.dirAt_dir hinode
  rw [UserTmp.dirAt, hlink] at hdir
  cases hdir

/-- The tmpdir root and `@BY-UID` stay as they are. -/
theorem createUserTmpdir_keeps (hname : delimiter ∉ name)
    (h : (createUserTmpdir env w name uid gid).1 = 0) {loc : Loc} (hloc : loc ∈ [[], [byUid]]) :
    (createUserTmpdir env w name uid gid).2.files.entry loc = w.files.entry loc := by
  obtain ⟨-, -, hframe⟩ := createUserTmpdir_spec hname h
  rw [List.mem_cons, List.mem_singleton] at hloc
  rcases hloc with rfl | rfl
  · exact hframe [] (by simp [uidLoc]) (by simp)
  · exact hframe [byUid] (uidLoc_ne_singleton uid byUid).symm
      (by simpa using (name_ne_byUid hname h).symm)

end

/-! ## The loop -/

/-- The entries for a name whose uid is not 0. -/
def namedUser (name : FileName) (entry : Passwd) : Bool := entry.uid ≠ 0 ∧ entry.name = name

/-- The entries for a uid that is not 0. -/
def userOf (uid : Unsigned) (entry : Passwd) : Bool := entry.uid ≠ 0 ∧ entry.uid = uid

theorem namedUser_iff {name : FileName} {entry : Passwd} :
    namedUser name entry = true ↔ entry.uid ≠ 0 ∧ entry.name = name := by simp [namedUser]

theorem userOf_iff {uid : Unsigned} {entry : Passwd} :
    userOf uid entry = true ↔ entry.uid ≠ 0 ∧ entry.uid = uid := by simp [userOf]

/-- What there is for the entries so far. -/
structure UsersDone (env : TmpdirEnv) (done : List Passwd) (files : UserTmp) : Prop where
  links : LastHolds namedUser
    (fun name last => files.entry [name] = some (.symlink (linkBuf last.uid))) done
  dirs : LastHolds userOf
    (fun uid last => ∃ inode, files.entry (uidLoc uid) = some (.file inode) ∧
      MadeDir env sIrwxu uid last.gid inode) done

section
variable {env : TmpdirEnv} {w : TmpWorld} {entry : Passwd} {entries done : List Passwd}
  {retcode : ℤ}

theorem tmpdirFilterUser_eq_zero {name : FileName} {uid : Unsigned} :
    tmpdirFilterUser name uid = 0 ↔ uid ≠ 0 := by
  by_cases h : uid = 0
  · rw [tmpdirFilterUser, if_pos h]
    exact ⟨fun h' => absurd h' one_ne_zero, fun h' => absurd h h'⟩
  · rw [tmpdirFilterUser, if_neg h]
    exact ⟨fun _ => h, fun _ => rfl⟩

theorem entryStep_skip (huid : entry.uid = 0) (retcode : ℤ) (w : TmpWorld) :
    entryStep env entry retcode w = (retcode, w) := by
  have hfilter : ¬ tmpdirFilterUser entry.name entry.uid = 0 := by
    rw [tmpdirFilterUser_eq_zero]
    exact fun hne => hne huid
  rw [entryStep, if_neg hfilter]

/-- The call in an iteration that does not fail. -/
theorem createUserTmpdir_of_entryStep (huid : entry.uid ≠ 0)
    (h : (entryStep env entry 0 w).1 = 0) :
    (createUserTmpdir env w entry.name entry.uid entry.gid).1 = 0 := by
  rw [entryStep, if_pos (tmpdirFilterUser_eq_zero.2 huid)] at h
  by_contra hne
  simp [hne] at h

/-- **One iteration** that does not fail. -/
theorem entryStep_done (h : (entryStep env entry 0 w).1 = 0)
    (hdone : UsersDone env done w.files) :
    UsersDone env (done ++ [entry]) (entryStep env entry 0 w).2.files := by
  by_cases huid : entry.uid = 0
  · rw [entryStep_skip huid]
    refine ⟨hdone.links.concat ?_ fun _ _ _ _ hold => hold,
      hdone.dirs.concat ?_ fun _ _ _ _ hold => hold⟩
    · intro name hnamed
      exact absurd huid (namedUser_iff.1 hnamed).1
    · intro uid huser
      exact absurd huid (userOf_iff.1 huser).1
  · obtain ⟨hdir, hlink, hframe⟩ :=
      createUserTmpdir_spec entry.noSlash (createUserTmpdir_of_entryStep huid h)
    rw [entryStep, if_pos (tmpdirFilterUser_eq_zero.2 huid)]
    refine ⟨hdone.links.concat ?_ ?_, hdone.dirs.concat ?_ ?_⟩
    · intro name hnamed
      rw [← (namedUser_iff.1 hnamed).2]
      exact hlink
    · intro name last hother _ hold
      have hne : [name] ≠ [entry.name] := by
        rintro ⟨⟩
        rw [namedUser_iff.2 ⟨huid, rfl⟩] at hother
        cases hother
      rw [← hold]
      exact hframe [name] (uidLoc_ne_singleton _ _).symm hne
    · intro uid huser
      rw [← (userOf_iff.1 huser).2]
      exact hdir
    · rintro uid last hother _ ⟨inode, hinode, hmade⟩
      have hne : uidLoc uid ≠ uidLoc entry.uid := by
        intro heq
        rw [userOf_iff.2 ⟨huid, (uidLoc_injective heq).symm⟩] at hother
        cases hother
      refine ⟨inode, ?_, hmade⟩
      rw [← hinode]
      exact hframe (uidLoc uid) hne (uidLoc_ne_singleton _ _)

theorem entryStep_nonneg (h : 0 ≤ retcode) : 0 ≤ (entryStep env entry retcode w).1 := by
  rw [entryStep]
  split
  · show 0 ≤ if _ then (2 : ℤ) else retcode
    split
    · simp
    · exact h
  · exact h

theorem entryStep_eq_two_or (env : TmpdirEnv) (entry : Passwd) (retcode : ℤ) (w : TmpWorld) :
    (entryStep env entry retcode w).1 = 2 ∨ (entryStep env entry retcode w).1 = retcode := by
  rw [entryStep]
  split
  · simp only
    split
    · exact .inl rfl
    · exact .inr rfl
  · exact .inr rfl

theorem entryLoop_cons (h : 0 ≤ retcode) : entryLoop env (entry :: entries) retcode w =
    entryLoop env entries (entryStep env entry retcode w).1 (entryStep env entry retcode w).2 :=
  if_pos h

/-- A failure is not forgotten. -/
theorem entryLoop_failed (env : TmpdirEnv) (entries : List Passwd) (w : TmpWorld) :
    (entryLoop env entries 2 w).1 = 2 := by
  induction entries generalizing w with
  | nil => rfl
  | cons entry entries ih =>
    have hstep : (entryStep env entry 2 w).1 = 2 := (entryStep_eq_two_or env entry 2 w).elim id id
    rw [entryLoop_cons (by simp), hstep]
    exact ih _

/-- If the loop returns 0 then so does its first iteration. -/
theorem entryStep_of_entryLoop (h : (entryLoop env (entry :: entries) 0 w).1 = 0) :
    (entryStep env entry 0 w).1 = 0 := by
  rcases entryStep_eq_two_or env entry 0 w with hstep | hstep
  · rw [entryLoop_cons le_rfl, hstep, entryLoop_failed] at h
    cases h
  · exact hstep

/-- **The loop** if it does not fail. -/
theorem entryLoop_spec (h : (entryLoop env entries 0 w).1 = 0)
    (hdone : UsersDone env done w.files) :
    UsersDone env (done ++ entries) (entryLoop env entries 0 w).2.files := by
  induction entries generalizing done w with
  | nil =>
    rw [List.append_nil]
    exact hdone
  | cons entry entries ih =>
    have hstep := entryStep_of_entryLoop h
    rw [entryLoop_cons le_rfl, hstep] at h ⊢
    have hrest := ih h (entryStep_done hstep hdone)
    rw [List.append_assoc, List.singleton_append] at hrest
    exact hrest

/-- The tmpdir root and `@BY-UID` stay as they are. -/
theorem entryStep_keeps (h : (entryStep env entry 0 w).1 = 0) {loc : Loc}
    (hloc : loc ∈ [[], [byUid]]) :
    (entryStep env entry 0 w).2.files.entry loc = w.files.entry loc := by
  by_cases huid : entry.uid = 0
  · rw [entryStep_skip huid]
  · have hkeeps := createUserTmpdir_keeps entry.noSlash (createUserTmpdir_of_entryStep huid h) hloc
    rw [entryStep, if_pos (tmpdirFilterUser_eq_zero.2 huid)]
    exact hkeeps

theorem entryLoop_keeps (h : (entryLoop env entries 0 w).1 = 0) {loc : Loc}
    (hloc : loc ∈ [[], [byUid]]) :
    (entryLoop env entries 0 w).2.files.entry loc = w.files.entry loc := by
  induction entries generalizing w with
  | nil => rfl
  | cons entry entries ih =>
    have hstep := entryStep_of_entryLoop h
    rw [entryLoop_cons le_rfl, hstep] at h ⊢
    rw [ih h]
    exact entryStep_keeps hstep hloc

theorem entryLoop_append (pre post : List Passwd) (h : 0 ≤ retcode) :
    entryLoop env (pre ++ post) retcode w =
      entryLoop env post (entryLoop env pre retcode w).1 (entryLoop env pre retcode w).2 := by
  induction pre generalizing retcode w with
  | nil => rfl
  | cons entry pre ih =>
    rw [List.cons_append, entryLoop_cons h, entryLoop_cons h]
    exact ih (entryStep_nonneg h)

theorem entryLoop_eq_two_or (env : TmpdirEnv) (entries : List Passwd) (w : TmpWorld) :
    (entryLoop env entries 0 w).1 = 2 ∨ (entryLoop env entries 0 w).1 = 0 := by
  induction entries generalizing w with
  | nil => exact .inr rfl
  | cons entry entries ih =>
    rw [entryLoop_cons le_rfl]
    rcases entryStep_eq_two_or env entry 0 w with hstep | hstep
    · rw [hstep]
      exact .inl (entryLoop_failed env entries _)
    · rw [hstep]
      exact ih _

/-- If the loop returns 0 then the call for each entry has returned 0. -/
theorem createUserTmpdir_of_entryLoop {pre post : List Passwd}
    (h : (entryLoop env (pre ++ entry :: post) 0 w).1 = 0) (huid : entry.uid ≠ 0) :
    (createUserTmpdir env (entryLoop env pre 0 w).2 entry.name entry.uid entry.gid).1 = 0 := by
  rw [entryLoop_append pre _ le_rfl] at h
  rcases entryLoop_eq_two_or env pre w with hpre | hpre
  · rw [hpre, entryLoop_failed] at h
    cases h
  · rw [hpre] at h
    exact createUserTmpdir_of_entryStep huid (entryStep_of_entryLoop h)

end

/-! ## The whole program -/

/-- A call for an entry, after the entries before it, does not fail. -/
def EntriesSucceed (env : TmpdirEnv) (entries : List Passwd) (w : TmpWorld) : Prop :=
  ∀ pre entry post, entries = pre ++ entry :: post → entry.uid ≠ 0 →
    (createUserTmpdir env (createUserTmpdirs env pre w).2 entry.name entry.uid entry.gid).1 = 0

/-- Every user has a link to the directory of its uid, which is its own: the last of the
    entries for a name or a uid counts. -/
def PrivateTmpdirs (entries : List Passwd) (files : UserTmp) : Prop :=
  ∀ entry ∈ entries, entry.uid ≠ 0 →
    (∃ last, lastWith (namedUser entry.name) entries = some last ∧
      files.entry [entry.name] = some (.symlink (linkBuf last.uid))) ∧
    ∃ last, lastWith (userOf entry.uid) entries = some last ∧
      files.entry (uidLoc entry.uid) = some (.file ⟨.dir, sIrwxu, entry.uid, last.gid⟩)

/-- No entry that counts has the id -1, which `chown` takes for no change. -/
def OwnersGiven (entries : List Passwd) : Prop :=
  ∀ entry ∈ entries, entry.uid ≠ 0 →
    entry.uid ≠ -1 ∧ ∀ last ∈ lastWith (userOf entry.uid) entries, last.gid ≠ -1

instance (entries : List Passwd) : Decidable (OwnersGiven entries) :=
  inferInstanceAs (Decidable (∀ entry ∈ entries, entry.uid ≠ 0 →
    entry.uid ≠ -1 ∧ ∀ last ∈ lastWith (userOf entry.uid) entries, last.gid ≠ -1))

section
variable {env : TmpdirEnv} {entries : List Passwd} {w : TmpWorld} {files : UserTmp}

/-- The tmpdir root and `@BY-UID`: root may list them, the others may only pass. -/
def RootDirs (env : TmpdirEnv) (files : UserTmp) : Prop :=
  ∀ loc ∈ [[], [byUid]], ∃ inode, files.entry loc = some (.file inode) ∧
    MadeDir env (sIrwxu ||| sIxgrp ||| sIxoth) 0 0 inode

/-- **`_create_user_tmpdir_root`**. -/
theorem createUserTmpdirRoot_spec (h : (createUserTmpdirRoot env w).1 = 0) :
    RootDirs env (createUserTmpdirRoot env w).2.files := by
  unfold createUserTmpdirRoot at h ⊢
  by_cases hroot : (w.dodir env env.tmpdirRoot (sIrwxu ||| sIxgrp ||| sIxoth) 0 0).1 = 0
  · simp only [hroot, ne_eq, not_true_eq_false, if_false] at h ⊢
    obtain ⟨-, inode, hinode, hmade⟩ := TmpWorld.dodir_spec hroot
    rw [locate_root] at hinode
    rcases asprintf_cases env (w.dodir env env.tmpdirRoot (sIrwxu ||| sIxgrp ||| sIxoth) 0 0).2
      (env.tmpdirRoot ++ delimiter :: byUid) with hprint | hprint
    · rw [hprint] at h
      cases h
    rw [hprint] at h ⊢
    simp only at h ⊢
    split at h
    · cases h
    · rename_i hbyUid
      rw [if_neg hbyUid]
      obtain ⟨honly, inode', hinode', hmade'⟩ := TmpWorld.dodir_spec (not_not.1 hbyUid)
      rw [locate_byUid] at honly hinode'
      intro loc hloc
      rw [createUserTmpdir_keeps delimiter_not_mem_rootName h hloc]
      rw [List.mem_cons, List.mem_singleton] at hloc
      rcases hloc with rfl | rfl
      · refine ⟨inode, ?_, hmade⟩
        rw [honly.frame [] (by simp)]
        exact hinode
      · exact ⟨inode', hinode', hmade'⟩
  · simp only [hroot, ne_eq, not_false_eq_true, if_true] at h
    cases h

/-- A run that does not fail runs the loop, from the same files for all entries. -/
theorem loop_of_createUserTmpdirs (h : (createUserTmpdirs env entries w).1 = 0) :
    ∃ w', RootDirs env w'.files ∧
      ∀ entries, createUserTmpdirs env entries w = entryLoop env entries 0 w' := by
  unfold createUserTmpdirs at h ⊢
  simp only at h ⊢
  split at h
  · cases h
  · rename_i hroot
    split at h
    · cases h
    · refine ⟨(createUserTmpdirRoot env w).2.tick, createUserTmpdirRoot_spec (not_not.1 hroot), ?_⟩
      intro entries'
      rw [if_neg hroot, if_neg ‹_›]

/-- The tmpdir root and `@BY-UID` belong to root after the run. -/
theorem rootDirs (h : (createUserTmpdirs env entries w).1 = 0) :
    RootDirs env (createUserTmpdirs env entries w).2.files := by
  obtain ⟨w', hdirs, hloop⟩ := loop_of_createUserTmpdirs h
  rw [hloop] at h ⊢
  intro loc hloc
  rw [entryLoop_keeps h hloc]
  exact hdirs loc hloc

theorem entriesSucceed (h : (createUserTmpdirs env entries w).1 = 0) :
    EntriesSucceed env entries w := by
  obtain ⟨w', -, hloop⟩ := loop_of_createUserTmpdirs h
  rintro pre entry post rfl huid
  rw [hloop] at h ⊢
  exact createUserTmpdir_of_entryLoop h huid

theorem usersDone (h : (createUserTmpdirs env entries w).1 = 0) :
    UsersDone env entries (createUserTmpdirs env entries w).2.files := by
  obtain ⟨w', -, hloop⟩ := loop_of_createUserTmpdirs h
  rw [hloop] at h ⊢
  exact entryLoop_spec h ⟨LastHolds.nil _ _, LastHolds.nil _ _⟩

/-- The directories are those of their users if and only if `chown` gave them away. -/
theorem privateTmpdirs_of_usersDone (h : UsersDone env entries files) :
    PrivateTmpdirs entries files ↔ OwnersGiven entries := by
  constructor
  · intro hprivate entry hentry huid
    obtain ⟨-, last, hlast, hdir⟩ := hprivate entry hentry huid
    obtain ⟨huid', hgid⟩ := files.ids _ _ hdir
    refine ⟨huid', fun last' hlast' => ?_⟩
    rw [Option.mem_def, hlast] at hlast'
    cases hlast'
    exact hgid
  · intro howners entry hentry huid
    obtain ⟨huid', hgid⟩ := howners entry hentry huid
    obtain ⟨last, hlast⟩ := exists_lastWith hentry (namedUser_iff.2 ⟨huid, rfl⟩)
    obtain ⟨last', hlast'⟩ := exists_lastWith hentry (userOf_iff.2 ⟨huid, rfl⟩)
    refine ⟨⟨last, hlast, h.links _ _ hlast⟩, last', hlast', ?_⟩
    obtain ⟨⟨kind, perm, uid, gid⟩, hinode, hmade⟩ := h.dirs _ _ hlast'
    rw [hinode]
    obtain rfl : kind = .dir := hmade.kind
    obtain rfl : perm = sIrwxu := hmade.perm_owner
    obtain rfl : uid = entry.uid := hmade.uid huid'
    obtain rfl : gid = last'.gid := hmade.gid (hgid last' hlast')
    rfl

/-- **Private temporary directories.** If `create_user_tmpdirs` returns 0 then no entry has
    failed, and every user has a private directory if and only if no id is -1. -/
theorem privateTmpdirs_iff (h : (createUserTmpdirs env entries w).1 = 0) :
    EntriesSucceed env entries w ∧
        PrivateTmpdirs entries (createUserTmpdirs env entries w).2.files ↔
      OwnersGiven entries := by
  constructor
  · rintro ⟨-, hprivate⟩
    exact (privateTmpdirs_of_usersDone (usersDone h)).1 hprivate
  · intro howners
    exact ⟨entriesSucceed h, (privateTmpdirs_of_usersDone (usersDone h)).2 howners⟩

end

/-- There is no tmpdir root yet. -/
def noTmpdirs : TmpWorld where
  files := {
    entry := fun _ => none
    parent := fun _ _ h => absurd rfl h
    ids := by
      rintro _ _ ⟨⟩ }
  calls := 0

/-- A process whose calls do not fail; the tmpdir root is `/t`. -/
def tmpdirProcess : TmpdirEnv where
  tmpdirRoot := [0x2F, 0x74]
  umask := 0x12
  umask_owner := rfl
  uid := 0
  gid := 0
  ids := by simp
  fault _ := none

/-- Two users with one uid, of which the first has another one further on. -/
def sharedUsers : List Passwd :=
  [⟨[0x61], 1000, 100, by simp [delimiter]⟩, ⟨[0x62], 1000, 200, by simp [delimiter]⟩,
    ⟨[0x61], 1001, 100, by simp [delimiter]⟩]

theorem privateTmpdirs_sharedUsers :
    EntriesSucceed tmpdirProcess sharedUsers noTmpdirs ∧
      PrivateTmpdirs sharedUsers (createUserTmpdirs tmpdirProcess sharedUsers noTmpdirs).2.files :=
  (privateTmpdirs_iff (by decide +kernel)).2 (by decide)

/-- A user with the uid 4294967295. -/
def nobody : Passwd := ⟨[0x6E], -1, 100, by simp [delimiter]⟩

/-- **The uid -1** is not given away: the directory stays that of the process. -/
theorem not_privateTmpdirs_nobody :
    (createUserTmpdirs tmpdirProcess [nobody] noTmpdirs).1 = 0 ∧
      ¬ PrivateTmpdirs [nobody] (createUserTmpdirs tmpdirProcess [nobody] noTmpdirs).2.files := by
  have hzero : (createUserTmpdirs tmpdirProcess [nobody] noTmpdirs).1 = 0 := by decide +kernel
  refine ⟨hzero, fun hprivate => ?_⟩
  have howners := (privateTmpdirs_of_usersDone (usersDone hzero)).1 hprivate
  exact (howners nobody (by simp) (by simp [nobody])).1 rfl

end Fischstaebchen
