/-
  The layers of a union mount (`union_mount_base/functions/union_mount`).

  Each layer is a directory below the container of the union mount, on which something is
  mounted: memory for unpacked tarballs, squashfs files, the old root, a disk, and memory.
  It becomes the top branch of the union.  A function that fails kills the process, since
  all of them are called with `autodie`.  Hooks are known by the branches that they add.

  * `Grows`: the layers that a function adds, and what it mounts.
  * `imports_containerImport`, `imports_addOverlayFiles`: which squashfs files are found.
  * `grows_sfsFiles`: the squashfs files become layers in their order.
  * `grows_addBackingMem`, `grows_addBackingDisk`, `grows_addMoveMount`: the other layers.
-/
import Fischstaebchen.Overlay.CanonicalUri
import Fischstaebchen.Overlay.OverlayfsGenscript

namespace Fischstaebchen

open Lib.Shell (caseOf fields withoutSuffix)

namespace UnionScript

/-- A branch that is added: a directory, and its mode. -/
structure Layer where
  path : CStr
  mode : BranchMode

/-- `${2:?}=${1:?}`. -/
def Layer.text (l : Layer) : CStr := l.path ++ '=' :: l.mode.name

/-- `_union_mount_add_branch`, for any path. -/
def addLayer (l : Layer) (u : UnionMount) : UnionMount :=
  { branches := if u.branches = [] then l.text else l.text ++ ':' :: u.branches
    prevBranchWasMem := false }

/-- The commands that are run with `autodie`. -/
inductive UnionCmd
  | mkdir (dir : CStr)
  | mount (mp src fstype opts : CStr)
  | remount (mp opts : CStr)
  | move (old new : CStr)
  | ztmpfs (opts name : List CStr) (mp : CStr)
  | unpack (files : List CStr) (dir : CStr)
  | moveContainer (name : CStr)
  /-- The script that mounts an overlay. -/
  | script (lines : List CStr)

/-- Where a command mounts something new. -/
def UnionCmd.mountpoint : UnionCmd → Option CStr
  | mount mp _ _ _ | ztmpfs _ _ mp => some mp
  | move _ new => some new
  | mkdir _ | remount _ _ | unpack _ _ | moveContainer _ | script _ => none

/-- When a hook of the union mount script is run. -/
inductive HookPoint
  | preInit
  | postInit
  | stagediveBootstrap
  | lowest
  | lowTarball
  | squashfs
  | tarball
  | newroot
  | disk
  | mem
  | topmost
  | preMount
  | postMount
  deriving DecidableEq

/-- What a hook does to the branches. -/
inductive HookOp
  /-- `union_mount_add_branch`, for a directory -/
  | addBranch (l : Layer)
  /-- `union_mount_mark_prev_branch_as_mem` -/
  | markPrevBranchAsMem

/-- The layers that a hook adds, the last one first. -/
def hookLayers : List HookOp → List Layer
  | [] => []
  | .addBranch l :: ops => hookLayers ops ++ [l]
  | .markPrevBranchAsMem :: ops => hookLayers ops

def HookOp.run (u : UnionMount) : HookOp → UnionMount
  | addBranch l => addLayer l u
  | markPrevBranchAsMem => unionMountMarkPrevBranchAsMem u

/-- The file systems for a union; for other types there is no function. -/
inductive UnionFs
  | aufs
  | overlay
  | other

/-- The system, for a type of states `σ` of what the union mount does not hold itself. -/
structure UnionSystem (σ : Type) where
  newroot : CStr
  /-- `MNT_CONTAINER_OPTS` -/
  containerOpts : CStr
  /-- A command; `none` if it fails. -/
  run : UnionCmd → σ → Option σ
  isDir : σ → CStr → Bool
  isFile : σ → CStr → Bool
  isMounted : σ → CStr → Bool
  /-- `union_mount_check_mountpoint_is_mem` -/
  isMem : σ → CStr → Bool
  /-- Whether a file can be created in a directory. -/
  isWritable : σ → CStr → Bool
  haveNet : σ → Bool
  /-- `hash_fspath`, nothing if there is no hash program -/
  hashFspath : CStr → CStr
  /-- Making a directory for a container in newroot, for which newroot may be remounted. -/
  makeContainer : CStr → σ → Bool × σ
  /-- The options of the container for files, and its new size. -/
  fileContainerOpts : σ → CStr
  fileContainerSize : σ → CStr
  /-- The part of `import_file` that imports, with the file that has been imported, if its
      digest has not been verified before. -/
  importFile : FileUri → CStr → σ → Option (Option CStr × σ)
  /-- `get_any_file_oldnew_from` -/
  findFile : CStr → List CStr → σ → Option CStr
  /-- `union_mount_find_file__do_rotate` -/
  rotate : CStr → σ → Option (CStr × σ)
  /-- The files that match `<base>_*<suffix>`. -/
  incremental : CStr → σ → List CStr
  /-- `union_mount_set_fstype` -/
  fstype : σ → Option UnionFs
  /-- What a hook does to the branches, if its script succeeds. -/
  hook : HookPoint → σ → Option (List HookOp × σ)

/-- The variables of a union mount, the commands that have been run, and the system. -/
structure UnionState (σ : Type) where
  union : UnionMount
  srcRoot : CStr
  mountpoint : CStr
  name : CStr
  container : CStr
  importAll : Bool
  rotateFiles : Bool
  sfsFile : CStr
  sfsFileSrcpath : CStr
  overlayFiles : CStr
  overlayIndexNext : ℕ
  lastImportFilepath : CStr
  sfsContainer : CStr
  cmds : List UnionCmd
  sys : σ

section
variable {σ : Type} (S : UnionSystem σ)

/-- `autodie`. -/
def autodie (c : UnionCmd) (st : UnionState σ) : Option (UnionState σ) :=
  (S.run c st.sys).map fun s => { st with cmds := st.cmds ++ [c], sys := s }

/-- A value, or the default if it is empty. -/
def orDefault (s : CStr) (default : String) : CStr := if s = [] then default.toList else s

/-- `xmount`, for the arguments after the mountpoint. -/
def xmount (mp : CStr) (args : List CStr) : UnionState σ → Option (UnionState σ) :=
  autodie S (.mount mp (args.getD 0 []) (orDefault (args.getD 1 []) "auto")
    (orDefault (args.getD 2 []) "defaults"))

/-- A hook of the union mount script. -/
def runHook (point : HookPoint) (st : UnionState σ) : Option (UnionState σ) :=
  (S.hook point st.sys).map fun r =>
    { st with union := r.1.foldl HookOp.run st.union, sys := r.2 }

/-! ## The container -/

/-- `union_mount_zap_vars`. -/
def unionMountZapVars (st : UnionState σ) : UnionState σ :=
  { st with
    union := ⟨[], false⟩, srcRoot := [], mountpoint := [], name := [], container := [],
    importAll := false, rotateFiles := false, sfsFile := [], sfsFileSrcpath := [],
    overlayFiles := [], overlayIndexNext := 0, lastImportFilepath := [], sfsContainer := [] }

/-- `_union_init_common`. -/
def unionInitCommon (srcRoot mountRoot relpath name container : CStr) (st : UnionState σ) :
    Option (UnionState σ) :=
  let st : UnionState σ :=
    { unionMountZapVars st with
      srcRoot := srcRoot
      mountpoint := withoutSuffix ['/'] mountRoot ++ '/' :: withoutPrefix ['/'] relpath
      name := if name = [] then afterLast '/' relpath else name }
  if container = [] then some st
  else (autodie S (.mkdir container) st).map fun st => { st with container := container }

/-- `union_mount_init_newroot`, without a name. -/
def unionMountInitNewroot (relpath : CStr) (st : UnionState σ) : Option (UnionState σ) :=
  if relpath = [] then none else unionInitCommon S S.newroot S.newroot relpath [] [] st

/-- `union_mount_init_newroot_moving`. -/
def unionMountInitNewrootMoving (name : CStr) (st : UnionState σ) : Option (UnionState σ) :=
  (unionInitCommon S "/".toList "/mnt/union".toList "union_mnt".toList (orDefault name "union")
    "/mnt/union/container".toList st).map fun st => { st with importAll := true }

/-- `union_mount_init_newroot_itself`. -/
def unionMountInitNewrootItself : UnionState σ → Option (UnionState σ) :=
  unionMountInitNewrootMoving S "rootfs".toList

/-- `xmount_mnt_container`. -/
def xmountMntContainer (mp : CStr) (st : UnionState σ) : Option (UnionState σ) :=
  if S.isMounted st.sys mp then some st
  else xmount S mp ["mntfs".toList, "tmpfs".toList, S.containerOpts] st

/-- `_union_mount_get_container_in_newroot`, without a name, and
    `union_mount_set_container_path`. -/
def unionMountGetContainerInNewroot (st : UnionState σ) : Option (UnionState σ) :=
  if st.name = [] then none
  else
    let relpath := '.' :: st.name ++ "_union_root".toList
    let path := withoutSuffix ['/'] S.newroot ++ '/' :: relpath
    let made := S.makeContainer path st.sys
    let st := { st with sys := made.2 }
    let mnt := S.newroot ++ "/mnt".toList
    if made.1 then do
      let st ← xmount S path ["container".toList, "tmpfs".toList, S.containerOpts] st
      let st ← autodie S (.mkdir path) st
      some { st with container := path }
    else do
      let st ← xmountMntContainer S mnt st
      let st ← autodie S (.mkdir (mnt ++ '/' :: relpath)) st
      some { st with container := mnt ++ '/' :: relpath }

/-! ## Importing files -/

/-- `_union_sfs_container_path`. -/
def sfsContainerPath (st : UnionState σ) : CStr := st.container ++ "/sfs-container".toList

/-- `union_mount_get_sfs_container`. -/
def unionMountGetSfsContainer (st : UnionState σ) : Option (UnionState σ) :=
  if st.sfsContainer = [] then
    (if S.isMounted st.sys (sfsContainerPath st) then
      autodie S (.remount (sfsContainerPath st) "rw".toList) st
    else xmount S (sfsContainerPath st)
      ["sfs-container".toList, "tmpfs".toList, S.fileContainerOpts st.sys] st).map
      fun st => { st with sfsContainer := sfsContainerPath st }
  else some st

/-- `union_mount_finalize_sfs_container`. -/
def unionMountFinalizeSfsContainer (st : UnionState σ) : Option (UnionState σ) :=
  if st.sfsContainer = [] then some st
  else do
    let st ← autodie S (.remount st.sfsContainer "ro".toList) st
    let st ← autodie S (.remount st.sfsContainer (S.fileContainerSize st.sys)) st
    some { st with sfsContainer := [] }

/-- `prefix_fspath`. -/
def prefixFspath (root path : CStr) : Option CStr :=
  if root = [] ∨ path = [] then none
  else if caseOf path ["//*"] then some (withoutPrefix ['/'] path)
  else if path = ['/'] then some root
  else if root ++ ['/'] <+: path then some path
  else some (withoutSuffix ['/'] root ++ '/' :: withoutPrefix ['/'] path)

/-- `parse_nondir_file_uri`: the type, and the uri. -/
def parseNondirFileUri (arg : CStr) : Option FileUri :=
  let (rc, file) := preparseFileUri githubArchive arg
  if rc = 0 ∧ checkFileUriTypeDirOnly file.type = false then some file else none

/-- The part of `import_file` after `_union_mount_intercept_file_import` has not intercepted. -/
def importTo (file : FileUri) (dst : CStr) (st : UnionState σ) : Option (CStr × UnionState σ) := do
  let st ← unionMountGetSfsContainer S st
  let (src, s) ← S.importFile file dst st.sys
  -- `_union_mount_file_import_done`
  some (dst, { st with lastImportFilepath := src.getD st.lastImportFilepath, sys := s })

/-- `_union_mount_container_import`, with `v0`. -/
def unionMountContainerImport (uri name : CStr) (st : UnionState σ) :
    Option (CStr × UnionState σ) :=
  if st.container = [] then none
  else do
    let st := { st with lastImportFilepath := [] }
    let file ← parseNondirFileUri uri
    let dst := sfsContainerPath st ++ '/' :: name
    if file.type = "local".toList then do
      let path ← prefixFspath st.srcRoot file.uri
      let st := { st with lastImportFilepath := path }
      -- a local file is used where it is
      if st.importAll then importTo S { file with uri := path } dst st else some (path, st)
    else if file.type = "disk".toList ∨ file.type = "aux".toList ∨ S.haveNet st.sys = true then
      importTo S file dst st
    else none

/-- `union_mount_set_file`. -/
def unionMountSetFile (uri : CStr) (st : UnionState σ) : Option (UnionState σ) :=
  if uri = [] then none
  else do
    let (v0, st) ← unionMountContainerImport S uri "base.sfs".toList st
    let st :=
      { st with sfsFile := v0, sfsFileSrcpath := st.lastImportFilepath, lastImportFilepath := [] }
    if v0 ≠ [] ∧ S.isFile st.sys v0 = true then some st else none

/-- `union_mount_find_file`. -/
def unionMountFindFile (basepaths : List CStr) (st : UnionState σ) : Option (UnionState σ) := do
  let path ← S.findFile st.srcRoot basepaths st.sys
  if st.rotateFiles then do
    let (path, s) ← S.rotate path st.sys
    unionMountSetFile S path { st with sys := s }
  else unionMountSetFile S path st

/-- `_union_mount_do_add_overlay_file`. -/
def unionMountDoAddOverlayFile (uri : CStr) (st : UnionState σ) : Option (UnionState σ) := do
  let name := "overlay_".toList ++ (Nat.toDigits 10 st.overlayIndexNext) ++ ".sfs".toList
  let (v0, st) ← unionMountContainerImport S uri name st
  if v0 ≠ [] ∧ S.isFile st.sys v0 = true then
    some
      { st with
        overlayFiles := if st.overlayFiles = [] then v0 else st.overlayFiles ++ ' ' :: v0
        overlayIndexNext := st.overlayIndexNext + 1 }
  else none

/-- `union_mount_add_overlay_files`. -/
def unionMountAddOverlayFiles : List CStr → UnionState σ → Option (UnionState σ)
  | [], st => some st
  | uri :: uris, st =>
    if uri = [] then unionMountAddOverlayFiles uris st
    else (unionMountDoAddOverlayFile S uri st).bind (unionMountAddOverlayFiles uris)

/-- The loop of `union_mount_expand_incremental`. -/
def incrementalLoop : List CStr → UnionState σ → Option (UnionState σ)
  | [], st => some st
  | path :: paths, st =>
    if S.isFile st.sys path then
      -- the double slash enforces a true absolute path
      (unionMountDoAddOverlayFile S ("file=/".toList ++ path) st).bind (incrementalLoop paths)
    else incrementalLoop paths st

/-- `union_mount_expand_incremental`. -/
def unionMountExpandIncremental (st : UnionState σ) : Option (UnionState σ) :=
  if st.sfsFile ≠ [] ∧ st.sfsFileSrcpath ≠ [] ∧ S.isFile st.sys st.sfsFileSrcpath = true then
    incrementalLoop S (S.incremental st.sfsFileSrcpath st.sys) st
  else none

/-! ## The layers -/

/-- `_union_mount_add_branch`, with the variables. -/
def addBranch (mode : BranchMode) (path : CStr) (st : UnionState σ) : UnionState σ :=
  { st with union := addLayer ⟨path, mode⟩ st.union }

/-- `_union_do_mount_sfs_file`. -/
def unionDoMountSfsFile (file name : CStr) (st : UnionState σ) : Option (UnionState σ) :=
  let mp := st.container ++ "/loop/".toList ++ name
  (xmount S mp [file, "squashfs".toList, "ro,loop".toList] st).map (addBranch .rr mp)

/-- The name of the layer for an overlay file. -/
def overlayName (k : ℕ) : CStr := "overlay_".toList ++ Nat.toDigits 10 k

/-- The loop of `union_mount_sfs_files`. -/
def sfsLoop : List CStr → ℕ → UnionState σ → Option (UnionState σ)
  | [], _, st => some st
  | file :: files, k, st =>
    (unionDoMountSfsFile S file (overlayName k) st).bind (sfsLoop files (k + 1))

/-- The base file in `union_mount_sfs_files`. -/
def mountBase (st : UnionState σ) : Option (UnionState σ) :=
  if st.sfsFile = [] then some st else unionDoMountSfsFile S st.sfsFile "base".toList st

/-- `union_mount_sfs_files`. -/
def unionMountSfsFiles (st : UnionState σ) : Option (UnionState σ) := do
  let st ← unionMountFinalizeSfsContainer S st
  let st ← mountBase S st
  sfsLoop S (fields st.overlayFiles) 0 st

/-- `_union_mount_add_backing_mem_branch`. -/
def unionMountBackingMemBranch (mp basename memType size : CStr) (st : UnionState σ) :
    Option (UnionState σ) :=
  let size := if size = [] ∨ size = "-".toList then "50%".toList else size
  if basename = [] ∨ memType = [] then none
  else if caseOf memType ["-", "zram", "zdisk", "ztmpfs"] then
    autodie S (.ztmpfs (["-m".toList, "0755".toList, "-S".toList] ++ fields size)
      (fields (basename ++ "_zram".toList)) mp) st
  else if caseOf memType ["tmpfs", "mem"] then
    xmount S mp (fields (basename ++ "_mem".toList) ++ ["tmpfs".toList] ++
      fields ("size=".toList ++ size ++ ",mode=0755".toList)) st
  else none

/-- `union_mount_add_backing_mem_branch`. -/
def unionMountAddBackingMemBranch (mode : BranchMode) (mntName basename memType size : CStr)
    (st : UnionState σ) : Option (UnionState σ) :=
  let mp := st.container ++ "/mem/".toList ++ mntName
  if S.isDir st.sys mp = true ∧ S.isMounted st.sys mp = true then none
  else (unionMountBackingMemBranch S mp basename memType size st).map (addBranch mode mp)

/-- `union_mount_add_backing_mem`. -/
def unionMountAddBackingMem (memType size : CStr) (st : UnionState σ) : Option (UnionState σ) :=
  (unionMountAddBackingMemBranch S .rw "mem".toList st.name memType size st).map fun st =>
    { st with union := unionMountMarkPrevBranchAsMem st.union }

/-- `union_mount_add_tarball_layer`, with the defaults. -/
def unionMountAddTarballLayer (name : CStr) (files : List CStr) (st : UnionState σ) :
    Option (UnionState σ) :=
  if files = [] then some st
  else do
    let st ← unionMountAddBackingMemBranch S .ro ("tarball-".toList ++ name) "tb".toList
      "-".toList "-".toList st
    autodie S (.unpack files (st.container ++ "/mem/tarball-".toList ++ name)) st

/-- The name of a disk, in `_union_mount_add_backing_disk`. -/
def diskName (dev : CStr) : Option CStr :=
  let named (pre : String) (before : String) : CStr :=
    pre.toList ++ withoutPrefix before.toList dev
  let name :=
    if caseOf dev ["/dev/*/*"] then []
    else if caseOf dev ["/dev/*"] then named "dev-" "/dev/"
    else if caseOf dev ["*/*"] then []
    else if caseOf dev ["LABEL=*"] then named "label-" "LABEL="
    else if caseOf dev ["UUID=*"] then named "uuid-" "UUID="
    else if caseOf dev ["PARTUUID=*"] then named "partuuid-" "PARTUUID="
    else []
  if name ≠ [] then some name
  else if S.hashFspath dev = [] then none
  else some ("hash-".toList ++ S.hashFspath dev)

/-- The mode that is added to the options of a disk. -/
def diskOpts (opts : CStr) (mode : String) : CStr :=
  (if opts = [] then [] else opts ++ [',']) ++ mode.toList

/-- How a disk is mounted for a branch. -/
def diskMode : BranchMode → String
  | .ro | .rr => "ro"
  | .rw => "rw"

/-- `_union_mount_add_backing_disk`. -/
def unionMountAddBackingDisk (mode : BranchMode) (dev fstype opts : CStr) (st : UnionState σ) :
    Option (UnionState σ) := do
  let name ← diskName S dev
  let mp := st.container ++ "/disk/".toList ++ name
  let st ← xmount S mp [dev, orDefault fstype "auto", diskOpts opts (diskMode mode)] st
  -- a disk that has been used with overlayfs
  if S.isDir st.sys (mp ++ "/data".toList) = true ∧
      S.isDir st.sys (mp ++ "/workdir".toList) = true then
    some (addBranch mode (mp ++ "/data".toList) st)
  else some (addBranch mode mp st)

/-- `union_mount_add_backing_disk_ro_or_rw`. -/
def unionMountAddBackingDiskRoOrRw (word dev fstype opts : CStr) :
    UnionState σ → Option (UnionState σ) :=
  unionMountAddBackingDisk S (if word = [] then .rw else .ro) dev fstype opts

/-- `union_mount_add_move_mount`, without a mode. -/
def unionMountAddMoveMount (old name : CStr) (st : UnionState σ) : Option (UnionState σ) :=
  let dir := withoutSuffix ['/'] st.container ++ "/moved/".toList ++ name
  if S.isMounted st.sys dir then none
  else
    (autodie S (.move old dir) st).map fun st =>
      addBranch (if S.isWritable st.sys dir then .rw else .ro) dir st

/-! ## The union -/

/-- `union_mount_aufs`. -/
def unionMountAufs (mp : CStr) (st : UnionState σ) : Option (UnionState σ) :=
  if st.union.branches = [] then none
  else xmount S mp [orDefault st.name "undef" ++ "_union".toList, "aufs".toList,
    aufsOpts st.union] st

/-- `union_mount_overlayfs`; the loop over the options of the generator has five steps. -/
def unionMountOverlayfs (mp : CStr) (st : UnionState σ) : Option (UnionState σ) :=
  let aux := st.container ++ "/overlayfs_aux".toList
  if st.container = [] ∨ st.union.branches = [] then none
  else do
    let st ← autodie S (.mkdir aux) st
    let lines ← unionMountOverlayfsGenscript 6 st.union aux mp
    autodie S (.script lines) st

/-- `union_mount_it`, for the type of the file system that has been set. -/
def unionMountIt (fs : UnionFs) (mp : CStr) (st : UnionState σ) : Option (UnionState σ) :=
  match fs with
  | .aufs => unionMountAufs S mp st
  | .overlay => unionMountOverlayfs S mp st
  | .other => some st

end

/-! ## Growing -/

/-- The branches with some layers over them. -/
def layersOver (ls : List Layer) (branches : CStr) : CStr :=
  ls.foldr (fun l branches => if branches = [] then l.text else l.text ++ ':' :: branches) branches

theorem layersOver_append (ls ls' : List Layer) (branches : CStr) :
    layersOver (ls ++ ls') branches = layersOver ls (layersOver ls' branches) :=
  List.foldr_append

/-- Where some commands mount something new. -/
def mountpoints (cmds : List UnionCmd) : List CStr := cmds.filterMap UnionCmd.mountpoint

section
variable {σ : Type}

/-- A function adds the layers `new`, of which the first one is on top, and mounts something
    at `points`. -/
structure Grows (st st' : UnionState σ) (new : List Layer) (points : List CStr) : Prop where
  branches : st'.union.branches = layersOver new st.union.branches
  mounted : mountpoints st'.cmds = mountpoints st.cmds ++ points
  container : st'.container = st.container
  srcRoot : st'.srcRoot = st.srcRoot
  mountpoint : st'.mountpoint = st.mountpoint
  name : st'.name = st.name

theorem Grows.refl (st : UnionState σ) : Grows st st [] [] :=
  ⟨rfl, (List.append_nil _).symm, rfl, rfl, rfl, rfl⟩

theorem Grows.trans {st st' st'' : UnionState σ} {new new' : List Layer}
    {points points' : List CStr} (h : Grows st st' new points) (h' : Grows st' st'' new' points') :
    Grows st st'' (new' ++ new) (points ++ points') where
  branches := by rw [h'.branches, h.branches, layersOver_append]
  mounted := by rw [h'.mounted, h.mounted, List.append_assoc]
  container := h'.container.trans h.container
  srcRoot := h'.srcRoot.trans h.srcRoot
  mountpoint := h'.mountpoint.trans h.mountpoint
  name := h'.name.trans h.name

variable {S : UnionSystem σ} {st st' : UnionState σ}

/-- A command changes nothing but the system. -/
theorem autodie_eq {c : UnionCmd} (h : autodie S c st = some st') :
    ∃ s, st' = { st with cmds := st.cmds ++ [c], sys := s } := by
  obtain ⟨s, -, rfl⟩ := Option.map_eq_some_iff.1 h
  exact ⟨s, rfl⟩

theorem grows_autodie {c : UnionCmd} (h : autodie S c st = some st') :
    Grows st st' [] c.mountpoint.toList := by
  obtain ⟨s, rfl⟩ := autodie_eq h
  refine ⟨rfl, ?_, rfl, rfl, rfl, rfl⟩
  rw [mountpoints, List.filterMap_append]
  cases c <;> rfl

theorem grows_xmount {mp : CStr} {args : List CStr} (h : xmount S mp args st = some st') :
    Grows st st' [] [mp] :=
  grows_autodie h

theorem grows_addBranch (mode : BranchMode) (path : CStr) (st : UnionState σ) :
    Grows st (addBranch mode path st) [⟨path, mode⟩] [] :=
  ⟨rfl, (List.append_nil _).symm, rfl, rfl, rfl, rfl⟩

/-- The operations of a hook. -/
theorem branches_hookOps (ops : List HookOp) (u : UnionMount) :
    (ops.foldl HookOp.run u).branches = layersOver (hookLayers ops) u.branches := by
  induction ops generalizing u with
  | nil => rfl
  | cons op ops ih =>
    rw [List.foldl_cons, ih]
    cases op with
    | addBranch l =>
      show _ = layersOver (hookLayers ops ++ [l]) _
      rw [layersOver_append]
      rfl
    | markPrevBranchAsMem => rfl

/-- **A hook** adds the layers that it names. -/
theorem grows_runHook {point : HookPoint} (h : runHook S point st = some st') :
    ∃ new, Grows st st' new [] ∧ ∃ ops s, S.hook point st.sys = some (ops, s) ∧
      new = hookLayers ops := by
  obtain ⟨⟨ops, s⟩, hhook, rfl⟩ := Option.map_eq_some_iff.1 h
  exact ⟨hookLayers ops, ⟨branches_hookOps ops _, (List.append_nil _).symm, rfl, rfl, rfl, rfl⟩,
    ops, s, hhook, rfl⟩

/-! ## Files -/

/-- What importing files does: the container for them may be mounted, once. -/
structure Imports (st st' : UnionState σ) : Prop where
  grows : ∃ points, Grows st st' [] points ∧ (points = [] ∨
    points = [sfsContainerPath st] ∧ st.sfsContainer = [] ∧ st'.sfsContainer ≠ [])
  ready : st.sfsContainer ≠ [] → st'.sfsContainer ≠ []
  union : st'.union = st.union

theorem Imports.refl (st : UnionState σ) : Imports st st :=
  ⟨⟨[], .refl st, .inl rfl⟩, id, rfl⟩

theorem Imports.trans {st st' st'' : UnionState σ} (h : Imports st st') (h' : Imports st' st'') :
    Imports st st'' := by
  obtain ⟨points, hgrows, hpoints⟩ := h.grows
  obtain ⟨points', hgrows', hpoints'⟩ := h'.grows
  refine ⟨⟨points ++ points', hgrows.trans hgrows', ?_⟩, fun hne => h'.ready (h.ready hne),
    h'.union.trans h.union⟩
  have hpath : sfsContainerPath st' = sfsContainerPath st := by
    rw [sfsContainerPath, sfsContainerPath, hgrows.container]
  rcases hpoints with rfl | ⟨rfl, hempty, hready⟩
  · rcases hpoints' with rfl | ⟨rfl, hempty', hready'⟩
    · exact .inl rfl
    · rw [hpath]
      exact .inr ⟨rfl, by_contra fun hne => h.ready hne hempty', hready'⟩
  · rcases hpoints' with rfl | ⟨-, hempty', -⟩
    · exact .inr ⟨rfl, hempty, h'.ready hready⟩
    · exact absurd hempty' hready

/-- Variables that are set while files are imported. -/
theorem imports_set {sfsFile srcpath last overlayFiles : CStr} {next : ℕ} {s : σ}
    (st : UnionState σ) :
    Imports st
      { st with
        sfsFile := sfsFile, sfsFileSrcpath := srcpath, lastImportFilepath := last,
        overlayFiles := overlayFiles, overlayIndexNext := next, sys := s } :=
  ⟨⟨[], ⟨rfl, (List.append_nil _).symm, rfl, rfl, rfl, rfl⟩, .inl rfl⟩, id, rfl⟩

/-- The lists of files are kept. -/
def KeepsFiles (st st' : UnionState σ) : Prop :=
  st'.sfsFile = st.sfsFile ∧ st'.overlayFiles = st.overlayFiles

theorem imports_getSfsContainer (h : unionMountGetSfsContainer S st = some st') :
    Imports st st' ∧ KeepsFiles st st' := by
  have hpath : sfsContainerPath st ≠ [] := by simp [sfsContainerPath]
  rw [unionMountGetSfsContainer] at h
  split_ifs at h with hempty hmounted
  · obtain ⟨st₁, hrun, rfl⟩ := Option.map_eq_some_iff.1 h
    obtain ⟨s, rfl⟩ := autodie_eq hrun
    obtain ⟨hb, hm, hc, hs, hp, hn⟩ := grows_autodie hrun
    exact ⟨⟨⟨[], ⟨hb, hm, hc, hs, hp, hn⟩, .inl rfl⟩, fun _ => hpath, rfl⟩, rfl, rfl⟩
  · obtain ⟨st₁, hrun, rfl⟩ := Option.map_eq_some_iff.1 h
    obtain ⟨s, rfl⟩ := autodie_eq hrun
    obtain ⟨hb, hm, hc, hs, hp, hn⟩ := grows_xmount hrun
    exact ⟨⟨⟨_, ⟨hb, hm, hc, hs, hp, hn⟩, .inr ⟨rfl, hempty, hpath⟩⟩, fun _ => hpath, rfl⟩,
      rfl, rfl⟩
  · cases h
    exact ⟨.refl _, rfl, rfl⟩

theorem imports_importTo {file : FileUri} {dst v0 : CStr}
    (h : importTo S file dst st = some (v0, st')) :
    v0 = dst ∧ Imports st st' ∧ KeepsFiles st st' := by
  simp only [importTo, bind, Option.bind_eq_some_iff] at h
  obtain ⟨st₁, hcontainer, ⟨src, s⟩, -, h⟩ := h
  obtain ⟨himports, hfile, hoverlay⟩ := imports_getSfsContainer hcontainer
  cases h
  exact ⟨rfl, himports.trans (imports_set st₁), hfile, hoverlay⟩

/-- **An imported file** is in the container, or where it has been found. -/
theorem imports_containerImport {uri name v0 : CStr}
    (h : unionMountContainerImport S uri name st = some (v0, st')) :
    Imports st st' ∧ KeepsFiles st st' ∧
      (v0 = sfsContainerPath st ++ '/' :: name ∨ ∃ file, parseNondirFileUri uri = some file ∧
        file.type = "local".toList ∧ prefixFspath st.srcRoot file.uri = some v0) := by
  rw [unionMountContainerImport] at h
  split_ifs at h
  simp only [bind, Option.bind_eq_some_iff] at h
  obtain ⟨file, hfile, h⟩ := h
  split_ifs at h with hlocal
  · obtain ⟨path, -, h⟩ := Option.bind_eq_some_iff.1 h
    obtain ⟨rfl, himports, hkeeps⟩ := imports_importTo h
    exact ⟨(imports_set st).trans himports, hkeeps, .inl rfl⟩
  · obtain ⟨path, hpath, h⟩ := Option.bind_eq_some_iff.1 h
    cases h
    exact ⟨imports_set st, ⟨rfl, rfl⟩, .inr ⟨file, hfile, hlocal, hpath⟩⟩
  · obtain ⟨rfl, himports, hkeeps⟩ := imports_importTo h
    exact ⟨(imports_set st).trans himports, hkeeps, .inl rfl⟩

theorem imports_setFile {uri : CStr} (h : unionMountSetFile S uri st = some st') :
    Imports st st' ∧ st'.sfsFile ≠ [] ∧ st'.overlayFiles = st.overlayFiles := by
  rw [unionMountSetFile] at h
  split_ifs at h
  simp only [bind, Option.bind_eq_some_iff] at h
  obtain ⟨⟨v0, st₁⟩, himport, h⟩ := h
  obtain ⟨himports, ⟨-, hoverlay⟩, -⟩ := imports_containerImport himport
  dsimp only at h
  split_ifs at h with hfile
  cases h
  exact ⟨himports.trans (imports_set st₁), hfile.1, hoverlay⟩

theorem imports_findFile {basepaths : List CStr}
    (h : unionMountFindFile S basepaths st = some st') :
    Imports st st' ∧ st'.sfsFile ≠ [] ∧ st'.overlayFiles = st.overlayFiles := by
  simp only [unionMountFindFile, bind, Option.bind_eq_some_iff] at h
  obtain ⟨path, -, h⟩ := h
  split_ifs at h
  · obtain ⟨⟨path', s⟩, -, h⟩ := Option.bind_eq_some_iff.1 h
    obtain ⟨himports, hfile, hoverlay⟩ := imports_setFile h
    exact ⟨(imports_set st).trans himports, hfile, hoverlay⟩
  · exact imports_setFile h

/-- An overlay file is appended to the list. -/
theorem imports_doAddOverlayFile {uri : CStr} (h : unionMountDoAddOverlayFile S uri st = some st') :
    Imports st st' ∧ st'.sfsFile = st.sfsFile ∧ ∃ v0 st₁,
      unionMountContainerImport S uri
        ("overlay_".toList ++ Nat.toDigits 10 st.overlayIndexNext ++ ".sfs".toList) st =
          some (v0, st₁) ∧ v0 ≠ [] ∧
      fields st'.overlayFiles = fields st.overlayFiles ++ fields v0 := by
  simp only [unionMountDoAddOverlayFile, bind, Option.bind_eq_some_iff] at h
  obtain ⟨⟨v0, st₁⟩, himport, h⟩ := h
  obtain ⟨himports, ⟨hfile, hoverlay⟩, -⟩ := imports_containerImport himport
  dsimp only at h
  split_ifs at h with hv0 hempty
  · cases h
    refine ⟨himports.trans (imports_set st₁), hfile, v0, st₁, himport, hv0.1, ?_⟩
    rw [← hoverlay, hempty]
    rfl
  · cases h
    refine ⟨himports.trans (imports_set st₁), hfile, v0, st₁, himport, hv0.1, ?_⟩
    rw [← hoverlay]
    exact Lib.runs_append_sep _ Lib.Shell.isIfsBlank_space _

/-! ## Words -/

/-- The uri of a local file is its path. -/
theorem typedFileUri_local {type srcpath alt : CStr}
    (h : (typedFileUri githubArchive type srcpath alt).2.type = "local".toList) :
    (typedFileUri githubArchive type srcpath alt).2.uri = srcpath := by
  by_cases hfile : caseOf type ["local", "file"] = true
  · rw [typedFileUri, if_pos hfile]
  · have hne : type ≠ "local".toList := by
      rintro rfl
      exact hfile rfl
    rw [typedFileUri] at h
    dsimp only at h
    rw [if_neg hfile] at h
    by_cases haux : caseOf type ["aux"] = true
    · rw [if_pos haux] at h
      exact absurd h hne
    · rw [if_neg haux] at h
      by_cases hgithub : caseOf type ["github"] = true
      · rw [if_pos hgithub] at h
        split at h
        · exact absurd h hne
        · exact absurd (show githubArchive.type = "local".toList from h) (by decide)
      · rw [if_neg hgithub] at h
        split_ifs at h <;> exact absurd h hne

/-- The path of a file uri has the chars of the argument. -/
theorem mem_of_splitFileUri {arg type srcpath alt : CStr}
    (h : splitFileUri arg = some (type, srcpath, alt)) {c : Char} (hc : c ∈ srcpath) : c ∈ arg := by
  rcases splitFileUri_cases h with ⟨rest, rfl⟩ | ⟨rest, rfl | rfl⟩ | ⟨t, ht, rest, rfl⟩ |
    ⟨t, ht, rest, rfl⟩
  · cases h
    exact hc
  · cases h
    exact List.mem_cons_of_mem _ hc
  · cases h
    exact List.mem_cons_of_mem _ hc
  · cases (splitFileUri_long ht rest).symm.trans h
    exact List.mem_append_right _ (List.mem_append_right _ hc)
  · cases (splitFileUri_short ht rest).symm.trans h
    exact List.mem_append_right _ (List.mem_cons_of_mem _ hc)

/-- A local file uri has the chars of the argument. -/
theorem mem_of_local {arg : CStr} {file : FileUri} (h : parseNondirFileUri arg = some file)
    (hlocal : file.type = "local".toList) {c : Char} (hc : c ∈ file.uri) : c ∈ arg := by
  rw [parseNondirFileUri] at h
  dsimp only at h
  split_ifs at h with hrc
  have hfile : (preparseFileUri githubArchive arg).2 = file := Option.some.inj h
  by_cases hne : arg = []
  · rw [hne] at hrc
    exact absurd hrc.1 (by decide)
  · cases hsplit : splitFileUri arg with
    | none =>
      have hfail : (preparseFileUri githubArchive arg).1 = 1 := by
        rw [preparseFileUri, if_neg hne, hsplit]
      rw [hfail] at hrc
      exact absurd hrc.1 (by decide)
    | some parts =>
      obtain ⟨type, srcpath, alt⟩ := parts
      rw [preparseFileUri_eq hne hsplit] at hfile
      rw [← hfile] at hlocal hc
      rw [typedFileUri_local hlocal] at hc
      exact mem_of_splitFileUri hsplit hc

/-- A path that is found has the chars of the root directory and of the path. -/
theorem mem_prefixFspath {root path v0 : CStr} (h : prefixFspath root path = some v0) {c : Char}
    (hc : c ∈ v0) : c ∈ root ∨ c = '/' ∨ c ∈ path := by
  have hpre : ∀ s : CStr, c ∈ withoutPrefix ['/'] s → c ∈ s := by
    intro s hs
    rw [withoutPrefix] at hs
    cases hstart : strStartswith s ['/'] with
    | none => rwa [hstart] at hs
    | some rest =>
      rw [hstart] at hs
      rw [strStartswith_eq_some.1 hstart]
      exact List.mem_append_right _ hs
  have hsuf : ∀ s : CStr, c ∈ withoutSuffix ['/'] s → c ∈ s := by
    intro s hs
    rw [withoutSuffix] at hs
    split_ifs at hs
    · exact List.mem_of_mem_take hs
    · exact hs
  rw [prefixFspath] at h
  split_ifs at h
  · cases h
    exact .inr (.inr (hpre path hc))
  · cases h
    exact .inl hc
  · cases h
    exact .inr (.inr hc)
  · cases h
    rcases List.mem_append.1 hc with hc | hc
    · exact .inl (hsuf root hc)
    · rcases List.mem_cons.1 hc with rfl | hc
      · exact .inr (.inl rfl)
      · exact .inr (.inr (hpre path hc))

theorem isIfsBlank_of_isDigit {c : Char} (h : c.isDigit = true) :
    Lib.Shell.isIfsBlank c = false := by
  by_contra hblank
  have hc : c = ' ' ∨ c = '\t' ∨ c = '\n' := by
    simpa [Lib.Shell.isIfsBlank, or_iff_not_imp_left] using hblank
  rcases hc with rfl | rfl | rfl <;> cases h

/-- The name of an imported overlay file has no blanks. -/
theorem unblank_overlayFile (k : ℕ) :
    Lib.Shell.Unblank ("overlay_".toList ++ Nat.toDigits 10 k ++ ".sfs".toList) := by
  intro c hc
  simp only [List.mem_append] at hc
  rcases hc with (hc | hc) | hc
  · exact (by decide : Lib.Shell.Unblank "overlay_".toList) c hc
  · exact isIfsBlank_of_isDigit (Nat.isDigit_of_mem_toDigits (by simp) (by simp) hc)
  · exact (by decide : Lib.Shell.Unblank ".sfs".toList) c hc

theorem unblank_containerImport {uri name v0 : CStr}
    (h : unionMountContainerImport S uri name st = some (v0, st'))
    (hcontainer : Lib.Shell.Unblank st.container) (hroot : Lib.Shell.Unblank st.srcRoot)
    (huri : Lib.Shell.Unblank uri) (hname : Lib.Shell.Unblank name) : Lib.Shell.Unblank v0 := by
  have hslash : Lib.Shell.isIfsBlank '/' = false := rfl
  obtain ⟨-, -, rfl | ⟨file, hfile, hlocal, hpath⟩⟩ := imports_containerImport h
  · intro c hc
    rcases List.mem_append.1 hc with hc | hc
    · rcases List.mem_append.1 hc with hc | hc
      · exact hcontainer c hc
      · exact (by decide : Lib.Shell.Unblank "/sfs-container".toList) c hc
    · rcases List.mem_cons.1 hc with rfl | hc
      · exact hslash
      · exact hname c hc
  · intro c hc
    rcases mem_prefixFspath hpath hc with hc | rfl | hc
    · exact hroot c hc
    · exact hslash
    · exact huri c (mem_of_local hfile hlocal hc)

/-- **The overlay files** are listed one after the other. -/
theorem imports_addOverlayFiles {uris : List CStr}
    (h : unionMountAddOverlayFiles S uris st = some st') :
    Imports st st' ∧ st'.sfsFile = st.sfsFile ∧
      (Lib.Shell.Unblank st.container → Lib.Shell.Unblank st.srcRoot →
        (∀ uri ∈ uris, uri ≠ [] ∧ Lib.Shell.Unblank uri) →
        (fields st'.overlayFiles).length = (fields st.overlayFiles).length + uris.length) := by
  induction uris generalizing st with
  | nil =>
    cases h
    exact ⟨.refl _, rfl, fun _ _ _ => rfl⟩
  | cons uri uris ih =>
    rw [unionMountAddOverlayFiles] at h
    split_ifs at h with hempty
    · obtain ⟨himports, hfile, -⟩ := ih h
      exact ⟨himports, hfile, fun _ _ huris => absurd hempty (huris uri List.mem_cons_self).1⟩
    · obtain ⟨st₁, hadd, hrest⟩ := Option.bind_eq_some_iff.1 h
      obtain ⟨himports, hfile, v0, st₂, himport, hv0, hfields⟩ := imports_doAddOverlayFile hadd
      obtain ⟨himports', hfile', hcount⟩ := ih hrest
      refine ⟨himports.trans himports', hfile'.trans hfile, fun hcontainer hroot huris => ?_⟩
      obtain ⟨points, hgrows, -⟩ := himports.grows
      have hunblank : Lib.Shell.Unblank v0 := unblank_containerImport himport hcontainer hroot
        (huris uri List.mem_cons_self).2 (unblank_overlayFile _)
      have hone : fields v0 = [v0] := by
        rw [Lib.Shell.fields_of_unblank hunblank, if_neg hv0]
      rw [hcount (by rwa [hgrows.container]) (by rwa [hgrows.srcRoot])
        fun uri huri => huris uri (List.mem_cons_of_mem _ huri), hfields, hone,
        List.length_append, List.length_singleton, List.length_cons]
      omega

theorem imports_incrementalLoop {paths : List CStr} (h : incrementalLoop S paths st = some st') :
    Imports st st' ∧ st'.sfsFile = st.sfsFile := by
  induction paths generalizing st with
  | nil =>
    cases h
    exact ⟨.refl _, rfl⟩
  | cons path paths ih =>
    rw [incrementalLoop] at h
    split_ifs at h
    · obtain ⟨st₁, hadd, hrest⟩ := Option.bind_eq_some_iff.1 h
      obtain ⟨himports, hfile, -⟩ := imports_doAddOverlayFile hadd
      obtain ⟨himports', hfile'⟩ := ih hrest
      exact ⟨himports.trans himports', hfile'.trans hfile⟩
    · exact ih h

theorem imports_expandIncremental (h : unionMountExpandIncremental S st = some st') :
    Imports st st' ∧ st'.sfsFile = st.sfsFile := by
  rw [unionMountExpandIncremental] at h
  split_ifs at h
  exact imports_incrementalLoop h

/-! ## Layers -/

/-- The layer for an overlay file. -/
def overlayLayer (container : CStr) (k : ℕ) : Layer :=
  ⟨container ++ "/loop/".toList ++ overlayName k, .rr⟩

theorem grows_doMountSfsFile {file name : CStr}
    (h : unionDoMountSfsFile S file name st = some st') :
    Grows st st' [⟨st.container ++ "/loop/".toList ++ name, .rr⟩]
      [st.container ++ "/loop/".toList ++ name] := by
  obtain ⟨st₁, hmount, rfl⟩ := Option.map_eq_some_iff.1 h
  exact (grows_xmount hmount).trans (grows_addBranch _ _ st₁)

theorem grows_sfsLoop {files : List CStr} {k : ℕ} (h : sfsLoop S files k st = some st') :
    Grows st st' ((List.range' k files.length).reverse.map (overlayLayer st.container))
      ((List.range' k files.length).map fun i => (overlayLayer st.container i).path) := by
  induction files generalizing st k with
  | nil =>
    cases h
    exact .refl _
  | cons file files ih =>
    obtain ⟨st₁, hmount, hrest⟩ := Option.bind_eq_some_iff.1 h
    have hfirst := grows_doMountSfsFile hmount
    have hloop := ih hrest
    rw [hfirst.container] at hloop
    rw [List.length_cons, List.range'_succ, List.reverse_cons, List.map_append, List.map_cons]
    exact hfirst.trans hloop

theorem grows_finalizeSfsContainer (h : unionMountFinalizeSfsContainer S st = some st') :
    Grows st st' [] [] ∧ KeepsFiles st st' := by
  rw [unionMountFinalizeSfsContainer] at h
  split_ifs at h
  · cases h
    exact ⟨.refl _, rfl, rfl⟩
  · simp only [bind, Option.bind_eq_some_iff] at h
    obtain ⟨st₁, hro, st₂, hsize, h⟩ := h
    obtain ⟨hb, hm, hc, hs, hp, hn⟩ := (grows_autodie hro).trans (grows_autodie hsize)
    obtain ⟨s₁, rfl⟩ := autodie_eq hro
    obtain ⟨s₂, rfl⟩ := autodie_eq hsize
    cases h
    exact ⟨⟨hb, hm, hc, hs, hp, hn⟩, rfl, rfl⟩

/-- The layer for the base file, if there is one. -/
def baseLayer (container : CStr) (base : Bool) : List Layer :=
  if base then [⟨container ++ "/loop/base".toList, .rr⟩] else []

theorem grows_mountBase (h : mountBase S st = some st') :
    Grows st st' (baseLayer st.container (decide (st.sfsFile ≠ [])))
      ((baseLayer st.container (decide (st.sfsFile ≠ []))).map Layer.path) ∧
      st'.overlayFiles = st.overlayFiles := by
  have hpath : st.container ++ "/loop/".toList ++ "base".toList =
      st.container ++ "/loop/base".toList := by
    rw [List.append_assoc]
    rfl
  rw [mountBase] at h
  rw [baseLayer]
  by_cases hempty : st.sfsFile = []
  · rw [if_pos hempty] at h
    cases h
    rw [if_neg (by simpa using hempty)]
    exact ⟨.refl st, rfl⟩
  · rw [if_neg hempty] at h
    rw [if_pos (by simpa using hempty)]
    have hmount := grows_doMountSfsFile h
    rw [hpath] at hmount
    obtain ⟨st₁, hx, rfl⟩ := Option.map_eq_some_iff.1 h
    obtain ⟨s, rfl⟩ := autodie_eq hx
    exact ⟨hmount, rfl⟩

/-- The layers for the squashfs files. -/
def sfsLayers (container : CStr) (base : Bool) (overlays : ℕ) : List Layer :=
  (List.range overlays).reverse.map (overlayLayer container) ++ baseLayer container base

/-- **The squashfs files** become layers in their order, the base file first. -/
theorem grows_sfsFiles (h : unionMountSfsFiles S st = some st') :
    let layers := sfsLayers st.container (decide (st.sfsFile ≠ [])) (fields st.overlayFiles).length
    Grows st st' layers (layers.reverse.map Layer.path) := by
  intro layers
  simp only [unionMountSfsFiles, bind, Option.bind_eq_some_iff] at h
  obtain ⟨st₁, hfinal, st₂, hbase, hloop⟩ := h
  obtain ⟨hgrows, hfile, hoverlay⟩ := grows_finalizeSfsContainer hfinal
  obtain ⟨hbaseLayer, hoverlay'⟩ := grows_mountBase hbase
  have hoverlays := grows_sfsLoop hloop
  rw [hoverlay', hoverlay, hbaseLayer.container, hgrows.container, ← List.range_eq_range']
    at hoverlays
  rw [hfile, hgrows.container] at hbaseLayer
  have hsingle : ∀ base, (baseLayer st.container base).reverse = baseLayer st.container base := by
    intro base
    cases base <;> rfl
  show Grows st st' (sfsLayers _ _ _) ((sfsLayers _ _ _).reverse.map Layer.path)
  rw [sfsLayers, List.reverse_append, List.map_append, hsingle, ← List.map_reverse,
    List.reverse_reverse, List.map_map]
  have hall := (hgrows.trans hbaseLayer).trans hoverlays
  rw [List.append_nil] at hall
  exact hall

theorem grows_backingMemBranch {mp basename memType size : CStr}
    (h : unionMountBackingMemBranch S mp basename memType size st = some st') :
    Grows st st' [] [mp] := by
  rw [unionMountBackingMemBranch] at h
  split_ifs at h
  · exact grows_autodie h
  · exact grows_autodie h
  · exact grows_xmount h
  · exact grows_xmount h

theorem grows_addBackingMemBranch {mode : BranchMode} {mntName basename memType size : CStr}
    (h : unionMountAddBackingMemBranch S mode mntName basename memType size st = some st') :
    Grows st st' [⟨st.container ++ "/mem/".toList ++ mntName, mode⟩]
      [st.container ++ "/mem/".toList ++ mntName] := by
  rw [unionMountAddBackingMemBranch] at h
  split_ifs at h
  obtain ⟨st₁, hmem, rfl⟩ := Option.map_eq_some_iff.1 h
  exact (grows_backingMemBranch hmem).trans (grows_addBranch _ _ st₁)

/-- The layers for some tarballs. -/
def tarballLayers (container : CStr) (name : String) (files : List CStr) : List Layer :=
  if files = [] then []
  else [⟨container ++ "/mem/".toList ++ ("tarball-".toList ++ name.toList), .ro⟩]

theorem grows_addTarballLayer {name : String} {files : List CStr}
    (h : unionMountAddTarballLayer S name.toList files st = some st') :
    Grows st st' (tarballLayers st.container name files)
      ((tarballLayers st.container name files).map Layer.path) := by
  rw [unionMountAddTarballLayer] at h
  rw [tarballLayers]
  split_ifs at h ⊢
  · cases h
    exact .refl _
  · simp only [bind, Option.bind_eq_some_iff] at h
    obtain ⟨st₁, hmem, hunpack⟩ := h
    exact (grows_addBackingMemBranch hmem).trans (grows_autodie hunpack)

/-- **Backing memory** becomes the top layer. -/
theorem grows_addBackingMem {memType size : CStr}
    (h : unionMountAddBackingMem S memType size st = some st') :
    Grows st st' [⟨st.container ++ "/mem/mem".toList, .rw⟩] [st.container ++ "/mem/mem".toList] ∧
      st'.union.prevBranchWasMem = true := by
  obtain ⟨st₁, hmem, rfl⟩ := Option.map_eq_some_iff.1 h
  obtain ⟨hb, hm, hc, hs, hp, hn⟩ := grows_addBackingMemBranch hmem
  have hpath : st.container ++ "/mem/".toList ++ "mem".toList =
      st.container ++ "/mem/mem".toList := by
    rw [List.append_assoc]
    rfl
  rw [hpath] at hb hm
  exact ⟨⟨hb, hm, hc, hs, hp, hn⟩, rfl⟩

/-- **A disk** becomes the top layer: what is mounted, or its directory for overlayfs. -/
theorem grows_addBackingDisk {mode : BranchMode} {dev fstype opts : CStr}
    (h : unionMountAddBackingDisk S mode dev fstype opts st = some st') :
    ∃ name dir, diskName S dev = some name ∧ (dir = [] ∨ dir = "/data".toList) ∧
      Grows st st' [⟨st.container ++ "/disk/".toList ++ name ++ dir, mode⟩]
        [st.container ++ "/disk/".toList ++ name] := by
  simp only [unionMountAddBackingDisk, bind, Option.bind_eq_some_iff] at h
  obtain ⟨name, hname, st₁, hmount, h⟩ := h
  have hgrows := grows_xmount hmount
  split_ifs at h
  · cases h
    exact ⟨name, _, hname, .inr rfl, hgrows.trans (grows_addBranch _ _ st₁)⟩
  · cases h
    refine ⟨name, [], hname, .inl rfl, ?_⟩
    rw [List.append_nil]
    exact hgrows.trans (grows_addBranch _ _ st₁)

/-- Where a mount is moved. -/
def movedDir (container name : CStr) : CStr :=
  withoutSuffix ['/'] container ++ "/moved/".toList ++ name

theorem grows_addMoveMount {old name : CStr} (h : unionMountAddMoveMount S old name st = some st') :
    ∃ mode, mode ≠ .rr ∧ Grows st st' [⟨movedDir st.container name, mode⟩]
      [movedDir st.container name] := by
  rw [unionMountAddMoveMount] at h
  split_ifs at h with hmounted
  obtain ⟨st₁, hmove, rfl⟩ := Option.map_eq_some_iff.1 h
  refine ⟨_, ?_, (grows_autodie hmove).trans (grows_addBranch _ _ st₁)⟩
  split_ifs <;> exact BranchMode.noConfusion

end

end UnionScript

end Fischstaebchen
