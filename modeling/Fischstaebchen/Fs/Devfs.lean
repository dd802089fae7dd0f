/-
  Device nodes (`common/fs/devfs.c`).

  `devfs_donod` keeps what it finds at a path if its `st_dev` is the device number and
  its mode has a bit of the device type; otherwise it unlinks it and creates a node.

  * `NodeFs`: a file system with device nodes and symbolic links; `NodeEnv`: what is
    permitted.
  * `devfsDonod_cases`: what a call does.
  * `donodIdempotent_iff`: when calls are idempotent and end with the right node.
-/
import Fischstaebchen.Fs.ProcMisc

namespace Fischstaebchen

/-- `mode_t`. -/
abbrev Mode := BitVec 32

/-- `dev_t`. -/
structure Dev where
  major : Unsigned
  minor : Unsigned
  deriving DecidableEq

/-- `makedev(3)`. -/
def makedev (maj min : Unsigned) : Dev := ⟨maj, min⟩

/-- `S_IFMT`. -/
def sIfmt : Mode := 0xF000

/-- `PERMISSION_MASK`. -/
def permissionMask : Mode := 0xFFF

/-- `RW_USR`. -/
def rwUsr : Mode := 0x180

/-- What a file is. -/
inductive NodeKind
  | fifo
  | chr (dev : Dev)
  | dir
  | blk (dev : Dev)
  | reg
  | sock
  deriving DecidableEq

/-- The type of a file in its mode. -/
def NodeKind.mode : NodeKind → Mode
  | .fifo => 0x1000
  | .chr _ => 0x2000
  | .dir => 0x4000
  | .blk _ => 0x6000
  | .reg => 0x8000
  | .sock => 0xC000

/-- What `mknod(2)` creates. -/
def NodeKind.ofMode (mode : Mode) (dev : Dev) : Option NodeKind :=
  if mode &&& sIfmt = 0x1000 then some .fifo
  else if mode &&& sIfmt = 0x2000 then some (.chr dev)
  else if mode &&& sIfmt = 0x6000 then some (.blk dev)
  else if mode &&& sIfmt = 0 ∨ mode &&& sIfmt = 0x8000 then some .reg
  else if mode &&& sIfmt = 0xC000 then some .sock
  else none

/-- The types of device nodes. -/
inductive DevType
  | chr
  | blk
  deriving DecidableEq

/-- `S_IFCHR`, `S_IFBLK`. -/
def DevType.mode : DevType → Mode
  | .chr => 0x2000
  | .blk => 0x6000

/-- A node of this type. -/
def DevType.node : DevType → Dev → NodeKind
  | .chr, dev => .chr dev
  | .blk, dev => .blk dev

/-- A file. -/
structure Inode where
  kind : NodeKind
  perm : Mode
  uid : Unsigned
  gid : Unsigned
  deriving DecidableEq

/-- A file path. -/
abbrev FilePath := List UInt8

/-- What is at a path. -/
inductive DirEntry
  | file (inode : Inode)
  | symlink (target : FilePath)
  deriving DecidableEq

/-- Changes of the directories. -/
inductive NodeOp
  | unlink (path : FilePath)
  | mknod (path : FilePath)
  deriving DecidableEq

/-- A file system and the changes made so far, the last one first. -/
structure NodeFs where
  entry : FilePath → Option DirEntry
  log : List NodeOp

/-- What does not change: the device of the file system that a path is on, and what the
    process may do. -/
structure NodeEnv where
  device : FilePath → Dev
  mayUnlink : FilePath → Bool
  mayMknod : FilePath → Bool
  mayChmod : FilePath → Bool
  mayChown : FilePath → Bool
  umask : Mode
  uid : Unsigned
  gid : Unsigned

/-- `struct stat`. -/
structure Stat where
  stDev : Dev
  stMode : Mode
  stUid : Unsigned
  stGid : Unsigned

namespace NodeFs
variable (env : NodeEnv) (fs : NodeFs)

/-- The file that a path leads to, and its own path. -/
def follow : ℕ → FilePath → Option (FilePath × Inode)
  | 0, _ => none
  | links + 1, path =>
    match fs.entry path with
    | none => none
    | some (.file inode) => some (path, inode)
    | some (.symlink target) => follow links target

/-- The file at a path; Linux follows 40 links. -/
def find (path : FilePath) : Option (FilePath × Inode) := fs.follow 41 path

/-- `stat(2)`. -/
def stat (path : FilePath) : Option Stat :=
  (fs.find path).map fun file =>
    ⟨env.device file.1, file.2.kind.mode ||| file.2.perm &&& permissionMask, file.2.uid,
      file.2.gid⟩

/-- Another file at a path. -/
def set (path : FilePath) (inode : Inode) : NodeFs :=
  { fs with entry := Function.update fs.entry path (some (.file inode)) }

/-- `unlink(2)`. -/
def unlink (path : FilePath) : ℤ × NodeFs :=
  match fs.entry path with
  | none => (-1, fs)
  | some (.file ⟨.dir, _, _, _⟩) => (-1, fs)
  | some _ =>
    if env.mayUnlink path then
      (0, ⟨Function.update fs.entry path none, .unlink path :: fs.log⟩)
    else (-1, fs)

/-- `mknod(2)`. -/
def mknod (path : FilePath) (mode : Mode) (dev : Dev) : ℤ × NodeFs :=
  match fs.entry path, NodeKind.ofMode mode dev with
  | none, some kind =>
    if env.mayMknod path then
      (0, ⟨Function.update fs.entry path
        (some (.file ⟨kind, mode &&& permissionMask &&& ~~~env.umask, env.uid, env.gid⟩)),
        .mknod path :: fs.log⟩)
    else (-1, fs)
  | _, _ => (-1, fs)

/-- `chmod(2)`. -/
def chmod (path : FilePath) (mode : Mode) : ℤ × NodeFs :=
  match fs.find path with
  | none => (-1, fs)
  | some (file, inode) =>
    if env.mayChmod file then (0, fs.set file { inode with perm := mode &&& permissionMask })
    else (-1, fs)

/-- `chown(2)`; the id -1 means no change. -/
def chown (path : FilePath) (uid gid : Unsigned) : ℤ × NodeFs :=
  match fs.find path with
  | none => (-1, fs)
  | some (file, inode) =>
    if env.mayChown file then
      (0, fs.set file { inode with
        uid := if uid = -1 then inode.uid else uid
        gid := if gid = -1 then inode.gid else gid })
    else (-1, fs)

end NodeFs

/-- `stat_permissions_eq`. -/
def statPermissionsEq (stat : Stat) (mode : Mode) : ℤ :=
  if stat.stMode &&& permissionMask = mode then 0 else -1

/-- `stat_uid_eq`. -/
def statUidEq (stat : Stat) (uid : Unsigned) : ℤ :=
  if uid = -1 ∨ stat.stUid = uid then 0 else -1

/-- `stat_gid_eq`. -/
def statGidEq (stat : Stat) (gid : Unsigned) : ℤ :=
  if gid = -1 ∨ stat.stGid = gid then 0 else -1

/-- `stat_owner_eq`. -/
def statOwnerEq (stat : Stat) (uid gid : Unsigned) : ℤ :=
  if statUidEq stat uid = 0 ∧ statGidEq stat gid = 0 then 0 else 1

/-- `chmod_stat`. -/
def chmodStat (env : NodeEnv) (fs : NodeFs) (path : FilePath) (stat : Stat) (mode : Mode) :
    ℤ × NodeFs :=
  if statPermissionsEq stat mode = 0 then (0, fs) else fs.chmod env path mode

/-- `chown_stat`. -/
def chownStat (env : NodeEnv) (fs : NodeFs) (path : FilePath) (stat : Stat)
    (uid gid : Unsigned) : ℤ × NodeFs :=
  if statOwnerEq stat uid gid = 0 then (0, fs) else fs.chown env path uid gid

/-- `chmod_chown_stat`. -/
def chmodChownStat (env : NodeEnv) (fs : NodeFs) (path : FilePath) (stat : Stat) (mode : Mode)
    (uid gid : Unsigned) : ℤ × NodeFs :=
  let chmoded := if mode ≠ 0 then chmodStat env fs path stat mode else (0, fs)
  let chowned := chownStat env chmoded.2 path stat uid gid
  (-((if chmoded.1 ≠ 0 then 1 else 0) + (if chowned.1 ≠ 0 then 2 else 0)), chowned.2)

/-- The mode of a new node. -/
def newMode (devtype : DevType) (mode : Mode) : Mode :=
  devtype.mode ||| if mode = 0 then rwUsr else mode

/-- The end of `devfs_donod`. -/
def createNode (env : NodeEnv) (fs : NodeFs) (path : FilePath) (devtype : DevType) (dev : Dev)
    (mode : Mode) (uid gid : Unsigned) : ℤ × NodeFs :=
  let made := fs.mknod env path (newMode devtype mode) dev
  if made.1 ≠ 0 then (-1, made.2)
  else
    let chowned := made.2.chown env path uid gid
    (if chowned.1 = 0 then 0 else 1, chowned.2)

/-- `devfs_donod`: the return code and the file system. -/
def devfsDonod (env : NodeEnv) (fs : NodeFs) (path : FilePath) (devtype : DevType)
    (maj min : Unsigned) (mode : Mode) (uid gid : Unsigned) : ℤ × NodeFs :=
  let dev := makedev maj min
  match fs.stat env path with
  | some stat =>
    if stat.stDev = dev ∧ stat.stMode &&& devtype.mode ≠ 0 then
      let changed := chmodChownStat env fs path stat mode uid gid
      (if changed.1 ≠ 0 then 1 else 0, changed.2)
    else
      let unlinked := fs.unlink env path
      if unlinked.1 ≠ 0 then (-1, unlinked.2)
      else createNode env unlinked.2 path devtype dev mode uid gid
  | none => createNode env fs path devtype dev mode uid gid

/-! ## Modes -/

section
variable {kind : NodeKind} {mode perm : Mode} {dev : Dev}

theorem NodeKind.mode_mask (kind : NodeKind) : kind.mode &&& permissionMask = 0 := by
  cases kind <;> simp [NodeKind.mode, permissionMask]

/-- The permissions of a file. -/
theorem stat_permissions (kind : NodeKind) (perm : Mode) :
    (kind.mode ||| perm &&& permissionMask) &&& permissionMask = perm &&& permissionMask := by
  rw [BitVec.and_or_distrib_right, kind.mode_mask, BitVec.and_assoc, BitVec.and_self]
  simp

/-- The bits of the device type in the mode of a file. -/
theorem stat_type (kind : NodeKind) (perm : Mode) (devtype : DevType) :
    (kind.mode ||| perm &&& permissionMask) &&& devtype.mode = kind.mode &&& devtype.mode := by
  have hmask : permissionMask &&& devtype.mode = 0 := by cases devtype <;> rfl
  rw [BitVec.and_or_distrib_right, BitVec.and_assoc, hmask]
  simp

theorem NodeKind.ofMode_mode (h : NodeKind.ofMode mode dev = some kind)
    (hne : mode &&& sIfmt ≠ 0) : kind.mode = mode &&& sIfmt := by
  rw [NodeKind.ofMode] at h
  split_ifs at h with hfifo hchr hblk hreg hsock
  · cases h
    exact hfifo.symm
  · cases h
    exact hchr.symm
  · cases h
    exact hblk.symm
  · cases h
    exact (hreg.resolve_left hne).symm
  · cases h
    exact hsock.symm

theorem NodeKind.ofMode_ne_dir : NodeKind.ofMode mode dev ≠ some .dir := by
  rw [NodeKind.ofMode]
  split_ifs <;> simp

/-- A new node has all bits of the device type. -/
theorem NodeKind.ofMode_type {devtype : DevType}
    (h : NodeKind.ofMode (devtype.mode ||| mode) dev = some kind) :
    kind.mode &&& devtype.mode = devtype.mode := by
  have hbits : (devtype.mode ||| mode) &&& sIfmt &&& devtype.mode = devtype.mode := by
    have hfmt : sIfmt &&& devtype.mode = devtype.mode := by cases devtype <;> rfl
    rw [BitVec.and_assoc, hfmt, BitVec.and_or_distrib_right, BitVec.and_self]
    ext i hi
    simp
  have hne : (devtype.mode ||| mode) &&& sIfmt ≠ 0 := by
    intro hzero
    rw [hzero] at hbits
    cases devtype <;> cases hbits
  rw [NodeKind.ofMode_mode h hne, hbits]

theorem DevType.mode_ne_zero (devtype : DevType) : devtype.mode ≠ 0 := by
  cases devtype <;> simp [DevType.mode]

end

/-! ## What a path leads to -/

/-- What an entry is, without its permissions and its owner. -/
def DirEntry.shape : DirEntry → NodeKind ⊕ FilePath
  | .file inode => .inl inode.kind
  | .symlink target => .inr target

namespace NodeFs
variable {env : NodeEnv} {fs fs' fs'' : NodeFs} {path file target : FilePath} {inode inode' : Inode}
  {kind : NodeKind} {mode : Mode} {uid gid : Unsigned}

/-- The file that a path leads to and what it is. -/
def node (fs : NodeFs) (path : FilePath) : Option (FilePath × NodeKind) :=
  (fs.find path).map fun file => (file.1, file.2.kind)

/-- The same files and links, and no change of the directories. -/
structure SameNodes (fs fs' : NodeFs) : Prop where
  log : fs'.log = fs.log
  shape : ∀ path, (fs'.entry path).map DirEntry.shape = (fs.entry path).map DirEntry.shape

theorem SameNodes.refl (fs : NodeFs) : SameNodes fs fs := ⟨rfl, fun _ => rfl⟩

theorem SameNodes.trans (h : SameNodes fs fs') (h' : SameNodes fs' fs'') : SameNodes fs fs'' :=
  ⟨h'.log.trans h.log, fun path => (h'.shape path).trans (h.shape path)⟩

/-- Paths lead to the same files. -/
theorem SameNodes.node (h : SameNodes fs fs') (path : FilePath) : fs'.node path = fs.node path := by
  have hfollow : ∀ links path, (fs'.follow links path).map (fun file => (file.1, file.2.kind)) =
      (fs.follow links path).map fun file => (file.1, file.2.kind) := by
    intro links
    induction links with
    | zero => exact fun _ => rfl
    | succ links ih =>
      intro path
      have hshape := h.shape path
      cases hentry : fs.entry path with
      | none =>
        have hentry' : fs'.entry path = none := by simpa [hentry] using hshape
        rw [follow, follow, hentry, hentry']
      | some entry =>
        rw [hentry] at hshape
        obtain ⟨entry', hentry', hsame⟩ := Option.map_eq_some_iff.1 hshape
        rw [follow, follow, hentry, hentry']
        cases entry with
        | file inode =>
          cases entry' with
          | file inode' =>
            obtain hkind : inode'.kind = inode.kind := Sum.inl.inj hsame
            simp [hkind]
          | symlink target => cases hsame
        | symlink target =>
          cases entry' with
          | file inode' => cases hsame
          | symlink target' =>
            cases hsame
            exact ih target
  exact hfollow 41 path

/-- The file at the end of the links. -/
theorem entry_of_follow {links : ℕ} (h : fs.follow links path = some (file, inode)) :
    fs.entry file = some (.file inode) := by
  induction links generalizing path with
  | zero => cases h
  | succ links ih =>
    rw [follow] at h
    split at h
    · cases h
    · cases h
      assumption
    · exact ih h

theorem set_same (h : fs.find path = some (file, inode)) (hkind : inode'.kind = inode.kind) :
    SameNodes fs (fs.set file inode') where
  log := rfl
  shape path' := by
    by_cases heq : path' = file
    · subst heq
      have hentry := entry_of_follow h
      simp [set, hentry, DirEntry.shape, hkind]
    · simp [set, heq]

theorem find_of_entry (h : fs.entry path = some (.file inode)) :
    fs.find path = some (path, inode) := by
  rw [find, follow, h]

theorem node_of_find (h : fs.find path = some (file, inode)) :
    fs.node path = some (file, inode.kind) := by
  rw [NodeFs.node, h]
  rfl

theorem exists_of_node (h : fs.node path = some (file, kind)) :
    ∃ inode, fs.find path = some (file, inode) ∧ inode.kind = kind := by
  obtain ⟨⟨file', inode⟩, hfind, heq⟩ := Option.map_eq_some_iff.1 h
  cases heq
  exact ⟨inode, hfind, rfl⟩

theorem stat_of_find (env : NodeEnv) (h : fs.find path = some (file, inode)) :
    fs.stat env path = some ⟨env.device file,
      inode.kind.mode ||| inode.perm &&& permissionMask, inode.uid, inode.gid⟩ := by
  rw [stat, h]
  rfl

/-- A change of a file that may be refused. -/
theorem set_spec (h : fs.find path = some (file, inode)) (hkind : inode'.kind = inode.kind)
    (may : Bool) :
    SameNodes fs (if may then ((0 : ℤ), fs.set file inode') else (-1, fs)).2 ∧
      ((if may then ((0 : ℤ), fs.set file inode') else (-1, fs)).1 = 0 ↔ may = true) := by
  cases may with
  | true => exact ⟨set_same h hkind, iff_of_true rfl rfl⟩
  | false => exact ⟨SameNodes.refl fs, iff_of_false (by simp) Bool.false_ne_true⟩

theorem chmod_spec (h : fs.find path = some (file, inode)) (mode : Mode) :
    SameNodes fs (fs.chmod env path mode).2 ∧
      ((fs.chmod env path mode).1 = 0 ↔ env.mayChmod file = true) := by
  rw [chmod, h]
  refine set_spec h ?_ _
  rfl

theorem chown_spec (env : NodeEnv) (h : fs.find path = some (file, inode))
    (uid gid : Unsigned) :
    SameNodes fs (fs.chown env path uid gid).2 ∧
      ((fs.chown env path uid gid).1 = 0 ↔ env.mayChown file = true) := by
  rw [chown, h]
  refine set_spec h ?_ _
  rfl

end NodeFs

/-! ## What a call does -/

/-- A change that is needed and not permitted. -/
def ChangeRefused (env : NodeEnv) (file : FilePath) (inode : Inode) (mode : Mode)
    (uid gid : Unsigned) : Prop :=
  (mode ≠ 0 ∧ inode.perm &&& permissionMask ≠ mode ∧ env.mayChmod file = false) ∨
    (¬ ((uid = -1 ∨ inode.uid = uid) ∧ (gid = -1 ∨ inode.gid = gid)) ∧
      env.mayChown file = false)

/-- The file at a path is on the device, and its type has a bit of the device type. -/
def Keeps (env : NodeEnv) (fs : NodeFs) (path : FilePath) (devtype : DevType) (dev : Dev) :
    Prop :=
  ∃ file kind, fs.node path = some (file, kind) ∧ env.device file = dev ∧
    kind.mode &&& devtype.mode ≠ 0

/-- The entry at a path can be removed. -/
def CanUnlink (env : NodeEnv) (fs : NodeFs) (path : FilePath) : Prop :=
  env.mayUnlink path = true ∧
    ∃ entry, fs.entry path = some entry ∧ entry.shape ≠ .inl .dir

/-- The file at a path is not kept and can be removed. -/
def Replaces (env : NodeEnv) (fs : NodeFs) (path : FilePath) (devtype : DevType) (dev : Dev) :
    Prop :=
  ¬ Keeps env fs path devtype dev ∧ fs.node path ≠ none ∧ CanUnlink env fs path

/-- The path is free after the file there, if any, is removed. -/
def Frees (env : NodeEnv) (fs : NodeFs) (path : FilePath) (devtype : DevType) (dev : Dev) :
    Prop :=
  Replaces env fs path devtype dev ∨ fs.entry path = none

section
variable {env : NodeEnv} {fs : NodeFs} {path file : FilePath} {inode : Inode} {devtype : DevType}
  {dev : Dev} {mode : Mode} {uid gid maj min : Unsigned}

/-- A code that is 0 under a condition. -/
theorem code_eq_zero {p : Prop} [Decidable p] {code : ℤ} (hcode : code ≠ 0) :
    (if p then 0 else code) = 0 ↔ p := by
  by_cases hp : p
  · exact iff_of_true (if_pos hp) hp
  · rw [if_neg hp]
    exact iff_of_false hcode hp

theorem chmodStat_spec (mode : Mode) {stat : Stat} (h : fs.find path = some (file, inode))
    (hstat : fs.stat env path = some stat) :
    fs.SameNodes (chmodStat env fs path stat mode).2 ∧
      ((chmodStat env fs path stat mode).1 = 0 ↔
        inode.perm &&& permissionMask = mode ∨ env.mayChmod file = true) := by
  rw [NodeFs.stat_of_find env h] at hstat
  cases hstat
  by_cases hperm : inode.perm &&& permissionMask = mode
  · have heq : statPermissionsEq ⟨env.device file, inode.kind.mode ||| inode.perm &&& permissionMask,
        inode.uid, inode.gid⟩ mode = 0 := if_pos ((stat_permissions _ _).trans hperm)
    rw [chmodStat, if_pos heq]
    exact ⟨NodeFs.SameNodes.refl fs, by simp [hperm]⟩
  · have hne : ¬ statPermissionsEq ⟨env.device file,
        inode.kind.mode ||| inode.perm &&& permissionMask, inode.uid, inode.gid⟩ mode = 0 := by
      rw [statPermissionsEq, stat_permissions, if_neg hperm]
      exact Int.neg_ne_zero.2 one_ne_zero
    rw [chmodStat, if_neg hne, or_iff_right hperm]
    exact NodeFs.chmod_spec h mode

/-- The owner is that of the file before its mode was changed. -/
theorem chownStat_spec {stat : Stat} {inode' : Inode} (h : fs.find path = some (file, inode'))
    (huid : stat.stUid = inode.uid) (hgid : stat.stGid = inode.gid) (env : NodeEnv)
    (uid gid : Unsigned) :
    fs.SameNodes (chownStat env fs path stat uid gid).2 ∧
      ((chownStat env fs path stat uid gid).1 = 0 ↔
        ((uid = -1 ∨ inode.uid = uid) ∧ (gid = -1 ∨ inode.gid = gid)) ∨
          env.mayChown file = true) := by
  have howner : statOwnerEq stat uid gid = 0 ↔
      (uid = -1 ∨ inode.uid = uid) ∧ (gid = -1 ∨ inode.gid = gid) := by
    rw [statOwnerEq, code_eq_zero one_ne_zero, statUidEq, statGidEq,
      code_eq_zero (Int.neg_ne_zero.2 one_ne_zero), code_eq_zero (Int.neg_ne_zero.2 one_ne_zero),
      huid, hgid]
  by_cases hown : statOwnerEq stat uid gid = 0
  · rw [chownStat, if_pos hown]
    exact ⟨NodeFs.SameNodes.refl fs, iff_of_true rfl (.inl (howner.1 hown))⟩
  · rw [chownStat, if_neg hown, ← howner, or_iff_right hown]
    exact NodeFs.chown_spec env h uid gid

theorem neg_codes_eq_zero {a b : ℤ} :
    -((if a ≠ 0 then 1 else 0) + (if b ≠ 0 then 2 else 0)) = (0 : ℤ) ↔ a = 0 ∧ b = 0 := by
  by_cases ha : a = 0
  · by_cases hb : b = 0
    · simp [ha, hb]
    · simp [ha, hb]
  · by_cases hb : b = 0
    · simp [ha, hb]
    · simp [ha, hb]

/-- The changes of a file that is kept. -/
theorem chmodChownStat_spec {stat : Stat} (h : fs.find path = some (file, inode))
    (hstat : fs.stat env path = some stat) (mode : Mode) (uid gid : Unsigned) :
    fs.SameNodes (chmodChownStat env fs path stat mode uid gid).2 ∧
      ((chmodChownStat env fs path stat mode uid gid).1 = 0 ↔
        ¬ ChangeRefused env file inode mode uid gid) := by
  obtain ⟨hsame, hcode⟩ : fs.SameNodes
      (if mode ≠ 0 then chmodStat env fs path stat mode else (0, fs)).2 ∧
      ((if mode ≠ 0 then chmodStat env fs path stat mode else (0, fs)).1 = 0 ↔
        ¬ (mode ≠ 0 ∧ inode.perm &&& permissionMask ≠ mode ∧ env.mayChmod file = false)) := by
    by_cases hmode : mode = 0
    · rw [if_neg (not_not.2 hmode)]
      exact ⟨NodeFs.SameNodes.refl fs, iff_of_true rfl fun hne => hne.1 hmode⟩
    · obtain ⟨hsame, hcode⟩ := chmodStat_spec mode h hstat
      rw [if_pos hmode]
      refine ⟨hsame, hcode.trans ?_⟩
      rw [and_iff_right hmode, not_and_or, not_not, Bool.not_eq_false]
  obtain ⟨inode', hfind', -⟩ := NodeFs.exists_of_node
    ((hsame.node path).trans (NodeFs.node_of_find h))
  have howner : stat.stUid = inode.uid ∧ stat.stGid = inode.gid := by
    rw [NodeFs.stat_of_find env h] at hstat
    cases hstat
    exact ⟨rfl, rfl⟩
  obtain ⟨hsame', hcode'⟩ := chownStat_spec hfind' howner.1 howner.2 env uid gid
  refine ⟨hsame.trans hsame', ?_⟩
  rw [ChangeRefused, not_or, chmodChownStat, neg_codes_eq_zero, hcode, hcode']
  refine and_congr_right fun _ => ?_
  rw [not_and_or, not_not, Bool.not_eq_false]

theorem createNode_blocked
    (h : ¬ (fs.entry path = none ∧ env.mayMknod path = true ∧
      NodeKind.ofMode (newMode devtype mode) dev ≠ none)) :
    createNode env fs path devtype dev mode uid gid = (-1, fs) := by
  have hmade : fs.mknod env path (newMode devtype mode) dev = (-1, fs) := by
    rw [NodeFs.mknod]
    cases hentry : fs.entry path with
    | some entry => rfl
    | none =>
      cases hkind : NodeKind.ofMode (newMode devtype mode) dev with
      | none => rfl
      | some kind =>
        have hmay : ¬ env.mayMknod path = true := fun hmay => h ⟨hentry, hmay, by simp [hkind]⟩
        exact if_neg hmay
  simp [createNode, hmade]

theorem createNode_created {kind : NodeKind} (uid gid : Unsigned)
    (hentry : fs.entry path = none) (hmay : env.mayMknod path = true)
    (hkind : NodeKind.ofMode (newMode devtype mode) dev = some kind) :
    ∃ fs' inode', createNode env fs path devtype dev mode uid gid =
        (if env.mayChown path = true then 0 else 1, fs') ∧
      fs'.log = .mknod path :: fs.log ∧ fs'.entry path = some (.file inode') ∧
      inode'.kind = kind := by
  let inode : Inode :=
    ⟨kind, newMode devtype mode &&& permissionMask &&& ~~~env.umask, env.uid, env.gid⟩
  let made : NodeFs :=
    ⟨Function.update fs.entry path (some (.file inode)), .mknod path :: fs.log⟩
  have hmade : fs.mknod env path (newMode devtype mode) dev = (0, made) := by
    rw [NodeFs.mknod, hentry, hkind]
    exact if_pos hmay
  have hfile : made.entry path = some (.file inode) := Function.update_self _ _ _
  obtain ⟨hsame, hcode⟩ := NodeFs.chown_spec env (NodeFs.find_of_entry hfile) uid gid
  obtain ⟨entry', hentry', hshape⟩ := Option.map_eq_some_iff.1
    ((hsame.shape path).trans (congrArg (Option.map DirEntry.shape) hfile))
  cases entry' with
  | symlink target => cases hshape
  | file inode' =>
    refine ⟨_, inode', ?_, hsame.log, hentry', Sum.inl.inj hshape⟩
    simp [createNode, hmade, hcode]

/-- What a call does. -/
inductive DonodOutcome (env : NodeEnv) (fs : NodeFs) (path : FilePath) (devtype : DevType)
    (dev : Dev) (mode : Mode) (uid gid : Unsigned) : ℤ → NodeFs → Prop
  /-- The file is kept, and its permissions and its owner are changed. -/
  | kept {file : FilePath} {inode : Inode} {ret : ℤ} {fs' : NodeFs}
      (hfind : fs.find path = some (file, inode)) (hdev : env.device file = dev)
      (htype : inode.kind.mode &&& devtype.mode ≠ 0)
      (hret : ret = 0 ↔ ¬ ChangeRefused env file inode mode uid gid) (hsame : fs.SameNodes fs') :
      DonodOutcome env fs path devtype dev mode uid gid ret fs'
  /-- Nothing can be done. -/
  | blocked (hkeep : ¬ Keeps env fs path devtype dev) (hrep : ¬ Replaces env fs path devtype dev)
      (hmake : ¬ (Frees env fs path devtype dev ∧ env.mayMknod path = true ∧
        NodeKind.ofMode (newMode devtype mode) dev ≠ none)) :
      DonodOutcome env fs path devtype dev mode uid gid (-1) fs
  /-- The file is removed, and no node is created. -/
  | removed {fs' : NodeFs} (hrep : Replaces env fs path devtype dev)
      (hmake : ¬ (env.mayMknod path = true ∧ NodeKind.ofMode (newMode devtype mode) dev ≠ none))
      (hlog : fs'.log = .unlink path :: fs.log) (hentry : fs'.entry path = none) :
      DonodOutcome env fs path devtype dev mode uid gid (-1) fs'
  /-- A node is created. -/
  | created {kind : NodeKind} {inode : Inode} {fs' : NodeFs}
      (hkeep : ¬ Keeps env fs path devtype dev) (hmay : env.mayMknod path = true)
      (hkind : NodeKind.ofMode (newMode devtype mode) dev = some kind)
      (hlog : Replaces env fs path devtype dev ∧
          fs'.log = [.mknod path, .unlink path] ++ fs.log ∨
        fs.entry path = none ∧ fs'.log = [.mknod path] ++ fs.log)
      (hentry : fs'.entry path = some (.file inode)) (hinode : inode.kind = kind) :
      DonodOutcome env fs path devtype dev mode uid gid
        (if env.mayChown path = true then 0 else 1) fs'

theorem NodeFs.unlink_blocked (h : ¬ CanUnlink env fs path) : fs.unlink env path = (-1, fs) := by
  rw [NodeFs.unlink]
  split
  · rfl
  · rfl
  · next entry hdir hentry =>
    refine if_neg fun hmay => h ⟨hmay, entry, hentry, ?_⟩
    intro hshape
    rcases entry with ⟨kind, perm, uid, gid⟩ | target
    · obtain rfl : kind = .dir := Sum.inl.inj hshape
      exact hdir perm uid gid rfl
    · cases hshape

theorem NodeFs.unlink_removed (h : CanUnlink env fs path) :
    fs.unlink env path =
      (0, ⟨Function.update fs.entry path none, .unlink path :: fs.log⟩) := by
  obtain ⟨hmay, entry, hentry, hdir⟩ := h
  rw [NodeFs.unlink, hentry]
  split
  · next heq => cases heq
  · next heq =>
    cases heq
    exact absurd rfl hdir
  · exact if_pos hmay

theorem NodeFs.node_eq_none_of_entry (h : fs.entry path = none) : fs.node path = none := by
  rw [NodeFs.node, NodeFs.find, NodeFs.follow, h]
  rfl

theorem not_keeps_of_node (h : fs.node path = none) : ¬ Keeps env fs path devtype dev := by
  rintro ⟨file, kind, hnode, -⟩
  rw [h] at hnode
  cases hnode

/-- **What a call does.** -/
theorem devfsDonod_cases (env : NodeEnv) (fs : NodeFs) (path : FilePath) (devtype : DevType)
    (maj min : Unsigned) (mode : Mode) (uid gid : Unsigned) :
    DonodOutcome env fs path devtype (makedev maj min) mode uid gid
      (devfsDonod env fs path devtype maj min mode uid gid).1
      (devfsDonod env fs path devtype maj min mode uid gid).2 := by
  rcases hfind : fs.find path with _ | ⟨file, inode⟩
  · have hnode : fs.node path = none := by
      rw [NodeFs.node, hfind]
      rfl
    have hrep : ¬ Replaces env fs path devtype (makedev maj min) := fun h => h.2.1 hnode
    have hstat : fs.stat env path = none := by
      rw [NodeFs.stat, hfind]
      rfl
    rw [devfsDonod, hstat]
    dsimp only
    by_cases hmake : fs.entry path = none ∧ env.mayMknod path = true ∧
        NodeKind.ofMode (newMode devtype mode) (makedev maj min) ≠ none
    · obtain ⟨hentry, hmay, hkind⟩ := hmake
      obtain ⟨kind, hkind⟩ := Option.ne_none_iff_exists'.1 hkind
      obtain ⟨fs', inode, hrun, hlog, hentry', hinode⟩ :=
        createNode_created uid gid hentry hmay hkind
      rw [hrun]
      exact .created (not_keeps_of_node hnode) hmay hkind (.inr ⟨hentry, hlog⟩) hentry' hinode
    · rw [createNode_blocked hmake]
      refine .blocked (not_keeps_of_node hnode) hrep fun h => hmake ⟨?_, h.2⟩
      exact h.1.resolve_left hrep
  · have hnode := NodeFs.node_of_find hfind
    have hstat := NodeFs.stat_of_find env hfind
    rw [devfsDonod, hstat]
    dsimp only
    rw [stat_type]
    by_cases hkeep : env.device file = makedev maj min ∧ inode.kind.mode &&& devtype.mode ≠ 0
    · rw [if_pos hkeep]
      obtain ⟨hsame, hcode⟩ := chmodChownStat_spec hfind hstat mode uid gid
      refine .kept hfind hkeep.1 hkeep.2 ?_ hsame
      rw [← hcode]
      simp
    · rw [if_neg hkeep]
      have hnot : ¬ Keeps env fs path devtype (makedev maj min) := by
        rintro ⟨file', kind, hnode', hdev, htype⟩
        rw [hnode] at hnode'
        cases hnode'
        exact hkeep ⟨hdev, htype⟩
      by_cases hunlink : CanUnlink env fs path
      · have hrep : Replaces env fs path devtype (makedev maj min) :=
          ⟨hnot, by simp [hnode], hunlink⟩
        rw [NodeFs.unlink_removed hunlink]
        dsimp only
        rw [if_neg (not_not.2 rfl)]
        have hfree : (⟨Function.update fs.entry path none, .unlink path :: fs.log⟩ : NodeFs).entry
            path = none := Function.update_self _ _ _
        by_cases hmake : env.mayMknod path = true ∧
            NodeKind.ofMode (newMode devtype mode) (makedev maj min) ≠ none
        · obtain ⟨hmay, hkind⟩ := hmake
          obtain ⟨kind, hkind⟩ := Option.ne_none_iff_exists'.1 hkind
          obtain ⟨fs', inode', hrun, hlog, hentry', hinode⟩ :=
            createNode_created uid gid hfree hmay hkind
          rw [hrun]
          exact .created hnot hmay hkind (.inl ⟨hrep, hlog⟩) hentry' hinode
        · rw [createNode_blocked fun h => hmake h.2]
          exact .removed hrep hmake rfl hfree
      · rw [NodeFs.unlink_blocked hunlink]
        have hrep : ¬ Replaces env fs path devtype (makedev maj min) := fun h => hunlink h.2.2
        refine .blocked hnot hrep ?_
        rintro ⟨hfree, -⟩
        rw [NodeFs.node_eq_none_of_entry (hfree.resolve_left hrep)] at hnode
        cases hnode

/-! ## Idempotence -/

/-- A node of exactly this type and number. -/
def NodeFs.IsNode (fs : NodeFs) (path : FilePath) (devtype : DevType) (dev : Dev) : Prop :=
  ∃ file, fs.node path = some (file, devtype.node dev)

/-- **Creating a node is idempotent**: a node that is there is not replaced, a successful
    call ends with the node, and a second call removes nothing. -/
def DonodIdempotent (env : NodeEnv) (fs : NodeFs) (path : FilePath) (devtype : DevType)
    (maj min : Unsigned) (mode : Mode) (uid gid : Unsigned) : Prop :=
  let first := devfsDonod env fs path devtype maj min mode uid gid
  let second := devfsDonod env first.2 path devtype maj min mode uid gid
  (fs.IsNode path devtype (makedev maj min) → first.2.log = fs.log) ∧
    (first.1 = 0 → first.2.IsNode path devtype (makedev maj min)) ∧
    ∃ ops, second.2.log = ops ++ first.2.log ∧ ∀ path', .unlink path' ∉ ops

variable {ret : ℤ} {fs' : NodeFs}

theorem not_replaces_of_entry (h : fs.entry path = none) :
    ¬ Replaces env fs path devtype dev := fun hrep => hrep.2.1 (NodeFs.node_eq_none_of_entry h)

theorem keeps_of_find (hfind : fs.find path = some (file, inode)) (hdev : env.device file = dev)
    (htype : inode.kind.mode &&& devtype.mode ≠ 0) : Keeps env fs path devtype dev :=
  ⟨file, inode.kind, NodeFs.node_of_find hfind, hdev, htype⟩

theorem not_frees_of_keeps (h : Keeps env fs path devtype dev) :
    ¬ Frees env fs path devtype dev := by
  rintro (hrep | hentry)
  · exact hrep.1 h
  · exact not_keeps_of_node (NodeFs.node_eq_none_of_entry hentry) h

/-- The calls that change directories. -/
theorem DonodOutcome.ops (h : DonodOutcome env fs path devtype dev mode uid gid ret fs') :
    ∃ ops, fs'.log = ops ++ fs.log ∧
      ((∀ path', .unlink path' ∉ ops) ↔ ¬ Replaces env fs path devtype dev) ∧
      (fs.node path ≠ none → (ops = [] ↔ ¬ Replaces env fs path devtype dev)) := by
  cases h with
  | kept hfind hdev htype hret hsame =>
    have hrep : ¬ Replaces env fs path devtype dev := fun h =>
      h.1 (keeps_of_find hfind hdev htype)
    exact ⟨[], hsame.log, by simp [hrep], by simp [hrep]⟩
  | blocked hkeep hrep hmake => exact ⟨[], rfl, by simp [hrep], by simp [hrep]⟩
  | removed hrep hmake hlog hentry =>
    exact ⟨[.unlink path], hlog, by simp [hrep], by simp [hrep]⟩
  | created hkeep hmay hkind hlog hentry hinode =>
    obtain ⟨hrep, hlog⟩ | ⟨hfree, hlog⟩ := hlog
    · exact ⟨_, hlog, by simp [hrep], by simp [hrep]⟩
    · exact ⟨_, hlog, by simp [not_replaces_of_entry hfree],
        fun hnode => absurd (NodeFs.node_eq_none_of_entry hfree) hnode⟩

theorem DonodOutcome.unlinks_iff
    (h : DonodOutcome env fs path devtype dev mode uid gid ret fs') :
    (∃ ops, fs'.log = ops ++ fs.log ∧ ∀ path', .unlink path' ∉ ops) ↔
      ¬ Replaces env fs path devtype dev := by
  obtain ⟨ops, hlog, hunlink, -⟩ := h.ops
  rw [← hunlink]
  constructor
  · rintro ⟨ops', hlog', hno⟩
    rwa [List.append_cancel_right (hlog.symm.trans hlog')]
  · exact fun hno => ⟨ops, hlog, hno⟩

theorem DonodOutcome.log_eq_iff
    (h : DonodOutcome env fs path devtype dev mode uid gid ret fs') (hnode : fs.node path ≠ none) :
    fs'.log = fs.log ↔ ¬ Replaces env fs path devtype dev := by
  obtain ⟨ops, hlog, -, hempty⟩ := h.ops
  rw [← hempty hnode, hlog]
  simp

/-- When a new node is of the wrong kind, or is not on the device. -/
theorem DonodOutcome.isNode_iff
    (h : DonodOutcome env fs path devtype dev mode uid gid ret fs') :
    (ret = 0 → fs'.IsNode path devtype dev) ↔
      (∀ file inode, fs.find path = some (file, inode) → env.device file = dev →
        inode.kind.mode &&& devtype.mode ≠ 0 →
        inode.kind = devtype.node dev ∨ ChangeRefused env file inode mode uid gid) ∧
      ∀ kind, Frees env fs path devtype dev → env.mayMknod path = true →
        NodeKind.ofMode (newMode devtype mode) dev = some kind →
        kind = devtype.node dev ∨ env.mayChown path = false := by
  cases h with
  | @kept file inode _ _ hfind hdev htype hret hsame =>
    have hnode : fs'.IsNode path devtype dev ↔ inode.kind = devtype.node dev := by
      rw [NodeFs.IsNode, hsame.node, NodeFs.node_of_find hfind]
      simp
    have hfree := not_frees_of_keeps (keeps_of_find hfind hdev htype)
    rw [hret, hnode]
    constructor
    · intro himp
      refine ⟨fun file' inode' hfind' hdev' htype' => ?_, fun kind hfree' => absurd hfree' hfree⟩
      rw [hfind] at hfind'
      cases hfind'
      by_cases href : ChangeRefused env file inode mode uid gid
      · exact .inr href
      · exact .inl (himp href)
    · rintro ⟨hkept, -⟩ href
      exact (hkept file inode hfind hdev htype).resolve_right href
  | blocked hkeep hrep hmake =>
    refine iff_of_true (by simp) ⟨fun file inode hfind hdev htype => ?_,
      fun kind hfree hmay hkind => ?_⟩
    · exact absurd (keeps_of_find hfind hdev htype) hkeep
    · exact absurd ⟨hfree, hmay, by simp [hkind]⟩ hmake
  | removed hrep hmake hlog hentry =>
    refine iff_of_true (by simp) ⟨fun file inode hfind hdev htype => ?_,
      fun kind hfree hmay hkind => ?_⟩
    · exact absurd (keeps_of_find hfind hdev htype) hrep.1
    · exact absurd ⟨hmay, by simp [hkind]⟩ hmake
  | @created kind inode _ hkeep hmay hkind hlog hentry hinode =>
    have hnode : fs'.IsNode path devtype dev ↔ kind = devtype.node dev := by
      rw [NodeFs.IsNode, NodeFs.node_of_find (NodeFs.find_of_entry hentry), hinode]
      simp
    have hfree : Frees env fs path devtype dev := hlog.imp And.left And.left
    rw [hnode, code_eq_zero one_ne_zero]
    constructor
    · intro himp
      refine ⟨fun file' inode' hfind hdev htype =>
        absurd (keeps_of_find hfind hdev htype) hkeep, fun kind' _ _ hkind' => ?_⟩
      rw [hkind] at hkind'
      cases hkind'
      by_cases hchown : env.mayChown path = true
      · exact .inl (himp hchown)
      · exact .inr (Bool.eq_false_of_not_eq_true hchown)
    · rintro ⟨-, hcreated⟩ hchown
      rcases hcreated kind hfree hmay hkind with heq | hno
      · exact heq
      · rw [hchown] at hno
        cases hno

/-- When the next call replaces what is there. -/
theorem DonodOutcome.replaces_iff
    (h : DonodOutcome env fs path devtype dev mode uid gid ret fs') :
    ¬ Replaces env fs' path devtype dev ↔
      ∀ kind, Frees env fs path devtype dev → env.mayMknod path = true →
        NodeKind.ofMode (newMode devtype mode) dev = some kind →
        env.device path = dev ∨ env.mayUnlink path = false := by
  cases h with
  | @kept file inode _ _ hfind hdev htype hret hsame =>
    have hkeep := keeps_of_find hfind hdev htype
    have hkeep' : Keeps env fs' path devtype dev := by
      rw [Keeps, hsame.node]
      exact hkeep
    exact iff_of_true (fun hrep => hrep.1 hkeep') fun kind hfree =>
      absurd hfree (not_frees_of_keeps hkeep)
  | blocked hkeep hrep hmake =>
    refine iff_of_true hrep fun kind hfree hmay hkind => ?_
    exact absurd ⟨hfree, hmay, by simp [hkind]⟩ hmake
  | removed hrep hmake hlog hentry =>
    refine iff_of_true (not_replaces_of_entry hentry) fun kind hfree hmay hkind => ?_
    exact absurd ⟨hmay, by simp [hkind]⟩ hmake
  | @created kind inode _ hkeep hmay hkind hlog hentry hinode =>
    have hfree : Frees env fs path devtype dev := hlog.imp And.left And.left
    have hfind := NodeFs.find_of_entry hentry
    have htype : inode.kind.mode &&& devtype.mode ≠ 0 := by
      rw [hinode, NodeKind.ofMode_type hkind]
      exact devtype.mode_ne_zero
    have hkeeps : Keeps env fs' path devtype dev ↔ env.device path = dev := by
      constructor
      · rintro ⟨file, kind', hnode, hdev, -⟩
        rw [NodeFs.node_of_find hfind] at hnode
        cases hnode
        exact hdev
      · exact fun hdev => keeps_of_find hfind hdev htype
    have hunlink : CanUnlink env fs' path ↔ env.mayUnlink path = true := by
      refine and_iff_left ⟨_, hentry, ?_⟩
      intro hdir
      obtain rfl : kind = .dir := hinode.symm.trans (Sum.inl.inj hdir)
      exact NodeKind.ofMode_ne_dir hkind
    have hrep : Replaces env fs' path devtype dev ↔
        env.device path ≠ dev ∧ env.mayUnlink path = true := by
      rw [Replaces, hkeeps, hunlink]
      simp [NodeFs.node_of_find hfind]
    rw [hrep, not_and_or, not_not, Bool.not_eq_true]
    exact ⟨fun hor _ _ _ _ => hor, fun hall => hall kind hfree hmay hkind⟩

/-- The states in which the comparisons of the code are no mistake. -/
structure DonodSafe (env : NodeEnv) (fs : NodeFs) (path : FilePath) (devtype : DevType)
    (dev : Dev) (mode : Mode) (uid gid : Unsigned) : Prop where
  /-- The right node is on the device itself, or it cannot be removed. -/
  exact : ∀ file, fs.node path = some (file, devtype.node dev) → env.device file = dev ∨
    ¬ CanUnlink env fs path
  /-- Other files on the device that have a bit of the type cannot be changed. -/
  kept : ∀ file inode, fs.find path = some (file, inode) → env.device file = dev →
    inode.kind.mode &&& devtype.mode ≠ 0 →
    inode.kind = devtype.node dev ∨ ChangeRefused env file inode mode uid gid
  /-- A node that is created is the right one, or it cannot be changed; it is on the device,
      or it cannot be removed. -/
  created : ∀ kind, Frees env fs path devtype dev → env.mayMknod path = true →
    NodeKind.ofMode (newMode devtype mode) dev = some kind →
    (kind = devtype.node dev ∨ env.mayChown path = false) ∧
      (env.device path = dev ∨ env.mayUnlink path = false)

/-- A node of the right type and number is replaced if it is not on the device itself. -/
theorem replaces_node (h : fs.node path = some (file, devtype.node dev)) :
    ¬ Replaces env fs path devtype dev ↔ env.device file = dev ∨ ¬ CanUnlink env fs path := by
  have htype : (devtype.node dev).mode &&& devtype.mode ≠ 0 := by
    cases devtype <;> simp [DevType.node, NodeKind.mode, DevType.mode]
  have hkeeps : Keeps env fs path devtype dev ↔ env.device file = dev := by
    constructor
    · rintro ⟨file', kind, hnode, hdev, -⟩
      rw [h] at hnode
      cases hnode
      exact hdev
    · exact fun hdev => ⟨file, _, h, hdev, htype⟩
  rw [Replaces, hkeeps]
  simp [h, imp_iff_not_or]

/-- **When creating nodes is idempotent.** -/
theorem donodIdempotent_iff (env : NodeEnv) (fs : NodeFs) (path : FilePath) (devtype : DevType)
    (maj min : Unsigned) (mode : Mode) (uid gid : Unsigned) :
    DonodIdempotent env fs path devtype maj min mode uid gid ↔
      DonodSafe env fs path devtype (makedev maj min) mode uid gid := by
  have first := devfsDonod_cases env fs path devtype maj min mode uid gid
  have second := devfsDonod_cases env (devfsDonod env fs path devtype maj min mode uid gid).2
    path devtype maj min mode uid gid
  have hexact : (fs.IsNode path devtype (makedev maj min) →
      (devfsDonod env fs path devtype maj min mode uid gid).2.log = fs.log) ↔
      ∀ file, fs.node path = some (file, devtype.node (makedev maj min)) →
        env.device file = makedev maj min ∨ ¬ CanUnlink env fs path := by
    constructor
    · intro himp file hnode
      rw [← replaces_node hnode, ← first.log_eq_iff (by simp [hnode])]
      exact himp ⟨file, hnode⟩
    · rintro hall ⟨file, hnode⟩
      rw [first.log_eq_iff (by simp [hnode]), replaces_node hnode]
      exact hall file hnode
  rw [DonodIdempotent, second.unlinks_iff, first.isNode_iff, first.replaces_iff, hexact]
  constructor
  · rintro ⟨hexact, ⟨hkept, hcreated⟩, hagain⟩
    exact ⟨hexact, hkept, fun kind hfree hmay hkind =>
      ⟨hcreated kind hfree hmay hkind, hagain kind hfree hmay hkind⟩⟩
  · rintro ⟨hexact, hkept, hcreated⟩
    exact ⟨hexact, ⟨hkept, fun kind hfree hmay hkind => (hcreated kind hfree hmay hkind).1⟩,
      fun kind hfree hmay hkind => (hcreated kind hfree hmay hkind).2⟩

/-- The path `/dev/null`. -/
def devNull : FilePath := [0x2F, 0x64, 0x65, 0x76, 0x2F, 0x6E, 0x75, 0x6C, 0x6C]

/-- A `/dev` on the device 0:5, where all is permitted. -/
def devtmpfs : NodeEnv :=
  ⟨fun _ => ⟨0, 5⟩, fun _ => true, fun _ => true, fun _ => true, fun _ => true, 0x12, 0, 0⟩

/-- `/dev/null` exists. -/
def withNull : NodeFs :=
  ⟨fun path => if path = devNull then some (.file ⟨.chr ⟨1, 3⟩, 0x1B6, 0, 0⟩) else none, []⟩

/-- `/dev/null`, which exists with the numbers 1 and 3, is replaced. -/
theorem dev_null_replaced : ¬ DonodIdempotent devtmpfs withNull devNull .chr 1 3 0x1B6 0 0 := by
  rintro ⟨hexact, -⟩
  have hlog : (devfsDonod devtmpfs withNull devNull .chr 1 3 0x1B6 0 0).2.log =
      [.mknod devNull, .unlink devNull] := by rfl
  have hnode : withNull.IsNode devNull .chr (makedev 1 3) := ⟨devNull, by rfl⟩
  rw [hlog] at hexact
  cases hexact hnode

end

end Fischstaebchen
