/-
  Unmounting a directory tree (`common/fs/umount.c`).

  `do_umount_recursive` collects the mountpoints in and below a root directory,
  sorts them by depth and unmounts the deepest ones first.

  * `getMountDepth_eq`: the depth of an absolute path is the number of its
    components, plus one if it ends in a slash.
  * `umountSelects_iff`: when the right mountpoints are unmounted.
  * `umountOrdered_iff`: when no mountpoint is unmounted before one below it.
-/
import Fischstaebchen.Lib.Insertion
import Fischstaebchen.Lib.Split
import Fischstaebchen.Strutil.Compare
import Fischstaebchen.Sys

namespace Fischstaebchen

/-! ## `do_umount` -/

/-- What `do_umount` prints: "Unmounting", "Lazy-unmounting" or "Failed to
    unmount". -/
inductive UmountMsg
  | unmounting (mp : CStr)
  | lazyUnmounting (mp : CStr)
  | failed (mp : CStr)
deriving DecidableEq

/-- `umount` and, with `MNT_DETACH`, `umount2`, on a kernel state. -/
structure UmountSys (κ : Type*) where
  umount : CStr → κ → SysAnswer × κ
  umount2 : CStr → κ → SysAnswer × κ

/-- The kernel state and the messages printed so far. -/
structure UmountState (κ : Type*) where
  kernel : κ
  messages : List UmountMsg

section
variable {κ : Type*}

def UmountState.print (st : UmountState κ) (msg : UmountMsg) : UmountState κ :=
  { st with messages := st.messages ++ [msg] }

/-- `do_umount`. -/
def doUmount (sys : UmountSys κ) (mp : CStr) (st : UmountState κ) : ℤ × UmountState κ :=
  let st := st.print (.unmounting mp)
  match sys.umount mp st.kernel with
  | (none, k) => (0, { st with kernel := k })
  | (some .EINVAL, k) | (some .ENOENT, k) => (1, { st with kernel := k })
  | (some .EBUSY, k) =>
    let st := { st with kernel := k }.print (.lazyUnmounting mp)
    match sys.umount2 mp st.kernel with
    | (none, k) => (2, { st with kernel := k })
    | (some .EINVAL, k) | (some .ENOENT, k) => (1, { st with kernel := k })
    | (some _, k) => (-1, { st with kernel := k }.print (.failed mp))
  | (some _, k) => (-1, { st with kernel := k }.print (.failed mp))

/-! ## Collecting mountpoints -/

/-- `struct umount_info`; `mp` is not NULL, see `_create_umount_info`. -/
structure UmountInfo where
  depth : ℤ
  mp : CStr
deriving DecidableEq

/-- The fields of `struct mntent` that are read. -/
structure Mntent where
  mntDir : CStr
  mntType : CStr
deriving DecidableEq

/-- The loop of `_get_mount_depth`; `skip` is set in its inner loop, which
    skips the slashes after a slash. -/
def mountDepthLoop (skip : Bool) : CStr → ℤ → ℤ
  | [], depth => depth
  | c :: s, depth =>
    if c = '/' then mountDepthLoop true s (if skip then depth else depth + 1)
    else mountDepthLoop false s depth

/-- `_get_mount_depth`. -/
def getMountDepth (mp : Option CStr) : ℤ :=
  match mp with
  | none => -1
  | some s => mountDepthLoop false s 0

/-- `_create_umount_info`. -/
def createUmountInfo (mp : CStr) (depth : ℤ) : UmountInfo := ⟨depth, mp⟩

/-- The cases `'\0'` and `'/'` of the switch over the remainder. -/
def atBoundary : CStr → Bool
  | [] => true
  | c :: _ => c = '/'

/-- `_add_mountpoint_to_dynarray`. -/
def addMountpointToDynarray (darr : List UmountInfo) (root : Option CStr) (mindepth : ℤ)
    (mp : CStr) : ℤ × List UmountInfo :=
  match root.elim (some mp) (strStartswith mp) with
  -- RETFAIL_IF_NULL
  | none => (-1, darr)
  | some rem =>
    if atBoundary rem then
      let depth := getMountDepth (some mp)
      (0, if depth ≥ mindepth then darr ++ [createUmountInfo mp depth] else darr)
    else (1, darr)

/-- `_is_empty_or_rootfs`. -/
def isEmptyOrRootfs (s : Option CStr) : ℤ :=
  if strIsEmpty s then 0 else if s = some "/".toList then 0 else 1

/-- `_deref_root_str`. -/
def derefRootStr (root : Option CStr) : Option CStr :=
  if isEmptyOrRootfs root = 0 then none else root

/-- The `getmntent` loop of `_read_mountpoint_to_dynarray`. -/
def readMountpointLoop (myRoot : Option CStr) (mindepth : ℤ) :
    List Mntent → List UmountInfo → ℤ × List UmountInfo
  | [], darr => (0, darr)
  | entry :: rest, darr =>
    if ¬ strIsEmpty (some entry.mntDir) ∧ entry.mntType ≠ "autofs".toList then
      let r := addMountpointToDynarray darr myRoot mindepth entry.mntDir
      if r.1 < 0 then (-1, r.2) else readMountpointLoop myRoot mindepth rest r.2
    else readMountpointLoop myRoot mindepth rest darr

/-- `_read_mountpoint_to_dynarray`; `mtab` is `none` if the file cannot be opened. -/
def readMountpointToDynarray (darr : List UmountInfo) (root : Option CStr)
    (mtab : Option (List Mntent)) (mindepth : ℤ) : ℤ × List UmountInfo :=
  match mtab with
  | none => (-1, darr)
  | some entries => readMountpointLoop (derefRootStr root) mindepth entries darr

/-! ## Sorting and unmounting -/

/-- `_umountsort_dynarray`: an insertion sort in which entries with a lower depth
    make room. -/
def umountsortDynarray (darr : List UmountInfo) : List UmountInfo :=
  Lib.inPlaceSort (fun u uinsert => decide (u.depth < uinsert.depth)) darr

/-- The loop of `_do_umount_dynarray`. -/
def doUmountLoop (sys : UmountSys κ) : List UmountInfo → ℤ → UmountState κ → ℤ × UmountState κ
  | [], retcode, st => (retcode, st)
  | uinfo :: rest, retcode, st =>
    let r := doUmount sys uinfo.mp st
    doUmountLoop sys rest (if r.1 = 0 ∨ r.1 = 1 ∨ r.1 = 2 then retcode else -1) r.2

/-- `_do_umount_dynarray`. -/
def doUmountDynarray (sys : UmountSys κ) (darr : List UmountInfo) (st : UmountState κ) :
    ℤ × UmountState κ :=
  doUmountLoop sys darr 0 st

/-- `do_umount_recursive`; `procMounts` is the content of `/proc/mounts`. -/
def doUmountRecursive (sys : UmountSys κ) (procMounts : Option (List Mntent)) (root : Option CStr)
    (mindepth : ℤ) (st : UmountState κ) : ℤ × UmountState κ :=
  let r := readMountpointToDynarray [] root procMounts mindepth
  if r.1 ≥ 0 then doUmountDynarray sys (umountsortDynarray r.2) st else (r.1, st)

/-- `umount_all_in`. -/
def umountAllIn (sys : UmountSys κ) (procMounts : Option (List Mntent)) (root : Option CStr) :
    UmountState κ → ℤ × UmountState κ :=
  doUmountRecursive sys procMounts root 1

/-- `umount_recursive`. -/
def umountRecursive (sys : UmountSys κ) (procMounts : Option (List Mntent)) (root : Option CStr) :
    UmountState κ → ℤ × UmountState κ :=
  doUmountRecursive sys procMounts root 0

/-! ## Attempts -/

/-- The mountpoint of a call of `do_umount`, which prints it first. -/
def UmountMsg.attempt : UmountMsg → Option CStr
  | .unmounting mp => some mp
  | _ => none

/-- The mountpoints for which `do_umount` has been called, in order. -/
def UmountState.attempts (st : UmountState κ) : List CStr :=
  st.messages.filterMap UmountMsg.attempt

/-- A call of `do_umount` is one attempt. -/
theorem doUmount_attempts (sys : UmountSys κ) (mp : CStr) (st : UmountState κ) :
    (doUmount sys mp st).2.attempts = st.attempts ++ [mp] := by
  unfold doUmount
  dsimp only
  split
  · simp [UmountState.attempts, UmountState.print, UmountMsg.attempt]
  · simp [UmountState.attempts, UmountState.print, UmountMsg.attempt]
  · simp [UmountState.attempts, UmountState.print, UmountMsg.attempt]
  · split <;> simp [UmountState.attempts, UmountState.print, UmountMsg.attempt]
  · simp [UmountState.attempts, UmountState.print, UmountMsg.attempt]

theorem doUmountLoop_attempts (sys : UmountSys κ) : ∀ (darr : List UmountInfo) (retcode : ℤ)
    (st : UmountState κ),
    (doUmountLoop sys darr retcode st).2.attempts = st.attempts ++ darr.map UmountInfo.mp
  | [], _, st => by simp [doUmountLoop]
  | u :: darr, _, st => by
    rw [doUmountLoop, doUmountLoop_attempts sys darr, doUmount_attempts]
    simp

/-- **Every entry is attempted once**, in order, whatever the attempts before it
    return. -/
theorem doUmountDynarray_attempts (sys : UmountSys κ) (darr : List UmountInfo) (k : κ) :
    (doUmountDynarray sys darr ⟨k, []⟩).2.attempts = darr.map UmountInfo.mp := by
  rw [doUmountDynarray, doUmountLoop_attempts]
  rfl

/-! ## Paths -/

/-- The components of a path: its non-empty parts between slashes. -/
def mountComponents (mp : CStr) : List CStr := Lib.runs (· == '/') mp

/-- Whether a path ends in a slash, as the root path does. -/
def EndsInSlash (mp : CStr) : Prop := mp.getLast? = some '/'

instance (mp : CStr) : Decidable (EndsInSlash mp) := inferInstanceAs (Decidable (_ = _))

/-- Whether a path starts with a slash. -/
def IsAbsolute (mp : CStr) : Prop := mp.head? = some '/'

instance (mp : CStr) : Decidable (IsAbsolute mp) := inferInstanceAs (Decidable (_ = _))

theorem mountDepthLoop_acc : ∀ (skip : Bool) (s : CStr) (depth : ℤ),
    mountDepthLoop skip s depth = depth + mountDepthLoop skip s 0
  | _, [], _ => by simp [mountDepthLoop]
  | skip, c :: s, depth => by
    by_cases hc : c = '/'
    · cases skip
      · simp only [mountDepthLoop, if_pos hc, Bool.false_eq_true, if_false]
        rw [mountDepthLoop_acc true s (depth + 1), mountDepthLoop_acc true s (0 + 1)]
        ring
      · simp only [mountDepthLoop, if_pos hc, if_true]
        rw [mountDepthLoop_acc true s depth]
    · simp only [mountDepthLoop, if_neg hc]
      exact mountDepthLoop_acc false s depth

theorem mountComponents_slash (s : CStr) : mountComponents ('/' :: s) = mountComponents s :=
  Lib.runs_cons_sep (by simp) s

/-- The depth after a slash, and after another char. -/
theorem mountDepthLoop_eq : ∀ s : CStr,
    (1 + mountDepthLoop true s 0 =
      (mountComponents s).length + if EndsInSlash ('/' :: s) then 1 else 0) ∧
    ∀ c, c ≠ '/' → 1 + mountDepthLoop false s 0 =
      (mountComponents (c :: s)).length + if EndsInSlash (c :: s) then 1 else 0
  | [] => by
    refine ⟨by simp [mountDepthLoop, mountComponents, EndsInSlash], fun c hc => ?_⟩
    have hw : mountComponents [c] = [[c]] := Lib.runs_word (by simp) (by simpa using hc)
    simp [mountDepthLoop, hw, EndsInSlash, hc]
  | a :: s => by
    obtain ⟨ihSlash, ihWord⟩ := mountDepthLoop_eq s
    have hends : ∀ b : Char, EndsInSlash (b :: a :: s) ↔ EndsInSlash (a :: s) := fun b => by
      simp [EndsInSlash]
    by_cases ha : a = '/'
    · subst ha
      have hskip : mountDepthLoop true ('/' :: s) 0 = mountDepthLoop true s 0 := rfl
      have hcount : mountDepthLoop false ('/' :: s) 0 = 1 + mountDepthLoop true s 0 :=
        mountDepthLoop_acc true s 1
      refine ⟨by simp only [hskip, hends, mountComponents_slash, ihSlash], fun c hc => ?_⟩
      have hword : mountComponents (c :: '/' :: s) = [c] :: mountComponents s := by
        have hw : mountComponents [c] = [[c]] := Lib.runs_word (by simp) (by simpa using hc)
        have h := Lib.runs_append_sep (p := (· == '/')) [c] (a := '/') (by simp) s
        rw [show Lib.runs (· == '/') [c] = [[c]] from hw] at h
        exact h
      rw [hcount, hword, ihSlash, List.length_cons]
      simp only [hends]
      push_cast
      ring
    · have hstep : ∀ skip, mountDepthLoop skip (a :: s) 0 = mountDepthLoop false s 0 := by
        simp [mountDepthLoop, ha]
      refine ⟨by simp only [hstep, hends]; exact ihWord a ha, fun c hc => ?_⟩
      have hlen : (mountComponents (c :: a :: s)).length = (mountComponents (a :: s)).length := by
        have hword : ∀ b : Char, b ≠ '/' → ∀ l, mountComponents (b :: l) =
            (b :: l.takeWhile fun x => !(x == '/')) ::
              mountComponents (l.dropWhile fun x => !(x == '/')) := fun b hb l =>
          Lib.runs_cons_word (p := (· == '/')) (by simpa using hb) l
        rw [hword c hc, hword a ha]
        simp [ha]
      rw [hstep, ihWord a ha, hlen]
      simp only [hends]

/-- **The depth of an absolute path** is the number of its components, plus one
    if it ends in a slash. -/
theorem getMountDepth_eq {mp : CStr} (h : IsAbsolute mp) :
    getMountDepth (some mp) =
      (mountComponents mp).length + if EndsInSlash mp then 1 else 0 := by
  obtain ⟨s, rfl⟩ : ∃ s, mp = '/' :: s := by
    cases mp with
    | nil => simp [IsAbsolute] at h
    | cons c s => exact ⟨s, by simpa [IsAbsolute] using h⟩
  have hcount : getMountDepth (some ('/' :: s)) = 1 + mountDepthLoop true s 0 :=
    mountDepthLoop_acc true s 1
  rw [hcount, (mountDepthLoop_eq s).1, mountComponents_slash]

/-! ## The order -/

/-- `p` is a proper ancestor directory of `q`. -/
def IsProperAncestor (p q : CStr) : Prop :=
  mountComponents p <+: mountComponents q ∧ mountComponents p ≠ mountComponents q

/-- The entries for the mountpoints `mps`. -/
def umountInfos (mps : List CStr) : List UmountInfo :=
  mps.map fun mp => createUmountInfo mp (getMountDepth (some mp))

/-- What sorting and unmounting the mountpoints `mps` is to do: the deepest
    come first, none is lost or attempted twice, and none comes before one
    below it. -/
structure UmountOrdered (sys : UmountSys κ) (k : κ) (mps : List CStr) : Prop where
  perm : (umountsortDynarray (umountInfos mps)).Perm (umountInfos mps)
  sorted : (umountsortDynarray (umountInfos mps)).Pairwise fun a b => b.depth ≤ a.depth
  stable : ∀ depth, (umountsortDynarray (umountInfos mps)).filter (·.depth = depth) =
    (umountInfos mps).filter (·.depth = depth)
  attempts : (doUmountDynarray sys (umountsortDynarray (umountInfos mps)) ⟨k, []⟩).2.attempts =
    (umountsortDynarray (umountInfos mps)).map UmountInfo.mp
  ancestors : (doUmountDynarray sys (umountsortDynarray (umountInfos mps))
    ⟨k, []⟩).2.attempts.Pairwise fun p q => ¬ IsProperAncestor p q

/-- `p` is the parent directory of `q`, but its trailing slash makes it as
    deep. -/
def IsDeepParent (p q : CStr) : Prop :=
  EndsInSlash p ∧ ¬ EndsInSlash q ∧ ∃ c, mountComponents q = mountComponents p ++ [c]

theorem IsDeepParent.depth_eq {p q : CStr} (h : IsDeepParent p q) (hp : IsAbsolute p)
    (hq : IsAbsolute q) : getMountDepth (some p) = getMountDepth (some q) := by
  obtain ⟨hsp, hsq, c, hc⟩ := h
  rw [getMountDepth_eq hp, getMountDepth_eq hq, if_pos hsp, if_neg hsq, hc]
  simp

/-- Only a deep parent is as deep as a path below it, and none is deeper. -/
theorem isDeepParent_iff {p q : CStr} (hp : IsAbsolute p) (hq : IsAbsolute q) :
    IsDeepParent p q ↔
      IsProperAncestor p q ∧ getMountDepth (some q) ≤ getMountDepth (some p) := by
  constructor
  · intro h
    obtain ⟨-, -, c, hc⟩ := id h
    exact ⟨⟨⟨[c], hc.symm⟩, by simp [hc]⟩, (h.depth_eq hp hq).ge⟩
  · rintro ⟨⟨⟨rest, hrest⟩, hne⟩, hle⟩
    rw [getMountDepth_eq hp, getMountDepth_eq hq, ← hrest, List.length_append] at hle
    have hpos : 0 < rest.length := by
      refine List.length_pos_iff.2 fun h => hne ?_
      rw [← hrest, h, List.append_nil]
    by_cases hsp : EndsInSlash p
    · by_cases hsq : EndsInSlash q
      · rw [if_pos hsp, if_pos hsq] at hle; omega
      · rw [if_pos hsp, if_neg hsq] at hle
        obtain ⟨c, rfl⟩ := List.length_eq_one_iff.1 (by omega : rest.length = 1)
        exact ⟨hsp, hsq, c, hrest.symm⟩
    · rw [if_neg hsp] at hle
      split_ifs at hle <;> omega

/-- Sorting puts an ancestor before a path below it exactly if it is a deep
    parent that came before it. -/
theorem umountsort_ancestors {darr : List UmountInfo}
    (h : ∀ u ∈ darr, IsAbsolute u.mp ∧ u.depth = getMountDepth (some u.mp)) :
    ((umountsortDynarray darr).Pairwise fun a b => ¬ IsProperAncestor a.mp b.mp) ↔
      darr.Pairwise fun a b => ¬ IsDeepParent a.mp b.mp := by
  rw [List.pairwise_iff_forall_sublist, List.pairwise_iff_forall_sublist]
  constructor
  · intro hsort a b hab hdeep
    obtain ⟨ha, hda⟩ := h a (hab.subset (by simp))
    obtain ⟨hb, hdb⟩ := h b (hab.subset (by simp))
    obtain ⟨hanc, -⟩ := (isDeepParent_iff ha hb).1 hdeep
    have hdepth : a.depth = b.depth := by rw [hda, hdb, hdeep.depth_eq ha hb]
    exact hsort ((Lib.pair_sublist_inPlaceSort UmountInfo.depth hdepth).2 hab) hanc
  · intro hlist a b hab hanc
    obtain ⟨ha, hda⟩ := h a ((Lib.inPlaceSort_perm UmountInfo.depth darr).subset
      (hab.subset (by simp)))
    obtain ⟨hb, hdb⟩ := h b ((Lib.inPlaceSort_perm UmountInfo.depth darr).subset
      (hab.subset (by simp)))
    have hle : b.depth ≤ a.depth := List.pairwise_iff_forall_sublist.1
      (Lib.inPlaceSort_sorted UmountInfo.depth darr) hab
    have hdeep := (isDeepParent_iff ha hb).2 ⟨hanc, by rw [← hda, ← hdb]; exact hle⟩
    have hdepth : a.depth = b.depth := by rw [hda, hdb, hdeep.depth_eq ha hb]
    exact hlist ((Lib.pair_sublist_inPlaceSort UmountInfo.depth hdepth).1 hab) hdeep

/-- **The order of unmounting** is right exactly if no mountpoint that ends in a
    slash, such as the root path, is listed before one of its direct
    subdirectories (without trailing slash). -/
theorem umountOrdered_iff (sys : UmountSys κ) (k : κ) {mps : List CStr}
    (habs : ∀ mp ∈ mps, IsAbsolute mp) :
    UmountOrdered sys k mps ↔ mps.Pairwise fun p q => ¬ IsDeepParent p q := by
  have hinfos : ∀ u ∈ umountInfos mps, IsAbsolute u.mp ∧ u.depth = getMountDepth (some u.mp) := by
    intro u hu
    obtain ⟨mp, hmp, rfl⟩ := List.mem_map.1 hu
    exact ⟨habs mp hmp, rfl⟩
  have hanc : (umountInfos mps).Pairwise (fun a b => ¬ IsDeepParent a.mp b.mp) ↔
      mps.Pairwise fun p q => ¬ IsDeepParent p q := List.pairwise_map
  have hattempts := doUmountDynarray_attempts sys (umountsortDynarray (umountInfos mps)) k
  rw [← hanc, ← umountsort_ancestors hinfos]
  constructor
  · intro h
    have hord := h.ancestors
    rw [hattempts] at hord
    exact List.pairwise_map.1 hord
  · intro h
    refine ⟨?_, ?_, fun depth => ?_, hattempts, ?_⟩
    · exact Lib.inPlaceSort_perm UmountInfo.depth _
    · exact Lib.inPlaceSort_sorted UmountInfo.depth _
    · exact Lib.inPlaceSort_stable UmountInfo.depth _ depth
    · rw [hattempts]; exact List.pairwise_map.2 h

end

/-- A kernel on which every `umount` succeeds. -/
def successfulUmount : UmountSys Unit := ⟨fun _ k => (none, k), fun _ k => (none, k)⟩

/-- The order for a directory and one below it. -/
theorem umountOrdered_nested :
    UmountOrdered successfulUmount () ["/newroot".toList, "/newroot/usr".toList] ↔
      ["/newroot".toList, "/newroot/usr".toList].Pairwise fun p q => ¬ IsDeepParent p q :=
  umountOrdered_iff successfulUmount () (by decide)

/-- The root path is listed first and unmounted before the mountpoints below it. -/
theorem umountOrdered_root :
    ¬ UmountOrdered successfulUmount () ["/".toList, "/proc".toList] ∧
      (doUmountDynarray successfulUmount (umountsortDynarray (umountInfos
        ["/".toList, "/proc".toList])) ⟨(), []⟩).2.attempts = ["/".toList, "/proc".toList] := by
  have hattempts : (doUmountDynarray successfulUmount (umountsortDynarray (umountInfos
      ["/".toList, "/proc".toList])) ⟨(), []⟩).2.attempts = ["/".toList, "/proc".toList] := by
    decide
  refine ⟨fun h => ?_, hattempts⟩
  have hord := h.ancestors
  rw [hattempts, List.pairwise_pair] at hord
  exact hord ⟨by decide, by decide⟩

/-! ## The selection -/

section
variable {κ : Type*} {root : Option CStr} {mindepth : ℤ}

/-- The path that every mountpoint in or below the root directory starts with;
    NULL, the empty path and `/` stand for all mountpoints. -/
def rootPrefix (root : Option CStr) : CStr :=
  if root = some "/".toList then [] else root.getD []

/-- `mp` is in or below the root directory, at the relative path `rem`. -/
def IsBelow (root : Option CStr) (mp rem : CStr) : Prop :=
  mp = rootPrefix root ++ rem ∧ (rem = [] ∨ IsAbsolute rem)

/-- The mounts that are to be unmounted: those in or below the root directory,
    by at least `mindepth` components, that are not of type autofs. -/
def IsSelected (root : Option CStr) (mindepth : ℤ) (e : Mntent) : Prop :=
  e.mntType ≠ "autofs".toList ∧
    ∃ rem, IsBelow root e.mntDir rem ∧ mindepth ≤ (mountComponents rem).length

theorem isSelected_iff (e : Mntent) :
    IsSelected root mindepth e ↔
      e.mntType ≠ "autofs".toList ∧ IsBelow root e.mntDir (e.mntDir.drop (rootPrefix root).length) ∧
        mindepth ≤ (mountComponents (e.mntDir.drop (rootPrefix root).length)).length := by
  constructor
  · rintro ⟨htype, rem, hbelow, hle⟩
    have hrem : e.mntDir.drop (rootPrefix root).length = rem := by rw [hbelow.1]; simp
    rw [hrem]
    exact ⟨htype, hbelow, hle⟩
  · rintro ⟨htype, hbelow, hle⟩
    exact ⟨htype, _, hbelow, hle⟩

instance (root : Option CStr) (mp rem : CStr) : Decidable (IsBelow root mp rem) :=
  inferInstanceAs (Decidable (_ ∧ _))

instance (e : Mntent) : Decidable (IsSelected root mindepth e) :=
  decidable_of_iff _ (isSelected_iff e).symm

/-- The calls of `do_umount` are those for the selected mounts, one for each. -/
def UmountSelects (sys : UmountSys κ) (k : κ) (table : List Mntent) (root : Option CStr)
    (mindepth : ℤ) : Prop :=
  (doUmountRecursive sys (some table) root mindepth ⟨k, []⟩).2.attempts.Perm
    ((table.filter fun e => IsSelected root mindepth e).map Mntent.mntDir)

/-! ### What the code collects -/

/-- The mounts that are not of type autofs. -/
def candidates (table : List Mntent) : List Mntent :=
  table.filter fun e => e.mntType ≠ "autofs".toList

/-- The mounts that the code collects: it compares `mindepth` with the depth of
    the mountpoint, not with that of its path below the root directory. -/
def IsCollected (root : Option CStr) (mindepth : ℤ) (e : Mntent) : Prop :=
  IsBelow root e.mntDir (e.mntDir.drop (rootPrefix root).length) ∧
    mindepth ≤ getMountDepth (some e.mntDir)

instance (e : Mntent) : Decidable (IsCollected root mindepth e) :=
  inferInstanceAs (Decidable (_ ∧ _))

theorem atBoundary_iff (rem : CStr) : atBoundary rem = true ↔ rem = [] ∨ IsAbsolute rem := by
  cases rem <;> simp [atBoundary, IsAbsolute]

/-- The remainder of a mountpoint after the root directory. -/
theorem derefRootStr_elim (mp : CStr) :
    (derefRootStr root).elim (some mp) (strStartswith mp) = strStartswith mp (rootPrefix root) := by
  have hnil : strStartswith mp [] = some mp := strStartswith_eq_some.2 (by simp)
  unfold derefRootStr isEmptyOrRootfs rootPrefix
  cases root with
  | none => simp [strIsEmpty, hnil]
  | some r =>
    by_cases hr : r = "/".toList
    · simp [hr, strIsEmpty, hnil]
    · have hr' : some r ≠ some "/".toList := by simpa using hr
      by_cases he : r = []
      · simp [he, strIsEmpty, hnil]
      · rw [if_neg hr', if_neg (by simpa [strIsEmpty] using he), if_neg hr']
        rfl

/-- Adding a mountpoint. -/
theorem addMountpointToDynarray_eq (darr : List UmountInfo) (e : Mntent) :
    addMountpointToDynarray darr (derefRootStr root) mindepth e.mntDir =
      if rootPrefix root <+: e.mntDir then
        if IsBelow root e.mntDir (e.mntDir.drop (rootPrefix root).length) then
          (0, if IsCollected root mindepth e then
            darr ++ [createUmountInfo e.mntDir (getMountDepth (some e.mntDir))] else darr)
        else (1, darr)
      else (-1, darr) := by
  rw [addMountpointToDynarray, derefRootStr_elim]
  by_cases hpre : rootPrefix root <+: e.mntDir
  · obtain ⟨rem, hrem⟩ := hpre
    have hdrop : e.mntDir.drop (rootPrefix root).length = rem := by rw [← hrem]; simp
    have hbelow : IsBelow root e.mntDir rem ↔ atBoundary rem = true := by
      rw [IsBelow, atBoundary_iff]; simp [hrem]
    rw [strStartswith_eq_some.2 hrem.symm, if_pos ⟨rem, hrem⟩]
    simp only [IsCollected, hdrop, hbelow]
    by_cases hb : atBoundary rem = true <;> simp [hb]
  · rw [strStartswith_eq_none.2 hpre, if_neg hpre]

theorem candidates_cons (e : Mntent) (table : List Mntent) :
    candidates (e :: table) =
      if e.mntType = "autofs".toList then candidates table else e :: candidates table := by
  unfold candidates
  split_ifs with h
  · exact List.filter_cons_of_neg (by rw [decide_eq_true_eq]; exact not_not.2 h)
  · exact List.filter_cons_of_pos (by rw [decide_eq_true_eq]; exact h)

theorem readMountpointLoop_cons {e : Mntent} (he : IsAbsolute e.mntDir) (table : List Mntent)
    (darr : List UmountInfo) :
    readMountpointLoop (derefRootStr root) mindepth (e :: table) darr =
      if e.mntType = "autofs".toList then readMountpointLoop (derefRootStr root) mindepth table darr
      else if rootPrefix root <+: e.mntDir then
        readMountpointLoop (derefRootStr root) mindepth table
          (if IsCollected root mindepth e then
            darr ++ [createUmountInfo e.mntDir (getMountDepth (some e.mntDir))] else darr)
      else (-1, darr) := by
  have hne : strIsEmpty (some e.mntDir) = false := by
    cases hd : e.mntDir <;> simp [hd, IsAbsolute, strIsEmpty] at he ⊢
  rw [readMountpointLoop, hne]
  by_cases htype : e.mntType = "autofs".toList
  · rw [if_neg fun h => h.2 htype, if_pos htype]
  · rw [if_pos ⟨by simp, htype⟩, if_neg htype, addMountpointToDynarray_eq]
    by_cases hpre : rootPrefix root <+: e.mntDir
    · rw [if_pos hpre, if_pos hpre]
      by_cases hb : IsBelow root e.mntDir (e.mntDir.drop (rootPrefix root).length)
      · rw [if_pos hb]; rfl
      · rw [if_neg hb, if_neg fun h : IsCollected root mindepth e => hb h.1]; rfl
    · rw [if_neg hpre, if_neg hpre]; rfl

/-- If all candidates start with the root directory, the loop collects. -/
theorem readMountpointLoop_collects : ∀ (table : List Mntent) (darr : List UmountInfo),
    (∀ e ∈ table, IsAbsolute e.mntDir) → (∀ e ∈ candidates table, rootPrefix root <+: e.mntDir) →
    readMountpointLoop (derefRootStr root) mindepth table darr =
      (0, darr ++ umountInfos
        (((candidates table).filter fun e => IsCollected root mindepth e).map Mntent.mntDir))
  | [], darr, _, _ => (congrArg (Prod.mk 0) (List.append_nil darr)).symm
  | e :: table, darr, habs, hpre => by
    rw [candidates_cons] at hpre ⊢
    rw [readMountpointLoop_cons (habs e (by simp))]
    have hrest : ∀ e' ∈ table, IsAbsolute e'.mntDir := fun e' he' => habs e' (by simp [he'])
    by_cases htype : e.mntType = "autofs".toList
    · simp only [if_pos htype] at hpre ⊢
      exact readMountpointLoop_collects table darr hrest hpre
    · simp only [if_neg htype, List.forall_mem_cons] at hpre ⊢
      rw [if_pos hpre.1, readMountpointLoop_collects table _ hrest hpre.2, List.filter_cons]
      by_cases hc : IsCollected root mindepth e
      · rw [if_pos hc, decide_eq_true hc, if_pos rfl, List.append_assoc]
        rfl
      · rw [if_neg hc, decide_eq_false hc, if_neg (by simp)]

/-- Otherwise it fails. -/
theorem readMountpointLoop_fails : ∀ (table : List Mntent) (darr : List UmountInfo),
    (∀ e ∈ table, IsAbsolute e.mntDir) → (∃ e ∈ candidates table, ¬ rootPrefix root <+: e.mntDir) →
    (readMountpointLoop (derefRootStr root) mindepth table darr).1 = -1
  | [], _, _, ⟨_, he, _⟩ => absurd he List.not_mem_nil
  | e :: table, darr, habs, h => by
    rw [candidates_cons] at h
    rw [readMountpointLoop_cons (habs e (by simp))]
    have hrest : ∀ e' ∈ table, IsAbsolute e'.mntDir := fun e' he' => habs e' (by simp [he'])
    by_cases htype : e.mntType = "autofs".toList
    · simp only [if_pos htype] at h ⊢
      exact readMountpointLoop_fails table darr hrest h
    · simp only [if_neg htype, List.exists_mem_cons_iff] at h ⊢
      by_cases hpre : rootPrefix root <+: e.mntDir
      · rw [if_pos hpre]
        exact readMountpointLoop_fails table _ hrest (h.resolve_left (not_not.2 hpre))
      · rw [if_neg hpre]

/-- **The calls of `do_umount`**: none if some candidate does not start with the
    root directory, else those for the collected mounts. -/
theorem doUmountRecursive_attempts (sys : UmountSys κ) (k : κ) {table : List Mntent}
    (habs : ∀ e ∈ table, IsAbsolute e.mntDir) :
    (doUmountRecursive sys (some table) root mindepth ⟨k, []⟩).2.attempts.Perm
      (if ∀ e ∈ candidates table, rootPrefix root <+: e.mntDir then
        ((candidates table).filter fun e => IsCollected root mindepth e).map Mntent.mntDir
      else []) := by
  split_ifs with hpre
  · rw [doUmountRecursive, readMountpointToDynarray, readMountpointLoop_collects table [] habs hpre,
      if_pos (le_refl 0), List.nil_append, doUmountDynarray_attempts]
    refine ((Lib.inPlaceSort_perm UmountInfo.depth _).map UmountInfo.mp).trans ?_
    rw [umountInfos, List.map_map]
    exact List.Perm.of_eq (List.map_id' _)
  · have hfail : (readMountpointLoop (derefRootStr root) mindepth table []).1 = -1 :=
      readMountpointLoop_fails table [] habs (by simpa using hpre)
    rw [doUmountRecursive, readMountpointToDynarray, if_neg (by rw [hfail]; decide)]
    rfl

/-- Every mount that is to be unmounted is deep enough to be collected. -/
theorem IsSelected.isCollected {e : Mntent} (h : IsSelected root mindepth e)
    (he : IsAbsolute e.mntDir) : IsCollected root mindepth e := by
  obtain ⟨-, hbelow, hle⟩ := (isSelected_iff e).1 h
  refine ⟨hbelow, hle.trans ?_⟩
  set rem := e.mntDir.drop (rootPrefix root).length
  have hcomp : (mountComponents rem).length ≤ (mountComponents e.mntDir).length := by
    rw [hbelow.1]
    rcases hbelow.2 with hrem | hrem
    · simp [hrem, mountComponents]
    · obtain ⟨s, hs⟩ : ∃ s, rem = '/' :: s := by
        cases hr : rem with
        | nil => simp [hr, IsAbsolute] at hrem
        | cons c s => exact ⟨s, by simpa [hr, IsAbsolute] using hrem⟩
      rw [hs, mountComponents_slash]
      simp [mountComponents, Lib.runs_append_sep]
  rw [getMountDepth_eq he]
  split_ifs <;> omega

/-- A mountpoint in or below the root directory that lies too high, but whose
    path is deep enough. -/
def IsMisjudged (root : Option CStr) (mindepth : ℤ) (e : Mntent) : Prop :=
  IsCollected root mindepth e ∧
    (mountComponents (e.mntDir.drop (rootPrefix root).length)).length < mindepth

/-- **The right mounts are unmounted** exactly if either all candidates start
    with the root directory and none of them is misjudged, or some candidate
    does not and there is nothing to unmount at all. -/
theorem umountSelects_iff (sys : UmountSys κ) (k : κ) {table : List Mntent}
    (habs : ∀ e ∈ table, IsAbsolute e.mntDir) :
    UmountSelects sys k table root mindepth ↔
      (∀ e ∈ candidates table, rootPrefix root <+: e.mntDir) ∧
          (∀ e ∈ candidates table, ¬ IsMisjudged root mindepth e) ∨
        (∃ e ∈ candidates table, ¬ rootPrefix root <+: e.mntDir) ∧
          ∀ e ∈ table, ¬ IsSelected root mindepth e := by
  have hcalls := @doUmountRecursive_attempts _ root mindepth sys k _ habs
  have hcand : ∀ e ∈ candidates table, IsAbsolute e.mntDir := fun e he =>
    habs e (List.mem_filter.1 he).1
  have hsel : (table.filter fun e => IsSelected root mindepth e) =
      (candidates table).filter fun e => IsSelected root mindepth e := by
    rw [candidates, List.filter_filter]
    refine List.filter_congr fun e _ => ?_
    rw [← Bool.decide_and, decide_eq_decide]
    exact ⟨fun h => ⟨h, h.1⟩, fun h => h.1⟩
  rw [UmountSelects, List.Perm.congr_left hcalls, hsel]
  by_cases hpre : ∀ e ∈ candidates table, rootPrefix root <+: e.mntDir
  · have hno : ¬ ∃ e ∈ candidates table, ¬ rootPrefix root <+: e.mntDir := by simpa using hpre
    rw [if_pos hpre, or_iff_left fun h => hno h.1, and_iff_right hpre]
    have hsub : ((candidates table).filter fun e => IsCollected root mindepth e).filter
        (fun e => IsSelected root mindepth e) =
          (candidates table).filter fun e => IsSelected root mindepth e := by
      rw [List.filter_filter]
      refine List.filter_congr fun e he => ?_
      rw [← Bool.decide_and, decide_eq_decide]
      exact ⟨fun h => h.1, fun h => ⟨h, h.isCollected (hcand e he)⟩⟩
    constructor
    · -- equally many mounts are selected and collected
      intro hperm e he hmis
      have hlen := hperm.length_eq
      rw [List.length_map, List.length_map, ← hsub, eq_comm,
        List.length_filter_eq_length_iff] at hlen
      have hs : IsSelected root mindepth e := by
        simpa using hlen e (List.mem_filter.2 ⟨he, by simpa using hmis.1⟩)
      have := ((isSelected_iff e).1 hs).2.2
      have := hmis.2
      omega
    · intro hmis
      refine List.Perm.of_eq (congrArg _ (List.filter_congr fun e he => ?_))
      rw [decide_eq_decide]
      refine ⟨fun hc => ?_, fun hs => hs.isCollected (hcand e he)⟩
      have htype : e.mntType ≠ "autofs".toList := of_decide_eq_true (List.mem_filter.1 he).2
      exact (isSelected_iff e).2 ⟨htype, hc.1, not_lt.1 fun hlt => hmis e he ⟨hc, hlt⟩⟩
  · have hno : ∃ e ∈ candidates table, ¬ rootPrefix root <+: e.mntDir := by simpa using hpre
    rw [if_neg hpre, List.nil_perm, List.map_eq_nil_iff, List.filter_eq_nil_iff]
    simp only [hpre, hno, false_and, true_and, false_or, decide_eq_true_eq]
    refine ⟨fun h e he hs => h e ?_ hs, fun h e he => h e (List.mem_filter.1 he).1⟩
    exact List.mem_filter.2 ⟨he, decide_eq_true hs.1⟩

end

/-- A table in which every mount is in or below the root directory. -/
def newrootMounts : List Mntent :=
  [⟨"/newroot".toList, "ext4".toList⟩, ⟨"/newroot/usr".toList, "squashfs".toList⟩]

theorem umountSelects_newroot :
    UmountSelects successfulUmount () newrootMounts (some "/newroot".toList) 0 ↔
      (∀ e ∈ candidates newrootMounts, rootPrefix (some "/newroot".toList) <+: e.mntDir) ∧
          (∀ e ∈ candidates newrootMounts, ¬ IsMisjudged (some "/newroot".toList) 0 e) ∨
        (∃ e ∈ candidates newrootMounts, ¬ rootPrefix (some "/newroot".toList) <+: e.mntDir) ∧
          ∀ e ∈ newrootMounts, ¬ IsSelected (some "/newroot".toList) 0 e :=
  umountSelects_iff successfulUmount () (by decide)

/-- A mount outside the root directory makes `umount_recursive` fail, and
    `umount_all_in` unmounts the root directory itself. -/
theorem umountSelects_foreign_mount :
    ¬ UmountSelects successfulUmount ()
        [⟨"/proc".toList, "proc".toList⟩, ⟨"/newroot".toList, "ext4".toList⟩]
        (some "/newroot".toList) 0 ∧
      (umountRecursive successfulUmount
        (some [⟨"/proc".toList, "proc".toList⟩, ⟨"/newroot".toList, "ext4".toList⟩])
        (some "/newroot".toList) ⟨(), []⟩).1 = -1 ∧
      ¬ UmountSelects successfulUmount () [⟨"/newroot".toList, "ext4".toList⟩]
        (some "/newroot".toList) 1 ∧
      (umountAllIn successfulUmount (some [⟨"/newroot".toList, "ext4".toList⟩])
        (some "/newroot".toList) ⟨(), []⟩).2.attempts = ["/newroot".toList] := by
  unfold UmountSelects
  decide

end Fischstaebchen
