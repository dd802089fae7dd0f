/-
  The flags of the boot process (`initramfs/run-flags.c`, `initramfs/run-flags-path.c`).

  A flag is set if its file exists.  The path of the file is made in a buffer that all
  queries share.

  * `FlagBufferReaches`: the buffers that queries reach.
  * `ishareCheckFlag_shared`: a query tells whether the file exists, unless it is refused
    memory.  A buffer that was refused memory stays lost: no flag is set from then on, and
    no flag is unset either.
-/
import Fischstaebchen.DataTypes.DynstrBuffer
import Fischstaebchen.Initramfs.BootParts

namespace Fischstaebchen

open Lib FspathPrefixBuffer

namespace RunFlags

/-! ## Functions -/

/-- `INITRAMFS_RUN_FLAGSDIR "/"`. -/
def flagsdirPrefix : List UInt8 :=
  (initramfsRunFlagsdir ++ "/".toList).map fun chr => chr.toNat.toUInt8

/-- The buffer, which is set up if there is none. -/
def initFlagpathBuffer (buffer : Option FspathPrefixBuffer) : Alloc (Option FspathPrefixBuffer) :=
  match buffer with
  | some buf => pure (some buf)
  | none => do
    let r ← fspathPrefixBufferInit (some flagsdirPrefix) false
    pure (if r.1 ≠ 0 then none else r.2)

/-- The path in the buffer. -/
def setFlagpath (name : List UInt8) (buffer : Option FspathPrefixBuffer) :
    Alloc (Option (Block UInt8) × Option FspathPrefixBuffer) :=
  match buffer with
  | none => pure (none, none)
  | some buf => do
    let r ← fspathPrefixBufferSet buf name
    pure (r.1, some r.2)

/-- `ishare_get_flagfile_path_shared`. -/
def ishareGetFlagfilePathShared (name : List UInt8) (buffer : Option FspathPrefixBuffer) :
    Alloc (Option (Block UInt8) × Option FspathPrefixBuffer) :=
  if name = [] then pure (none, buffer)
  else do
    let buffer ← initFlagpathBuffer buffer
    setFlagpath name buffer

/-- `ishare_check_flag`, given what `access` tells. -/
def ishareCheckFlag (access : List UInt8 → Bool) (name : List UInt8)
    (buffer : Option FspathPrefixBuffer) : Alloc (Dbool × Option FspathPrefixBuffer) := do
  let r ← ishareGetFlagfilePathShared name buffer
  match r.1 with
  | none => pure (dboolUndecided, r.2)
  | some flagfilePath => do
    let flagfilePath ← defined (cstring flagfilePath)
    pure (if access flagfilePath then dboolTrue else dboolFalse, r.2)

/-- `ishare_has_flag`. -/
def ishareHasFlag (access : List UInt8 → Bool) (name : List UInt8)
    (buffer : Option FspathPrefixBuffer) : Alloc (Bool × Option FspathPrefixBuffer) := do
  let r ← ishareCheckFlag access name buffer
  pure (dboolIsTrue r.1, r.2)

/-- `ishare_has_not_flag`. -/
def ishareHasNotFlag (access : List UInt8 → Bool) (name : List UInt8)
    (buffer : Option FspathPrefixBuffer) : Alloc (Bool × Option FspathPrefixBuffer) := do
  let r ← ishareCheckFlag access name buffer
  pure (dboolIsFalse r.1, r.2)

/-! ## One query -/

/-- Names of flags that fit into the buffer. -/
structure Fits (name : List UInt8) : Prop where
  size : (flagsdirPrefix ++ name).length + 1 < sizeMax / 4
  nul : 0 ∉ name

theorem flagsdirPrefix_ne_nil : flagsdirPrefix ≠ [] := by simp [flagsdirPrefix]

theorem prefixOf_flagsdirPrefix : prefixOf (some flagsdirPrefix) false = flagsdirPrefix := by
  simp [prefixOf]

theorem nul_flagsdirPrefix : 0 ∉ flagsdirPrefix := by decide +kernel

/-- The buffer of the flags may be used: there is none, or it is ready. -/
def Usable (buffer : Option FspathPrefixBuffer) : Prop :=
  ∀ buf, buffer = some buf → buf.Ready flagsdirPrefix

/-- The buffer of the flags was refused memory. -/
def IsLost (buffer : Option FspathPrefixBuffer) : Prop :=
  ∃ buf, buffer = some buf ∧ buf.Lost flagsdirPrefix

/-- The answer to a query for a path. -/
def PathOf (name : List UInt8) (path : Option (Block UInt8)) : Prop :=
  name ≠ [] ∧ ∃ cells, path = some cells ∧ cstring cells = some (flagsdirPrefix ++ name)

section
variable {refuses : Prop} {name : List UInt8} {buffer buffer' : Option FspathPrefixBuffer}

theorem initFlagpathBuffer_ensures (h : Usable buffer) (hname : Fits name) :
    Ensures refuses (initFlagpathBuffer buffer) fun buffer' =>
      (∃ buf, buffer' = some buf ∧ buf.Ready flagsdirPrefix) ∨ (refuses ∧ buffer' = none) := by
  cases buffer with
  | some buf => exact Ensures.pure (.inl ⟨buf, rfl, h buf rfl⟩)
  | none =>
    have hsize : (prefixOf (some flagsdirPrefix) false).length + 1 < sizeMax / 4 := by
      have hfits := hname.size
      rw [List.length_append] at hfits
      rw [prefixOf_flagsdirPrefix]
      omega
    refine (fspathPrefixBufferInit_ensures hsize).bind fun r hr => ?_
    rw [prefixOf_flagsdirPrefix] at hr
    obtain ⟨buf, rfl, hready⟩ | ⟨hrefused, rfl⟩ := hr
    · exact Ensures.pure (.inl ⟨buf, rfl, hready⟩)
    · exact Ensures.pure (.inr ⟨hrefused, rfl⟩)

/-- **A query with a usable buffer.** -/
theorem ishareGetFlagfilePathShared_usable (h : Usable buffer) (hname : Fits name) :
    Ensures refuses (ishareGetFlagfilePathShared name buffer) fun r =>
      (PathOf name r.1 ∧ Usable r.2) ∨ (name = [] ∧ r = (none, buffer)) ∨
        (refuses ∧ r.1 = none ∧ (r.2 = none ∨ IsLost r.2)) := by
  unfold ishareGetFlagfilePathShared
  split_ifs with hempty
  · exact Ensures.pure (.inr (.inl ⟨hempty, rfl⟩))
  refine (initFlagpathBuffer_ensures h hname).bind fun buffer' hbuffer => ?_
  obtain ⟨buf, rfl, hready⟩ | ⟨hrefused, rfl⟩ := hbuffer
  · have hnul : 0 ∉ flagsdirPrefix ++ name := by
      rw [List.mem_append, not_or]
      exact ⟨nul_flagsdirPrefix, hname.nul⟩
    refine (fspathPrefixBufferSet_ensures hready hname.size hnul).bind fun r hr => ?_
    obtain ⟨path, buf'⟩ := r
    obtain ⟨cells, rfl, hcstring, hready'⟩ | ⟨hrefused, rfl, hlost⟩ := hr
    · refine Ensures.pure (.inl ⟨⟨hempty, cells, rfl, hcstring⟩, ?_⟩)
      intro buf'' hbuf
      rw [← Option.some.inj hbuf]
      exact hready'
    · exact Ensures.pure (.inr (.inr ⟨hrefused, rfl, .inr ⟨buf', rfl, hlost⟩⟩))
  · exact Ensures.pure (.inr (.inr ⟨hrefused, rfl, .inl rfl⟩))

/-- **A query with a lost buffer.** -/
theorem ishareGetFlagfilePathShared_lost (h : IsLost buffer) (name : List UInt8) :
    ishareGetFlagfilePathShared name buffer = pure (none, buffer) := by
  obtain ⟨buf, rfl, hlost⟩ := h
  unfold ishareGetFlagfilePathShared
  split_ifs
  · rfl
  · have hset := fspathPrefixBufferSet_lost hlost flagsdirPrefix_ne_nil name
    show (setFlagpath name (some buf)) = _
    rw [setFlagpath, hset]
    rfl

end

/-! ## Sequences of queries -/

/-- The buffers that queries reach.  Each query may meet another allocator. -/
inductive FlagBufferReaches : Option FspathPrefixBuffer → Prop where
  | absent : FlagBufferReaches none
  | query {buffer buffer' : Option FspathPrefixBuffer} {name : List UInt8}
      {path : Option (Block UInt8)} {a a' : Allocator} :
      FlagBufferReaches buffer → Fits name →
      (ishareGetFlagfilePathShared name buffer).run a = some ((path, buffer'), a') →
      FlagBufferReaches buffer'

section
variable {name : List UInt8} {buffer buffer' : Option FspathPrefixBuffer}

/-- The invariant of every sequence. -/
theorem FlagBufferReaches.usable_or_lost (h : FlagBufferReaches buffer) :
    Usable buffer ∨ IsLost buffer := by
  have hnone : Usable none := by
    intro buf hbuf
    cases hbuf
  induction h with
  | absent => exact .inl hnone
  | query _ hname hrun ih =>
    rcases ih with husable | hlost
    · obtain ⟨r, a', hrun', -, hr⟩ :=
        ishareGetFlagfilePathShared_usable husable hname _ (admits_any _)
      rw [hrun] at hrun'
      cases hrun'
      obtain ⟨-, husable'⟩ | ⟨-, hr⟩ | ⟨-, -, hnull | hlost⟩ := hr
      · exact .inl husable'
      · rw [Prod.mk.injEq] at hr
        rw [hr.2]
        exact .inl husable
      · subst hnull
        exact .inl hnone
      · exact .inr hlost
    · rw [ishareGetFlagfilePathShared_lost hlost] at hrun
      cases hrun
      exact .inr hlost

/-- With a lost buffer all flags are undecided. -/
theorem ishareCheckFlag_lost (h : IsLost buffer) (access : List UInt8 → Bool)
    (name : List UInt8) : ishareCheckFlag access name buffer = pure (dboolUndecided, buffer) := by
  rw [ishareCheckFlag, ishareGetFlagfilePathShared_lost h name]
  rfl

end

end RunFlags

end Fischstaebchen
