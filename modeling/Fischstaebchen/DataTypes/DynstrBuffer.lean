/-
  Paths below a directory, in a buffer that is used again and again
  (`common/data_types/dynstr_buffer.c`).

  * `Ready pre buf`, `Lost pre buf`: the buffer has the prefix `pre`; the buffer was
    refused memory, which frees the string but not the length of its prefix.
  * `fspathPrefixBufferSet_ensures`: the path is the prefix and the name, or the buffer
    is lost.
  * `fspathPrefixBufferSet_lost`: a lost buffer stays lost.
-/
import Fischstaebchen.DataTypes.Dynstr

namespace Fischstaebchen

open Lib

/-! ## The operations -/

/-- `struct fspath_prefix_buffer`. -/
structure FspathPrefixBuffer where
  prefixLenSav : ℕ
  dynstr : DynstrData

/-- Whether a path ends otherwise than with a slash. -/
def lacksSlash (d : DynstrData) : Option Bool :=
  if d.currentSize > 0 then do
    let cells ← d.data
    let chr ← cells.load (d.currentSize - 1)
    pure (chr ≠ 0x2F)
  else some false

/-- The part of `_fspath_prefix_buffer_init_set_data` that appends a slash. -/
def fspathPrefixBufferAddSlash (d : DynstrData) (isDirpath : Bool) : Alloc (ℤ × DynstrData) :=
  if isDirpath then do
    let lacks ← defined (lacksSlash d)
    if lacks then dynstrDataAppendChar d 0x2F else pure (0, d)
  else pure (0, d)

/-- The part of `_fspath_prefix_buffer_init_set_data` that sets the prefix. -/
def fspathPrefixBufferSetPath (d : DynstrData) (fspath : Option (List UInt8)) (isDirpath : Bool) :
    Alloc (ℤ × DynstrData) :=
  match fspath with
  | none => pure (0, d)
  | some fspath => do
    let r ← dynstrDataAppendStrSimple d fspath
    if r.1 ≠ 0 then pure (-1, r.2) else fspathPrefixBufferAddSlash r.2 isDirpath

/-- `_fspath_prefix_buffer_init_set_data`. -/
def fspathPrefixBufferInitSetData (buf : FspathPrefixBuffer) (fspath : Option (List UInt8))
    (isDirpath : Bool) : Alloc (ℤ × FspathPrefixBuffer) := do
  let r ← fspathPrefixBufferSetPath buf.dynstr fspath isDirpath
  if r.1 ≠ 0 then pure (-1, { buf with dynstr := r.2 })
  else
    let r' ← dynstrDataAppendNull r.2
    pure (r'.1, ⟨r.2.currentSize, r'.2⟩)

/-- `fspath_prefix_buffer_init`. -/
def fspathPrefixBufferInit (fspath : Option (List UInt8)) (isDirpath : Bool) :
    Alloc (ℤ × Option FspathPrefixBuffer) := do
  let granted ← request
  if granted then
    let r ← dynstrDataInit 0
    if r.1 ≠ 0 then pure (-1, none)
    else
      let r ← fspathPrefixBufferInitSetData ⟨0, r.2⟩ fspath isDirpath
      if r.1 ≠ 0 then pure (-1, none) else pure (0, some r.2)
  else pure (-1, none)

/-- `fspath_prefix_buffer_reset`. -/
def fspathPrefixBufferReset (buf : FspathPrefixBuffer) : Alloc (ℤ × FspathPrefixBuffer) :=
  if buf.prefixLenSav > buf.dynstr.currentSize then pure (-1, buf)
  else do
    let r ← dynstrDataAppendNull { buf.dynstr with currentSize := buf.prefixLenSav }
    pure (r.1, { buf with dynstr := r.2 })

/-- `fspath_prefix_buffer_append`: the data, or NULL. -/
def fspathPrefixBufferAppend (buf : FspathPrefixBuffer) (relpath : List UInt8) :
    Alloc (Option (Block UInt8) × FspathPrefixBuffer) := do
  let r ← dynstrDataAppendStrSimple buf.dynstr relpath
  if r.1 ≠ 0 then pure (none, { buf with dynstr := r.2 })
  else
    let r ← dynstrDataAppendNull r.2
    if r.1 ≠ 0 then pure (none, { buf with dynstr := r.2 })
    else pure (r.2.data, { buf with dynstr := r.2 })

/-- `fspath_prefix_buffer_set`. -/
def fspathPrefixBufferSet (buf : FspathPrefixBuffer) (filename : List UInt8) :
    Alloc (Option (Block UInt8) × FspathPrefixBuffer) := do
  let r ← fspathPrefixBufferReset buf
  if r.1 ≠ 0 then pure (none, r.2) else fspathPrefixBufferAppend r.2 filename

/-- `fspath_prefix_buffer_peek`. -/
def fspathPrefixBufferPeek (buf : Option FspathPrefixBuffer) : Option (Block UInt8) :=
  match buf with
  | none => none
  | some buf => if buf.dynstr.currentSize > buf.prefixLenSav then buf.dynstr.data else none

/-! ## Prefixes -/

namespace FspathPrefixBuffer

/-- A buffer with a prefix, which may be followed by a name. -/
structure Ready (pre : List UInt8) (buf : FspathPrefixBuffer) : Prop where
  prefixLenSav : buf.prefixLenSav = pre.length
  holds : ∃ name, buf.dynstr.Holds (pre ++ name)

/-- A buffer that was refused memory. -/
structure Lost (pre : List UInt8) (buf : FspathPrefixBuffer) : Prop where
  prefixLenSav : buf.prefixLenSav = pre.length
  freed : buf.dynstr = .freed

end FspathPrefixBuffer

open FspathPrefixBuffer

/-- The prefix of a path: with a slash at its end if it is that of a directory. -/
def prefixOf (fspath : Option (List UInt8)) (isDirpath : Bool) : List UInt8 :=
  match fspath with
  | none => []
  | some p => if isDirpath ∧ p ≠ [] ∧ p.getLast? ≠ some 0x2F then p ++ [0x2F] else p

section
variable {refuses : Prop} {d : DynstrData} {buf : FspathPrefixBuffer}
  {pre l l' p name : List UInt8} {fspath : Option (List UInt8)} {isDirpath : Bool}

/-- Cutting a string, without a terminator. -/
theorem DynstrData.Holds.take (h : d.Holds (l ++ l')) :
    DynstrData.Holds { d with currentSize := l.length } l := by
  by_cases hd : d.data = none
  · have hempty : l ++ l' = [] :=
      List.eq_nil_of_length_eq_zero (h.length.symm.trans (h.null hd).1)
    obtain ⟨rfl, rfl⟩ := List.append_eq_nil_iff.1 hempty
    have hsize : d.currentSize = 0 := (h.null hd).1
    have hcut : ({ d with currentSize := ([] : List UInt8).length } : DynstrData) = d := by
      rw [List.length_nil, ← hsize]
    rw [hcut]
    exact h
  · obtain ⟨cells, heq, htake, -, -⟩ := h.data hd
    rw [heq] at h ⊢
    refine h.cut rfl (Block.take_of_append htake) ?_
    rw [List.length_append]
    exact Nat.le_add_right _ _

theorem lacksSlash_eq (h : d.Holds p) (hd : d.data ≠ none) :
    lacksSlash d = some (p ≠ [] ∧ p.getLast? ≠ some 0x2F : Bool) := by
  obtain ⟨cells, heq, htake, -, -⟩ := h.data hd
  rw [heq, lacksSlash]
  dsimp only
  rcases List.eq_nil_or_concat' p with rfl | ⟨q, chr, rfl⟩
  · simp
  · have hload : cells.load ((q ++ [chr]).length - 1) = some chr := by
      rw [Block.load_of_take htake (by simp)]
      simp
    rw [if_pos (by simp)]
    simp only [Option.bind_eq_bind, Option.bind_some, hload]
    simp

theorem fspathPrefixBufferSetPath_ensures (h : d.Holds [])
    (hsize : (prefixOf fspath isDirpath).length + 1 < sizeMax / 4) :
    Ensures refuses (fspathPrefixBufferSetPath d fspath isDirpath)
      (Outcome refuses fun d' => d'.Holds (prefixOf fspath isDirpath)) := by
  cases fspath with
  | none => exact Ensures.pure (.inl ⟨rfl, h⟩)
  | some p =>
    have hlen : p.length ≤ (prefixOf (some p) isDirpath).length := by
      rw [prefixOf]
      split_ifs
      · simp
      · exact le_rfl
    refine Outcome.bind (dynstrDataAppendStr_ensures h (by rw [List.length_nil]; omega))
      (fun d₁ ⟨h₁, hd₁⟩ => ?_) fun hr => Ensures.pure (.inr ⟨hr, rfl, rfl⟩)
    have hp : d₁.Holds p := h₁
    show Ensures refuses (fspathPrefixBufferAddSlash d₁ isDirpath) _
    cases isDirpath with
    | false => exact Ensures.pure (.inl ⟨rfl, by simpa [prefixOf] using hp⟩)
    | true =>
      refine Ensures.bind (ensures_defined (lacksSlash_eq hp hd₁) rfl) fun lacks hlacks => ?_
      subst hlacks
      by_cases hslash : p ≠ [] ∧ p.getLast? ≠ some 0x2F
      · have hpre : prefixOf (some p) true = p ++ [0x2F] := if_pos ⟨rfl, hslash⟩
        rw [hpre] at hsize ⊢
        rw [if_pos (by simpa using hslash)]
        have hroom : p.length + 1 < sizeMax / 4 := by
          rw [List.length_append, List.length_singleton] at hsize
          omega
        exact dynstrDataAppendChar_ensures hp hroom
      · have hpre : prefixOf (some p) true = p := if_neg fun h => hslash h.2
        rw [hpre, if_neg (by simpa using hslash)]
        exact Ensures.pure (.inl ⟨rfl, hp⟩)

/-- **A new buffer** is ready, or there is none. -/
theorem fspathPrefixBufferInit_ensures
    (hsize : (prefixOf fspath isDirpath).length + 1 < sizeMax / 4) :
    Ensures refuses (fspathPrefixBufferInit fspath isDirpath) fun r =>
      (∃ buf, r = (0, some buf) ∧ buf.Ready (prefixOf fspath isDirpath)) ∨
        (refuses ∧ r = (-1, none)) := by
  refine ensures_request_bind ?_ fun hr => Ensures.pure (.inr ⟨hr, rfl⟩)
  refine Outcome.bind dynstrDataInit_ensures (fun d ⟨hd, _⟩ => ?_)
    fun hr => Ensures.pure (.inr ⟨hr, rfl⟩)
  have hset : Ensures refuses (fspathPrefixBufferInitSetData ⟨0, d⟩ fspath isDirpath) fun r =>
      (r.1 = 0 ∧ r.2.Ready (prefixOf fspath isDirpath)) ∨ (refuses ∧ r.1 = -1) := by
    refine Outcome.bind (fspathPrefixBufferSetPath_ensures hd hsize) (fun d₁ h₁ => ?_)
      fun hr => Ensures.pure (.inr ⟨hr, rfl⟩)
    refine Outcome.bind (dynstrDataAppendNull_ensures h₁ hsize) (fun d₂ ⟨h₂, _⟩ => ?_)
      fun hr => Ensures.pure (.inr ⟨hr, rfl⟩)
    have hready : d₂.Holds (prefixOf fspath isDirpath ++ []) := by
      rw [List.append_nil]
      exact h₂
    exact Ensures.pure (.inl ⟨rfl, h₁.length, [], hready⟩)
  refine hset.bind fun r h => ?_
  obtain ⟨ret, buf⟩ := r
  obtain ⟨rfl, hready⟩ | ⟨hr, rfl⟩ := h
  · exact Ensures.pure (.inl ⟨buf, rfl, hready⟩)
  · exact Ensures.pure (.inr ⟨hr, rfl⟩)

/-- **Setting a name**: the path is the prefix and the name, or the buffer is lost. -/
theorem fspathPrefixBufferSet_ensures (h : buf.Ready pre)
    (hsize : (pre ++ name).length + 1 < sizeMax / 4) (hnul : 0 ∉ pre ++ name) :
    Ensures refuses (fspathPrefixBufferSet buf name) fun r =>
      (∃ cells, r.1 = some cells ∧ cstring cells = some (pre ++ name) ∧ r.2.Ready pre) ∨
        (refuses ∧ r.1 = none ∧ r.2.Lost pre) := by
  obtain ⟨hlen, old, hold⟩ := h
  have happ : ∀ d : DynstrData, d.Holds pre →
      Ensures refuses (fspathPrefixBufferAppend ⟨buf.prefixLenSav, d⟩ name) fun r =>
        (∃ cells, r.1 = some cells ∧ cstring cells = some (pre ++ name) ∧ r.2.Ready pre) ∨
          (refuses ∧ r.1 = none ∧ r.2.Lost pre) := by
    intro d hd
    refine Outcome.bind (dynstrDataAppendStrSimple_ensures hd ?_) (fun d₁ h₁ => ?_)
      fun hr => Ensures.pure (.inr ⟨hr, rfl, hlen, rfl⟩)
    · rw [List.length_append] at hsize
      omega
    refine Outcome.bind (dynstrDataAppendNull_ensures h₁ hsize)
      (fun d₂ ⟨h₂, cells, hcells, hload⟩ => ?_) fun hr => Ensures.pure (.inr ⟨hr, rfl, hlen, rfl⟩)
    refine Ensures.pure (.inl ⟨cells, hcells, ?_, hlen, name, h₂⟩)
    have htake : cells.take (pre ++ name).length = (pre ++ name).map some := by
      have hcontents := h₂.contents
      rw [DynstrData.contents, hcells, h₂.length] at hcontents
      exact hcontents
    rw [h₂.length] at hload
    exact cstring_eq htake hload hnul
  have hfits : ¬ buf.prefixLenSav > buf.dynstr.currentSize := by
    rw [hlen, hold.length, List.length_append]
    omega
  have hcut : DynstrData.Holds { buf.dynstr with currentSize := buf.prefixLenSav } pre := by
    rw [hlen]
    exact hold.take
  have hreset : Ensures refuses (fspathPrefixBufferReset buf) fun r =>
      (∃ d, r = (0, ⟨buf.prefixLenSav, d⟩) ∧ d.Holds pre) ∨
        (refuses ∧ r = (-1, ⟨buf.prefixLenSav, .freed⟩)) := by
    rw [fspathPrefixBufferReset, if_neg hfits]
    refine Outcome.bind (dynstrDataAppendNull_ensures hcut ?_) (fun d₁ ⟨h₁, _⟩ => ?_)
      fun hr => Ensures.pure (.inr ⟨hr, rfl⟩)
    · rw [List.length_append] at hsize
      omega
    · exact Ensures.pure (.inl ⟨d₁, rfl, h₁⟩)
  refine hreset.bind fun r hr => ?_
  obtain ⟨d, rfl, hd⟩ | ⟨hrefused, rfl⟩ := hr
  · exact happ d hd
  · exact Ensures.pure (.inr ⟨hrefused, rfl, hlen, rfl⟩)

/-- **A lost buffer** stays as it is, and there is no path: its length is less than that of the
    prefix that it had. -/
theorem fspathPrefixBufferSet_lost (h : buf.Lost pre) (hpre : pre ≠ []) (name : List UInt8) :
    fspathPrefixBufferSet buf name = pure (none, buf) := by
  have hshort : buf.prefixLenSav > buf.dynstr.currentSize := by
    rw [h.prefixLenSav, h.freed]
    exact List.length_pos_iff.2 hpre
  have hreset : fspathPrefixBufferReset buf = pure (-1, buf) := if_pos hshort
  rw [fspathPrefixBufferSet, hreset]
  rfl

end

end Fischstaebchen
