/-
  Dynamically allocated strings (`common/data_types/dynstr.c`).

  * `DynstrData.Holds d l`: `d` keeps its capacity invariant and its first
    `current_size` bytes are `l`.  Each operation has one lemma, `…_ensures`,
    which says what it does to `l`, or that it was refused memory and left the
    freed string (`Outcome`).
  * `dynstr_refines_list`: in every state that a sequence of operations
    reaches, each operation is defined and does on the string what
    `DynstrOp.onList` does on the list.
-/
import Mathlib.Data.List.DropRight
import Fischstaebchen.Lib.Alloc

namespace Fischstaebchen

open Lib

/-! ## The operations -/

/-- `DEFAULT_DYNSTR_SIZE`. -/
def defaultDynstrSize : ℕ := 32

/-- `struct dynstr_data`; `data` is NULL or an array of chars. -/
structure DynstrData where
  data : Option (Block UInt8)
  currentSize : ℕ
  maxSize : ℕ

/-- `_dynstr_data_zap_fields`. -/
def dynstrDataZapFields (pdata : DynstrData) : DynstrData :=
  { pdata with data := none, currentSize := 0, maxSize := 0 }

/-- `dynstr_data_free`. -/
def dynstrDataFree (pdata : DynstrData) : DynstrData := dynstrDataZapFields pdata

/-- `dynstr_data_unref`: the chars handed out. -/
def dynstrDataUnref (pdata : DynstrData) : Option (Block UInt8) × DynstrData :=
  (pdata.data, dynstrDataZapFields pdata)

/-- `_dynstr_resize_free_on_error`. -/
def dynstrResizeFreeOnError (pdata : DynstrData) (newSize : ℕ) : Alloc (ℤ × DynstrData) := do
  let granted ← request
  if granted then
    let pNew := match pdata.data with
      | none => Block.fresh newSize
      | some cells => cells.regrow newSize
    pure (0, { pdata with data := some pNew, maxSize := newSize })
  else pure (-1, dynstrDataFree pdata)

/-- `dynstr_data_resize`. -/
def dynstrDataResize (pdata : DynstrData) (minSize : ℕ) : Alloc (ℤ × DynstrData) :=
  if minSize < pdata.maxSize then pure (0, pdata)
  else do
    let newSize := 2 * (if pdata.maxSize > 0 then pdata.maxSize else 1) % 2 ^ 64
    let newSize ← defined (doubleWhile 64 (fun n => minSize ≥ n) 64 newSize)
    dynstrResizeFreeOnError pdata newSize

/-- `dynstr_data_grow`. -/
def dynstrDataGrow (pdata : DynstrData) (numItems : ℕ) : Alloc (ℤ × DynstrData) :=
  dynstrDataResize pdata ((pdata.currentSize + numItems) % 2 ^ 64)

/-- `dynstr_data_init`, with a `pdata` that is not NULL. -/
def dynstrDataInit (initialSize : ℕ) : Alloc (ℤ × DynstrData) := do
  let granted ← request
  if granted then
    let cells := Block.fresh (if initialSize > 0 then initialSize else defaultDynstrSize)
    let cells ← defined (cells.store 0 0)
    pure (0, ⟨some cells, 0, 0⟩)
  else pure (-1, ⟨none, 0, 0⟩)

/-- `_dynstr_data_do_append_char`. -/
def dynstrDataDoAppendChar (pdata : DynstrData) (chr : UInt8) : Option DynstrData := do
  let cells ← pdata.data
  let cells ← cells.store pdata.currentSize chr
  pure { pdata with data := some cells, currentSize := pdata.currentSize + 1 }

/-- A `convert_char` function: the char it points to, or NULL. -/
abbrev ConvertChar := ℕ → UInt8 → Option UInt8

/-- One iteration of `dynstr_data_append_str` with a `convert_char`. -/
def appendConvertedChar (convertChar : ConvertChar) (pdata : DynstrData) (chr : UInt8) :
    Option DynstrData :=
  match convertChar pdata.currentSize chr with
  | none => some pdata
  | some chr => dynstrDataDoAppendChar pdata chr

/-- The loops of `dynstr_data_append_str`. -/
def appendStrLoop (pstr : List UInt8) (convertChar : Option ConvertChar) (pdata : DynstrData) :
    Option DynstrData :=
  match convertChar with
  | none => pstr.foldlM dynstrDataDoAppendChar pdata
  | some convertChar => pstr.foldlM (appendConvertedChar convertChar) pdata

/-- `dynstr_data_append_str`: `pstr` are the `str_len` chars. -/
def dynstrDataAppendStr (pdata : DynstrData) (pstr : List UInt8)
    (convertChar : Option ConvertChar) : Alloc (ℤ × DynstrData) := do
  let r ← dynstrDataGrow pdata pstr.length
  if r.1 ≠ 0 then pure (-1, r.2)
  else
    let pdata ← defined (appendStrLoop pstr convertChar r.2)
    pure (0, pdata)

/-- `dynstr_data_append_str_simple`: `pstr` are the chars before the NUL. -/
def dynstrDataAppendStrSimple (pdata : DynstrData) (pstr : List UInt8) : Alloc (ℤ × DynstrData) :=
  dynstrDataAppendStr pdata pstr none

/-- `dynstr_data_append_char`. -/
def dynstrDataAppendChar (pdata : DynstrData) (chr : UInt8) : Alloc (ℤ × DynstrData) := do
  let r ← dynstrDataGrow pdata 1
  if r.1 ≠ 0 then pure (-1, r.2)
  else
    let pdata ← defined (dynstrDataDoAppendChar r.2 chr)
    pure (0, pdata)

/-- `dynstr_data_sjoin_append`. -/
def dynstrDataSjoinAppend (pdata : DynstrData) (joinSeq pstr : List UInt8) :
    Alloc (ℤ × DynstrData) := do
  if pdata.currentSize > 0 then
    let r ← dynstrDataAppendStr pdata joinSeq none
    if r.1 ≠ 0 then pure (-1, r.2) else dynstrDataAppendStrSimple r.2 pstr
  else dynstrDataAppendStrSimple pdata pstr

/-- `dynstr_data_cjoin_append`. -/
def dynstrDataCjoinAppend (pdata : DynstrData) (joinChr : UInt8) (pstr : List UInt8) :
    Alloc (ℤ × DynstrData) := do
  if pdata.currentSize > 0 then
    let r ← dynstrDataAppendChar pdata joinChr
    if r.1 ≠ 0 then pure (-1, r.2) else dynstrDataAppendStrSimple r.2 pstr
  else dynstrDataAppendStrSimple pdata pstr

/-- The value of a byte as a `char`. -/
def signedChar (chr : UInt8) : ℤ := if chr.toNat < 128 then chr.toNat else chr.toNat - 256

/-- `_dynstr_data_strip_replace` at the `i`-th char. -/
def dynstrDataStripReplace (cells : Block UInt8) (i : ℕ) : Option (ℤ × Block UInt8) := do
  let chr ← cells.load i
  if chr = 0x00 then pure (1, cells)
  else if chr ∈ [0x09, 0x0A, 0x0B, 0x0C, 0x0D, 0x20] then
    let cells ← cells.store i 0
    pure (2, cells)
  else if signedChar chr ≤ 0x0 then pure (-1, cells)
  else if signedChar chr < 0x21 ∨ signedChar chr ≥ 0x7F then pure (3, cells)
  else pure (0, cells)

/-- The loop of `dynstr_data_rstrip`: the return code, the chars and
    `current_size`. -/
def rstripLoop : ℕ → Block UInt8 → Option (ℤ × Block UInt8 × ℕ)
  | 0, cells => some (0, cells, 0)
  | size + 1, cells => do
    let r ← dynstrDataStripReplace cells size
    if r.1 = 0 then pure (0, r.2, size + 1)
    else if r.1 < 0 then pure (-1, r.2, size + 1)
    else rstripLoop size r.2

/-- `dynstr_data_rstrip`. -/
def dynstrDataRstrip (pdata : DynstrData) : Option (ℤ × DynstrData) :=
  match pdata.data with
  | none => some (-1, pdata)
  | some cells => do
    let r ← rstripLoop pdata.currentSize cells
    pure (r.1, { pdata with data := some r.2.1, currentSize := r.2.2 })

/-- `dynstr_data_append_null`. -/
def dynstrDataAppendNull (pdata : DynstrData) : Alloc (ℤ × DynstrData) := do
  let r ← dynstrDataGrow pdata 1
  if r.1 ≠ 0 then pure (-1, r.2)
  else
    let cells ← defined (r.2.data.bind fun cells => cells.store r.2.currentSize 0)
    pure (0, { r.2 with data := some cells })

/-- `dynstr_data_truncate`. -/
def dynstrDataTruncate (pdata : DynstrData) : Option (ℤ × DynstrData) := do
  let cells ← pdata.data
  let cells ← cells.store 0 0
  pure (0, { pdata with data := some cells, currentSize := 0 })

/-! ## The capacity invariant -/

/-- The first `current_size` cells. -/
def DynstrData.contents (d : DynstrData) : Block UInt8 := (d.data.getD []).take d.currentSize

/-- The string is `l`.  After `dynstr_data_init`, `max_size` is 0 although there
    is an array; once it is not, it is the size of the array and leaves room
    for a terminator. -/
structure DynstrData.Holds (d : DynstrData) (l : List UInt8) : Prop where
  contents : d.contents = l.map some
  length : d.currentSize = l.length
  null : d.data = none → d.currentSize = 0 ∧ d.maxSize = 0
  allocated : ∀ cells, d.data = some cells → 0 < cells.length
  unsized : d.maxSize = 0 → d.currentSize = 0
  sized : ∀ cells, d.data = some cells → d.maxSize ≠ 0 →
    cells.length = d.maxSize ∧ d.currentSize < d.maxSize

/-- The string without data. -/
def DynstrData.freed : DynstrData := ⟨none, 0, 0⟩

/-- The operation succeeded, or was refused memory and freed the string. -/
def Outcome (refuses : Prop) (Q : DynstrData → Prop) (r : ℤ × DynstrData) : Prop :=
  (r.1 = 0 ∧ Q r.2) ∨ (refuses ∧ r.1 = -1 ∧ r.2 = .freed)

section
variable {refuses : Prop} {d d' : DynstrData} {l : List UInt8} {n minSize : ℕ} {chr : UInt8}

theorem holds_freed : DynstrData.freed.Holds [] :=
  ⟨rfl, rfl, fun _ => ⟨rfl, rfl⟩, nofun, fun _ => rfl, nofun⟩

/-- A new array, which nothing was written to so far. -/
theorem holds_unsized {cells : Block UInt8} (h : 0 < cells.length) :
    (⟨some cells, 0, 0⟩ : DynstrData).Holds [] :=
  ⟨rfl, rfl, nofun, fun _ hc => Option.some.inj hc ▸ h, fun _ => rfl,
    fun _ _ hmax => absurd rfl hmax⟩

/-- The C string at the start of an array; without a NUL, it is undefined. -/
def cstring : Block UInt8 → Option (List UInt8)
  | [] | none :: _ => none
  | some chr :: cells => if chr = 0 then some [] else (cstring cells).map (chr :: ·)

/-- Chars that do not end the string. -/
theorem cstring_append {cells : Block UInt8} (hl : 0 ∉ l) :
    cstring (l.map some ++ cells) = (cstring cells).map (l ++ ·) := by
  induction l with
  | nil => exact Option.map_id'.symm
  | cons chr l ih =>
    rw [List.mem_cons, not_or] at hl
    rw [List.map_cons, List.cons_append, cstring, if_neg fun h0 => hl.1 h0.symm, ih hl.2,
      Option.map_map]
    rfl

/-- A terminated string. -/
theorem cstring_eq {cells : Block UInt8} (htake : cells.take l.length = l.map some)
    (hload : cells.load l.length = some 0) (hl : 0 ∉ l) : cstring cells = some l := by
  have hnul : cstring (cells.drop l.length) = some [] := by
    have hhead : Block.load (cells.drop l.length) 0 = some 0 := by
      rwa [Block.load, List.getElem?_drop, Nat.add_zero]
    cases hdrop : cells.drop l.length with
    | nil =>
      rw [hdrop] at hhead
      cases hhead
    | cons cell rest =>
      rw [hdrop] at hhead
      obtain rfl : cell = some 0 := hhead
      exact if_pos rfl
  rw [← List.take_append_drop l.length cells, htake, cstring_append hl, hnul, Option.map_some,
    List.append_nil]

/-- A string with room for a terminator. -/
theorem holds_sized (cells : Block UInt8) (l : List UInt8) (hc : cells.take l.length = l.map some)
    (h : l.length < cells.length) :
    (⟨some cells, l.length, cells.length⟩ : DynstrData).Holds l where
  contents := hc
  length := rfl
  null := nofun
  allocated _ hcells := Option.some.inj hcells ▸ by omega
  unsized hmax := by
    have hmax : cells.length = 0 := hmax
    omega
  sized _ hcells _ := ⟨congrArg List.length (Option.some.inj hcells).symm, h⟩

/-- There is room for more chars only in an array of `max_size` cells. -/
theorem DynstrData.Holds.cells (h : d.Holds l) (hroom : d.currentSize + n < d.maxSize) :
    ∃ cells, d = ⟨some cells, l.length, cells.length⟩ ∧ l.length + n < cells.length ∧
      cells.take l.length = l.map some := by
  obtain ⟨data, currentSize, maxSize⟩ := d
  cases data with
  | none =>
    have hmax := (h.null rfl).2
    dsimp only at hmax hroom
    omega
  | some cells =>
    dsimp only at hroom
    obtain ⟨hlen, -⟩ := h.sized cells rfl (by dsimp only; omega)
    have hsize := h.length
    dsimp only at hlen hsize
    subst hlen hsize
    exact ⟨cells, rfl, hroom, h.contents⟩

theorem DynstrData.Holds.data_ne_none (h : d.Holds l) (hmax : d.currentSize < d.maxSize) :
    d.data ≠ none := by
  intro hnone
  have := (h.null hnone).2
  omega

theorem DynstrData.Holds.data_ne_none_of_ne_nil (h : d.Holds l) (hl : l ≠ []) :
    d.data ≠ none := by
  intro hnone
  have hsize := (h.null hnone).1
  rw [h.length] at hsize
  exact hl (List.eq_nil_of_length_eq_zero hsize)

theorem Outcome.imp {Q R : DynstrData → Prop} {r : ℤ × DynstrData} (h : Outcome refuses Q r)
    (hQR : ∀ d, Q d → R d) : Outcome refuses R r := h.imp_left fun h => ⟨h.1, hQR _ h.2⟩

/-- A refused request. -/
theorem ensures_freed {Q : DynstrData → Prop} (hr : refuses) :
    Ensures refuses (pure (-1, .freed)) (Outcome refuses Q) := Ensures.pure (.inr ⟨hr, rfl, rfl⟩)

/-! ## Growing -/

theorem dynstrResizeFreeOnError_ensures (h : d.Holds l) {newSize : ℕ} (hl : l.length < newSize) :
    Ensures refuses (dynstrResizeFreeOnError d newSize)
      (Outcome refuses fun d' => d'.Holds l ∧ d'.maxSize = newSize) := by
  refine ensures_request_bind ?_ fun hr => ensures_freed hr
  · refine Ensures.pure (.inl ⟨rfl, ?_, rfl⟩)
    obtain ⟨data, currentSize, maxSize⟩ := d
    obtain rfl : currentSize = l.length := h.length
    cases data with
    | none =>
      have hl0 : l = [] := List.eq_nil_of_length_eq_zero (h.null rfl).1
      subst hl0
      have := holds_sized (Block.fresh newSize) [] rfl (by simpa using hl)
      rwa [Block.length_fresh] at this
    | some cells =>
      have hle : l.length ≤ cells.length := by
        by_cases hmax : maxSize = 0
        · have := h.unsized hmax
          dsimp only at this
          omega
        · obtain ⟨hlen, hlt⟩ := h.sized cells rfl hmax
          dsimp only at hlen hlt
          omega
      have := holds_sized (cells.regrow newSize) l
        (by rw [Block.take_regrow hle hl.le]; exact h.contents) (by simpa using hl)
      rwa [Block.length_regrow] at this

/-- **Resizing**: the doubling ends, and nothing is lost. -/
theorem dynstrDataResize_ensures (h : d.Holds l) (hmin : minSize < sizeMax / 4) :
    Ensures refuses (dynstrDataResize d minSize)
      (Outcome refuses fun d' => d'.Holds l ∧ minSize < d'.maxSize) := by
  rw [dynstrDataResize]
  by_cases hlt : minSize < d.maxSize
  · rw [if_pos hlt]
    exact Ensures.pure (.inl ⟨rfl, h, hlt⟩)
  rw [if_neg hlt]
  dsimp only
  have hmin' : 2 * (minSize + 1) ≤ 2 ^ 63 := by
    have : sizeMax / 4 = 2 ^ 62 - 1 := rfl
    omega
  set start := 2 * (if d.maxSize > 0 then d.maxSize else 1) % 2 ^ 64 with hstart
  have hbig : 0 < start ∧ 2 * d.maxSize ≤ start := by
    rw [hstart]
    split_ifs <;> omega
  have hshort (n : ℕ) : decide (minSize ≥ n) = true ↔ n < minSize + 1 := by
    rw [decide_eq_true_eq]
    omega
  have hrange : 2 * (minSize + 1) ≤ 2 ^ 64 := by omega
  have hfuel : minSize + 1 ≤ start * 2 ^ 64 := by
    calc minSize + 1 ≤ 1 * 2 ^ 64 := by omega
      _ ≤ start * 2 ^ 64 := Nat.mul_le_mul_right _ hbig.1
  obtain ⟨i, hnew, hwant, -⟩ := doubleWhile_spec hshort hrange hfuel
  have hle : start ≤ start * 2 ^ i := Nat.le_mul_of_pos_right _ (by positivity)
  have hl : l.length < start * 2 ^ i := by
    rw [← h.length]
    by_cases hmax : d.maxSize = 0
    · have := h.unsized hmax
      omega
    · cases hdata : d.data with
      | none => exact absurd (h.null hdata).2 hmax
      | some cells =>
        have := (h.sized cells hdata hmax).2
        omega
  refine Ensures.bind (ensures_defined hnew rfl) fun newSize' heq => ?_
  subst heq
  refine (dynstrResizeFreeOnError_ensures h hl).mono fun r hr => ?_
  exact hr.imp fun d' hd' => ⟨hd'.1, by omega⟩

/-- **Growing** leaves room for the new chars and a terminator. -/
theorem dynstrDataGrow_ensures (h : d.Holds l) (hn : l.length + n < sizeMax / 4) :
    Ensures refuses (dynstrDataGrow d n)
      (Outcome refuses fun d' => d'.Holds l ∧ d'.currentSize + n < d'.maxSize) := by
  have hmod : (d.currentSize + n) % 2 ^ 64 = l.length + n := by
    have : sizeMax / 4 = 2 ^ 62 - 1 := rfl
    rw [h.length, Nat.mod_eq_of_lt (by omega)]
  rw [dynstrDataGrow, hmod]
  refine (dynstrDataResize_ensures h hn).mono fun r hr => ?_
  exact hr.imp fun d' hd' => ⟨hd'.1, hd'.1.length ▸ hd'.2⟩

/-- What an operation that needs room for `n` chars does once it has it. -/
theorem Outcome.bind {α : Type} {Q : DynstrData → Prop} {R : α → Prop} {m : Alloc (ℤ × DynstrData)}
    {f : ℤ × DynstrData → Alloc α} (h : Ensures refuses m (Outcome refuses Q))
    (hok : ∀ d, Q d → Ensures refuses (f (0, d)) R)
    (hrefused : refuses → Ensures refuses (f (-1, .freed)) R) : Ensures refuses (m >>= f) R := by
  refine Ensures.bind h fun r hr => ?_
  obtain ⟨ret, d⟩ := r
  rcases hr with ⟨rfl, hQ⟩ | ⟨hr, rfl, rfl⟩
  · exact hok d hQ
  · exact hrefused hr

/-! ## Appending -/

/-- Appending the converted chars of `s` to a list. -/
def appendConverted (convertChar : ConvertChar) (l s : List UInt8) : List UInt8 :=
  s.foldl (fun l chr => l ++ (convertChar l.length chr).toList) l

@[simp] theorem appendConverted_nil {convertChar : ConvertChar} :
    appendConverted convertChar l [] = l := rfl

theorem appendConverted_cons {convertChar : ConvertChar} {s : List UInt8} :
    appendConverted convertChar l (chr :: s) =
      appendConverted convertChar (l ++ (convertChar l.length chr).toList) s := rfl

theorem appendConverted_append {convertChar : ConvertChar} {s t : List UInt8} :
    appendConverted convertChar l (s ++ t) =
      appendConverted convertChar (appendConverted convertChar l s) t := List.foldl_append

theorem length_appendConverted_le (convertChar : ConvertChar) (l s : List UInt8) :
    (appendConverted convertChar l s).length ≤ l.length + s.length := by
  induction s generalizing l with
  | nil => exact le_rfl
  | cons chr s ih =>
    have hone : (convertChar l.length chr).toList.length ≤ 1 := by
      cases convertChar l.length chr <;> simp
    rw [appendConverted_cons]
    refine (ih _).trans ?_
    rw [List.length_append, List.length_cons]
    omega

theorem appendConverted_some {s : List UInt8} :
    appendConverted (fun _ chr => some chr) l s = l ++ s := by
  induction s generalizing l with
  | nil => simp
  | cons chr s ih => rw [appendConverted_cons, ih, Option.toList_some, List.append_assoc]; rfl

theorem dynstrDataDoAppendChar_eq (chr : UInt8) (h : d.Holds l)
    (hroom : d.currentSize + (n + 1) < d.maxSize) :
    ∃ d', dynstrDataDoAppendChar d chr = some d' ∧ d'.Holds (l ++ [chr]) ∧
      d'.currentSize + n < d'.maxSize := by
  obtain ⟨cells, rfl, hlt, htake⟩ := h.cells hroom
  have hset := Block.take_succ_set (x := chr) htake (by omega)
  have hholds := holds_sized (cells.set l.length (some chr)) (l ++ [chr])
    (by simpa using hset)
    (by simp only [List.length_append, List.length_set, List.length_singleton]; omega)
  refine ⟨_, ?_, hholds, ?_⟩
  · rw [dynstrDataDoAppendChar]
    simp only [Option.bind_eq_bind, Option.bind_some, List.length_set, List.length_append,
      List.length_singleton, Option.pure_def]
    rw [Block.store_eq_some (by omega), Option.bind_some]
  · simp only [List.length_append, List.length_set, List.length_singleton]
    omega

theorem appendConvertedChar_eq (convertChar : ConvertChar) (chr : UInt8) (h : d.Holds l)
    (hroom : d.currentSize + (n + 1) < d.maxSize) :
    ∃ d', appendConvertedChar convertChar d chr = some d' ∧
      d'.Holds (l ++ (convertChar l.length chr).toList) ∧ d'.currentSize + n < d'.maxSize := by
  rw [appendConvertedChar, h.length]
  cases hconv : convertChar l.length chr with
  | none => exact ⟨d, rfl, by simpa using h, by omega⟩
  | some chr' => exact dynstrDataDoAppendChar_eq chr' h hroom

/-- The loop of `dynstr_data_append_str`: each iteration needs one more cell. -/
theorem appendConvertedLoop_eq (convertChar : ConvertChar) {s : List UInt8} (h : d.Holds l)
    (hroom : d.currentSize + s.length < d.maxSize) :
    ∃ d', s.foldlM (appendConvertedChar convertChar) d = some d' ∧
      d'.Holds (appendConverted convertChar l s) ∧ d'.currentSize < d'.maxSize := by
  induction s generalizing d l with
  | nil => exact ⟨d, rfl, h, hroom⟩
  | cons chr s ih =>
    obtain ⟨d₁, heq, h₁, hroom₁⟩ := appendConvertedChar_eq convertChar chr h hroom
    obtain ⟨d', heq', h'⟩ := ih h₁ hroom₁
    refine ⟨d', ?_, h'⟩
    rw [List.foldlM_cons, heq]
    exact heq'

/-- A list after appending `s`, possibly converted. -/
def appended (convertChar : Option ConvertChar) (l s : List UInt8) : List UInt8 :=
  match convertChar with
  | none => l ++ s
  | some convertChar => appendConverted convertChar l s

/-- Without `convert_char`, the loop is the one that keeps all chars. -/
theorem appendStrLoop_eq (convertChar : Option ConvertChar) {s : List UInt8} (h : d.Holds l)
    (hroom : d.currentSize + s.length < d.maxSize) :
    ∃ d', appendStrLoop s convertChar d = some d' ∧ d'.Holds (appended convertChar l s) ∧
      d'.currentSize < d'.maxSize := by
  cases convertChar with
  | none =>
    rw [appended, ← appendConverted_some]
    exact appendConvertedLoop_eq (fun _ chr => some chr) h hroom
  | some convertChar => exact appendConvertedLoop_eq convertChar h hroom

theorem dynstrDataAppendStr_ensures {convertChar : Option ConvertChar} {s : List UInt8}
    (h : d.Holds l) (hs : l.length + s.length < sizeMax / 4) :
    Ensures refuses (dynstrDataAppendStr d s convertChar)
      (Outcome refuses fun d' => d'.Holds (appended convertChar l s) ∧ d'.data ≠ none) := by
  refine Outcome.bind (dynstrDataGrow_ensures h hs) (fun d₁ ⟨h₁, hroom⟩ => ?_)
    fun hr => ensures_freed hr
  obtain ⟨d', heq, h', hmax⟩ := appendStrLoop_eq convertChar h₁ hroom
  refine Ensures.bind (ensures_defined heq rfl) fun _ hd => Ensures.pure (.inl ⟨rfl, ?_⟩)
  exact hd ▸ ⟨h', h'.data_ne_none hmax⟩

theorem dynstrDataAppendStrSimple_ensures {s : List UInt8} (h : d.Holds l)
    (hs : l.length + s.length < sizeMax / 4) :
    Ensures refuses (dynstrDataAppendStrSimple d s)
      (Outcome refuses fun d' => d'.Holds (l ++ s)) :=
  (dynstrDataAppendStr_ensures h hs).mono fun _ hr => hr.imp fun _ hd => hd.1

theorem dynstrDataAppendChar_ensures (h : d.Holds l) (hl : l.length + 1 < sizeMax / 4) :
    Ensures refuses (dynstrDataAppendChar d chr)
      (Outcome refuses fun d' => d'.Holds (l ++ [chr])) := by
  refine Outcome.bind (dynstrDataGrow_ensures h hl) (fun d₁ ⟨h₁, hroom⟩ => ?_)
    fun hr => ensures_freed hr
  obtain ⟨d', heq, h', -⟩ := dynstrDataDoAppendChar_eq (n := 0) chr h₁ hroom
  exact Ensures.bind (ensures_defined heq rfl) fun _ hd => Ensures.pure (.inl ⟨rfl, hd ▸ h'⟩)

theorem dynstrDataSjoinAppend_ensures {joinSeq s : List UInt8} (h : d.Holds l)
    (hs : (if l = [] then s else l ++ joinSeq ++ s).length < sizeMax / 4) :
    Ensures refuses (dynstrDataSjoinAppend d joinSeq s)
      (Outcome refuses fun d' => d'.Holds (if l = [] then s else l ++ joinSeq ++ s)) := by
  rw [dynstrDataSjoinAppend, h.length]
  by_cases hl : l = []
  · subst hl
    exact dynstrDataAppendStrSimple_ensures h (by simpa using hs)
  rw [if_neg hl] at hs
  simp only [List.length_append] at hs
  rw [if_neg hl, if_pos (List.length_pos_iff.2 hl)]
  refine Outcome.bind (dynstrDataAppendStr_ensures h (by omega)) (fun d₁ ⟨h₁, _⟩ => ?_)
    fun hr => ensures_freed hr
  exact dynstrDataAppendStrSimple_ensures h₁ (by rw [List.length_append]; omega)

theorem dynstrDataCjoinAppend_ensures {s : List UInt8} (h : d.Holds l)
    (hs : (if l = [] then s else l ++ [chr] ++ s).length < sizeMax / 4) :
    Ensures refuses (dynstrDataCjoinAppend d chr s)
      (Outcome refuses fun d' => d'.Holds (if l = [] then s else l ++ [chr] ++ s)) := by
  rw [dynstrDataCjoinAppend, h.length]
  by_cases hl : l = []
  · subst hl
    exact dynstrDataAppendStrSimple_ensures h (by simpa using hs)
  rw [if_neg hl] at hs
  simp only [List.length_append, List.length_singleton] at hs
  rw [if_neg hl, if_pos (List.length_pos_iff.2 hl)]
  refine Outcome.bind (dynstrDataAppendChar_ensures h (by omega)) (fun d₁ h₁ => ?_)
    fun hr => ensures_freed hr
  exact dynstrDataAppendStrSimple_ensures h₁
    (by simp only [List.length_append, List.length_singleton]; omega)

/-- The terminator: the cell behind the string. -/
theorem dynstrDataAppendNull_ensures (h : d.Holds l) (hl : l.length + 1 < sizeMax / 4) :
    Ensures refuses (dynstrDataAppendNull d) (Outcome refuses fun d' => d'.Holds l ∧
      ∃ cells, d'.data = some cells ∧ cells.load d'.currentSize = some 0) := by
  refine Outcome.bind (dynstrDataGrow_ensures h hl) (fun d₁ ⟨h₁, hroom⟩ => ?_)
    fun hr => ensures_freed hr
  obtain ⟨cells, rfl, hlt, htake⟩ := h₁.cells hroom
  have hstore : cells.store l.length 0 = some (cells.set l.length (some 0)) :=
    Block.store_eq_some (by omega)
  refine Ensures.bind (ensures_defined hstore rfl) fun cells' hc => ?_
  subst hc
  refine Ensures.pure (.inl ⟨rfl, ?_, _, rfl, ?_⟩)
  · have := holds_sized (cells.set l.length (some 0)) l
      (by rw [Block.take_set le_rfl, htake]) (by rw [List.length_set]; omega)
    rwa [List.length_set] at this
  · rw [Block.load, List.getElem?_set_self (by omega : l.length < cells.length)]
    rfl

/-! ## Stripping -/

/-- The bytes that `dynstr_data_rstrip` removes: control characters, the space
    and DEL. -/
def isStripped (chr : UInt8) : Bool := chr.toNat ≤ 0x20 || chr.toNat = 0x7F

/-- A list without its trailing run of such bytes. -/
def rstripped (l : List UInt8) : List UInt8 := l.rdropWhile isStripped

/-- What `dynstr_data_rstrip` returns: a byte from 0x80 on is a negative `char`. -/
def rstripReturns (l : List UInt8) : ℤ :=
  if (rstripped l).getLast?.any (fun chr => 0x80 ≤ chr.toNat) then -1 else 0

theorem signedChar_nonpos (h : chr ≠ 0) : signedChar chr ≤ 0 ↔ 0x80 ≤ chr.toNat := by
  have hpos : chr.toNat ≠ 0 := fun h0 => h (UInt8.toNat_inj.1 h0)
  have := chr.toNat_lt
  rw [signedChar]
  split_ifs <;> omega

/-- One byte: stripped ones may be overwritten, others stay. -/
theorem dynstrDataStripReplace_eq {cells : Block UInt8} (hload : cells.load n = some chr)
    (hn : n < cells.length) :
    ∃ r cells', dynstrDataStripReplace cells n = some (r, cells') ∧
      cells'.length = cells.length ∧ cells'.take n = cells.take n ∧
      (isStripped chr = true → 0 < r) ∧
      (isStripped chr = false → cells' = cells ∧ r = if 0x80 ≤ chr.toNat then -1 else 0) := by
  rw [dynstrDataStripReplace, hload]
  simp only [Option.bind_eq_bind, Option.bind_some, Option.pure_def]
  by_cases h0 : chr = 0
  · subst h0
    exact ⟨1, cells, rfl, rfl, rfl, fun _ => by omega, nofun⟩
  rw [if_neg h0]
  by_cases hmem : chr ∈ [0x09, 0x0A, 0x0B, 0x0C, 0x0D, 0x20]
  · rw [if_pos hmem, Block.store_eq_some hn]
    have hstripped : isStripped chr = true := by
      simp only [List.mem_cons, List.not_mem_nil, or_false] at hmem
      rcases hmem with rfl | rfl | rfl | rfl | rfl | rfl <;> rfl
    exact ⟨2, _, rfl, List.length_set, Block.take_set le_rfl, fun _ => by omega,
      fun h => by rw [hstripped] at h; cases h⟩
  rw [if_neg hmem]
  by_cases hneg : signedChar chr ≤ 0
  · have h80 := (signedChar_nonpos h0).1 hneg
    refine ⟨-1, cells, if_pos hneg, rfl, rfl, fun h => ?_, fun _ => ⟨rfl, (if_pos h80).symm⟩⟩
    rw [isStripped, Bool.or_eq_true, decide_eq_true_eq, decide_eq_true_eq] at h
    omega
  have hlow : chr.toNat < 0x80 := by
    rw [signedChar_nonpos h0] at hneg
    omega
  have hval : signedChar chr = chr.toNat := if_pos hlow
  rw [if_neg hneg, hval]
  by_cases hodd : (chr.toNat : ℤ) < 0x21 ∨ (chr.toNat : ℤ) ≥ 0x7F
  · rw [if_pos hodd]
    refine ⟨3, cells, rfl, rfl, rfl, fun _ => by omega, fun h => ?_⟩
    rw [isStripped, Bool.or_eq_false_iff, decide_eq_false_iff_not, decide_eq_false_iff_not] at h
    omega
  · rw [if_neg hodd]
    refine ⟨0, cells, rfl, rfl, rfl, fun h => ?_, fun _ => ⟨rfl, (if_neg (by omega)).symm⟩⟩
    rw [isStripped, Bool.or_eq_true, decide_eq_true_eq, decide_eq_true_eq] at h
    omega

/-- The loop goes back over the stripped bytes at the end. -/
theorem rstripLoop_eq {cells : Block UInt8} (htake : cells.take l.length = l.map some)
    (hle : l.length ≤ cells.length) :
    ∃ cells', rstripLoop l.length cells =
        some (rstripReturns l, cells', (rstripped l).length) ∧
      cells'.length = cells.length ∧
      cells'.take (rstripped l).length = (rstripped l).map some := by
  induction l using List.reverseRecOn generalizing cells with
  | nil => exact ⟨cells, rfl, rfl, rfl⟩
  | append_singleton l chr ih =>
    have hl : cells.take l.length = l.map some := Block.take_of_append htake
    rw [List.length_append, List.length_singleton] at htake hle ⊢
    have hload : cells.load l.length = some chr := by
      rw [Block.load_of_take htake (by omega), List.getElem?_concat_length]
    obtain ⟨r, cells₁, heq, hlen, htake₁, hstrip, hkeep⟩ := dynstrDataStripReplace_eq hload hle
    rw [rstripLoop, heq]
    simp only [Option.bind_eq_bind, Option.bind_some, Option.pure_def]
    cases hs : isStripped chr with
    | true =>
      have hr := hstrip hs
      have hdrop : rstripped (l ++ [chr]) = rstripped l := List.rdropWhile_concat_pos _ _ _ hs
      obtain ⟨cells', heq', hlen', htake'⟩ := ih (htake₁.trans hl) (by omega)
      rw [if_neg hr.ne', if_neg hr.le.not_gt, heq', rstripReturns, rstripReturns, hdrop]
      exact ⟨cells', rfl, hlen'.trans hlen, htake'⟩
    | false =>
      obtain ⟨rfl, hr⟩ := hkeep hs
      have hdrop : rstripped (l ++ [chr]) = l ++ [chr] :=
        List.rdropWhile_concat_neg _ _ _ (by rw [hs]; exact Bool.false_ne_true)
      have hret : rstripReturns (l ++ [chr]) = r := by
        rw [rstripReturns, hdrop, List.getLast?_concat, Option.any_some, hr]
        simp only [decide_eq_true_eq]
      rw [hdrop, hret]
      refine ⟨cells₁, ?_, rfl, by rwa [List.length_append, List.length_singleton]⟩
      rw [List.length_append, List.length_singleton]
      by_cases h80 : 0x80 ≤ chr.toNat
      · rw [if_pos h80] at hr
        subst hr
        rfl
      · rw [if_neg h80] at hr
        subst hr
        rfl

/-- Cutting a string that has an array. -/
theorem DynstrData.Holds.cut {cells cells' : Block UInt8} {l' : List UInt8} {m : ℕ}
    (h : (⟨some cells, l.length, m⟩ : DynstrData).Holds l) (hlen : cells'.length = cells.length)
    (htake : cells'.take l'.length = l'.map some) (hle : l'.length ≤ l.length) :
    (⟨some cells', l'.length, m⟩ : DynstrData).Holds l' where
  contents := htake
  length := rfl
  null := nofun
  allocated _ hc := Option.some.inj hc ▸ hlen ▸ h.allocated cells rfl
  unsized hm := by
    have hl : l.length = 0 := h.unsized hm
    dsimp only
    omega
  sized _ hc hm := by
    obtain ⟨hsize, hlt⟩ := h.sized cells rfl hm
    refine ⟨Option.some.inj hc ▸ hlen.trans hsize, ?_⟩
    dsimp only at hlt ⊢
    omega

/-- There is an array. -/
theorem DynstrData.Holds.data (h : d.Holds l) (hd : d.data ≠ none) :
    ∃ cells, d = ⟨some cells, l.length, d.maxSize⟩ ∧ cells.take l.length = l.map some ∧
      l.length ≤ cells.length ∧ 0 < cells.length := by
  obtain ⟨data, currentSize, maxSize⟩ := d
  cases data with
  | none => exact absurd rfl hd
  | some cells =>
    obtain rfl : currentSize = l.length := h.length
    have htake : cells.take l.length = l.map some := h.contents
    have hlen := congrArg List.length htake
    rw [List.length_take, List.length_map] at hlen
    exact ⟨cells, rfl, htake, by omega, h.allocated cells rfl⟩

theorem dynstrDataRstrip_eq (h : d.Holds l) (hd : d.data ≠ none) :
    ∃ d', dynstrDataRstrip d = some (rstripReturns l, d') ∧ d'.Holds (rstripped l) ∧
      d'.data ≠ none := by
  obtain ⟨cells, heq, htake, hle, -⟩ := h.data hd
  rw [heq] at h ⊢
  obtain ⟨cells', hloop, hlen, htake'⟩ := rstripLoop_eq htake hle
  have hcut := h.cut hlen htake' (List.rdropWhile_prefix _ _).length_le
  refine ⟨_, ?_, hcut, Option.some_ne_none _⟩
  rw [dynstrDataRstrip]
  simp only [Option.bind_eq_bind, Option.pure_def, hloop, Option.bind_some]

theorem dynstrDataTruncate_eq (h : d.Holds l) (hd : d.data ≠ none) :
    ∃ d', dynstrDataTruncate d = some (0, d') ∧ d'.Holds [] := by
  obtain ⟨cells, heq, htake, hle, hpos⟩ := h.data hd
  rw [heq] at h ⊢
  have hempty : (cells.set 0 (some 0)).take ([] : List UInt8).length = [].map some := rfl
  have hcut := h.cut List.length_set hempty (Nat.zero_le _)
  refine ⟨_, ?_, hcut⟩
  rw [dynstrDataTruncate]
  simp only [Option.bind_eq_bind, Option.pure_def, Option.bind_some, Block.store_eq_some hpos]
  rfl

theorem dynstrDataInit_ensures :
    Ensures refuses (dynstrDataInit n)
      (Outcome refuses fun d' => d'.Holds [] ∧ d'.data ≠ none) := by
  refine ensures_request_bind ?_ fun hr => ensures_freed hr
  · have hpos :
        0 < (Block.fresh (if n > 0 then n else defaultDynstrSize) : Block UInt8).length := by
      rw [Block.length_fresh]
      split_ifs with hn
      · exact hn
      · decide
    refine Ensures.bind (ensures_defined (Block.store_eq_some hpos) rfl) fun cells hc => ?_
    subst hc
    exact Ensures.pure (.inl ⟨rfl, holds_unsized (by rwa [List.length_set]), nofun⟩)

end

/-! ## Sequences of operations -/

/-- The operations on a string. -/
inductive DynstrOp where
  | init (initialSize : ℕ)
  | resize (minSize : ℕ)
  | grow (numItems : ℕ)
  | appendStr (pstr : List UInt8) (convertChar : Option ConvertChar)
  | appendStrSimple (pstr : List UInt8)
  | appendChar (chr : UInt8)
  | sjoinAppend (joinSeq pstr : List UInt8)
  | cjoinAppend (joinChr : UInt8) (pstr : List UInt8)
  | appendNull
  | rstrip
  | truncate
  | unref
  | free

namespace DynstrOp

/-- A call; the functions without a return value return 0 here. -/
def call (pdata : DynstrData) : DynstrOp → Alloc (ℤ × DynstrData)
  | init initialSize => dynstrDataInit initialSize
  | resize minSize => dynstrDataResize pdata minSize
  | grow numItems => dynstrDataGrow pdata numItems
  | appendStr pstr convertChar => dynstrDataAppendStr pdata pstr convertChar
  | appendStrSimple pstr => dynstrDataAppendStrSimple pdata pstr
  | appendChar chr => dynstrDataAppendChar pdata chr
  | sjoinAppend joinSeq pstr => dynstrDataSjoinAppend pdata joinSeq pstr
  | cjoinAppend joinChr pstr => dynstrDataCjoinAppend pdata joinChr pstr
  | appendNull => dynstrDataAppendNull pdata
  | rstrip => defined (dynstrDataRstrip pdata)
  | truncate => defined (dynstrDataTruncate pdata)
  | unref => pure (0, (dynstrDataUnref pdata).2)
  | free => pure (0, dynstrDataFree pdata)

/-- The same operation on a list. -/
def onList (l : List UInt8) : DynstrOp → List UInt8
  | init _ | truncate | unref | free => []
  | resize _ | grow _ | appendNull => l
  | appendStr pstr convertChar => appended convertChar l pstr
  | appendStrSimple pstr => l ++ pstr
  | appendChar chr => l ++ [chr]
  | sjoinAppend joinSeq pstr => if l = [] then pstr else l ++ joinSeq ++ pstr
  | cjoinAppend joinChr pstr => if l = [] then pstr else l ++ [joinChr] ++ pstr
  | rstrip => rstripped l

/-- The operations that fail only if they are refused memory. -/
def allocates : DynstrOp → Bool
  | rstrip | truncate | unref | free => false
  | _ => true

/-- The list after a call that returned `ret`. -/
def after (op : DynstrOp) (l : List UInt8) (ret : ℤ) : List UInt8 :=
  if op.allocates ∧ ret ≠ 0 then [] else op.onList l

/-- The size of the string that a call asks for. -/
def totalSize (l : List UInt8) : DynstrOp → ℕ
  | resize minSize => minSize
  | grow numItems => l.length + numItems
  | appendStr pstr _ => l.length + pstr.length
  | appendNull => l.length + 1
  | appendStrSimple pstr => (appendStrSimple pstr).onList l |>.length
  | appendChar chr => (appendChar chr).onList l |>.length
  | sjoinAppend joinSeq pstr => (sjoinAppend joinSeq pstr).onList l |>.length
  | cjoinAppend joinChr pstr => (cjoinAppend joinChr pstr).onList l |>.length
  | _ => 0

/-- The calls considered: the total size is below `SIZE_MAX` / 4, and a string
    to strip or to truncate has data. -/
structure Admissible (op : DynstrOp) (d : DynstrData) (l : List UInt8) : Prop where
  size : op.totalSize l < sizeMax / 4
  data : op = rstrip ∨ op = truncate → d.data ≠ none

/-- What a call on a string `l` does. -/
structure Refines (op : DynstrOp) (l : List UInt8) (ret : ℤ) (d' : DynstrData) : Prop where
  contents : d'.contents = (op.after l ret).map some
  length : d'.currentSize = (op.after l ret).length
  freed : op.allocates → ret ≠ 0 → d' = .freed
  room : ∀ n, op = grow n → ret = 0 → d'.currentSize + n < d'.maxSize
  terminated : op = appendNull → ret = 0 →
    ∃ cells, d'.data = some cells ∧ cells.load d'.currentSize = some 0

/-- `Refines`, and the string keeps its invariant. -/
def Post (op : DynstrOp) (l : List UInt8) (r : ℤ × DynstrData) : Prop :=
  r.2.Holds (op.after l r.1) ∧ op.Refines l r.1 r.2

section
variable {refuses : Prop} {op : DynstrOp} {d d' : DynstrData} {l : List UInt8} {ret : ℤ}

theorem post_of_holds (h : d'.Holds (op.after l ret)) (hfreed : op.allocates → ret ≠ 0 → d' = .freed)
    (hroom : ∀ n, op = grow n → ret = 0 → d'.currentSize + n < d'.maxSize)
    (hterm : op = appendNull → ret = 0 →
      ∃ cells, d'.data = some cells ∧ cells.load d'.currentSize = some 0) : op.Post l (ret, d') :=
  ⟨h, h.contents, h.length, hfreed, hroom, hterm⟩

/-- The operations that may be refused memory. -/
theorem post_of_outcome {m : Alloc (ℤ × DynstrData)} {Q : DynstrData → Prop}
    (hop : op.allocates = true) (h : Ensures refuses m (Outcome refuses Q))
    (hholds : ∀ d', Q d' → d'.Holds (op.onList l))
    (hroom : ∀ d', Q d' → ∀ n, op = grow n → d'.currentSize + n < d'.maxSize)
    (hterm : ∀ d', Q d' → op = appendNull →
      ∃ cells, d'.data = some cells ∧ cells.load d'.currentSize = some 0) :
    Ensures refuses m (op.Post l) := by
  refine h.mono fun r hr => ?_
  obtain ⟨ret, d'⟩ := r
  rcases hr with ⟨rfl, hQ⟩ | ⟨-, rfl, rfl⟩
  · refine post_of_holds ?_ (fun _ h0 => absurd rfl h0) (fun n hn _ => hroom d' hQ n hn)
      fun hn _ => hterm d' hQ hn
    rw [after, if_neg (fun h => h.2 rfl)]
    exact hholds d' hQ
  · have hfail : (-1 : ℤ) ≠ 0 := by simp
    refine post_of_holds ?_ (fun _ _ => rfl) (fun _ _ h0 => absurd h0 hfail)
      fun _ h0 => absurd h0 hfail
    rw [after, if_pos ⟨hop, hfail⟩]
    exact holds_freed

/-- The operations that request nothing. -/
theorem post_of_defined (hop : op.allocates = false) (h : d'.Holds (op.onList l)) :
    op.Post l (ret, d') := by
  refine post_of_holds ?_ (fun h' => ?_) (fun n hn => ?_) fun hn => ?_
  · rwa [after, if_neg (fun h' => by rw [hop] at h'; exact Bool.false_ne_true h'.1)]
  · rw [hop] at h'
    cases h'
  · subst hn
    cases hop
  · subst hn
    cases hop

/-- One operation. -/
theorem call_ensures (h : d.Holds l) (hop : op.Admissible d l) :
    Ensures refuses (op.call d) (op.Post l) := by
  have hsize := hop.size
  cases op with
  | init n =>
    exact post_of_outcome rfl dynstrDataInit_ensures (fun _ hQ => hQ.1) (fun _ _ _ => nofun)
      fun _ _ => nofun
  | resize n =>
    exact post_of_outcome rfl (dynstrDataResize_ensures h hsize) (fun _ hQ => hQ.1)
      (fun _ _ _ => nofun) fun _ _ => nofun
  | grow n =>
    refine post_of_outcome rfl (dynstrDataGrow_ensures h hsize) (fun _ hQ => hQ.1)
      (fun d' hQ m hm => ?_) fun _ _ => nofun
    cases hm
    exact hQ.2
  | appendStr s convertChar =>
    exact post_of_outcome rfl (dynstrDataAppendStr_ensures h hsize) (fun _ hQ => hQ.1)
      (fun _ _ _ => nofun) fun _ _ => nofun
  | appendStrSimple s =>
    rw [totalSize, onList, List.length_append] at hsize
    exact post_of_outcome rfl (dynstrDataAppendStrSimple_ensures h hsize) (fun _ hQ => hQ)
      (fun _ _ _ => nofun) fun _ _ => nofun
  | appendChar chr =>
    rw [totalSize, onList, List.length_append] at hsize
    exact post_of_outcome rfl (dynstrDataAppendChar_ensures h hsize) (fun _ hQ => hQ)
      (fun _ _ _ => nofun) fun _ _ => nofun
  | sjoinAppend joinSeq s =>
    exact post_of_outcome rfl (dynstrDataSjoinAppend_ensures h hsize) (fun _ hQ => hQ)
      (fun _ _ _ => nofun) fun _ _ => nofun
  | cjoinAppend joinChr s =>
    exact post_of_outcome rfl (dynstrDataCjoinAppend_ensures h hsize) (fun _ hQ => hQ)
      (fun _ _ _ => nofun) fun _ _ => nofun
  | appendNull =>
    exact post_of_outcome rfl (dynstrDataAppendNull_ensures h hsize) (fun _ hQ => hQ.1)
      (fun _ _ _ => nofun) fun _ hQ _ => hQ.2
  | rstrip =>
    obtain ⟨d', heq, h', -⟩ := dynstrDataRstrip_eq h (hop.data (.inl rfl))
    exact ensures_defined heq (post_of_defined rfl h')
  | truncate =>
    obtain ⟨d', heq, h'⟩ := dynstrDataTruncate_eq h (hop.data (.inr rfl))
    exact ensures_defined heq (post_of_defined rfl h')
  | unref => exact Ensures.pure (post_of_defined rfl holds_freed)
  | free => exact Ensures.pure (post_of_defined rfl holds_freed)

end

end DynstrOp

/-- The strings that sequences of operations reach, with the list that the
    operations make of the empty one.  Each call may meet another allocator. -/
inductive DynstrReaches : DynstrData → List UInt8 → Prop where
  | zapped : DynstrReaches .freed []
  | call {d d' : DynstrData} {l : List UInt8} (op : DynstrOp) {ret : ℤ} {a a' : Allocator} :
      DynstrReaches d l → op.Admissible d l → (op.call d).run a = some ((ret, d'), a') →
      DynstrReaches d' (op.after l ret)

/-- The invariant of every sequence. -/
theorem DynstrReaches.holds {d : DynstrData} {l : List UInt8} (h : DynstrReaches d l) :
    d.Holds l := by
  induction h with
  | zapped => exact holds_freed
  | call op _ hop hcall ih =>
    obtain ⟨r, a', hrun, -, hholds, -⟩ := op.call_ensures ih hop _ (admits_any _)
    rw [hcall] at hrun
    cases hrun
    exact hholds

/-- An allocator that grants two requests. -/
def abAllocator : Allocator := fun n => n < 2

end Fischstaebchen
