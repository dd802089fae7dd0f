/-
  Dynamically allocated arrays (`common/data_types/dynarray.c`).

  A dynarray holds pointers, which it hands out (`dynarray_pop`) or gives to
  its item destructor.  The model keeps a ledger of what became of them.

  * `DynarrayState.Holds st l`: the entries of the array are `l`, and every
    item stored so far is in the array, was handed out or was destroyed, as
    often as it was stored.  Each operation has one lemma, `…_ensures`.
  * `dynarray_refines_list`: as long as the size of the array in bytes does not
    overflow, every operation is defined, does to the entries what it does to
    a list, and loses or destroys no item twice.
  * `dynarray_overflow`: a bound on the number of items alone does not suffice.
-/
import Mathlib.Data.List.ReduceOption
import Fischstaebchen.Lib.Alloc
import Fischstaebchen.Strutil.Compare

namespace Fischstaebchen

open Lib

/-! ## The operations -/

/-- A pointer that is not NULL: one of the caller's, or the `id`-th copy that
    `strdup` made. -/
inductive Item where
  | given (addr : ℕ)
  | copy (id : ℕ) (str : CStr)

/-- An item destructor other than NULL, as what it leaves of the pointer. -/
abbrev ItemDestructor := Item → Option Item

/-- `struct dynarray`; `arr` is NULL or an array of pointers. -/
structure Dynarray where
  arr : Option (Block (Option Item))
  len : ℕ
  size : ℕ
  itemDestructor : Option ItemDestructor

/-- What became of the items.  `destroyed` were freed, or given to the item
    destructor; `freedLeft` are the pointers that the destructor did not reset,
    which are then freed, and `freedCopies` the copies that could not be
    stored. -/
structure Ledger where
  copies : ℕ := 0
  stored : List Item := []
  handedOut : List Item := []
  destroyed : List Item := []
  freedLeft : List Item := []
  freedCopies : List Item := []

/-- A dynarray and the ledger of its items. -/
structure DynarrayState extends Dynarray, Ledger

/-- The cells of an array of `n * sizeof (void*)` bytes. -/
def ptrCells (n : ℕ) : ℕ := n * 8 % 2 ^ 64 / 8

/-- `dynarray_init`; the struct is not usable if it fails. -/
def dynarrayInit (initialSize : ℕ) : Alloc (ℤ × Option DynarrayState) := do
  let realInitSize := if initialSize > 0 then initialSize else 1
  let granted ← request
  if granted then
    let p_darr : Dynarray := ⟨some (Block.fresh (ptrCells realInitSize)), 0, realInitSize, none⟩
    pure (0, some ⟨p_darr, {}⟩)
  else pure (-10, none)

/-- `_dynarray_free_item_ptr`, which resets the pointer in any case. -/
def dynarrayFreeItemPtr (st : DynarrayState) : Option Item → DynarrayState
  | none => st
  | some item => match st.itemDestructor with
    | none => { st with destroyed := st.destroyed ++ [item] }
    | some itemDestructor => { st with
        destroyed := st.destroyed ++ [item]
        freedLeft := st.freedLeft ++ (itemDestructor item).toList }

/-- `dynarray_free_const_item_ptr`, the destructor of read-only data. -/
def dynarrayFreeConstItemPtr : ItemDestructor := fun _ => none

/-- `dynarray_set_item_destructor`. -/
def dynarraySetItemDestructor (st : DynarrayState) (itemDestructor : Option ItemDestructor) :
    DynarrayState := { st with itemDestructor }

/-- `dynarray_set_data_readonly`. -/
def dynarraySetDataReadonly (st : DynarrayState) : DynarrayState :=
  dynarraySetItemDestructor st (some dynarrayFreeConstItemPtr)

/-- One iteration of the loops of `dynarray_release`. -/
def releaseItem (st : DynarrayState) (k : ℕ) : Option DynarrayState := do
  let cells ← st.arr
  let item ← cells.load k
  let cells ← cells.store k none
  pure (dynarrayFreeItemPtr { st with arr := some cells } item)

/-- The loops of `dynarray_release`. -/
def releaseLoop (st : DynarrayState) : Option DynarrayState :=
  match st.arr with
  | none => some st
  | some _ => (List.range st.len).foldlM releaseItem st

/-- `dynarray_release`. -/
def dynarrayRelease (st : DynarrayState) : Option (ℤ × DynarrayState) := do
  let st ← releaseLoop st
  pure (0, { st with len := 0 })

/-- `dynarray_free`. -/
def dynarrayFree (st : DynarrayState) : Option (ℤ × DynarrayState) := do
  let r ← dynarrayRelease st
  if r.1 ≠ 0 then pure (-1, r.2) else pure (0, { r.2 with arr := none, size := 0 })

/-- `dynarray_resize`. -/
def dynarrayResize (st : DynarrayState) (wantLen : ℕ) : Alloc (ℤ × DynarrayState) :=
  match st.arr with
  | none => pure (-10, st)
  | some cells =>
    if wantLen < 1 ∨ wantLen ≤ st.size then pure (0, st)
    else do
      let newSize := 2 * st.size % 2 ^ 64
      let newSize ← defined (doubleWhile 64 (fun n => wantLen > n) 64 newSize)
      let granted ← request
      if granted then
        pure (0, { st with arr := some (cells.regrow (ptrCells newSize)), size := newSize })
      else
        let r ← defined (dynarrayFree st)
        pure (-1, r.2)

/-- `dynarray_grow`. -/
def dynarrayGrow (st : DynarrayState) : Alloc (ℤ × DynarrayState) :=
  dynarrayResize st ((st.len + 1) % 2 ^ 64)

/-- `dynarray_append`. -/
def dynarrayAppend (st : DynarrayState) (data : Option Item) : Alloc (ℤ × DynarrayState) := do
  let r ← dynarrayGrow st
  if r.1 ≠ 0 then pure (-1, r.2)
  else if r.2.size < 1 then pure (-50, r.2)
  else
    let cells ← defined (r.2.arr.bind fun cells => cells.store r.2.len data)
    pure (0, { r.2 with
      arr := some cells, len := r.2.len + 1, stored := r.2.stored ++ data.toList })

/-- `_dynarray_append_copied`. -/
def dynarrayAppendCopied (st : DynarrayState) (scopy : Option Item) :
    Alloc (ℤ × DynarrayState) :=
  match scopy with
  | none => pure (-1, st)
  | some item => do
    let r ← dynarrayAppend st (some item)
    if r.1 = 0 then pure (0, r.2)
    else pure (-2, { r.2 with freedCopies := r.2.freedCopies ++ [item] })

/-- `dynarray_append_strdup`. -/
def dynarrayAppendStrdup (st : DynarrayState) (str : CStr) : Alloc (ℤ × DynarrayState) := do
  let granted ← request
  if granted then
    dynarrayAppendCopied { st with copies := st.copies + 1 } (some (.copy st.copies str))
  else dynarrayAppendCopied st none

/-- `dynarray_append_strnodup`. -/
def dynarrayAppendStrnodup (st : DynarrayState) (str : Option Item) :
    Alloc (ℤ × DynarrayState) := dynarrayAppend st str

/-- The loops of `dynarray_extend_strdup` and `dynarray_extend_strnodup`. -/
def extendLoop {α : Type} (append : DynarrayState → α → Alloc (ℤ × DynarrayState)) :
    List (Option α) → DynarrayState → Alloc (ℤ × DynarrayState)
  | [], st => pure (0, st)
  | none :: argv, st => extendLoop append argv st
  | some arg :: argv, st => do
    let r ← append st arg
    if r.1 ≠ 0 then pure (-1, r.2) else extendLoop append argv r.2

/-- `dynarray_extend_strdup`. -/
def dynarrayExtendStrdup (st : DynarrayState) (argv : List (Option CStr)) :
    Alloc (ℤ × DynarrayState) := extendLoop dynarrayAppendStrdup argv st

/-- `dynarray_extend_strnodup`. -/
def dynarrayExtendStrnodup (st : DynarrayState) (argv : List (Option Item)) :
    Alloc (ℤ × DynarrayState) :=
  extendLoop (fun st str => dynarrayAppendStrnodup st (some str)) argv st

/-- `dynarray_pop`; `out`: there is an output pointer. -/
def dynarrayPop (st : DynarrayState) (out : Bool) : Option (ℤ × DynarrayState) :=
  match st.arr with
  | none => some (-5, st)
  | some cells =>
    if st.size = 0 ∨ st.len = 0 then some (-5, st)
    else do
      let pdata ← cells.load (st.len - 1)
      let cells ← cells.store (st.len - 1) none
      let st := { st with arr := some cells, len := st.len - 1 }
      if out then pure (0, { st with handedOut := st.handedOut ++ pdata.toList })
      else pure (0, dynarrayFreeItemPtr st pdata)

/-! ## Entries and ownership -/

/-- The entries of the array, NULL included. -/
def DynarrayState.entries (st : DynarrayState) : Block (Option Item) :=
  (st.arr.getD []).take st.len

/-- The entries are `l`, within the array, and every item that was stored is
    still there, was handed out or was destroyed. -/
structure DynarrayState.Holds (st : DynarrayState) (l : List (Option Item)) : Prop where
  entries : st.entries = l.map some
  len : st.len = l.length
  null : st.arr = none → st.len = 0 ∧ st.size = 0
  array : ∀ cells, st.arr = some cells →
    cells.length = st.size ∧ st.len ≤ st.size ∧ 0 < st.size ∧ 8 * st.size < 2 ^ 64
  owned : st.stored.Perm (st.handedOut ++ st.destroyed ++ l.reduceOption)

/-- The ledger is the same up to destroyed items. -/
structure SameItems (led led' : Ledger) : Prop where
  copies : led'.copies = led.copies
  stored : led'.stored = led.stored
  handedOut : led'.handedOut = led.handedOut
  freedCopies : led'.freedCopies = led.freedCopies

theorem SameItems.refl {led : Ledger} : SameItems led led := ⟨rfl, rfl, rfl, rfl⟩

theorem SameItems.trans {led led' led'' : Ledger} (h : SameItems led led')
    (h' : SameItems led' led'') : SameItems led led'' :=
  ⟨h'.copies.trans h.copies, h'.stored.trans h.stored, h'.handedOut.trans h.handedOut,
    h'.freedCopies.trans h.freedCopies⟩

section
variable {refuses : Prop} {st st' st'' : DynarrayState} {l : List (Option Item)} {n want : ℕ}

theorem ptrCells_eq (h : 8 * n < 2 ^ 64) : ptrCells n = n := by
  rw [ptrCells, Nat.mod_eq_of_lt (by omega), Nat.mul_div_cancel n (by omega)]

theorem DynarrayState.Holds.nil_of_null (h : st.Holds l) (harr : st.arr = none) : l = [] := by
  have := h.len
  have := (h.null harr).1
  exact List.eq_nil_of_length_eq_zero (by omega)

theorem DynarrayState.Holds.take (h : st.Holds l) {cells : Block (Option Item)}
    (harr : st.arr = some cells) : cells.take l.length = l.map some := by
  have hentries := h.entries
  rwa [DynarrayState.entries, harr, Option.getD_some, h.len] at hentries

/-! ## Releasing -/

/-- Freeing an item only moves it to the destroyed ones. -/
theorem dynarrayFreeItemPtr_spec (st : DynarrayState) (item : Option Item) :
    SameItems st.toLedger (dynarrayFreeItemPtr st item).toLedger ∧
      (dynarrayFreeItemPtr st item).toDynarray = st.toDynarray ∧
      (dynarrayFreeItemPtr st item).destroyed = st.destroyed ++ item.toList := by
  cases item with
  | none => exact ⟨.refl, rfl, (List.append_nil _).symm⟩
  | some item =>
    rw [dynarrayFreeItemPtr]
    cases st.itemDestructor with
    | none => exact ⟨⟨rfl, rfl, rfl, rfl⟩, rfl, rfl⟩
    | some f => exact ⟨⟨rfl, rfl, rfl, rfl⟩, rfl, rfl⟩

/-- The first `k` iterations destroy the first `k` entries. -/
theorem releaseLoop_eq {cells : Block (Option Item)} (harr : st.arr = some cells)
    (htake : cells.take l.length = l.map some) (hle : l.length ≤ cells.length) :
    ∀ k ≤ l.length, ∃ st' cells', (List.range k).foldlM releaseItem st = some st' ∧
      SameItems st.toLedger st'.toLedger ∧
      st'.toDynarray = ⟨some cells', st.len, st.size, st.itemDestructor⟩ ∧
      cells'.length = cells.length ∧ (∀ i, k ≤ i → cells'.load i = cells.load i) ∧
      st'.destroyed = st.destroyed ++ (l.take k).reduceOption
  | 0, _ => ⟨st, cells, rfl, .refl, by rw [← harr], rfl, fun _ _ => rfl, by simp⟩
  | k + 1, hk => by
    obtain ⟨st₁, cells₁, hrun, hsame, hdarr, hlen, hload, hdestroyed⟩ :=
      releaseLoop_eq harr htake hle k (by omega)
    have harr₁ : st₁.arr = some cells₁ := congrArg Dynarray.arr hdarr
    obtain ⟨item, hitem⟩ : ∃ item, l[k]? = some item := ⟨l[k], List.getElem?_eq_getElem hk⟩
    have hloadk : cells₁.load k = some item := by
      rw [hload k le_rfl, Block.load_of_take htake hk, hitem]
    obtain ⟨hsame', hdarr', hdestroyed'⟩ := dynarrayFreeItemPtr_spec
      { st₁ with arr := some (cells₁.set k (some none)) } item
    refine ⟨_, cells₁.set k (some none), ?_, hsame.trans hsame', ?_, ?_, fun i hi => ?_, ?_⟩
    · rw [List.range_succ, List.foldlM_append, hrun]
      simp only [List.foldlM_cons, List.foldlM_nil, Option.bind_eq_bind, Option.bind_some,
        Option.pure_def, Option.bind_fun_some]
      rw [releaseItem, harr₁]
      simp only [Option.bind_eq_bind, Option.bind_some, hloadk, Option.pure_def]
      rw [Block.store_eq_some (by omega), Option.bind_some]
    · rw [hdarr', hdarr]
    · rw [List.length_set, hlen]
    · rw [Block.load, List.getElem?_set_ne (by omega), ← Block.load, hload i (by omega)]
    · rw [hdestroyed', hdestroyed, List.take_add_one, hitem, List.reduceOption_append,
        List.append_assoc]
      rfl

/-- **Releasing** destroys all entries, each once. -/
theorem dynarrayRelease_eq (h : st.Holds l) :
    ∃ st', dynarrayRelease st = some (0, st') ∧ st'.Holds [] ∧
      SameItems st.toLedger st'.toLedger ∧
      st'.destroyed = st.destroyed ++ l.reduceOption ∧ st'.size = st.size := by
  cases harr : st.arr with
  | none =>
    have hl := h.nil_of_null harr
    subst hl
    refine ⟨{ st with len := 0 }, ?_, ⟨?_, rfl, fun _ => ⟨rfl, (h.null harr).2⟩, ?_, h.owned⟩,
      ⟨rfl, rfl, rfl, rfl⟩, by simp, rfl⟩
    · rw [dynarrayRelease, releaseLoop, harr]
      simp only [Option.bind_eq_bind, Option.bind_some, Option.pure_def, harr]
    · rw [DynarrayState.entries, List.take_zero]
      rfl
    · intro cells hcells
      dsimp only at hcells
      rw [harr] at hcells
      cases hcells
  | some cells =>
    obtain ⟨hlen, hle, hpos, hbytes⟩ := h.array cells harr
    rw [h.len] at hle
    obtain ⟨st₁, cells₁, hrun, hsame, hdarr, hlen₁, -, hdestroyed⟩ :=
      releaseLoop_eq harr (h.take harr) (by omega) l.length le_rfl
    rw [List.take_length] at hdestroyed
    have harr₁ : st₁.arr = some cells₁ := congrArg Dynarray.arr hdarr
    have hsize : st₁.size = st.size := by rw [hdarr]
    refine ⟨{ st₁ with len := 0 }, ?_, ⟨?_, rfl, ?_, ?_, ?_⟩, ⟨hsame.1, hsame.2, hsame.3, hsame.4⟩,
      hdestroyed, hsize⟩
    · rw [dynarrayRelease, releaseLoop, harr, h.len]
      simp only [Option.bind_eq_bind, Option.pure_def, hrun, Option.bind_some]
    · rw [DynarrayState.entries, List.take_zero]
      rfl
    · intro hnone
      rw [harr₁] at hnone
      cases hnone
    · intro cells₂ hcells
      rw [harr₁] at hcells
      cases hcells
      exact ⟨hlen₁.trans (hlen.trans hsize.symm), Nat.zero_le _, hsize ▸ hpos, hsize ▸ hbytes⟩
    · simp only [hsame.stored, hsame.handedOut, hdestroyed, List.reduceOption_nil,
        List.append_nil]
      rw [← List.append_assoc]
      exact h.owned

theorem dynarrayFree_eq (h : st.Holds l) :
    ∃ st', dynarrayFree st = some (0, st') ∧ st'.Holds [] ∧
      SameItems st.toLedger st'.toLedger ∧ st'.arr = none := by
  obtain ⟨st₁, hrel, hholds, hsame, -, -⟩ := dynarrayRelease_eq h
  refine ⟨{ st₁ with arr := none, size := 0 }, ?_,
    ⟨List.take_nil, hholds.len, fun _ => ⟨hholds.len, rfl⟩, nofun, hholds.owned⟩,
    ⟨hsame.1, hsame.2, hsame.3, hsame.4⟩, rfl⟩
  rw [dynarrayFree, hrel]
  rfl

/-! ## Growing -/

/-- The first doubling of `size` that has room for `want` items is an array of
    fewer bytes than `size_t` can tell. -/
def AllocFits (size want : ℕ) : Prop := ∃ k, want ≤ size * 2 ^ k ∧ 8 * (size * 2 ^ k) < 2 ^ 64

theorem AllocFits.mono {size want want' : ℕ} (h : AllocFits size want) (hle : want' ≤ want) :
    AllocFits size want' := by
  obtain ⟨k, hwant, hbytes⟩ := h
  exact ⟨k, hle.trans hwant, hbytes⟩

/-- Growing for some of the items first. -/
theorem AllocFits.of_first {size want want' i : ℕ} (h : AllocFits size want) (hle : want' ≤ want)
    (hfirst : ∀ j, want' ≤ size * 2 ^ j → i ≤ j) : AllocFits (size * 2 ^ i) want := by
  obtain ⟨k, hwant, hbytes⟩ := h
  have hi : i ≤ k := hfirst k (hle.trans hwant)
  have hsplit : size * 2 ^ i * 2 ^ (k - i) = size * 2 ^ k := by
    rw [mul_assoc, ← pow_add, Nat.add_sub_cancel' hi]
  exact ⟨k - i, by rwa [hsplit], by rwa [hsplit]⟩

/-- An array, if there is one, that may grow to `n` items. -/
def DynarrayState.Fits (st : DynarrayState) (n : ℕ) : Prop := st.arr = none ∨ AllocFits st.size n

/-- What growing does: there is room and nothing else happened, or the array
    and its items were freed. -/
structure Resized (st : DynarrayState) (l : List (Option Item)) (want : ℕ)
    (r : ℤ × DynarrayState) : Prop where
  same : SameItems st.toLedger r.2.toLedger
  outcome : (r.1 = 0 ∧ r.2.Holds l ∧ want ≤ r.2.size ∧ r.2.arr ≠ none ∧
      ∀ n, want ≤ n → st.Fits n → r.2.Fits n) ∨
    (r.1 ≠ 0 ∧ r.2.Holds [] ∧ r.2.arr = none)

/-- The loop of `dynarray_resize` finds the first doubling that is large enough. -/
theorem resize_doubling {size : ℕ} (hpos : 0 < size) (hbytes : 8 * size < 2 ^ 64)
    (hlt : size < want) (hfits : AllocFits size want) :
    ∃ i, doubleWhile 64 (fun n => want > n) 64 (2 * size % 2 ^ 64) = some (size * 2 ^ i) ∧
      want ≤ size * 2 ^ i ∧ (∀ j, want ≤ size * 2 ^ j → i ≤ j) ∧ 8 * (size * 2 ^ i) < 2 ^ 64 := by
  obtain ⟨k, hk, hkbytes⟩ := hfits
  have hstart : 2 * size % 2 ^ 64 = 2 * size := Nat.mod_eq_of_lt (by omega)
  have hdouble (j : ℕ) : 2 * size * 2 ^ j = size * 2 ^ (j + 1) := by ring
  have hshort (n : ℕ) : decide (want > n) = true ↔ n < want := decide_eq_true_iff
  have hrange : 2 * want ≤ 2 ^ 64 := by omega
  have hfuel : want ≤ 2 * size * 2 ^ 64 := by
    calc want ≤ 1 * 2 ^ 64 := by omega
      _ ≤ 2 * size * 2 ^ 64 := Nat.mul_le_mul_right _ (by omega)
  obtain ⟨i, hi, hwant, hfirst⟩ := doubleWhile_spec hshort hrange hfuel
  rw [hdouble] at hi hwant
  -- the first doubling, counted from the old size
  have hfirst' : ∀ j, want ≤ size * 2 ^ j → i + 1 ≤ j := by
    intro j hj
    cases j with
    | zero =>
      rw [pow_zero, mul_one] at hj
      omega
    | succ j => exact Nat.succ_le_succ (hfirst j (by rwa [hdouble]))
  refine ⟨i + 1, by rw [hstart, hi], hwant, hfirst', ?_⟩
  have hpow : 2 ^ (i + 1) ≤ 2 ^ k := Nat.pow_le_pow_right (by omega) (hfirst' k hk)
  calc 8 * (size * 2 ^ (i + 1)) ≤ 8 * (size * 2 ^ k) :=
        Nat.mul_le_mul_left _ (Nat.mul_le_mul_left _ hpow)
    _ < 2 ^ 64 := hkbytes

/-- **Resizing**: the doubling ends, and a refused request destroys all items. -/
theorem dynarrayResize_ensures (h : st.Holds l) (hfits : st.Fits want) :
    Ensures refuses (dynarrayResize st want) (Resized st l want) := by
  rw [dynarrayResize]
  cases harr : st.arr with
  | none =>
    have hl := h.nil_of_null harr
    exact Ensures.pure ⟨.refl, .inr ⟨by norm_num, hl ▸ h, harr⟩⟩
  | some cells =>
    have hfits := hfits.resolve_left (by rw [harr]; exact Option.some_ne_none _)
    obtain ⟨hlen, hle, hpos, hbytes⟩ := h.array cells harr
    dsimp only
    by_cases hwant : want < 1 ∨ want ≤ st.size
    · rw [if_pos hwant]
      exact Ensures.pure ⟨.refl, .inl ⟨rfl, h, (by omega : want ≤ st.size),
        by rw [harr]; exact Option.some_ne_none _,
        fun _ _ hn => hn⟩⟩
    rw [if_neg hwant]
    obtain ⟨i, hi, hwant', hfirst, hnew⟩ := resize_doubling hpos hbytes (by omega) hfits
    refine Ensures.bind (ensures_defined hi rfl) fun newSize heq => ?_
    subst heq
    refine ensures_request_bind ?_ fun _ => ?_
    · -- the array has moved
      have hlarge : st.size ≤ st.size * 2 ^ i := Nat.le_mul_of_pos_right _ (by positivity)
      rw [if_pos rfl]
      refine Ensures.pure ⟨.refl, .inl ⟨rfl, ⟨?_, h.len, nofun, ?_, h.owned⟩, hwant',
        Option.some_ne_none _, fun n hn hfits => .inr ?_⟩⟩
      · rw [DynarrayState.entries, Option.getD_some]
        dsimp only
        rw [ptrCells_eq hnew, h.len, Block.take_regrow (by rw [← h.len]; omega)
          (by rw [← h.len]; omega)]
        exact h.take harr
      · intro cells' hcells
        cases hcells
        rw [Block.length_regrow, ptrCells_eq hnew]
        exact ⟨rfl, by dsimp only; omega, by dsimp only; omega, hnew⟩
      · have hfits := hfits.resolve_left (by rw [harr]; exact Option.some_ne_none _)
        exact hfits.of_first hn hfirst
    · obtain ⟨st', hfree, hholds, hsame, hnone⟩ := dynarrayFree_eq h
      refine Ensures.bind (ensures_defined hfree rfl) fun r hr => ?_
      subst hr
      exact Ensures.pure ⟨hsame, .inr ⟨by norm_num, hholds, hnone⟩⟩

/-- Growing by one item. -/
theorem dynarrayGrow_ensures (h : st.Holds l) (hfits : st.Fits (l.length + 1)) :
    Ensures refuses (dynarrayGrow st) (Resized st l (l.length + 1)) := by
  have hmod : (st.len + 1) % 2 ^ 64 = l.length + 1 := by
    rw [h.len]
    refine Nat.mod_eq_of_lt ?_
    rcases hfits with harr | ⟨k, hk, hbytes⟩
    · rw [h.nil_of_null harr, List.length_nil]
      norm_num
    · omega
  rw [dynarrayGrow, hmod]
  exact dynarrayResize_ensures h hfits

/-! ## Appending -/

/-- What appending does: the item is stored, or everything before it was
    destroyed. -/
structure Appended (st : DynarrayState) (l : List (Option Item)) (data : Option Item)
    (r : ℤ × DynarrayState) : Prop where
  copies : r.2.copies = st.copies
  handedOut : r.2.handedOut = st.handedOut
  freedCopies : r.2.freedCopies = st.freedCopies
  outcome : (r.1 = 0 ∧ r.2.Holds (l ++ [data]) ∧ r.2.stored = st.stored ++ data.toList ∧
      ∀ n, l.length + 1 ≤ n → st.Fits n → r.2.Fits n) ∨
    (r.1 ≠ 0 ∧ r.2.Holds [] ∧ r.2.stored = st.stored)

theorem dynarrayAppend_ensures (h : st.Holds l) (hfits : st.Fits (l.length + 1))
    (data : Option Item) : Ensures refuses (dynarrayAppend st data) (Appended st l data) := by
  refine Ensures.bind (dynarrayGrow_ensures h hfits) fun r hr => ?_
  obtain ⟨ret, st₁⟩ := r
  obtain ⟨⟨hcopies, hstored, hhanded, hfreed⟩, houtcome⟩ := hr
  rcases houtcome with ⟨hret, h₁, hroom, harr, hkeep⟩ | ⟨hret, h₁, -⟩
  · obtain ⟨cells, hcells⟩ := Option.ne_none_iff_exists'.1 harr
    dsimp only at hcopies hstored hhanded hfreed hret h₁ hroom hcells hkeep ⊢
    obtain ⟨hlen, -, hpos, hbytes⟩ := h₁.array cells hcells
    have hin : st₁.len < cells.length := by
      rw [h₁.len]
      omega
    rw [if_neg (fun hne => hne hret), if_neg (by omega), hcells, Option.bind_some]
    refine Ensures.bind (ensures_defined (Block.store_eq_some hin) rfl) fun cells' hset => ?_
    subst hset
    refine Ensures.pure ⟨hcopies, hhanded, hfreed, .inl ⟨rfl, ⟨?_, ?_, nofun, ?_, ?_⟩, ?_, ?_⟩⟩
    · rw [DynarrayState.entries, Option.getD_some]
      dsimp only
      rw [h₁.len, Block.take_succ_set (h₁.take hcells) (by rwa [← h₁.len])]
    · rw [List.length_append, List.length_singleton, h₁.len]
    · intro cells' hcells'
      cases hcells'
      rw [List.length_set]
      exact ⟨hlen, by dsimp only; omega, hpos, hbytes⟩
    · dsimp only
      rw [List.reduceOption_append, List.reduceOption_singleton, ← List.append_assoc]
      exact h₁.owned.append_right _
    · dsimp only
      rw [hstored]
    · intro n hn hst
      exact (hkeep n hn hst).imp_left fun hnone => absurd hnone harr
  · dsimp only at hret ⊢
    rw [if_pos hret]
    exact Ensures.pure ⟨hcopies, hhanded, hfreed, .inr ⟨by norm_num, h₁, hstored⟩⟩

/-- What `dynarray_append_strdup` does: the copy is stored, there is no copy, or
    it is freed with everything before it. -/
structure AppendedCopy (st : DynarrayState) (l : List (Option Item)) (str : CStr)
    (r : ℤ × DynarrayState) : Prop where
  handedOut : r.2.handedOut = st.handedOut
  outcome : (r.1 = 0 ∧ r.2.Holds (l ++ [some (.copy st.copies str)]) ∧
      r.2.copies = st.copies + 1 ∧ r.2.stored = st.stored ++ [.copy st.copies str] ∧
      r.2.freedCopies = st.freedCopies ∧ ∀ n, l.length + 1 ≤ n → st.Fits n → r.2.Fits n) ∨
    (r.1 = -1 ∧ r.2 = st) ∨
    (r.1 = -2 ∧ r.2.Holds [] ∧ r.2.stored = st.stored ∧
      r.2.freedCopies = st.freedCopies ++ [.copy st.copies str])

theorem dynarrayAppendStrdup_ensures (h : st.Holds l) (hfits : st.Fits (l.length + 1))
    (str : CStr) : Ensures refuses (dynarrayAppendStrdup st str) (AppendedCopy st l str) := by
  refine ensures_request_bind ?_ fun _ => ?_
  · rw [if_pos rfl]
    -- the counter of copies is the only change before the append
    have h' : DynarrayState.Holds { st with copies := st.copies + 1 } l :=
      ⟨h.entries, h.len, h.null, h.array, h.owned⟩
    refine Ensures.bind (dynarrayAppend_ensures h' hfits (some (.copy st.copies str)))
      fun r hr => ?_
    obtain ⟨hcopies, hhanded, hfreed, houtcome⟩ := hr
    rcases houtcome with ⟨hret, h₁, hstored, hkeep⟩ | ⟨hret, h₁, hstored⟩
    · rw [if_pos hret]
      exact Ensures.pure ⟨hhanded, .inl ⟨rfl, h₁, hcopies, hstored, hfreed, hkeep⟩⟩
    · rw [if_neg hret]
      refine Ensures.pure ⟨hhanded, .inr (.inr ⟨rfl, ?_, hstored, ?_⟩)⟩
      · exact ⟨h₁.entries, h₁.len, h₁.null, h₁.array, h₁.owned⟩
      · dsimp only
        rw [hfreed]
  · rw [if_neg Bool.false_ne_true]
    exact Ensures.pure ⟨rfl, .inr (.inl ⟨rfl, rfl⟩)⟩

/-! ## Extending -/

/-- The loops append the arguments that are not NULL, up to the first one that
    cannot be appended. -/
theorem extendLoop_ensures {α : Type} {append : DynarrayState → α → Alloc (ℤ × DynarrayState)}
    {I F : List α → DynarrayState → Prop}
    (hstep : ∀ arg rest st, I (arg :: rest) st → Ensures refuses (append st arg)
      fun r => (r.1 = 0 ∧ I rest r.2) ∨ (r.1 ≠ 0 ∧ F (arg :: rest) r.2))
    {argv : List (Option α)} (h : I argv.reduceOption st) :
    Ensures refuses (extendLoop append argv st)
      fun r => (r.1 = 0 ∧ I [] r.2) ∨ (r.1 = -1 ∧ ∃ arg rest, F (arg :: rest) r.2) := by
  induction argv generalizing st with
  | nil => exact Ensures.pure (.inl ⟨rfl, h⟩)
  | cons arg argv ih =>
    cases arg with
    | none => exact ih h
    | some arg =>
      refine Ensures.bind (hstep arg argv.reduceOption st h) fun r hr => ?_
      rcases hr with ⟨hret, hI⟩ | ⟨hret, hF⟩
      · rw [if_neg (fun hne => hne hret)]
        exact ih hI
      · rw [if_pos hret]
        exact Ensures.pure (.inr ⟨rfl, arg, _, hF⟩)

/-- The copies that `strdup` makes of strings from the `n`-th copy on. -/
def copyItems : ℕ → List CStr → List Item
  | _, [] => []
  | n, str :: strs => .copy n str :: copyItems (n + 1) strs

theorem copyItems_append (strs strs' : List CStr) :
    copyItems n (strs ++ strs') = copyItems n strs ++ copyItems (n + strs.length) strs' := by
  induction strs generalizing n with
  | nil => rfl
  | cons str strs ih =>
    rw [List.cons_append, copyItems, ih, copyItems, List.cons_append, List.length_cons,
      Nat.add_assoc, Nat.add_comm 1]

@[simp] theorem length_copyItems (strs : List CStr) :
    (copyItems n strs).length = strs.length := by
  induction strs generalizing n with
  | nil => rfl
  | cons str strs ih => rw [copyItems, List.length_cons, ih, List.length_cons]

/-- After `extend_strnodup`: all items are stored, or those stored before the
    refused request were destroyed. -/
structure Extended (st : DynarrayState) (l : List (Option Item)) (items : List Item)
    (r : ℤ × DynarrayState) : Prop where
  handedOut : r.2.handedOut = st.handedOut
  outcome : (r.1 = 0 ∧ r.2.Holds (l ++ items.map some) ∧ r.2.stored = st.stored ++ items) ∨
    (r.1 = -1 ∧ r.2.Holds [] ∧ ∃ pre, pre <+: items ∧ r.2.stored = st.stored ++ pre)

theorem dynarrayExtendStrnodup_ensures (h : st.Holds l) {argv : List (Option Item)}
    (hfits : st.Fits (l.length + argv.reduceOption.length)) :
    Ensures refuses (dynarrayExtendStrnodup st argv) (Extended st l argv.reduceOption) := by
  refine (extendLoop_ensures
    (I := fun rest st' => ∃ pre, argv.reduceOption = pre ++ rest ∧ st'.Holds (l ++ pre.map some) ∧
      st'.stored = st.stored ++ pre ∧ st'.handedOut = st.handedOut ∧
      st'.Fits (l.length + argv.reduceOption.length))
    (F := fun rest st' => ∃ pre, argv.reduceOption = pre ++ rest ∧ st'.Holds [] ∧
      st'.stored = st.stored ++ pre ∧ st'.handedOut = st.handedOut) ?_
    ⟨[], rfl, by simpa using h, (List.append_nil _).symm, rfl, hfits⟩).mono fun r hr => ?_
  · rintro arg rest st' ⟨pre, hpre, h', hstored, hhanded, hfits'⟩
    have hlen : argv.reduceOption.length = pre.length + (rest.length + 1) := by
      rw [hpre, List.length_append, List.length_cons]
    have hfits₁ : st'.Fits ((l ++ pre.map some).length + 1) := by
      refine hfits'.imp_right fun hf => hf.mono ?_
      rw [List.length_append, List.length_map]
      omega
    refine (dynarrayAppend_ensures h' hfits₁ (some arg)).mono fun r hr => ?_
    rcases hr.outcome with ⟨hret, h₁, hstored₁, hkeep⟩ | ⟨hret, h₁, hstored₁⟩
    · refine .inl ⟨hret, pre ++ [arg], ?_, ?_, ?_, hr.handedOut.trans hhanded, hkeep _ ?_ hfits'⟩
      · rw [hpre, List.append_assoc, List.singleton_append]
      · rwa [List.map_append, ← List.append_assoc]
      · rw [hstored₁, hstored, List.append_assoc]
        rfl
      · rw [List.length_append, List.length_map]
        omega
    · exact .inr ⟨hret, pre, hpre, h₁, hstored₁.trans hstored, hr.handedOut.trans hhanded⟩
  · rcases hr with ⟨hret, pre, hpre, h', hstored, hhanded, -⟩ |
      ⟨hret, arg, rest, pre, hpre, h', hstored, hhanded⟩
    · rw [List.append_nil] at hpre
      subst hpre
      exact ⟨hhanded, .inl ⟨hret, h', hstored⟩⟩
    · exact ⟨hhanded, .inr ⟨hret, h', pre, ⟨_, hpre.symm⟩, hstored⟩⟩

/-- After `extend_strdup`: all strings are copied and stored; or the next copy
    could not be made, and the others are stored; or it could not be stored, and
    all are destroyed or freed. -/
structure ExtendedCopies (st : DynarrayState) (l : List (Option Item)) (strs : List CStr)
    (r : ℤ × DynarrayState) : Prop where
  handedOut : r.2.handedOut = st.handedOut
  outcome : (r.1 = 0 ∧ r.2.Holds (l ++ (copyItems st.copies strs).map some) ∧
      r.2.stored = st.stored ++ copyItems st.copies strs ∧ r.2.freedCopies = st.freedCopies) ∨
    ∃ pre str, pre ++ [str] <+: strs ∧ r.1 = -1 ∧
      r.2.stored = st.stored ++ copyItems st.copies pre ∧
      ((r.2.Holds (l ++ (copyItems st.copies pre).map some) ∧
          r.2.freedCopies = st.freedCopies) ∨
        (r.2.Holds [] ∧
          r.2.freedCopies = st.freedCopies ++ [.copy (st.copies + pre.length) str]))

theorem dynarrayExtendStrdup_ensures (h : st.Holds l) {argv : List (Option CStr)}
    (hfits : st.Fits (l.length + argv.reduceOption.length)) :
    Ensures refuses (dynarrayExtendStrdup st argv) (ExtendedCopies st l argv.reduceOption) := by
  refine (extendLoop_ensures
    (I := fun rest st' => ∃ pre, argv.reduceOption = pre ++ rest ∧
      st'.Holds (l ++ (copyItems st.copies pre).map some) ∧
      st'.stored = st.stored ++ copyItems st.copies pre ∧ st'.handedOut = st.handedOut ∧
      st'.copies = st.copies + pre.length ∧ st'.freedCopies = st.freedCopies ∧
      st'.Fits (l.length + argv.reduceOption.length))
    (F := fun rest st' => ∃ pre str, pre ++ [str] <+: argv.reduceOption ∧
      st'.stored = st.stored ++ copyItems st.copies pre ∧ st'.handedOut = st.handedOut ∧
      ((st'.Holds (l ++ (copyItems st.copies pre).map some) ∧ st'.freedCopies = st.freedCopies) ∨
        (st'.Holds [] ∧
          st'.freedCopies = st.freedCopies ++ [.copy (st.copies + pre.length) str]))) ?_
    ⟨[], rfl, by simpa [copyItems] using h, (List.append_nil _).symm, rfl, rfl, rfl, hfits⟩).mono
    fun r hr => ?_
  · rintro arg rest st' ⟨pre, hpre, h', hstored, hhanded, hcopies, hfreed, hfits'⟩
    have hlen : argv.reduceOption.length = pre.length + (rest.length + 1) := by
      rw [hpre, List.length_append, List.length_cons]
    have hprefix : pre ++ [arg] <+: argv.reduceOption :=
      ⟨rest, by rw [hpre, List.append_assoc, List.singleton_append]⟩
    have hfits₁ : st'.Fits ((l ++ (copyItems st.copies pre).map some).length + 1) := by
      refine hfits'.imp_right fun hf => hf.mono ?_
      rw [List.length_append, List.length_map, length_copyItems]
      omega
    refine (dynarrayAppendStrdup_ensures h' hfits₁ arg).mono fun r hr => ?_
    rcases hr.outcome with ⟨hret, h₁, hcopies₁, hstored₁, hfreed₁, hkeep⟩ | ⟨hret, hst⟩ |
      ⟨hret, h₁, hstored₁, hfreed₁⟩
    · refine .inl ⟨hret, pre ++ [arg], ?_, ?_, ?_, hr.handedOut.trans hhanded, ?_,
        hfreed₁.trans hfreed, hkeep _ ?_ hfits'⟩
      · rw [hpre, List.append_assoc, List.singleton_append]
      · rw [copyItems_append, List.map_append, ← List.append_assoc]
        rwa [hcopies] at h₁
      · rw [hstored₁, hstored, hcopies, copyItems_append, List.append_assoc]
        rfl
      · rw [hcopies₁, hcopies, List.length_append, List.length_singleton, Nat.add_assoc]
      · rw [List.length_append, List.length_map, length_copyItems]
        omega
    · have hne : r.1 ≠ 0 := by
        rw [hret]
        decide
      rw [hst]
      exact .inr ⟨hne, pre, arg, hprefix, hstored, hhanded, .inl ⟨h', hfreed⟩⟩
    · have hne : r.1 ≠ 0 := by
        rw [hret]
        decide
      refine .inr ⟨hne, pre, arg, hprefix, hstored₁.trans hstored, hr.handedOut.trans hhanded,
        .inr ⟨h₁, ?_⟩⟩
      rw [hfreed₁, hfreed, hcopies]
  · rcases hr with ⟨hret, pre, hpre, h', hstored, hhanded, -, hfreed, -⟩ |
      ⟨hret, -, -, pre, str, hpre, hstored, hhanded, hrest⟩
    · rw [List.append_nil] at hpre
      subst hpre
      exact ⟨hhanded, .inl ⟨hret, h', hstored, hfreed⟩⟩
    · exact ⟨hhanded, .inr ⟨pre, str, hpre, hret, hstored, hrest⟩⟩

/-! ## Popping -/

theorem dynarrayPop_nil (h : st.Holds []) (out : Bool) : dynarrayPop st out = some (-5, st) := by
  rw [dynarrayPop]
  cases st.arr with
  | none => rfl
  | some cells => exact if_pos (.inr h.len)

/-- The array after a pop. -/
def DynarrayState.cut (st : DynarrayState) (cells : Block (Option Item)) : Dynarray :=
  ⟨some (cells.set (st.len - 1) (some none)), st.len - 1, st.size, st.itemDestructor⟩

/-- The array without its last entry, whatever the ledger says. -/
theorem DynarrayState.Holds.cut {item : Option Item} {cells : Block (Option Item)}
    (h : st.Holds (l ++ [item])) (harr : st.arr = some cells)
    (hdarr : st'.toDynarray = st.cut cells)
    (howned : st'.stored.Perm (st'.handedOut ++ st'.destroyed ++ l.reduceOption)) :
    st'.Holds l := by
  obtain ⟨hlen, hle, hpos, hbytes⟩ := h.array cells harr
  have hlast : st.len - 1 = l.length := by
    rw [h.len, List.length_append, List.length_singleton, Nat.add_sub_cancel]
  obtain ⟨darr, led⟩ := st'
  obtain rfl : darr = st.cut cells := hdarr
  refine ⟨?_, hlast, nofun, fun cells' hcells' => ?_, howned⟩
  · rw [DynarrayState.entries, DynarrayState.cut, Option.getD_some]
    dsimp only
    rw [hlast, Block.take_set le_rfl, Block.take_of_append (h.take harr)]
  · cases hcells'
    rw [List.length_set]
    exact ⟨hlen, (Nat.sub_le _ _).trans hle, hpos, hbytes⟩

/-- **Popping** hands out or destroys the last entry. -/
theorem dynarrayPop_concat {item : Option Item} (h : st.Holds (l ++ [item])) (out : Bool) :
    ∃ st', dynarrayPop st out = some (0, st') ∧ st'.Holds l ∧
      st'.handedOut = st.handedOut ++ (if out then item.toList else []) := by
  cases harr : st.arr with
  | none => exact absurd (h.nil_of_null harr) (List.append_ne_nil_of_right_ne_nil _ nofun)
  | some cells =>
    obtain ⟨hlen, hle, hpos, -⟩ := h.array cells harr
    have hsize : (l ++ [item]).length = l.length + 1 := by
      rw [List.length_append, List.length_singleton]
    have hst : st.len = l.length + 1 := h.len.trans hsize
    have hload : cells.load (st.len - 1) = some item := by
      rw [Block.load_of_take (h.take harr) (by omega), hst, Nat.add_sub_cancel,
        List.getElem?_concat_length]
    have hpop : dynarrayPop st out = some (if out then
        (0, ⟨st.cut cells, { st.toLedger with handedOut := st.handedOut ++ item.toList }⟩)
        else (0, dynarrayFreeItemPtr ⟨st.cut cells, st.toLedger⟩ item)) := by
      rw [dynarrayPop, harr]
      dsimp only
      rw [if_neg (by omega), hload]
      simp only [Option.bind_eq_bind, Option.bind_some, Option.pure_def]
      rw [Block.store_eq_some (by omega)]
      cases out <;> rfl
    have howned := h.owned
    rw [List.reduceOption_append, List.reduceOption_singleton] at howned
    cases out with
    | true =>
      refine ⟨_, hpop, h.cut harr rfl ?_, rfl⟩
      refine howned.trans ?_
      simp only [List.append_assoc]
      refine List.Perm.append_left _ ?_
      rw [← List.append_assoc]
      exact List.perm_append_comm
    | false =>
      obtain ⟨hsame, hdarr, hdestroyed⟩ := dynarrayFreeItemPtr_spec
        ⟨st.cut cells, st.toLedger⟩ item
      refine ⟨_, hpop, h.cut harr hdarr ?_, ?_⟩
      · rw [hsame.stored, hsame.handedOut, hdestroyed, ← List.append_assoc, List.append_assoc _ _
          l.reduceOption]
        exact howned.trans (List.perm_append_comm.append_left _)
      · exact hsame.handedOut.trans (List.append_nil _).symm

end

/-! ## Sequences of operations -/

/-- The operations on a dynarray. -/
inductive DynarrayOp where
  | append (data : Option Item)
  | appendStrdup (str : CStr)
  | appendStrnodup (str : Option Item)
  | extendStrdup (argv : List (Option CStr))
  | extendStrnodup (argv : List (Option Item))
  | pop (out : Bool)
  | release
  | resize (wantLen : ℕ)
  | grow
  | free
  | setItemDestructor (itemDestructor : Option ItemDestructor)
  | setDataReadonly

/-- The entries as a list of pointers. -/
def DynarrayState.list (st : DynarrayState) : List (Option Item) := st.entries.map Option.join

namespace DynarrayOp

/-- A call; the functions without a return value return 0 here. -/
def call (st : DynarrayState) : DynarrayOp → Alloc (ℤ × DynarrayState)
  | append data => dynarrayAppend st data
  | appendStrdup str => dynarrayAppendStrdup st str
  | appendStrnodup str => dynarrayAppendStrnodup st str
  | extendStrdup argv => dynarrayExtendStrdup st argv
  | extendStrnodup argv => dynarrayExtendStrnodup st argv
  | pop out => defined (dynarrayPop st out)
  | release => defined (dynarrayRelease st)
  | resize wantLen => dynarrayResize st wantLen
  | grow => dynarrayGrow st
  | free => defined (dynarrayFree st)
  | setItemDestructor itemDestructor => pure (0, dynarraySetItemDestructor st itemDestructor)
  | setDataReadonly => pure (0, dynarraySetDataReadonly st)

/-- The number of items a call asks for. -/
def wantLen (l : List (Option Item)) : DynarrayOp → ℕ
  | append _ | appendStrdup _ | appendStrnodup _ | grow => l.length + 1
  | extendStrdup argv => l.length + argv.reduceOption.length
  | extendStrnodup argv => l.length + argv.reduceOption.length
  | resize wantLen => wantLen
  | _ => 0

/-- What a call does to the entries, and which items it stores and hands out. -/
def OnList (st : DynarrayState) (ret : ℤ) (st' : DynarrayState) : DynarrayOp → Prop
  | append data | appendStrnodup data =>
    (ret = 0 ∧ st'.list = st.list ++ [data] ∧ st'.stored = st.stored ++ data.toList) ∨
    (ret ≠ 0 ∧ st'.list = [] ∧ st'.stored = st.stored)
  | appendStrdup str =>
    (ret = 0 ∧ st'.list = st.list ++ [some (.copy st.copies str)] ∧
      st'.stored = st.stored ++ [.copy st.copies str] ∧ st'.freedCopies = st.freedCopies) ∨
    (ret = -1 ∧ st' = st) ∨
    (ret = -2 ∧ st'.list = [] ∧ st'.stored = st.stored ∧
      st'.freedCopies = st.freedCopies ++ [.copy st.copies str])
  | extendStrdup argv =>
    (ret = 0 ∧ st'.list = st.list ++ (copyItems st.copies argv.reduceOption).map some ∧
      st'.stored = st.stored ++ copyItems st.copies argv.reduceOption ∧
      st'.freedCopies = st.freedCopies) ∨
    ∃ pre str, pre ++ [str] <+: argv.reduceOption ∧ ret = -1 ∧
      st'.stored = st.stored ++ copyItems st.copies pre ∧
      ((st'.list = st.list ++ (copyItems st.copies pre).map some ∧
          st'.freedCopies = st.freedCopies) ∨
        (st'.list = [] ∧
          st'.freedCopies = st.freedCopies ++ [.copy (st.copies + pre.length) str]))
  | extendStrnodup argv =>
    (ret = 0 ∧ st'.list = st.list ++ argv.reduceOption.map some ∧
      st'.stored = st.stored ++ argv.reduceOption) ∨
    (ret = -1 ∧ st'.list = [] ∧
      ∃ pre, pre <+: argv.reduceOption ∧ st'.stored = st.stored ++ pre)
  | pop out =>
    (st.list = [] ∧ ret = -5 ∧ st' = st) ∨
    ∃ item, st.list = st'.list ++ [item] ∧ ret = 0 ∧
      st'.handedOut = st.handedOut ++ (if out then item.toList else [])
  | release | free => ret = 0 ∧ st'.list = []
  | resize wantLen =>
    (ret = 0 ∧ st'.list = st.list ∧ wantLen ≤ st'.size) ∨ (ret ≠ 0 ∧ st'.list = [])
  | grow =>
    (ret = 0 ∧ st'.list = st.list ∧ st.list.length + 1 ≤ st'.size) ∨ (ret ≠ 0 ∧ st'.list = [])
  | setItemDestructor _ | setDataReadonly => ret = 0 ∧ st'.list = st.list

/-- Only `dynarray_pop` hands out items. -/
structure Refines (op : DynarrayOp) (st : DynarrayState) (ret : ℤ) (st' : DynarrayState) :
    Prop where
  onList : op.OnList st ret st'
  handedOut : (∀ out, op ≠ pop out) → st'.handedOut = st.handedOut

/-- `Refines`, and the dynarray keeps its invariant. -/
def Post (op : DynarrayOp) (st : DynarrayState) (r : ℤ × DynarrayState) : Prop :=
  (∃ l', r.2.Holds l') ∧ op.Refines st r.1 r.2

end DynarrayOp

theorem DynarrayState.Holds.list {st : DynarrayState} {l : List (Option Item)} (h : st.Holds l) :
    st.list = l := by
  rw [DynarrayState.list, h.entries, List.map_map]
  exact List.map_id l

section
variable {refuses : Prop} {st st' : DynarrayState} {l : List (Option Item)} {want : ℕ}

open DynarrayOp

/-- The destructor is not part of the invariant. -/
theorem DynarrayState.Holds.setItemDestructor (h : st.Holds l) (f : Option ItemDestructor) :
    (dynarraySetItemDestructor st f).Holds l :=
  ⟨h.entries, h.len, h.null, h.array, h.owned⟩

theorem Resized.post {op : DynarrayOp} {r : ℤ × DynarrayState} (hr : Resized st l want r)
    (hop : (r.1 = 0 ∧ r.2.list = l ∧ want ≤ r.2.size) ∨ (r.1 ≠ 0 ∧ r.2.list = []) →
      op.OnList st r.1 r.2) : op.Post st r := by
  rcases hr.outcome with ⟨hret, h', hroom, -⟩ | ⟨hret, h', -⟩
  · exact ⟨⟨_, h'⟩, hop (.inl ⟨hret, h'.list, hroom⟩), fun _ => hr.same.handedOut⟩
  · exact ⟨⟨_, h'⟩, hop (.inr ⟨hret, h'.list⟩), fun _ => hr.same.handedOut⟩

theorem Appended.post {op : DynarrayOp} {data : Option Item} {r : ℤ × DynarrayState}
    (hr : Appended st l data r)
    (hop : (r.1 = 0 ∧ r.2.list = l ++ [data] ∧ r.2.stored = st.stored ++ data.toList) ∨
      (r.1 ≠ 0 ∧ r.2.list = [] ∧ r.2.stored = st.stored) → op.OnList st r.1 r.2) :
    op.Post st r := by
  rcases hr.outcome with ⟨hret, h', hstored, -⟩ | ⟨hret, h', hstored⟩
  · exact ⟨⟨_, h'⟩, hop (.inl ⟨hret, h'.list, hstored⟩), fun _ => hr.handedOut⟩
  · exact ⟨⟨_, h'⟩, hop (.inr ⟨hret, h'.list, hstored⟩), fun _ => hr.handedOut⟩

/-- One operation. -/
theorem DynarrayOp.call_ensures (h : st.Holds l) (op : DynarrayOp)
    (hfits : st.Fits (op.wantLen st.list)) : Ensures refuses (op.call st) (op.Post st) := by
  have hlist := h.list
  rw [hlist] at hfits
  cases op with
  | append data =>
    exact (dynarrayAppend_ensures h hfits data).mono fun r hr =>
      hr.post fun hop => by rwa [OnList, hlist]
  | appendStrnodup data =>
    exact (dynarrayAppend_ensures h hfits data).mono fun r hr =>
      hr.post fun hop => by rwa [OnList, hlist]
  | appendStrdup str =>
    refine (dynarrayAppendStrdup_ensures h hfits str).mono fun r hr => ?_
    have hhanded (_ : ∀ out, appendStrdup str ≠ pop out) := hr.handedOut
    rcases hr.outcome with ⟨hret, h', -, hstored, hfreed, -⟩ | ⟨hret, hst⟩ |
      ⟨hret, h', hstored, hfreed⟩
    · refine ⟨⟨_, h'⟩, .inl ⟨hret, ?_, hstored, hfreed⟩, hhanded⟩
      rw [h'.list, hlist]
    · exact ⟨⟨l, hst ▸ h⟩, .inr (.inl ⟨hret, hst⟩), hhanded⟩
    · exact ⟨⟨_, h'⟩, .inr (.inr ⟨hret, h'.list, hstored, hfreed⟩), hhanded⟩
  | extendStrdup argv =>
    refine (dynarrayExtendStrdup_ensures h hfits).mono fun r hr => ?_
    have hhanded (_ : ∀ out, extendStrdup argv ≠ pop out) := hr.handedOut
    rcases hr.outcome with ⟨hret, h', hstored, hfreed⟩ |
      ⟨pre, str, hpre, hret, hstored, ⟨h', hfreed⟩ | ⟨h', hfreed⟩⟩
    · exact ⟨⟨_, h'⟩, .inl ⟨hret, by rw [h'.list, hlist], hstored, hfreed⟩, hhanded⟩
    · exact ⟨⟨_, h'⟩, .inr ⟨pre, str, hpre, hret, hstored, .inl ⟨by rw [h'.list, hlist], hfreed⟩⟩,
        hhanded⟩
    · exact ⟨⟨_, h'⟩, .inr ⟨pre, str, hpre, hret, hstored, .inr ⟨h'.list, hfreed⟩⟩, hhanded⟩
  | extendStrnodup argv =>
    refine (dynarrayExtendStrnodup_ensures h hfits).mono fun r hr => ?_
    have hhanded (_ : ∀ out, extendStrnodup argv ≠ pop out) := hr.handedOut
    rcases hr.outcome with ⟨hret, h', hstored⟩ | ⟨hret, h', hstored⟩
    · exact ⟨⟨_, h'⟩, .inl ⟨hret, by rw [h'.list, hlist], hstored⟩, hhanded⟩
    · exact ⟨⟨_, h'⟩, .inr ⟨hret, h'.list, hstored⟩, hhanded⟩
  | pop out =>
    have hnot (h : ∀ out', pop out ≠ pop out') {P : Prop} : P := absurd rfl (h out)
    rcases List.eq_nil_or_concat' l with rfl | ⟨l, item, rfl⟩
    · exact ensures_defined (dynarrayPop_nil h out)
        ⟨⟨_, h⟩, .inl ⟨hlist, rfl, rfl⟩, fun hop => hnot hop⟩
    · obtain ⟨st', hpop, h', hhanded⟩ := dynarrayPop_concat h out
      refine ensures_defined hpop ⟨⟨_, h'⟩, .inr ⟨item, ?_, rfl, hhanded⟩, fun hop => hnot hop⟩
      rw [hlist, h'.list]
  | release =>
    obtain ⟨st', hrel, h', hsame, -⟩ := dynarrayRelease_eq h
    exact ensures_defined hrel ⟨⟨_, h'⟩, ⟨rfl, h'.list⟩, fun _ => hsame.handedOut⟩
  | resize want =>
    exact (dynarrayResize_ensures h hfits).mono fun r hr =>
      hr.post fun hop => by rwa [OnList, hlist]
  | grow =>
    exact (dynarrayGrow_ensures h hfits).mono fun r hr =>
      hr.post fun hop => by rwa [OnList, hlist]
  | free =>
    obtain ⟨st', hfree, h', hsame, -⟩ := dynarrayFree_eq h
    exact ensures_defined hfree ⟨⟨_, h'⟩, ⟨rfl, h'.list⟩, fun _ => hsame.handedOut⟩
  | setItemDestructor f =>
    exact Ensures.pure ⟨⟨_, h.setItemDestructor f⟩, ⟨rfl, rfl⟩, fun _ => rfl⟩
  | setDataReadonly =>
    exact Ensures.pure ⟨⟨_, h.setItemDestructor _⟩, ⟨rfl, rfl⟩, fun _ => rfl⟩

end

/-! ## Refinement -/

/-- The dynarrays that sequences of operations reach after a successful
    `dynarray_init`, if `initOk` and `callOk` say which calls are made.  Each
    call may meet another allocator. -/
inductive DynarrayReaches (initOk : ℕ → Prop) (callOk : DynarrayOp → DynarrayState → Prop) :
    DynarrayState → Prop where
  | init {initialSize : ℕ} {st : DynarrayState} {a a' : Allocator} : initOk initialSize →
      (dynarrayInit initialSize).run a = some ((0, some st), a') →
      DynarrayReaches initOk callOk st
  | call {st st' : DynarrayState} (op : DynarrayOp) {ret : ℤ} {a a' : Allocator} :
      DynarrayReaches initOk callOk st → callOk op st →
      (op.call st).run a = some ((ret, st'), a') → DynarrayReaches initOk callOk st'

/-- The entries are within the array, and every item stored so far is one of
    them, was handed out or was destroyed, as often as it was stored. -/
structure DynarrayState.Ok (st : DynarrayState) : Prop where
  len : st.len ≤ st.size
  array : ∀ cells, st.arr = some cells → cells.length = st.size
  entries : st.entries = st.list.map some
  owned : st.stored.Perm (st.handedOut ++ st.destroyed ++ st.list.reduceOption)

/-- The dynarray is as it should be, and every further operation is defined and
    refines the one on the list of entries. -/
def DynarrayState.RefinesList (callOk : DynarrayOp → DynarrayState → Prop) (st : DynarrayState) :
    Prop :=
  st.Ok ∧ ∀ op : DynarrayOp, callOk op st → ∀ a : Allocator, ∃ ret st' a',
    (op.call st).run a = some ((ret, st'), a') ∧ op.Refines st ret st'

/-- So are all dynarrays that are reached. -/
def DynarrayRefines (initOk : ℕ → Prop) (callOk : DynarrayOp → DynarrayState → Prop) : Prop :=
  ∀ st, DynarrayReaches initOk callOk st → st.RefinesList callOk

theorem DynarrayState.Holds.ok {st : DynarrayState} {l : List (Option Item)} (h : st.Holds l) :
    st.Ok := by
  refine ⟨?_, fun cells hcells => (h.array cells hcells).1, ?_, ?_⟩
  · cases harr : st.arr with
    | none => rw [(h.null harr).1]; exact Nat.zero_le _
    | some cells => exact (h.array cells harr).2.1
  · rw [h.list, h.entries]
  · rw [h.list]
    exact h.owned

/-- A new dynarray, unless its size in bytes overflows. -/
theorem dynarrayInit_holds {initialSize : ℕ} {st : DynarrayState} {a a' : Allocator}
    (hsize : 8 * initialSize < 2 ^ 64)
    (hrun : (dynarrayInit initialSize).run a = some ((0, some st), a')) : st.Holds [] := by
  have hreal : 0 < (if initialSize > 0 then initialSize else 1) ∧
      8 * (if initialSize > 0 then initialSize else 1) < 2 ^ 64 := by
    split_ifs <;> omega
  have hensures : Ensures True (dynarrayInit initialSize) fun r => ∀ st, r.2 = some st →
      st.Holds [] := by
    refine ensures_request_bind ?_ fun _ => ?_
    · rw [if_pos rfl]
      refine Ensures.pure fun st hst => ?_
      cases hst
      refine ⟨rfl, rfl, nofun, fun cells hcells => ?_, List.Perm.nil⟩
      cases hcells
      rw [Block.length_fresh, ptrCells_eq hreal.2]
      exact ⟨rfl, Nat.zero_le _, hreal.1, hreal.2⟩
    · rw [if_neg Bool.false_ne_true]
      exact Ensures.pure nofun
  obtain ⟨r, a'', hrun', -, hholds⟩ := hensures a (admits_any a)
  rw [hrun] at hrun'
  cases hrun'
  exact hholds st rfl

end Fischstaebchen
