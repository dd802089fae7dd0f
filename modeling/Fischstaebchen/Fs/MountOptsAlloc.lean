/-
  Mount option strings under memory pressure (`common/fs/mount_opts.c`,
  `common/data_types/dynarray.c`).

  `get_mount_opts_str` collects pointers to the options in a dynarray, which is
  joined whatever became of it.  An append that is refused memory frees the
  dynarray, and an empty dynarray is joined to an empty string.

  * `appendOpts_run`: which requests the appends make, and what is left if one of
    them is refused.
  * `getMountOptsStrAlloc_run`: what is returned, by the first refused request.
  * `completeOrNull_iff`: hence the string is complete or NULL unless the array
    cannot be enlarged and the empty string can be allocated.
-/
import Mathlib.Data.Nat.Log
import Fischstaebchen.DataTypes.Dynarray
import Fischstaebchen.Fs.MountOpts
import Fischstaebchen.Strutil.JoinAlloc

namespace Fischstaebchen

open Lib

/-! ## The functions -/

/-- The strings in memory, by their addresses. -/
abbrev StringsAt := ℕ → Option (List UInt8)

/-- The string that an entry of a dynarray points to; NULL is NULL. -/
def entryStr (strings : StringsAt) : Option Item → Option (List UInt8)
  | none => none
  | some (.given addr) => strings addr
  | some (.copy _ str) => some (toBytes str)

/-- `join_str_dynarray`: reads the entries of the array. -/
def joinStrDynarrayAlloc (strings : StringsAt) (seq : List UInt8) (darr : DynarrayState) :
    Alloc (Option (List UInt8)) := do
  let entries ← defined ((List.range darr.len).mapM fun k => darr.arr.bind fun cells => cells.load k)
  joinStrArrayAlloc seq (entries.map (entryStr strings))

/-- The appends of `get_mount_opts_str`, up to the first one that fails. -/
def appendOpts : List ℕ → DynarrayState → Alloc (ℤ × DynarrayState)
  | [], darr => pure (0, darr)
  | addr :: addrs, darr => do
    let r ← dynarrayAppendStrnodup darr (some (.given addr))
    if r.1 ≠ 0 then pure r else appendOpts addrs r.2

/-- The options that are appended, at the addresses 0, 1, .. -/
def mountOptBytes (flags : Flags) (optsIn : Option (List UInt8)) : List (List UInt8) :=
  (getMountOptsArr flags (optsIn.map ofBytes)).map toBytes

/-- `get_mount_opts_str`. -/
def getMountOptsStrAlloc (flags : Flags) (optsIn : Option (List UInt8)) :
    Alloc (Option (List UInt8)) := do
  let opts := mountOptBytes flags optsIn
  let r ← dynarrayInit 0
  match r.2 with
  | none => pure none
  | some darr =>
    let r ← appendOpts (List.range opts.length) (dynarraySetDataReadonly darr)
    let str ← joinStrDynarrayAlloc (fun addr => opts[addr]?) [0x2C] r.2
    let _ ← defined (dynarrayFree r.2)
    pure str

/-! ## Appending -/

/-- The answers after the first `n` requests. -/
def after (a : Allocator) (n : ℕ) : Allocator := fun k => a (n + k)

section
variable {st : DynarrayState} {l : List (Option Item)} {cells : Block (Option Item)}

theorem dynarrayGrow_room (harr : st.arr = some cells) (hroom : st.len + 1 ≤ st.size)
    (hsize : st.size < 2 ^ 64) : dynarrayGrow st = pure (0, st) := by
  rw [dynarrayGrow, Nat.mod_eq_of_lt (by omega), dynarrayResize, harr]
  exact if_pos (Or.inr hroom)

/-- The size that a full array grows to. -/
theorem doubleWhile_full {size : ℕ} (hpos : 0 < size) :
    doubleWhile 64 (fun n => size + 1 > n) 64 (2 * size) = some (2 * size) := by
  unfold doubleWhile
  refine if_neg ?_
  simp only [decide_eq_true_eq]
  omega

/-- A full array is enlarged to twice its size, or freed. -/
theorem dynarrayGrow_full (harr : st.arr = some cells) (hfull : st.len = st.size)
    (hpos : 0 < st.size) (hsize : 8 * (2 * st.size) < 2 ^ 64) (a : Allocator) :
    (dynarrayGrow st).run a =
      if a 0 then some ((0, { st with
        arr := some (cells.regrow (2 * st.size)), size := 2 * st.size }), after a 1)
      else (dynarrayFree st).map fun r => ((-1, r.2), after a 1) := by
  have hmod : 2 * st.size % 2 ^ 64 = 2 * st.size := Nat.mod_eq_of_lt (by omega)
  have hafter : (fun n => a (n + 1)) = after a 1 := by
    funext n
    rw [after, Nat.add_comm]
  rw [dynarrayGrow, Nat.mod_eq_of_lt (by omega), dynarrayResize, harr, hfull]
  dsimp only
  rw [if_neg (by omega), hmod, doubleWhile_full hpos, defined_some, pure_bind, run_request_bind,
    ptrCells_eq hsize, hafter]
  cases a 0 with
  | true => rfl
  | false => rcases dynarrayFree st with _ | r <;> rfl

/-- **Appending to an array with room** requests nothing. -/
theorem dynarrayAppend_room (h : st.Holds l) (harr : st.arr = some cells)
    (hroom : st.len + 1 ≤ st.size) (item : Item) (a : Allocator) :
    ∃ st', (dynarrayAppend st (some item)).run a = some ((0, st'), a) ∧
      st'.Holds (l ++ [some item]) ∧ st'.size = st.size ∧ st'.arr ≠ none := by
  obtain ⟨hlen, -, hpos, hbytes⟩ := h.array cells harr
  have hfits : st.Fits (l.length + 1) := by
    refine Or.inr ⟨0, ?_, ?_⟩
    · rw [← h.len, pow_zero, mul_one]
      exact hroom
    · rw [pow_zero, mul_one]
      exact hbytes
  have hin : st.len < cells.length := by omega
  have hrun : dynarrayAppend st (some item) = pure (0, { st with
      arr := some (cells.set st.len (some (some item)))
      len := st.len + 1
      stored := st.stored ++ [item] }) := by
    rw [dynarrayAppend, dynarrayGrow_room harr hroom (by omega), pure_bind, if_neg (by simp),
      if_neg (by dsimp only; omega), harr, Option.bind_some, Block.store_eq_some hin]
    rfl
  have hensures : Ensures True (dynarrayAppend st (some item)) (Appended st l (some item)) :=
    dynarrayAppend_ensures h hfits (some item)
  obtain ⟨x, a', hx, -, hQ⟩ := hensures a (admits_any a)
  rw [hrun] at hx ⊢
  obtain ⟨rfl, rfl⟩ : (0, _) = x ∧ a = a' := Prod.mk.inj (Option.some.inj hx)
  rcases hQ.outcome with ⟨-, hholds, -⟩ | ⟨hret, -⟩
  · exact ⟨_, rfl, hholds, rfl, Option.some_ne_none _⟩
  · exact absurd rfl hret

/-- **Appending to a full array** requests memory; if it is refused, the array is
    freed. -/
theorem dynarrayAppend_full (h : st.Holds l) (harr : st.arr = some cells)
    (hfull : st.len = st.size) (hsize : 8 * (2 * st.size) < 2 ^ 64) (item : Item) (a : Allocator) :
    (a 0 = true ∧ ∃ st', (dynarrayAppend st (some item)).run a = some ((0, st'), after a 1) ∧
        st'.Holds (l ++ [some item]) ∧ st'.size = 2 * st.size ∧ st'.arr ≠ none) ∨
      (a 0 = false ∧ ∃ st', (dynarrayAppend st (some item)).run a = some ((-1, st'), after a 1) ∧
        st'.Holds []) := by
  obtain ⟨hlen, -, hpos, hbytes⟩ := h.array cells harr
  have hfits : st.Fits (l.length + 1) := by
    refine Or.inr ⟨1, ?_, ?_⟩
    · rw [← h.len, pow_one]
      omega
    · rw [pow_one]
      omega
  have hensures : Ensures True (dynarrayAppend st (some item)) (Appended st l (some item)) :=
    dynarrayAppend_ensures h hfits (some item)
  obtain ⟨x, a', hx, -, hQ⟩ := hensures a (admits_any a)
  obtain ⟨st₁, hfree, -⟩ := dynarrayFree_eq h
  have hstore : (cells.regrow (2 * st.size)).store st.len (some item) =
      some ((cells.regrow (2 * st.size)).set st.len (some (some item))) :=
    Block.store_eq_some (by rw [Block.length_regrow]; omega)
  have hgrow := dynarrayGrow_full harr hfull hpos hsize a
  cases ha : a 0 with
  | true =>
    have hrun : (dynarrayAppend st (some item)).run a = some ((0, { st with
        arr := some ((cells.regrow (2 * st.size)).set st.len (some (some item)))
        len := st.len + 1
        size := 2 * st.size
        stored := st.stored ++ [item] }), after a 1) := by
      rw [dynarrayAppend, StateT.run_bind, hgrow, ha, if_pos rfl, Option.bind_eq_bind,
        Option.bind_some, if_neg (by simp), if_neg (by dsimp only; omega), Option.bind_some, hstore]
      rfl
    rw [hrun] at hx ⊢
    obtain ⟨rfl, rfl⟩ : (0, _) = x ∧ after a 1 = a' := Prod.mk.inj (Option.some.inj hx)
    rcases hQ.outcome with ⟨-, hholds, -⟩ | ⟨hret, -⟩
    · exact Or.inl ⟨rfl, _, rfl, hholds, rfl, Option.some_ne_none _⟩
    · exact absurd rfl hret
  | false =>
    have hrun : (dynarrayAppend st (some item)).run a = some ((-1, st₁), after a 1) := by
      rw [dynarrayAppend, StateT.run_bind, hgrow, ha, if_neg Bool.false_ne_true, hfree]
      rfl
    rw [hrun] at hx ⊢
    obtain ⟨rfl, rfl⟩ : (-1, _) = x ∧ after a 1 = a' := Prod.mk.inj (Option.some.inj hx)
    rcases hQ.outcome with ⟨hret, -⟩ | ⟨-, hholds, -⟩
    · exact absurd hret (by simp)
    · exact Or.inr ⟨rfl, _, rfl, hholds⟩

theorem after_after (a : Allocator) (m n : ℕ) : after (after a m) n = after a (m + n) := by
  funext k
  simp only [after, Nat.add_assoc]

/-- The requests after a granted one. -/
theorem granted_after_one {a : Allocator} (ha : a 0 = true) {n : ℕ}
    (h : ∀ j < n, after a 1 j = true) : ∀ j < 1 + n, a j = true := by
  intro j hj
  cases j with
  | zero => exact ha
  | succ j =>
    have hj' := h j (by omega)
    rwa [after, Nat.add_comm] at hj'

/-- **Which requests the appends make**: one for each doubling of the array, up to
    the first one that is refused, which empties the array. -/
theorem appendOpts_run : ∀ (addrs : List ℕ) {st : DynarrayState} {l : List (Option Item)} {e : ℕ},
    st.Holds l → st.arr ≠ none → st.size = 2 ^ e → l.length + addrs.length ≤ 2 ^ 40 →
    ∀ a : Allocator,
      (∃ st', (∀ j < Nat.clog 2 (l.length + addrs.length) - e, a j = true) ∧
        (appendOpts addrs st).run a =
          some ((0, st'), after a (Nat.clog 2 (l.length + addrs.length) - e)) ∧
        st'.Holds (l ++ addrs.map fun addr => some (.given addr))) ∨
      ∃ i < Nat.clog 2 (l.length + addrs.length) - e, ∃ st', (∀ j < i, a j = true) ∧ a i = false ∧
        (appendOpts addrs st).run a = some ((-1, st'), after a (i + 1)) ∧ st'.Holds []
  | [], st, l, e, h, harr, hsize, hbound, a => by
    obtain ⟨cells, hcells⟩ := Option.ne_none_iff_exists'.1 harr
    obtain ⟨-, hle, -, -⟩ := h.array cells hcells
    rw [h.len, hsize] at hle
    have hzero : Nat.clog 2 l.length - e = 0 := Nat.sub_eq_zero_of_le (Nat.clog_le_of_le_pow hle)
    have hafter : after a 0 = a := by
      funext k
      rw [after, Nat.zero_add]
    rw [List.length_nil, Nat.add_zero, hzero, hafter]
    exact Or.inl ⟨st, nofun, rfl, by simpa using h⟩
  | addr :: addrs, st, l, e, h, harr, hsize, hbound, a => by
    obtain ⟨cells, hcells⟩ := Option.ne_none_iff_exists'.1 harr
    obtain ⟨hlen, hle, hpos, hbytes⟩ := h.array cells hcells
    have htotal : l.length + (addr :: addrs).length =
        (l ++ [some (Item.given addr)]).length + addrs.length := by
      simp only [List.length_append, List.length_cons, List.length_nil]
      omega
    have hitems : l ++ (addr :: addrs).map (fun addr => some (Item.given addr)) =
        (l ++ [some (Item.given addr)]) ++ addrs.map fun addr => some (Item.given addr) := by
      rw [List.map_cons, List.append_cons]
    rw [htotal] at hbound ⊢
    rw [hitems, appendOpts, dynarrayAppendStrnodup]
    rcases Nat.lt_or_ge st.len st.size with hroom | hfull
    · obtain ⟨st₁, hrun, h₁, hsize₁, harr₁⟩ :=
        dynarrayAppend_room h hcells hroom (.given addr) a
      rw [StateT.run_bind, hrun]
      exact appendOpts_run addrs h₁ harr₁ (hsize₁.trans hsize) hbound a
    · have hfull : st.len = st.size := le_antisymm hle hfull
      have hlength : l.length = 2 ^ e := by rw [← h.len, hfull, hsize]
      have hlt : e < Nat.clog 2 ((l ++ [some (Item.given addr)]).length + addrs.length) := by
        refine (Nat.lt_clog_iff_pow_lt (by simp)).2 ?_
        simp only [List.length_append, List.length_cons, List.length_nil]
        omega
      have hbig : 8 * (2 * st.size) < 2 ^ 64 := by
        rw [hsize, ← hlength]
        simp only [List.length_append, List.length_cons, List.length_nil] at hbound
        omega
      rcases dynarrayAppend_full h hcells hfull hbig (.given addr) a with
        ⟨ha, st₁, hrun, h₁, hsize₁, harr₁⟩ | ⟨ha, st₁, hrun, h₁⟩
      · have hsize₁ : st₁.size = 2 ^ (e + 1) := by rw [hsize₁, hsize, pow_succ, Nat.mul_comm]
        have ih := appendOpts_run addrs h₁ harr₁ hsize₁ hbound (after a 1)
        generalize Nat.clog 2 ((l ++ [some (Item.given addr)]).length + addrs.length) = n at hlt ih ⊢
        have hn : n - e = 1 + (n - (e + 1)) := by omega
        rw [StateT.run_bind, hrun, hn]
        rcases ih with ⟨st', hall, hrun', h'⟩ | ⟨i, hi, st', hall, hfalse, hrun', h'⟩
        · rw [after_after] at hrun'
          exact Or.inl ⟨st', granted_after_one ha hall, hrun', h'⟩
        · rw [after_after] at hrun'
          exact Or.inr ⟨1 + i, by omega, st', granted_after_one ha hall, hfalse, hrun', h'⟩
      · rw [StateT.run_bind, hrun]
        exact Or.inr ⟨0, by omega, st₁, nofun, ha, rfl, h₁⟩

end

/-! ## The options -/

/-- The options for the flags come before the extra options. -/
theorem mountOptBytes_eq (flags : Flags) (optsIn : Option (List UInt8)) :
    mountOptBytes flags optsIn =
      (getMountOptsArr flags none).map toBytes ++ optsIn.toList := by
  cases optsIn with
  | none => exact (List.append_nil _).symm
  | some opts =>
    have harr : getMountOptsArr flags (some (ofBytes opts)) =
        getMountOptsArr flags none ++ [ofBytes opts] := rfl
    rw [mountOptBytes, Option.map_some, harr, List.map_append, List.map_singleton,
      toBytes_ofBytes]
    rfl

/-- At most `k` short options without a NUL. -/
structure Written (k : ℕ) (darr : List CStr) : Prop where
  length : darr.length ≤ k
  short : ∀ s ∈ darr, s.length ≤ 11 ∧ 0 ∉ toBytes s

section
variable {k : ℕ} {darr : List CStr} (flags bit : Flags)

theorem Written.concat (h : Written k darr) {s : CStr} (hs : s.length ≤ 11 ∧ 0 ∉ toBytes s) :
    Written (k + 1) (darr ++ [s]) := by
  refine ⟨by simpa using h.length, fun x hx => ?_⟩
  rcases List.mem_append.1 hx with hx | hx
  · exact h.short x hx
  · rw [List.mem_singleton.1 hx]
    exact hs

theorem Written.oappend (h : Written k darr) (name : String)
    (hs : name.toList.length ≤ 11 ∧ 0 ∉ toBytes name.toList) :
    Written (k + 1) (oappend flags bit name darr) := by
  unfold Fischstaebchen.oappend
  split_ifs
  · exact h.concat hs
  · exact ⟨h.length.trans (Nat.le_succ k), h.short⟩

theorem Written.oappendOr (h : Written k darr) (s t : String)
    (hs : s.toList.length ≤ 11 ∧ 0 ∉ toBytes s.toList)
    (ht : t.toList.length ≤ 11 ∧ 0 ∉ toBytes t.toList) :
    Written (k + 1) (oappendOr flags bit s t darr) := by
  unfold Fischstaebchen.oappendOr
  split_ifs
  · exact h.concat hs
  · exact h.concat ht

end

/-- The options that stand for the flags. -/
theorem getMountOptsArr_written (flags : Flags) : Written 15 (getMountOptsArr flags none) := by
  have h : Written 0 [] := ⟨le_rfl, nofun⟩
  have h := h.oappend flags msRemount "remount" (by decide)
  have h := h.oappend flags msBind "bind" (by decide)
  have h := h.oappend flags msMove "move" (by decide)
  have h := h.oappend flags msDirsync "dirsync" (by decide)
  have h := h.oappend flags msMandlock "mand" (by decide)
  have h := h.oappend flags msNoatime "noatime" (by decide)
  have h := h.oappend flags msNodev "nodev" (by decide)
  have h := h.oappend flags msNodiratime "nodiratime" (by decide)
  have h := h.oappend flags msNoexec "noexec" (by decide)
  have h := h.oappend flags msNosuid "nosuid" (by decide)
  have h := h.oappendOr flags msRdonly "ro" "rw" (by decide) (by decide)
  have h := h.oappend flags msRelatime "relatime" (by decide)
  have h := h.oappend flags msSilent "silent" (by decide)
  have h := h.oappend flags msStrictatime "strictatime" (by decide)
  exact h.oappend flags msSynchronous "sync" (by decide)

theorem mem_oappend {flags bit : Flags} {name : String} {s : CStr} {darr : List CStr}
    (h : s ∈ darr) : s ∈ oappend flags bit name darr := by
  unfold oappend
  split_ifs
  · exact List.mem_append_left _ h
  · exact h

/-- The access mode is always among the options. -/
theorem accessMode_mem (flags : Flags) :
    (if flags &&& msRdonly ≠ 0#64 then "ro".toList else "rw".toList) ∈
      getMountOptsArr flags none := by
  refine mem_oappend (mem_oappend (mem_oappend (mem_oappend ?_)))
  exact List.mem_append_right _ (List.mem_singleton.2 rfl)

/-! ## The complete string -/

section
variable {flags : Flags} {optsIn : Option (List UInt8)}

/-- The complete option string. -/
def completeOpts (flags : Flags) (optsIn : Option (List UInt8)) : Option (List UInt8) :=
  (getMountOptsStr flags (optsIn.map ofBytes)).map toBytes

theorem toBytes_foldl (seq : CStr) (strs : List CStr) (l : CStr) :
    toBytes (strs.foldl (dynstrSjoinAppend seq) l) =
      joinedTo (toBytes seq) (toBytes l) (strs.map toBytes) := by
  induction strs generalizing l with
  | nil => rfl
  | cons str strs ih =>
    have hstep : toBytes (dynstrSjoinAppend seq l str) =
        if toBytes l = [] then toBytes str else toBytes l ++ toBytes seq ++ toBytes str := by
      rw [dynstrSjoinAppend, dynstrAppendStr, toBytes_append]
      cases l with
      | nil => rfl
      | cons c l =>
        have hpos : (c :: l).length > 0 := Nat.succ_pos l.length
        have hne : toBytes (c :: l) ≠ [] := mt toBytes_eq_nil.1 (List.cons_ne_nil c l)
        rw [if_pos hpos, if_neg hne, dynstrAppendStr, toBytes_append]
    rw [List.foldl_cons, ih, hstep]
    rfl

theorem completeOpts_eq (flags : Flags) (optsIn : Option (List UInt8)) :
    completeOpts flags optsIn = some (joinedTo [0x2C] [] (mountOptBytes flags optsIn)) := by
  have hne : (getMountOptsArr flags (optsIn.map ofBytes)).map some ≠ [] := by
    intro hnil
    have hmem := accessMode_mem flags
    have hbytes := mountOptBytes_eq flags optsIn
    rw [mountOptBytes, List.map_eq_nil_iff.1 hnil, List.map_nil] at hbytes
    rw [List.map_eq_nil_iff.1 (List.append_eq_nil_iff.1 hbytes.symm).1] at hmem
    exact absurd hmem List.not_mem_nil
  have hid : List.filterMap id ((getMountOptsArr flags (optsIn.map ofBytes)).map some) =
      getMountOptsArr flags (optsIn.map ofBytes) := by simp
  rw [completeOpts, getMountOptsStr, Option.map_some, joinStrDynarray, joinStrArray, if_neg hne,
    if_neg (by decide), hid, toBytes_foldl]
  rfl

/-- The extra options are a string that fits into memory. -/
def FitsIntoMemory (optsIn : Option (List UInt8)) : Prop :=
  ∀ opts, optsIn = some opts → 0 ∉ opts ∧ opts.length < 2 ^ 61

theorem mountOptBytes_length_le (flags : Flags) (optsIn : Option (List UInt8)) :
    (mountOptBytes flags optsIn).length ≤ 16 := by
  have hwritten := (getMountOptsArr_written flags).length
  have hopt : optsIn.toList.length ≤ 1 := by cases optsIn <;> simp
  rw [mountOptBytes_eq, List.length_append, List.length_map]
  omega

theorem mountOptBytes_joined (flags : Flags) (h : FitsIntoMemory optsIn) :
    (joinedTo [0x2C] [] (mountOptBytes flags optsIn)).length + 1 < sizeMax / 4 ∧
      0 ∉ joinedTo [0x2C] [] (mountOptBytes flags optsIn) := by
  have hwritten := getMountOptsArr_written flags
  constructor
  · have hopt : (optsIn.toList.map fun str => [(0x2C : UInt8)].length + str.length).sum ≤ 2 ^ 61 := by
      cases optsIn with
      | none => exact Nat.zero_le _
      | some opts =>
        have := (h opts rfl).2
        simp only [Option.toList_some, List.map_cons, List.map_nil, List.sum_cons, List.sum_nil,
          List.length_singleton]
        omega
    have hflags : (((getMountOptsArr flags none).map toBytes).map
        fun str => [(0x2C : UInt8)].length + str.length).sum ≤ 15 * 12 := by
      refine (List.sum_le_card_nsmul _ 12 fun n hn => ?_).trans ?_
      · obtain ⟨bytes, hbytes, rfl⟩ := List.mem_map.1 hn
        obtain ⟨s, hs, rfl⟩ := List.mem_map.1 hbytes
        have hshort := (hwritten.short s hs).1
        rw [toBytes, List.length_map, List.length_singleton]
        omega
      · have hlength := hwritten.length
        rw [List.length_map, List.length_map, smul_eq_mul]
        omega
    have hsum := joinedTo_length_le [0x2C] [] (mountOptBytes flags optsIn)
    rw [mountOptBytes_eq, List.map_append, List.sum_append, List.length_nil] at hsum
    rw [mountOptBytes_eq]
    have hmax : sizeMax / 4 = 2 ^ 62 - 1 := rfl
    omega
  · refine not_mem_joinedTo (by simp) List.not_mem_nil fun str hstr => ?_
    rw [mountOptBytes_eq] at hstr
    rcases List.mem_append.1 hstr with hstr | hstr
    · obtain ⟨s, hs, rfl⟩ := List.mem_map.1 hstr
      exact (hwritten.short s hs).2
    · exact (h str (Option.mem_toList.1 hstr)).1

/-- The complete string is not empty. -/
theorem completeOpts_ne_nil (flags : Flags) (optsIn : Option (List UInt8)) :
    completeOpts flags optsIn ≠ some [] := by
  rw [completeOpts_eq]
  intro hnil
  have hmem : toBytes (if flags &&& msRdonly ≠ 0#64 then "ro".toList else "rw".toList) ∈
      mountOptBytes flags optsIn := by
    rw [mountOptBytes_eq]
    exact List.mem_append_left _ (List.mem_map_of_mem (accessMode_mem flags))
  have hle := length_le_of_mem [0x2C] hmem []
  rw [Option.some.inj hnil] at hle
  revert hle
  split_ifs <;> decide

/-! ## Running out of memory -/

/-- The first request that is refused is number `i`. -/
structure FirstRefused (a : Allocator) (i : ℕ) : Prop where
  refused : a i = false
  granted : ∀ j < i, a j = true

theorem FirstRefused.unique {a : Allocator} {i j : ℕ} (hi : FirstRefused a i)
    (hj : FirstRefused a j) : i = j := by
  rcases Nat.lt_trichotomy i j with hlt | heq | hlt
  · exact absurd (hj.granted i hlt) (by rw [hi.refused]; exact Bool.false_ne_true)
  · exact heq
  · exact absurd (hi.granted j hlt) (by rw [hj.refused]; exact Bool.false_ne_true)

/-- The number of times that the option array is enlarged. -/
def enlargements (flags : Flags) (optsIn : Option (List UInt8)) : ℕ :=
  Nat.clog 2 (mountOptBytes flags optsIn).length

/-- Reading a list of cells that can all be read. -/
theorem mapM_eq_some {α β : Type} {f : α → Option β} {g : α → β} {l : List α}
    (h : ∀ x ∈ l, f x = some (g x)) : l.mapM f = some (l.map g) := by
  induction l with
  | nil => rfl
  | cons x l ih =>
    rw [List.mapM_cons, h x List.mem_cons_self, ih fun y hy => h y (List.mem_cons_of_mem _ hy)]
    rfl

/-- The entries of a dynarray, as they are read. -/
theorem DynarrayState.Holds.read {st : DynarrayState} {l : List (Option Item)} (h : st.Holds l) :
    (List.range st.len).mapM (fun k => st.arr.bind fun cells => cells.load k) = some l := by
  cases harr : st.arr with
  | none =>
    rw [(h.null harr).1, h.nil_of_null harr]
    rfl
  | some cells =>
    have hload : ∀ k ∈ List.range l.length, cells.load k = some (l[k]?.getD none) := by
      intro k hk
      have hlt := List.mem_range.1 hk
      rw [Block.load_of_take (h.take harr) hlt, List.getElem?_eq_getElem hlt]
      rfl
    have hlist : (List.range l.length).map (fun k => l[k]?.getD none) = l := by
      refine List.ext_getElem (by simp) fun k _ hk => ?_
      rw [List.getElem_map, List.getElem_range, List.getElem?_eq_getElem hk, Option.getD_some]
    rw [h.len]
    simp only [Option.bind_some]
    rw [mapM_eq_some hload, hlist]

/-- An empty array is joined to the empty string, for which memory is requested. -/
theorem joinStrArrayAlloc_nil (seq : List UInt8) (a : Allocator) :
    (joinStrArrayAlloc seq []).run a = some (if a 0 then some [] else none, fun n => a (n + 1)) :=
  rfl

/-- Joining and freeing the array. -/
theorem joinAndFree_run {st : DynarrayState} {l : List (Option Item)} (h : st.Holds l)
    {strings : StringsAt} {seq : List UInt8} {r : Option (List UInt8)} {a a' : Allocator}
    (hjoin : (joinStrArrayAlloc seq (l.map (entryStr strings))).run a = some (r, a')) :
    (joinStrDynarrayAlloc strings seq st >>= fun str =>
      defined (dynarrayFree st) >>= fun _ => pure str).run a = some (r, a') := by
  obtain ⟨st', hfree, -⟩ := dynarrayFree_eq h
  rw [joinStrDynarrayAlloc, h.read, defined_some, pure_bind, StateT.run_bind, hjoin, hfree]
  rfl

/-- The array before the first append. -/
theorem dynarrayInit_zero {a : Allocator} (ha : a 0 = true) :
    ∃ st, (dynarrayInit 0).run a = some ((0, some st), after a 1) ∧
      (dynarraySetDataReadonly st).Holds [] ∧ st.arr ≠ none ∧ st.size = 1 := by
  have hafter : (fun n => a (n + 1)) = after a 1 := by
    funext n
    rw [after, Nat.add_comm]
  refine ⟨⟨⟨some (Block.fresh (ptrCells 1)), 0, 1, none⟩, {}⟩, ?_, ?_, Option.some_ne_none _, rfl⟩
  · rw [dynarrayInit, run_request_bind, hafter, ha]
    rfl
  · refine ⟨List.take_zero, rfl, nofun, ?_, List.Perm.refl []⟩
    rintro cells ⟨⟩
    exact ⟨rfl, Nat.zero_le 1, Nat.zero_lt_one, by decide⟩

theorem map_entryStr_range (opts : List (List UInt8)) :
    ((List.range opts.length).map fun addr => some (Item.given addr)).map
      (entryStr fun addr => opts[addr]?) = opts.map some := by
  refine List.ext_getElem (by simp) fun k _ hk => ?_
  rw [List.length_map] at hk
  simp only [List.getElem_map, List.getElem_range, entryStr, List.getElem?_eq_getElem hk]

/-- **What is returned**: if the array cannot be enlarged, the empty string, or
    NULL if there is no memory for it either; else NULL or the complete string. -/
theorem getMountOptsStrAlloc_run (flags : Flags) (h : FitsIntoMemory optsIn) (a : Allocator) :
    ∃ r a', (getMountOptsStrAlloc flags optsIn).run a = some (r, a') ∧
      ((∃ i, 1 ≤ i ∧ i ≤ enlargements flags optsIn ∧ FirstRefused a i ∧
          r = if a (i + 1) then some [] else none) ∨
        ((∀ i, FirstRefused a i → 1 ≤ i → enlargements flags optsIn < i) ∧
          (r = none ∨ r = completeOpts flags optsIn))) := by
  rw [getMountOptsStrAlloc]
  cases ha : a 0 with
  | false =>
    refine ⟨none, fun n => a (n + 1), ?_, Or.inr ⟨fun i hi hpos => ?_, Or.inl rfl⟩⟩
    · rw [dynarrayInit, bind_assoc, run_request_bind, ha]
      rfl
    · exact absurd (hi.granted 0 hpos) (by rw [ha]; exact Bool.false_ne_true)
  | true =>
    obtain ⟨st, hinit, hholds, harr, hsize⟩ := dynarrayInit_zero ha
    have hle := mountOptBytes_length_le flags optsIn
    have hrun := appendOpts_run (List.range (mountOptBytes flags optsIn).length) (e := 0) hholds
      harr hsize (by rw [List.length_range, List.length_nil]; omega) (after a 1)
    rw [List.length_range, List.length_nil, Nat.zero_add, Nat.sub_zero, ← enlargements] at hrun
    rw [StateT.run_bind, hinit, Option.bind_eq_bind, Option.bind_some]
    dsimp only
    rw [StateT.run_bind]
    rcases hrun with ⟨st', hall, hrun, h'⟩ | ⟨i, hi, st', hall, hfalse, hrun, h'⟩
    · obtain ⟨hfits, hnul⟩ := mountOptBytes_joined flags h
      have hjoin : Ensures True
          (joinStrArrayAlloc [0x2C] ((mountOptBytes flags optsIn).map some)) _ :=
        joinStrArrayAlloc_ensures hfits hnul
      obtain ⟨r, a', hr, -, hcases⟩ := hjoin _ (admits_any
        (after (after a 1) (enlargements flags optsIn)))
      rw [← map_entryStr_range] at hr
      refine ⟨r, a', ?_, Or.inr ⟨fun i hi hpos => ?_, ?_⟩⟩
      · rw [hrun]
        exact joinAndFree_run h' hr
      · by_contra hbound
        have htrue := granted_after_one ha hall i (by omega)
        rw [hi.refused] at htrue
        exact Bool.false_ne_true htrue
      · rw [completeOpts_eq]
        exact hcases.symm.imp_left And.right
    · have hrefused : a (i + 1) = false := by rwa [after, Nat.add_comm] at hfalse
      have hnext : after (after a 1) (i + 1) 0 = a (i + 1 + 1) := by
        rw [after, after]
        congr 1
        omega
      refine ⟨if after (after a 1) (i + 1) 0 then some [] else none,
        fun n => after (after a 1) (i + 1) (n + 1), ?_, Or.inl ⟨i + 1, by omega, hi,
        ⟨hrefused, fun j hj => granted_after_one ha hall j (by omega)⟩, by rw [hnext]⟩⟩
      rw [hrun]
      exact joinAndFree_run h' (joinStrArrayAlloc_nil _ _)

/-- `get_mount_opts_str` returns the complete string or NULL. -/
def CompleteOrNull (flags : Flags) (optsIn : Option (List UInt8)) (a : Allocator) : Prop :=
  ∃ r a', (getMountOptsStrAlloc flags optsIn).run a = some (r, a') ∧
    (r = none ∨ r = completeOpts flags optsIn)

/-- **The string is complete or NULL** exactly if the first refused request does
    not enlarge the array, or there is no memory for the empty string either. -/
theorem completeOrNull_iff (h : FitsIntoMemory optsIn) (a : Allocator) :
    CompleteOrNull flags optsIn a ↔
      ∀ i, 1 ≤ i → i ≤ enlargements flags optsIn → FirstRefused a i → a (i + 1) = false := by
  obtain ⟨r, a', hrun, hcases⟩ := getMountOptsStrAlloc_run flags h a
  have hiff : CompleteOrNull flags optsIn a ↔ r = none ∨ r = completeOpts flags optsIn := by
    constructor
    · rintro ⟨r', b, hrun', hr'⟩
      rw [hrun] at hrun'
      cases hrun'
      exact hr'
    · exact fun hr => ⟨r, a', hrun, hr⟩
  rw [hiff]
  rcases hcases with ⟨i, hpos, hle, hfirst, rfl⟩ | ⟨hnone, hr⟩
  · constructor
    · intro hr j _ _ hj
      rw [hj.unique hfirst]
      by_contra hgranted
      rw [if_pos (Bool.eq_true_of_not_eq_false hgranted)] at hr
      rcases hr with hr | hr
      · cases hr
      · exact completeOpts_ne_nil flags optsIn hr.symm
    · intro hall
      rw [hall i hpos hle hfirst]
      exact Or.inl rfl
  · exact iff_of_true hr fun i hpos hle hfirst => absurd hle (not_le.2 (hnone i hfirst hpos))

/-- Only the first request is granted. -/
theorem completeOrNull_exhausted :
    CompleteOrNull (msRdonly ||| msNosuid) (some [0x73, 0x69, 0x7A, 0x65]) fun n => n == 0 := by
  have hfits : FitsIntoMemory (some [0x73, 0x69, 0x7A, 0x65]) := by
    rintro opts ⟨⟩
    exact ⟨by simp, by simp⟩
  exact (completeOrNull_iff hfits _).2 fun i _ _ _ => rfl

/-- A read-only mount loses all its options if the second `malloc` fails. -/
theorem not_completeOrNull_realloc :
    ¬ CompleteOrNull (msRdonly ||| msNosuid) none fun n => n != 1 := by
  rintro ⟨r, a', hrun, hr⟩
  have hempty : (getMountOptsStrAlloc (msRdonly ||| msNosuid) none).run (fun n => n != 1) =
      some (some [], fun n => n + 3 != 1) := rfl
  rw [hempty] at hrun
  obtain ⟨rfl, -⟩ := Prod.mk.inj (Option.some.inj hrun)
  rcases hr with hr | hr
  · cases hr
  · exact completeOpts_ne_nil _ _ hr.symm

end

end Fischstaebchen
