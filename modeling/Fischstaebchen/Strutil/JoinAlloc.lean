/-
  Joining strings in memory (`common/strutil/join.c`).

  `join_str_pair` and `join_str_triple` compute the size of the result first;
  `join_str_array` and `_join_str` append to a dynstr.  A write behind the
  allocated cells has no result in `Alloc`.

  * `doJoinStrPair_ensures`: two strings are copied into a buffer that has room
    for both.  `doJoinStrTriple_undefined`: the buffer for three strings has no
    room for the second one.
  * `joinsParts_iff`: hence which parts are joined.
  * `joinStrArrayAlloc_ensures`, `joinStr_ensures`: what the joins with a
    separator return, or NULL if they are refused memory.
  * `joinsAgree_iff`: they return the same unless empty strings come first.
-/
import Fischstaebchen.DataTypes.Dynstr
import Fischstaebchen.Lib.Split
import Fischstaebchen.Strutil.Compare

namespace Fischstaebchen

open Lib

/-! ## Bytes -/

/-- The bytes of a string. -/
def toBytes (s : CStr) : List UInt8 := s.map fun c => UInt8.ofNat c.toNat

/-- The string with the given bytes. -/
def ofBytes (bytes : List UInt8) : CStr := bytes.map fun b => Char.ofNat b.toNat

theorem toNat_ofNat_byte {n : ℕ} (h : n < 256) : (Char.ofNat n).toNat = n := by
  have hvalid : n.isValidChar := Or.inl (by omega)
  rw [Char.ofNat, dif_pos hvalid]
  rfl

theorem toBytes_ofBytes (bytes : List UInt8) : toBytes (ofBytes bytes) = bytes := by
  rw [toBytes, ofBytes, List.map_map]
  refine (List.map_congr_left fun b _ => ?_).trans (List.map_id bytes)
  rw [Function.comp_apply, toNat_ofNat_byte b.toNat_lt]
  exact UInt8.ofNat_toNat

theorem toBytes_append (s t : CStr) : toBytes (s ++ t) = toBytes s ++ toBytes t := List.map_append

/-- A string whose chars are bytes. -/
theorem ofBytes_toBytes {s : CStr} (h : ∀ c ∈ s, c.toNat < 256) : ofBytes (toBytes s) = s := by
  rw [toBytes, ofBytes, List.map_map]
  refine (List.map_congr_left fun c hc => ?_).trans (List.map_id s)
  have hmod : (UInt8.ofNat c.toNat).toNat = c.toNat := by
    rw [UInt8.toNat_ofNat']
    exact Nat.mod_eq_of_lt (h c hc)
  rw [Function.comp_apply, hmod]
  exact Char.ofNat_toNat c

/-- There is no NUL among the bytes of a string without one. -/
theorem nul_notMem_toBytes {s : CStr} (h : ∀ c ∈ s, c ≠ '\x00' ∧ c.toNat < 256) :
    0 ∉ toBytes s := by
  intro hmem
  obtain ⟨c, hc, hzero⟩ := List.mem_map.1 hmem
  obtain ⟨hne, hlt⟩ := h c hc
  have hmod : c.toNat % 256 = 0 := by simpa using congrArg UInt8.toNat hzero
  rw [Nat.mod_eq_of_lt hlt] at hmod
  refine hne ?_
  rw [← Char.ofNat_toNat c, hmod]

theorem toBytes_eq_nil {s : CStr} : toBytes s = [] ↔ s = [] := List.map_eq_nil_iff

/-! ## The functions -/

/-- A string: no NUL is among its chars, and the array it is in is no larger than
    an object can be (`PTRDIFF_MAX`). -/
structure CharStr where
  chars : List UInt8
  noNul : 0 ∉ chars
  fits : chars.length + 1 < 2 ^ 63
  deriving DecidableEq

/-- The chars of a string, or none for NULL. -/
def charsOrEmpty (str : Option CharStr) : List UInt8 := (str.map CharStr.chars).getD []

/-- `strdup`: NULL or a new array with the chars and a NUL. -/
def strdupAlloc (str : CharStr) : Alloc (Option (Block UInt8)) := do
  let granted ← request
  pure (if granted then some ((str.chars ++ [0]).map some) else none)

/-- `_do_join_str_pair`. -/
def doJoinStrPair (left right : CharStr) : Alloc (Option (Block UInt8)) := do
  let sizeLeft := left.chars.length
  let sizeRight := right.chars.length
  let granted ← request
  if granted then
    let outStr := Block.fresh ((sizeLeft + sizeRight + 1) % 2 ^ 64)
    let outStr ← defined (outStr.copyTo 64 0 left.chars)
    let outStr ← defined (outStr.copyTo 64 sizeLeft right.chars)
    let outStr ← defined (outStr.store ((sizeLeft + sizeRight) % 2 ^ 64) 0)
    pure (some outStr)
  else pure none

/-- `join_str_pair`. -/
def joinStrPairAlloc (left right : Option CharStr) : Alloc (Option (Block UInt8)) :=
  match left, right with
  | none, none => pure none
  | none, some right => strdupAlloc right
  | some left, none => strdupAlloc left
  | some left, some right => doJoinStrPair left right

/-- `_do_join_str_triple`.  The requested size is that of a pair. -/
def doJoinStrTriple (left middle right : CharStr) : Alloc (Option (Block UInt8)) := do
  let sizeLeft := left.chars.length
  let sizeMiddle := middle.chars.length
  let sizeRight := right.chars.length
  let granted ← request
  if granted then
    let outStr := Block.fresh ((sizeLeft + sizeRight + 1) % 2 ^ 64)
    let outStr ← defined (outStr.copyTo 64 0 left.chars)
    let outStr ← defined (outStr.copyTo 64 sizeLeft middle.chars)
    let outStr ← defined (outStr.copyTo 64 ((sizeLeft + sizeMiddle) % 2 ^ 64) right.chars)
    let outStr ← defined (outStr.store ((sizeLeft + sizeMiddle + sizeRight) % 2 ^ 64) 0)
    pure (some outStr)
  else pure none

/-- `join_str_triple`. -/
def joinStrTripleAlloc (left middle right : Option CharStr) : Alloc (Option (Block UInt8)) :=
  match left, middle, right with
  | none, middle, right => joinStrPairAlloc middle right
  | some left, none, right => joinStrPairAlloc (some left) right
  | some left, some middle, none => joinStrPairAlloc (some left) (some middle)
  | some left, some middle, some right => doJoinStrTriple left middle right

/-- The loops of `join_str_array`; the entries are pointers to strings or NULL. -/
def joinStrLoop (seq : List UInt8) : List (Option (List UInt8)) → DynstrData →
    Alloc (ℤ × DynstrData)
  | [], d => pure (0, d)
  | none :: arr, d => joinStrLoop seq arr d
  | some str :: arr, d => do
    let r ← if seq = [] then dynstrDataAppendStrSimple d str else dynstrDataSjoinAppend d seq str
    if r.1 ≠ 0 then pure (-1, r.2) else joinStrLoop seq arr r.2

/-- `join_str_array`: NULL, or the string at the pointer that is returned. -/
def joinStrArrayAlloc (seq : List UInt8) (arr : List (Option (List UInt8))) :
    Alloc (Option (List UInt8)) :=
  -- strdup ( "" )
  if arr = [] then do
    let granted ← request
    pure (if granted then some [] else none)
  else do
    let r ← dynstrDataInit 0
    if r.1 ≠ 0 then pure none
    else
      let r ← joinStrLoop seq arr r.2
      if r.1 ≠ 0 then pure none
      else
        let r ← dynstrDataAppendNull r.2
        if r.1 ≠ 0 then pure none
        else
          let pStrOut ← defined ((dynstrDataUnref r.2).1.bind cstring)
          pure (some pStrOut)

/-- The loop of `_join_str` without a separator. -/
def concatVargs : List (List UInt8) → DynstrData → Alloc (ℤ × DynstrData)
  | [], d => pure (0, d)
  | pArg :: vargs, d => do
    let r ← dynstrDataAppendStr d pArg none
    if r.1 ≠ 0 then pure (-1, r.2) else concatVargs vargs r.2

/-- The loop of `_join_str` with a separator: each argument comes with one. -/
def separateVargs (seq : List UInt8) : List (List UInt8) → DynstrData → Alloc (ℤ × DynstrData)
  | [], d => pure (0, d)
  | pArg :: vargs, d => do
    let r ← dynstrDataAppendStr d seq none
    if r.1 ≠ 0 then pure (-1, r.2)
    else
      let r ← dynstrDataAppendStr r.2 pArg none
      if r.1 ≠ 0 then pure (-1, r.2) else separateVargs seq vargs r.2

/-- The arguments of `_join_str` up to the NULL; the first one has no separator. -/
def appendVargs (seq : List UInt8) (vargs : List (List UInt8)) (d : DynstrData) :
    Alloc (ℤ × DynstrData) :=
  if seq = [] then concatVargs vargs d
  else
    match vargs with
    | [] => pure (0, d)
    | pArg :: vargs => do
      let r ← dynstrDataAppendStr d pArg none
      if r.1 ≠ 0 then pure (-1, r.2) else separateVargs seq vargs r.2

/-- `_join_str`: NULL, or the string at the pointer that is returned. -/
def joinStr (seq : List UInt8) (vargs : List (List UInt8)) : Alloc (Option (List UInt8)) := do
  let r ← dynstrDataInit 0
  if r.1 ≠ 0 then pure none
  else
    let r ← appendVargs seq vargs r.2
    if r.1 ≠ 0 then pure none
    else
      let r ← dynstrDataAppendChar r.2 0
      if r.1 ≠ 0 then pure none
      else
        let pStrOut ← defined ((dynstrDataUnref r.2).1.bind cstring)
        pure (some pStrOut)

/-! ## Two and three strings -/

section
variable {refuses : Prop} {d : DynstrData} {l : List UInt8}

/-- A terminated array is the string. -/
theorem cstring_dup (str : CharStr) : cstring ((str.chars ++ [0]).map some) = some str.chars := by
  rw [List.map_append, cstring_append str.noNul]
  simp [cstring]

/-- `out` is NULL or an array with the string `l`; NULL only if memory was refused. -/
def ReturnsStr (refuses : Prop) (l : List UInt8) (out : Option (Block UInt8)) : Prop :=
  out.bind cstring = some l ∨ (refuses ∧ out = none)

theorem strdupAlloc_ensures (str : CharStr) :
    Ensures refuses (strdupAlloc str) (ReturnsStr refuses str.chars) :=
  ensures_request_bind (Ensures.pure (.inl (cstring_dup str)))
    fun hr => Ensures.pure (.inr ⟨hr, rfl⟩)

/-- **Two strings** are copied one behind the other. -/
theorem doJoinStrPair_ensures (left right : CharStr) :
    Ensures refuses (doJoinStrPair left right)
      (ReturnsStr refuses (left.chars ++ right.chars)) := by
  have hleft := left.fits
  have hright := right.fits
  have hnul : 0 ∉ left.chars ++ right.chars := by
    rw [List.mem_append, not_or]
    exact ⟨left.noNul, right.noNul⟩
  refine ensures_request_bind ?_ fun hr => Ensures.pure (.inr ⟨hr, rfl⟩)
  rw [if_pos rfl, Nat.mod_eq_of_lt (by omega)]
  set fresh : Block UInt8 := Block.fresh (left.chars.length + right.chars.length + 1) with hfresh
  have hsize : fresh.length = left.chars.length + right.chars.length + 1 := Block.length_fresh
  obtain ⟨b₁, hcopy₁, hlen₁, htake₁⟩ := Block.copyTo_eq (w := 64) (b := fresh) (l := []) left.chars
    (by omega) rfl (by rw [List.length_nil]; omega)
  rw [List.nil_append] at htake₁
  obtain ⟨b₂, hcopy₂, hlen₂, htake₂⟩ := Block.copyTo_eq (w := 64) right.chars (by omega) htake₁
    (by omega)
  have hlength : (left.chars ++ right.chars).length = left.chars.length + right.chars.length :=
    List.length_append
  have hstore := Block.store_eq_some (x := (0 : UInt8)) (b := b₂)
    (i := (left.chars ++ right.chars).length) (by omega)
  refine Ensures.bind (ensures_defined hcopy₁ rfl) fun _ h₁ => ?_
  subst h₁
  refine Ensures.bind (ensures_defined hcopy₂ rfl) fun _ h₂ => ?_
  subst h₂
  rw [← hlength, Nat.mod_eq_of_lt (by omega)]
  refine Ensures.bind (ensures_defined hstore rfl) fun _ h₃ => Ensures.pure (.inl ?_)
  subst h₃
  refine cstring_eq ?_ ?_ hnul
  · rw [Block.take_set le_rfl, htake₂]
  · rw [Block.load, List.getElem?_set_self (by omega)]
    rfl

/-- An empty string in the middle needs no room. -/
theorem doJoinStrTriple_empty (left right : CharStr) {middle : CharStr} (h : middle.chars = []) :
    doJoinStrTriple left middle right = doJoinStrPair left right := by
  have hleft := left.fits
  have hmod : (left.chars.length + 0) % 2 ^ 64 = left.chars.length := Nat.mod_eq_of_lt (by omega)
  rw [doJoinStrTriple, doJoinStrPair]
  dsimp only
  rw [h, List.length_nil, hmod, Nat.add_zero]
  rfl

/-- **Three strings** do not fit into the buffer: one of the copies, or the
    terminator, is written behind its last cell. -/
theorem doJoinStrTriple_undefined (left right : CharStr) {middle : CharStr}
    (h : middle.chars ≠ []) {a : Allocator} (ha : a 0 = true) :
    (doJoinStrTriple left middle right).run a = none := by
  have hleft := left.fits
  have hright := right.fits
  have hpos := List.length_pos_iff.2 h
  rw [doJoinStrTriple]
  dsimp only
  rw [run_request_bind, ha, if_pos rfl,
    Nat.mod_eq_of_lt (by omega : left.chars.length + right.chars.length + 1 < 2 ^ 64)]
  set fresh : Block UInt8 := Block.fresh (left.chars.length + right.chars.length + 1) with hfresh
  have hsize : fresh.length = left.chars.length + right.chars.length + 1 := Block.length_fresh
  cases hcopy₁ : fresh.copyTo 64 0 left.chars with
  | none => rfl
  | some b₁ =>
  have hlen₁ := Block.length_copyTo hcopy₁
  rw [defined_some, pure_bind]
  cases hcopy₂ : b₁.copyTo 64 left.chars.length middle.chars with
  | none => rfl
  | some b₂ =>
  have hlen₂ := Block.length_copyTo hcopy₂
  have hfit₂ : left.chars.length + middle.chars.length ≤ b₁.length := by
    by_contra hlt
    rw [Block.copyTo_overflow (by omega) (by omega) (by omega)] at hcopy₂
    cases hcopy₂
  rw [defined_some, pure_bind, Nat.mod_eq_of_lt (by omega)]
  cases hcopy₃ : b₂.copyTo 64 (left.chars.length + middle.chars.length) right.chars with
  | none => rfl
  | some b₃ =>
  have hlen₃ := Block.length_copyTo hcopy₃
  have hfit₃ : left.chars.length + middle.chars.length + right.chars.length ≤ b₂.length := by
    by_contra hlt
    rw [Block.copyTo_overflow (by omega) (by omega) (by omega)] at hcopy₃
    cases hcopy₃
  rw [defined_some, pure_bind, Nat.mod_eq_of_lt (by omega), Block.store, if_neg (by omega)]
  rfl

/-- The parts that are not NULL are joined in order, in a buffer that has room for
    them; the result is NULL only if there are none. -/
def JoinsParts (parts : List (Option CharStr)) (join : Alloc (Option (Block UInt8))) : Prop :=
  Ensures False join fun out =>
    (out = none ↔ ∀ part ∈ parts, part = none) ∧
      (out ≠ none → out.bind cstring = some (parts.flatMap charsOrEmpty))

theorem joinsParts_of_returns {parts : List (Option CharStr)} {join : Alloc (Option (Block UInt8))}
    (part : CharStr) (hpart : some part ∈ parts) (hl : parts.flatMap charsOrEmpty = l)
    (h : Ensures False join (ReturnsStr False l)) : JoinsParts parts join := by
  subst hl
  refine Ensures.mono h fun out hout => ?_
  have hstr : out.bind cstring = some (parts.flatMap charsOrEmpty) :=
    hout.resolve_right fun hr => hr.1
  refine ⟨iff_of_false ?_ fun hall => ?_, fun _ => hstr⟩
  · rintro rfl
    cases hstr
  · cases hall _ hpart

theorem joinsParts_pair : ∀ left right : Option CharStr,
    JoinsParts [left, right] (joinStrPairAlloc left right)
  | none, none => Ensures.pure ⟨by simp, fun h => absurd rfl h⟩
  | none, some right =>
    joinsParts_of_returns right (by simp) (by simp [charsOrEmpty]) (strdupAlloc_ensures right)
  | some left, none =>
    joinsParts_of_returns left (by simp) (by simp [charsOrEmpty]) (strdupAlloc_ensures left)
  | some left, some right =>
    joinsParts_of_returns left (by simp) (by simp [charsOrEmpty])
      (doJoinStrPair_ensures left right)

/-- A part that is NULL does not matter. -/
theorem joinsParts_congr {parts parts' : List (Option CharStr)}
    {join : Alloc (Option (Block UInt8))}
    (hmem : ∀ part : CharStr, some part ∈ parts ↔ some part ∈ parts')
    (hchars : parts.flatMap charsOrEmpty = parts'.flatMap charsOrEmpty)
    (h : JoinsParts parts join) : JoinsParts parts' join := by
  have hnull : (∀ part ∈ parts, part = none) ↔ ∀ part ∈ parts', part = none := by
    simp only [Option.eq_none_iff_forall_ne_some]
    constructor
    · rintro hall part hpart str rfl
      exact hall _ ((hmem str).2 hpart) str rfl
    · rintro hall part hpart str rfl
      exact hall _ ((hmem str).1 hpart) str rfl
  refine Ensures.mono h fun out hout => ?_
  rwa [← hnull, ← hchars]

/-- A triple is joined exactly if a part is NULL or nothing is in the middle. -/
theorem joinsParts_triple_iff (left middle right : Option CharStr) :
    JoinsParts [left, middle, right] (joinStrTripleAlloc left middle right) ↔
      left = none ∨ charsOrEmpty middle = [] ∨ right = none := by
  cases left with
  | none =>
    refine iff_of_true ?_ (.inl rfl)
    exact joinsParts_congr (by simp) (by simp [charsOrEmpty]) (joinsParts_pair middle right)
  | some left =>
  cases middle with
  | none =>
    refine iff_of_true ?_ (.inr (.inl rfl))
    exact joinsParts_congr (by simp) (by simp [charsOrEmpty]) (joinsParts_pair (some left) right)
  | some middle =>
  cases right with
  | none =>
    refine iff_of_true ?_ (.inr (.inr rfl))
    exact joinsParts_congr (by simp) (by simp [charsOrEmpty])
      (joinsParts_pair (some left) (some middle))
  | some right =>
  by_cases hmiddle : middle.chars = []
  · refine iff_of_true ?_ (.inr (.inl hmiddle))
    rw [joinStrTripleAlloc, doJoinStrTriple_empty left right hmiddle]
    exact joinsParts_of_returns left (by simp) (by simp [charsOrEmpty, hmiddle])
      (doJoinStrPair_ensures left right)
  · refine iff_of_false (fun h => ?_) (by simpa [charsOrEmpty] using hmiddle)
    obtain ⟨out, a', hrun, -⟩ := h (fun _ => true) (.inr fun _ => rfl)
    have hnone := doJoinStrTriple_undefined left right hmiddle (a := fun _ => true) rfl
    rw [joinStrTripleAlloc, hnone] at hrun
    cases hrun

/-- **Joining parts**: three strings stay in their buffer exactly if one of them is
    NULL or the middle one is empty, two strings always do. -/
theorem joinsParts_iff (left middle right : Option CharStr) :
    (JoinsParts [left, middle, right] (joinStrTripleAlloc left middle right) ↔
      left = none ∨ charsOrEmpty middle = [] ∨ right = none) ∧
      JoinsParts [left, right] (joinStrPairAlloc left right) :=
  ⟨joinsParts_triple_iff left middle right, joinsParts_pair left right⟩

/-- A path from a directory, a slash and a name. -/
theorem not_joinsParts_path :
    ¬ JoinsParts [some ⟨[0x62], by simp, by simp⟩, some ⟨[0x2F], by simp, by simp⟩,
        some ⟨[0x63], by simp, by simp⟩]
      (joinStrTripleAlloc (some ⟨[0x62], by simp, by simp⟩) (some ⟨[0x2F], by simp, by simp⟩)
        (some ⟨[0x63], by simp, by simp⟩)) := by
  rw [joinsParts_triple_iff]
  simp [charsOrEmpty]

end

/-! ## Joining with a separator -/

section
variable {refuses : Prop} {d : DynstrData} {l seq : List UInt8}

/-- The string after joining more strings to it. -/
def joinedTo (seq l : List UInt8) (strs : List (List UInt8)) : List UInt8 :=
  strs.foldl (fun l str => if l = [] then str else l ++ seq ++ str) l

theorem length_le_joinedTo (seq l : List UInt8) (strs : List (List UInt8)) :
    l.length ≤ (joinedTo seq l strs).length := by
  induction strs generalizing l with
  | nil => exact le_rfl
  | cons str strs ih =>
    refine le_trans ?_ (ih _)
    dsimp only
    split_ifs with hl
    · rw [hl]
      exact Nat.zero_le _
    · simp only [List.length_append]
      omega

theorem joinedTo_length_le (seq l : List UInt8) (strs : List (List UInt8)) :
    (joinedTo seq l strs).length ≤
      l.length + (strs.map fun str => seq.length + str.length).sum := by
  induction strs generalizing l with
  | nil => exact le_rfl
  | cons str strs ih =>
    refine (ih _).trans ?_
    rw [List.map_cons, List.sum_cons]
    dsimp only
    split_ifs
    · omega
    · simp only [List.length_append]
      omega

theorem length_le_of_mem (seq : List UInt8) {str : List UInt8} {strs : List (List UInt8)}
    (h : str ∈ strs) (l : List UInt8) : str.length ≤ (joinedTo seq l strs).length := by
  induction strs generalizing l with
  | nil => exact absurd h List.not_mem_nil
  | cons s strs ih =>
    rcases List.mem_cons.1 h with rfl | h
    · refine le_trans ?_ (length_le_joinedTo seq _ strs)
      dsimp only
      split_ifs
      · exact le_rfl
      · simp only [List.length_append]
        omega
    · exact ih h _

theorem not_mem_joinedTo {seq l : List UInt8} {strs : List (List UInt8)} {c : UInt8}
    (hseq : c ∉ seq) (hl : c ∉ l) (h : ∀ str ∈ strs, c ∉ str) : c ∉ joinedTo seq l strs := by
  induction strs generalizing l with
  | nil => exact hl
  | cons str strs ih =>
    have hstr := h str List.mem_cons_self
    refine ih ?_ fun s hs => h s (List.mem_cons_of_mem _ hs)
    dsimp only
    split_ifs
    · exact hstr
    · simp only [List.mem_append, not_or]
      exact ⟨⟨hl, hseq⟩, hstr⟩


/-- Behind a string that is not empty, every string comes with the separator. -/
theorem joinedTo_of_ne_nil (seq : List UInt8) (strs : List (List UInt8)) (hl : l ≠ []) :
    joinedTo seq l strs = seq.intercalate (l :: strs) := by
  induction strs generalizing l with
  | nil => exact List.intercalate_singleton.symm
  | cons str strs ih =>
    have hne : l ++ seq ++ str ≠ [] := by simp [hl]
    calc joinedTo seq l (str :: strs) = joinedTo seq (l ++ seq ++ str) strs := by
          rw [joinedTo, List.foldl_cons, if_neg hl]; rfl
      _ = seq.intercalate ((l ++ seq ++ str) :: strs) := ih hne
      _ = seq.intercalate (l :: str :: strs) := by
          rw [intercalate_cons_eq, intercalate_cons_eq, List.flatMap_cons]
          simp only [List.append_assoc]

theorem joinedTo_nil_cons (seq str : List UInt8) (strs : List (List UInt8)) :
    joinedTo seq [] (str :: strs) = joinedTo seq str strs := rfl

/-- The empty strings that come first get no separator. -/
theorem joinedTo_nil (seq : List UInt8) (strs : List (List UInt8)) :
    joinedTo seq [] strs = seq.intercalate (strs.dropWhile (· = [])) := by
  induction strs with
  | nil => rfl
  | cons str strs ih =>
    rw [joinedTo_nil_cons]
    by_cases hstr : str = []
    · rw [hstr, ih, List.dropWhile_cons_of_pos (by simp)]
    · rw [joinedTo_of_ne_nil seq strs hstr, List.dropWhile_cons_of_neg (by simpa using hstr)]

theorem joinedTo_of_seq_nil (l : List UInt8) (strs : List (List UInt8)) :
    joinedTo [] l strs = l ++ strs.flatten := by
  induction strs generalizing l with
  | nil => exact (List.append_nil l).symm
  | cons str strs ih =>
    have hstep : joinedTo [] l (str :: strs) = joinedTo [] (l ++ str) strs := by
      rw [joinedTo, List.foldl_cons, List.append_nil]
      split_ifs with hl
      · rw [hl]; rfl
      · rfl
    rw [hstep, ih, List.flatten_cons, List.append_assoc]

theorem length_joinedTo_le (seq : List UInt8) (strs : List (List UInt8)) :
    (joinedTo seq [] strs).length ≤ (seq.intercalate strs).length := by
  induction strs with
  | nil => exact le_rfl
  | cons str strs ih =>
    rw [joinedTo_nil_cons]
    by_cases hstr : str = []
    · refine hstr ▸ ih.trans ?_
      cases strs with
      | nil => exact Nat.zero_le _
      | cons s strs =>
        rw [List.intercalate_cons_cons, List.length_append]
        omega
    · rw [joinedTo_of_ne_nil seq strs hstr]

/-- The separators of both joins are the same exactly if no empty string comes
    first. -/
theorem joinedTo_eq_intercalate_iff (seq : List UInt8) (strs : List (List UInt8)) :
    joinedTo seq [] strs = seq.intercalate strs ↔
      seq = [] ∨ strs.length ≤ 1 ∨ strs.head? ≠ some [] := by
  cases strs with
  | nil => exact iff_of_true rfl (.inr (.inl (Nat.zero_le 1)))
  | cons str strs =>
  rw [joinedTo_nil_cons]
  by_cases hstr : str = []
  · subst hstr
    cases strs with
    | nil => exact iff_of_true rfl (.inr (.inl le_rfl))
    | cons s strs =>
      have hle := length_joinedTo_le seq (s :: strs)
      rw [List.intercalate_cons_cons, List.nil_append]
      constructor
      · intro heq
        rw [heq, List.length_append] at hle
        exact .inl (List.eq_nil_of_length_eq_zero (by omega))
      · rintro (rfl | hlen | hhead)
        · rw [joinedTo_of_seq_nil, intercalate_nil_eq_flatten]
        · simp at hlen
        · exact absurd rfl hhead
  · exact iff_of_true (joinedTo_of_ne_nil seq strs hstr) (.inr (.inr (by simpa using hstr)))

theorem joinStrLoop_ensures : ∀ {strs : List (List UInt8)} {d : DynstrData}
    {l : List UInt8}, d.Holds l → (joinedTo seq l strs).length < sizeMax / 4 →
      Ensures refuses (joinStrLoop seq (strs.map some) d)
        (Outcome refuses fun d' => d'.Holds (joinedTo seq l strs))
  | [], _, _, h, _ => Ensures.pure (Or.inl ⟨rfl, h⟩)
  | str :: strs, d, l, h, hsize => by
    have hfirst := (length_le_joinedTo seq _ strs).trans_lt hsize
    rw [List.map_cons, joinStrLoop]
    by_cases hseq : seq = []
    · have happend : (if l = [] then str else l ++ seq ++ str) = l ++ str := by
        rw [hseq, List.append_nil]
        split_ifs with hl
        · rw [hl]; rfl
        · rfl
      dsimp only at hfirst
      rw [happend, List.length_append] at hfirst
      rw [if_pos hseq]
      refine Outcome.bind (dynstrDataAppendStrSimple_ensures h hfirst) (fun d' h' => ?_)
        fun hr => ensures_freed hr
      rw [← happend] at h'
      exact joinStrLoop_ensures h' hsize
    · rw [if_neg hseq]
      refine Outcome.bind (dynstrDataSjoinAppend_ensures h hfirst) (fun d' h' => ?_)
        fun hr => ensures_freed hr
      exact joinStrLoop_ensures h' hsize

/-- The string of a terminated dynstr. -/
theorem unref_cstring {cells : Block UInt8} (hcells : d.data = some cells)
    (htake : cells.take l.length = l.map some) (hload : cells.load l.length = some 0)
    (hnul : 0 ∉ l) : (dynstrDataUnref d).1.bind cstring = some l := by
  rw [dynstrDataUnref, hcells]
  exact cstring_eq htake hload hnul

/-- The result is `l`, or NULL if memory was refused. -/
def Joined (refuses : Prop) (l : List UInt8) (r : Option (List UInt8)) : Prop :=
  r = some l ∨ (refuses ∧ r = none)

theorem joined_granted {m : Alloc (Option (List UInt8))} (h : Ensures False m (Joined False l)) :
    Ensures False m (· = some l) :=
  h.mono fun _ hr => hr.resolve_right And.left

/-- **`join_str_array`** gives the whole string or NULL. -/
theorem joinStrArrayAlloc_ensures {strs : List (List UInt8)}
    (hsize : (joinedTo seq [] strs).length + 1 < sizeMax / 4) (hnul : 0 ∉ joinedTo seq [] strs) :
    Ensures refuses (joinStrArrayAlloc seq (strs.map some))
      (Joined refuses (joinedTo seq [] strs)) := by
  rw [joinStrArrayAlloc]
  cases strs with
  | nil =>
    exact ensures_request_bind (Ensures.pure (.inl rfl)) fun hr => Ensures.pure (.inr ⟨hr, rfl⟩)
  | cons str strs =>
  rw [if_neg (by simp)]
  refine Outcome.bind dynstrDataInit_ensures (fun d ⟨h, _⟩ => ?_)
    fun hr => Ensures.pure (Or.inr ⟨hr, rfl⟩)
  refine Outcome.bind (joinStrLoop_ensures h (by omega)) (fun d h => ?_)
    fun hr => Ensures.pure (Or.inr ⟨hr, rfl⟩)
  refine Outcome.bind (dynstrDataAppendNull_ensures h hsize) (fun d ⟨h, cells, hcells, hload⟩ => ?_)
    fun hr => Ensures.pure (Or.inr ⟨hr, rfl⟩)
  have hcontents := h.contents
  rw [DynstrData.contents, hcells, Option.getD_some, h.length] at hcontents
  rw [h.length] at hload
  have hstr := unref_cstring hcells hcontents hload hnul
  refine Ensures.bind (ensures_defined hstr rfl) fun str heq => Ensures.pure (Or.inl ?_)
  rw [heq]

theorem concatVargs_ensures : ∀ {vargs : List (List UInt8)} {d : DynstrData} {l : List UInt8},
    d.Holds l → (l ++ vargs.flatten).length < sizeMax / 4 →
      Ensures refuses (concatVargs vargs d)
        (Outcome refuses fun d' => d'.Holds (l ++ vargs.flatten))
  | [], _, l, h, _ => Ensures.pure (Or.inl ⟨rfl, by simpa using h⟩)
  | pArg :: vargs, d, l, h, hsize => by
    rw [List.flatten_cons, ← List.append_assoc] at hsize ⊢
    have hfirst : l.length + pArg.length < sizeMax / 4 := by
      simp only [List.length_append] at hsize
      omega
    refine Outcome.bind (dynstrDataAppendStrSimple_ensures h hfirst) (fun d' h' => ?_)
      fun hr => ensures_freed hr
    exact concatVargs_ensures h' hsize

theorem separateVargs_ensures : ∀ {vargs : List (List UInt8)} {d : DynstrData} {l : List UInt8},
    d.Holds l → (l ++ vargs.flatMap (seq ++ ·)).length < sizeMax / 4 →
      Ensures refuses (separateVargs seq vargs d)
        (Outcome refuses fun d' => d'.Holds (l ++ vargs.flatMap (seq ++ ·)))
  | [], _, l, h, _ => Ensures.pure (Or.inl ⟨rfl, by simpa using h⟩)
  | pArg :: vargs, d, l, h, hsize => by
    rw [List.flatMap_cons, ← List.append_assoc, ← List.append_assoc] at hsize ⊢
    have hfirst : l.length + seq.length + pArg.length < sizeMax / 4 := by
      simp only [List.length_append] at hsize
      omega
    refine Outcome.bind (dynstrDataAppendStrSimple_ensures h (by omega)) (fun d₁ h₁ => ?_)
      fun hr => ensures_freed hr
    refine Outcome.bind (dynstrDataAppendStrSimple_ensures h₁ (by rw [List.length_append]; omega))
      (fun d₂ h₂ => ?_) fun hr => ensures_freed hr
    exact separateVargs_ensures h₂ hsize

/-- The arguments with the separator between them. -/
theorem appendVargs_ensures {vargs : List (List UInt8)} (h : d.Holds [])
    (hsize : (seq.intercalate vargs).length < sizeMax / 4) :
    Ensures refuses (appendVargs seq vargs d)
      (Outcome refuses fun d' => d'.Holds (seq.intercalate vargs)) := by
  unfold appendVargs
  by_cases hseq : seq = []
  · subst hseq
    rw [if_pos rfl]
    rw [intercalate_nil_eq_flatten] at hsize ⊢
    exact concatVargs_ensures h hsize
  rw [if_neg hseq]
  cases vargs with
  | nil => exact Ensures.pure (Or.inl ⟨rfl, h⟩)
  | cons pArg vargs =>
    rw [intercalate_cons_eq] at hsize ⊢
    have hfirst : ([] : List UInt8).length + pArg.length < sizeMax / 4 := by
      rw [List.length_append] at hsize
      rw [List.length_nil]
      omega
    refine Outcome.bind (dynstrDataAppendStrSimple_ensures h hfirst) (fun d' h' => ?_)
      fun hr => ensures_freed hr
    exact separateVargs_ensures h' hsize

/-- **`_join_str`** gives the whole string or NULL. -/
theorem joinStr_ensures {vargs : List (List UInt8)}
    (hsize : (seq.intercalate vargs).length + 1 < sizeMax / 4) (hnul : 0 ∉ seq.intercalate vargs) :
    Ensures refuses (joinStr seq vargs) (Joined refuses (seq.intercalate vargs)) := by
  refine Outcome.bind dynstrDataInit_ensures (fun d ⟨h, _⟩ => ?_)
    fun hr => Ensures.pure (Or.inr ⟨hr, rfl⟩)
  refine Outcome.bind (appendVargs_ensures h (by omega)) (fun d h => ?_)
    fun hr => Ensures.pure (Or.inr ⟨hr, rfl⟩)
  refine Outcome.bind (dynstrDataAppendChar_ensures h hsize) (fun d h => ?_)
    fun hr => Ensures.pure (Or.inr ⟨hr, rfl⟩)
  obtain ⟨cells, hcells⟩ := Option.ne_none_iff_exists'.1 (h.data_ne_none_of_ne_nil (by simp))
  have hcontents := h.contents
  rw [DynstrData.contents, hcells, Option.getD_some, h.length] at hcontents
  have hload : cells.load (seq.intercalate vargs).length = some 0 := by
    rw [Block.load_of_take hcontents (by simp)]
    simp
  have hstr := unref_cstring hcells (Block.take_of_append hcontents) hload hnul
  refine Ensures.bind (ensures_defined hstr rfl) fun str heq => Ensures.pure (Or.inl ?_)
  rw [heq]

theorem charsOrEmpty_noNul : ∀ str : Option CharStr, 0 ∉ charsOrEmpty str
  | none => List.not_mem_nil
  | some str => str.noNul

/-- No NUL is in joined strings. -/
theorem noNul_intercalate (hseq : 0 ∉ seq) (strs : List CharStr) :
    0 ∉ seq.intercalate (strs.map CharStr.chars) := by
  intro h
  rcases mem_or_of_mem_intercalate h with h | ⟨w, hw, h⟩
  · exact hseq h
  · obtain ⟨str, -, rfl⟩ := List.mem_map.1 hw
    exact str.noNul h

/-- What a computation returns if all its requests are granted. -/
theorem ensures_unique {α : Type} {m : Alloc α} {x y : α} (hx : Ensures False m (· = x))
    (hy : Ensures False m (· = y)) : x = y := by
  obtain ⟨r, a, hrun, -, hr⟩ := hx (fun _ => true) (.inr fun _ => rfl)
  obtain ⟨r', a', hrun', -, hr'⟩ := hy (fun _ => true) (.inr fun _ => rfl)
  rw [hrun] at hrun'
  cases hrun'
  rw [← hr, ← hr']

/-- Without refused memory, both joins return the strings with the separator
    between them. -/
def JoinsAgree (seq : Option CharStr) (strs : List CharStr) : Prop :=
  Ensures False (joinStr (charsOrEmpty seq) (strs.map CharStr.chars))
      (· = some ((charsOrEmpty seq).intercalate (strs.map CharStr.chars))) ∧
    Ensures False (joinStrArrayAlloc (charsOrEmpty seq) ((strs.map CharStr.chars).map some))
      (· = some ((charsOrEmpty seq).intercalate (strs.map CharStr.chars)))

/-- `join_str_array` puts the separator between all strings exactly if no empty
    string comes first. -/
theorem joinStrArrayAlloc_intercalate_iff (seq : Option CharStr) (strs : List CharStr)
    (hsize : ((charsOrEmpty seq).intercalate (strs.map CharStr.chars)).length + 1 < sizeMax / 4) :
    Ensures False (joinStrArrayAlloc (charsOrEmpty seq) ((strs.map CharStr.chars).map some))
        (· = some ((charsOrEmpty seq).intercalate (strs.map CharStr.chars))) ↔
      charsOrEmpty seq = [] ∨ strs.length ≤ 1 ∨ (strs.map CharStr.chars).head? ≠ some [] := by
  have hle := length_joinedTo_le (charsOrEmpty seq) (strs.map CharStr.chars)
  have hnul : 0 ∉ joinedTo (charsOrEmpty seq) [] (strs.map CharStr.chars) := by
    refine not_mem_joinedTo (charsOrEmpty_noNul seq) List.not_mem_nil fun chars hchars => ?_
    obtain ⟨str, -, rfl⟩ := List.mem_map.1 hchars
    exact str.noNul
  have hjoined : Ensures False
      (joinStrArrayAlloc (charsOrEmpty seq) ((strs.map CharStr.chars).map some))
      (· = some (joinedTo (charsOrEmpty seq) [] (strs.map CharStr.chars))) :=
    joined_granted (joinStrArrayAlloc_ensures (by omega) hnul)
  have hiff := joinedTo_eq_intercalate_iff (charsOrEmpty seq) (strs.map CharStr.chars)
  rw [List.length_map] at hiff
  rw [← hiff]
  constructor
  · intro h
    exact Option.some.inj (ensures_unique hjoined h)
  · intro heq
    rwa [heq] at hjoined

/-- **The joins agree** exactly if there is no separator, or at most one string, or
    the first string is not empty. -/
theorem joinsAgree_iff (seq : Option CharStr) (strs : List CharStr)
    (hsize : ((charsOrEmpty seq).intercalate (strs.map CharStr.chars)).length + 1 < sizeMax / 4) :
    JoinsAgree seq strs ↔
      charsOrEmpty seq = [] ∨ strs.length ≤ 1 ∨ (strs.map CharStr.chars).head? ≠ some [] := by
  rw [JoinsAgree, joinStrArrayAlloc_intercalate_iff seq strs hsize, and_iff_right]
  exact joined_granted (joinStr_ensures hsize (noNul_intercalate (charsOrEmpty_noNul seq) strs))

/-- Two options with a comma. -/
theorem joinsAgree_options :
    JoinsAgree (some ⟨[0x2C], by simp, by simp⟩)
      [⟨[0x72, 0x6F], by simp, by simp⟩, ⟨[], by simp, by simp⟩] :=
  (joinsAgree_iff _ _ (by simp [charsOrEmpty, sizeMax])).2 (.inr (.inr (by simp)))

/-- An empty option that comes first. -/
theorem not_joinsAgree_empty :
    ¬ JoinsAgree (some ⟨[0x2C], by simp, by simp⟩)
      [⟨[], by simp, by simp⟩, ⟨[0x72, 0x6F], by simp, by simp⟩] := by
  rintro ⟨-, harray⟩
  rw [joinStrArrayAlloc_intercalate_iff _ _ (by simp [charsOrEmpty, sizeMax])] at harray
  simp [charsOrEmpty] at harray

end

end Fischstaebchen
