/-
  Splitting strings (`common/strutil/split.c`).

  `_do_str_split` threads one `strtok_r` state through two delimiter sets: the
  initial delimiter ends the first field, the subsequent ones end the others.

  * `strSplit_fields`: the fields appended by `str_split` for a valid pair of
    delimiters.
  * `strSplit_keyValue_iff`: they are the text before the first initial
    delimiter followed by the non-empty fields of the rest exactly if the
    string is non-empty and does not start with the initial delimiter (or no
    subsequent delimiters are given).
-/
import Fischstaebchen.Strutil.Strtok

namespace Fischstaebchen

/-! ## `str_split` -/

/-- The dynarray and the number of fields of `_do_str_split`. -/
structure SplitState where
  darr : List CStr
  numFields : ℤ

/-- `LX__PEDAR_APPEND(s)`. -/
def SplitState.append (st : SplitState) (s : CStr) : SplitState :=
  ⟨st.darr ++ [s], st.numFields + 1⟩

/-- `_do_str_split`: the return code, which is 0 (allocation succeeds), the
    fields and the work string. -/
def doStrSplit (darr : List CStr) (workStr : CStr) (initial subseq : Option CStr) :
    ℤ × SplitState × CStr :=
  let st : SplitState := ⟨darr, 0⟩
  match subseq with
  | none =>
    -- `initial` is not NULL here, see `strSplitSanityChecks`
    match strchr workStr ((initial.getD []).headD '\x00') with
    | none => (0, st.append workStr, workStr)
    | some rest =>
      let key := workStr.take (workStr.length - rest.length)
      let value := rest.drop 1
      let st := st.append key
      (0, if value = [] then st else st.append value, key ++ '\x00' :: value)
  | some subseq =>
    let r := strtokR (initial.getD subseq) ⟨[], workStr⟩
    let r := strtokLoop subseq SplitState.append r.1 (r.2, st)
    (0, r.2, r.1.str)

/-- `_str_split_sanity_checks`. -/
def strSplitSanityChecks (str initial subseq : Option CStr) (maxSplit : ℤ) : ℤ :=
  if initial.any (fun d => d.length ≠ 1) then -1
  else if initial = none ∧ subseq = none then -1
  else if str = none then -1
  else if maxSplit > 0 then -1
  else 0

/-- The effect of a call: the dynarray, the return value and the string that
    the caller passed, as it reads after the call. -/
structure SplitResult where
  darr : List CStr
  ret : ℤ
  str : Option CStr

/-- `str_split`: works on a copy of `str`. -/
def strSplit (darr : List CStr) (str initial subseq : Option CStr) (maxSplit : ℤ) : SplitResult :=
  if strSplitSanityChecks str initial subseq maxSplit ≠ 0 then ⟨darr, -1, str⟩
  else
    let tmpStr := str.getD []
    let r := doStrSplit darr tmpStr initial subseq
    ⟨r.2.1.darr, if r.1 ≠ 0 then -1 else r.2.1.numFields, str⟩

/-- `str_split_unsafe`: works on the caller's string. -/
def strSplitUnsafe (darr : List CStr) (workStr initial subseq : Option CStr) (maxSplit : ℤ) :
    SplitResult :=
  if strSplitSanityChecks workStr initial subseq maxSplit ≠ 0 then ⟨darr, -1, workStr⟩
  else
    let r := doStrSplit darr (workStr.getD []) initial subseq
    ⟨r.2.1.darr, if r.1 ≠ 0 then -1 else r.2.1.numFields, some r.2.2⟩

/-! ## The appended fields -/

theorem foldl_append (fields : List CStr) (st : SplitState) :
    fields.foldl SplitState.append st = ⟨st.darr ++ fields, st.numFields + fields.length⟩ := by
  induction fields generalizing st with
  | nil => simp
  | cons f fields ih => rw [List.foldl_cons, ih]; simp [SplitState.append]; omega

/-- The fields of a string for an initial and subsequent delimiters. -/
def splitFields (initial subseq : Option CStr) (s : CStr) : List CStr :=
  match initial, subseq with
  | none, none => []
  | none, some ds => Lib.runs (isDelim ds) s
  | some d, none =>
    let value := (s.dropWhile fun c => !isDelim d c).drop 1
    s.takeWhile (fun c => !isDelim d c) :: if value = [] then [] else [value]
  | some d, some ds =>
    let s := s.dropWhile (isDelim d)
    if s = [] then []
    else s.takeWhile (fun c => !isDelim d c) ::
      Lib.runs (isDelim ds) ((s.dropWhile fun c => !isDelim d c).drop 1)

/-- The fields appended by `_do_str_split`, and their number. -/
theorem doStrSplit_fields (darr : List CStr) (s : CStr) {initial subseq : Option CStr}
    (hv : strSplitSanityChecks (some s) initial subseq (-1) = 0) :
    (doStrSplit darr s initial subseq).1 = 0 ∧
      (doStrSplit darr s initial subseq).2.1.darr = darr ++ splitFields initial subseq s ∧
      (doStrSplit darr s initial subseq).2.1.numFields = (splitFields initial subseq s).length := by
  cases subseq with
  | none =>
    obtain ⟨d, rfl⟩ : ∃ d, initial = some [d] := by
      cases initial with
      | none => simp [strSplitSanityChecks] at hv
      | some d => cases d with
        | nil => simp [strSplitSanityChecks] at hv
        | cons c cs => cases cs <;> simp [strSplitSanityChecks] at hv ⊢
    have hp : (fun c => !isDelim [d] c) = (· != d) := by
      funext c; rw [isDelim_singleton, bne, beq_eq_decide]
    have hlen := congrArg List.length (List.takeWhile_append_dropWhile (p := (· != d)) (l := s))
    simp only [doStrSplit, splitFields, strchr_eq, hp, Option.getD_some, List.headD_cons]
    by_cases hd : d ∈ s
    · have hk : s.take (s.length - (s.dropWhile (· != d)).length) = s.takeWhile (· != d) := by
        rw [List.length_append] at hlen
        rw [show s.length - (s.dropWhile (· != d)).length = (s.takeWhile (· != d)).length by omega]
        exact (List.prefix_iff_eq_take.1 (List.takeWhile_prefix _)).symm
      simp only [if_pos hd, hk, true_and]
      split_ifs <;> simp [SplitState.append]
    · have hn : ∀ c ∈ s, (c != d) = true := by
        intro c hc; simp; rintro rfl; exact hd hc
      simp only [if_neg hd, true_and]
      rw [List.takeWhile_eq_self_iff.2 hn, List.dropWhile_eq_nil_iff.2 hn]
      simp [SplitState.append]
  | some ds =>
    cases initial with
    | none =>
      simp [doStrSplit, splitFields, strtokLoop_strtokR, foldl_append]
    | some d =>
      simp only [doStrSplit, splitFields, Option.getD_some, true_and, strtokR_fst]
      split_ifs with h
      · simp [strtokLoop]
      · simp only [strtokLoop_some, strtokR_saveptr, foldl_append]
        simp [SplitState.append]; omega

/-- **`str_split` with valid delimiters** appends the fields and returns their
    number; the caller's string is not touched. -/
theorem strSplit_fields (darr : List CStr) (s : CStr) {initial subseq : Option CStr}
    (hv : strSplitSanityChecks (some s) initial subseq (-1) = 0) :
    strSplit darr (some s) initial subseq (-1) =
      ⟨darr ++ splitFields initial subseq s, (splitFields initial subseq s).length, some s⟩ := by
  obtain ⟨h0, hd, hn⟩ := doStrSplit_fields darr s hv
  simp [strSplit, hv, h0, hd, hn]

/-! ## Keys and values -/

/-- The intended fields of a word: the text before the first `d` (the key),
    then the non-empty fields of the text after it. -/
def keyValueFields (d : Char) (subseq : Option CStr) (s : CStr) : List CStr :=
  s.takeWhile (· ≠ d) :: Lib.runs (isDelim (subseq.getD [])) ((s.dropWhile (· ≠ d)).drop 1)

/-- `str_split` and `str_split_unsafe` append the key and the values of `s`. -/
structure SplitsKeyValue (darr : List CStr) (d : Char) (subseq : Option CStr) (s : CStr) :
    Prop where
  fields : (strSplit darr (some s) (some [d]) subseq (-1)).darr =
    darr ++ keyValueFields d subseq s
  count : (strSplit darr (some s) (some [d]) subseq (-1)).ret =
    (strSplit darr (some s) (some [d]) subseq (-1)).darr.length - darr.length
  caller : (strSplit darr (some s) (some [d]) subseq (-1)).str = some s
  unsafe_darr : (strSplitUnsafe darr (some s) (some [d]) subseq (-1)).darr =
    (strSplit darr (some s) (some [d]) subseq (-1)).darr
  unsafe_ret : (strSplitUnsafe darr (some s) (some [d]) subseq (-1)).ret =
    (strSplit darr (some s) (some [d]) subseq (-1)).ret

/-- The appended fields are the key and the values exactly if no leading
    delimiter is skipped. -/
theorem splitFields_eq_keyValueFields (d : Char) (subseq : Option CStr) (s : CStr) :
    splitFields (some [d]) subseq s = keyValueFields d subseq s ↔
      subseq = none ∨ ∃ c rest, s = c :: rest ∧ c ≠ d := by
  have hq : isDelim [d] = fun c => decide (c = d) := by funext c; exact isDelim_singleton d c
  cases subseq with
  | none =>
    simp only [splitFields, keyValueFields, hq, decide_not, Option.getD_none, true_or, iff_true]
    congr 1
    split_ifs with h
    · rw [h, Lib.runs_nil]
    · exact (Lib.runs_word h fun _ _ => rfl).symm
  | some ds =>
    simp only [splitFields, keyValueFields, hq, decide_not, Option.getD_some, reduceCtorEq,
      false_or]
    constructor
    · intro h
      -- the first field is never empty, so the key is not
      cases s with
      | nil => simp at h
      | cons c s =>
        refine ⟨c, s, rfl, ?_⟩
        rintro rfl
        split_ifs at h with hs
        have hh := List.head_dropWhile_not (fun x => decide (x = c)) hs
        obtain ⟨x, xs, hx⟩ := List.exists_cons_of_ne_nil hs
        simp only [hx, List.head_cons] at hh
        simp [hx, hh] at h
    · rintro ⟨c, s, rfl, hc⟩
      simp [hc]

/-- **Key/value splitting**: the key and the values are appended exactly if no
    subsequent delimiters are given, or the string starts with a char other
    than the initial delimiter. -/
theorem strSplit_keyValue_iff (darr : List CStr) (d : Char) (subseq : Option CStr) (s : CStr) :
    SplitsKeyValue darr d subseq s ↔ subseq = none ∨ ∃ c rest, s = c :: rest ∧ c ≠ d := by
  have hv : strSplitSanityChecks (some s) (some [d]) subseq (-1) = 0 := by
    simp [strSplitSanityChecks]
  obtain ⟨h0, hd, hn⟩ := doStrSplit_fields darr s hv
  have hf := strSplit_fields darr s hv
  rw [← splitFields_eq_keyValueFields]
  constructor
  · intro h
    have := h.fields
    rw [hf] at this
    exact List.append_cancel_left this
  · intro h
    refine ⟨by rw [hf, h], by rw [hf]; simp, by rw [hf], ?_, ?_⟩
    · rw [hf]; simp [strSplitUnsafe, hv, hd]
    · rw [hf]; simp [strSplitUnsafe, hv, h0, hn]

/-- The word `=ro` yields the single field `ro`, as if it were a key. -/
theorem strSplit_leading_delimiter :
    ¬ SplitsKeyValue [] '=' (some ",".toList) "=ro".toList ∧
      (strSplit [] (some "=ro".toList) (some "=".toList) (some ",".toList) (-1)).darr =
        ["ro".toList] := by
  have hv : strSplitSanityChecks (some "=ro".toList) (some "=".toList) (some ",".toList) (-1) = 0 :=
    by decide
  have hf := strSplit_fields [] "=ro".toList hv
  refine ⟨fun h => ?_, by rw [hf]; decide⟩
  have := h.fields
  rw [show ['='] = "=".toList from rfl, hf] at this
  revert this; decide

end Fischstaebchen
