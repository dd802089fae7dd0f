/-
  Joining strings (`common/strutil/join.c`).

  The strings are collected in a dynstr (`common/data_types/dynstr.c`), of
  which only the content matters here.
-/
import Fischstaebchen.Strutil.Compare

namespace Fischstaebchen

/-- `dynstr_data_append_str_simple`. -/
def dynstrAppendStr (pdata pstr : CStr) : CStr := pdata ++ pstr

/-- `dynstr_data_sjoin_append`: the separator comes before every string that is
    appended to a non-empty content. -/
def dynstrSjoinAppend (joinSeq pdata pstr : CStr) : CStr :=
  dynstrAppendStr (if pdata.length > 0 then dynstrAppendStr pdata joinSeq else pdata) pstr

/-- `join_str_array`; NULL entries are skipped. -/
def joinStrArray (seq : Option CStr) (arr : List (Option CStr)) : CStr :=
  if arr = [] then []
  else if strIsEmpty seq then (arr.filterMap id).foldl dynstrAppendStr []
  else (arr.filterMap id).foldl (dynstrSjoinAppend (seq.getD [])) []

/-- `join_str_dynarray`: the entries are not NULL. -/
def joinStrDynarray (seq : Option CStr) (darr : List CStr) : CStr :=
  joinStrArray seq (darr.map some)

theorem foldl_sjoinAppend (joinSeq : CStr) : ∀ (ss : List CStr) (pdata : CStr), pdata ≠ [] →
    ss.foldl (dynstrSjoinAppend joinSeq) pdata = joinSeq.intercalate (pdata :: ss)
  | [], pdata, _ => by simp
  | s :: ss, pdata, h => by
    have hpos : pdata.length > 0 := List.length_pos_iff.2 h
    rw [List.foldl_cons, foldl_sjoinAppend joinSeq ss _ (by simp [dynstrSjoinAppend,
      dynstrAppendStr, hpos, h])]
    cases ss <;> simp [dynstrSjoinAppend, dynstrAppendStr, hpos, List.intercalate]

/-- **Joining** a list that starts with a non-empty string puts the separator
    between the strings. -/
theorem joinStrDynarray_cons {seq s : CStr} (hseq : seq ≠ []) (hs : s ≠ []) (ss : List CStr) :
    joinStrDynarray (some seq) (s :: ss) = seq.intercalate (s :: ss) := by
  have hf : List.filterMap id ((s :: ss).map some) = s :: ss := by simp
  rw [joinStrDynarray, joinStrArray, if_neg (by simp), if_neg (by simpa [strIsEmpty] using hseq),
    hf, List.foldl_cons, Option.getD_some]
  have h0 : dynstrSjoinAppend seq [] s = s := by simp [dynstrSjoinAppend, dynstrAppendStr]
  rw [h0, foldl_sjoinAppend seq ss s hs]

end Fischstaebchen
