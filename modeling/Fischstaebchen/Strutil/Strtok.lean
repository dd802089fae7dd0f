/-
  `strtok_r` and the token loop.

  A `strtok_r` loop keeps a save pointer in a work buffer; the delimiters may
  change from call to call.

  * `strtokR_cases`: what one call returns, in terms of the non-empty fields
    (`Lib.runs`) of the text at the save pointer.
  * `strtokLoop_strtokR`: a loop over all tokens is a fold over the fields.
-/
import Fischstaebchen.Lib.Split
import Fischstaebchen.Strutil.Compare

namespace Fischstaebchen

/-- The buffer `strtok_r` works on: the part before the save pointer as it now
    reads (delimiters ending a token are overwritten with NUL), and the string
    at the save pointer. -/
structure StrtokBuf where
  passed : CStr
  saveptr : CStr

/-- The whole buffer. -/
def StrtokBuf.str (b : StrtokBuf) : CStr := b.passed ++ b.saveptr

/-- Whether `c` is one of the delimiters `delim`. -/
def isDelim (delim : CStr) (c : Char) : Bool := delim.contains c

theorem isDelim_singleton (d c : Char) : isDelim [d] c = decide (c = d) := by
  rw [Bool.eq_iff_iff]; simp [isDelim]

/-- `strtok_r(NULL, delim, &saveptr)`: the next token, if any, and the buffer
    after the call.  (The first call, which passes the string itself, starts
    from the save pointer at the beginning of the buffer.) -/
def strtokR (delim : CStr) (b : StrtokBuf) : Option CStr × StrtokBuf :=
  let skipped := b.saveptr.takeWhile (isDelim delim)
  let s := b.saveptr.dropWhile (isDelim delim)
  if s = [] then (none, ⟨b.passed ++ skipped, []⟩)
  else
    let token := s.takeWhile fun c => !isDelim delim c
    match s.dropWhile fun c => !isDelim delim c with
    | [] => (some token, ⟨b.passed ++ skipped ++ token, []⟩)
    | _ :: rest => (some token, ⟨b.passed ++ skipped ++ token ++ ['\x00'], rest⟩)

theorem strtokR_fst (delim : CStr) (b : StrtokBuf) :
    (strtokR delim b).1 = if b.saveptr.dropWhile (isDelim delim) = [] then none else
      some ((b.saveptr.dropWhile (isDelim delim)).takeWhile fun c => !isDelim delim c) := by
  unfold strtokR
  split_ifs with h
  · simp [h]
  · simp only [h, if_false]; split <;> rfl

theorem strtokR_saveptr (delim : CStr) (b : StrtokBuf) :
    (strtokR delim b).2.saveptr =
      ((b.saveptr.dropWhile (isDelim delim)).dropWhile fun c => !isDelim delim c).drop 1 := by
  unfold strtokR
  by_cases h : b.saveptr.dropWhile (isDelim delim) = []
  · simp [h]
  · simp only [h, if_false]
    split
    · next hd => rw [hd]; rfl
    · next hd => rw [hd]; rfl

/-- **One `strtok_r` call** returns the first of the non-empty fields at the
    save pointer and moves the save pointer past it, or returns NULL if there
    is none. -/
theorem strtokR_cases (delim : CStr) (b : StrtokBuf) :
    ((strtokR delim b).1 = none ∧ Lib.runs (isDelim delim) b.saveptr = [] ∧
      (strtokR delim b).2.saveptr = []) ∨
    ∃ t, (strtokR delim b).1 = some t ∧
      Lib.runs (isDelim delim) b.saveptr =
        t :: Lib.runs (isDelim delim) (strtokR delim b).2.saveptr ∧
      (strtokR delim b).2.saveptr.length < b.saveptr.length := by
  have hlen := (List.dropWhile_sublist (l := b.saveptr) (isDelim delim)).length_le
  rw [← Lib.runs_dropWhile b.saveptr, strtokR_fst, strtokR_saveptr]
  cases hs : b.saveptr.dropWhile (isDelim delim) with
  | nil => left; simp
  | cons c s =>
    right
    have hc : isDelim delim c = false := by
      have := List.head_dropWhile_not (isDelim delim) (l := b.saveptr) (by simp [hs])
      simpa [hs] using this
    have hr := (List.dropWhile_sublist (l := s) fun x => !isDelim delim x).length_le
    rw [hs] at hlen
    refine ⟨_, rfl, ?_, ?_⟩
    · rw [Lib.runs_cons_word hc, Lib.runs_drop_sep]; simp [hc]
    · simp [hc] at hlen ⊢; omega

/-! ## The token loop -/

/-- `while ( p_substr != NULL ) { body; p_substr = strtok_r ( NULL, delim, &saveptr ); }` -/
def strtokLoop {α : Type*} (delim : CStr) (body : α → CStr → α) :
    Option CStr → StrtokBuf × α → StrtokBuf × α
  | none, st => st
  | some s, st =>
    let r := strtokR delim st.1
    strtokLoop delim body r.1 (r.2, body st.2 s)
termination_by p_substr st => st.1.saveptr.length + (if p_substr.isSome then 1 else 0)
decreasing_by
  rcases strtokR_cases delim st.1 with ⟨h, -, hs⟩ | ⟨t, h, -, hs⟩
  · simp [h, hs]
  · simp [h]; omega

/-- **The loop runs over the current token and the fields that follow it.** -/
theorem strtokLoop_some {α : Type*} (delim : CStr) (body : α → CStr → α) (s : CStr) (b : StrtokBuf)
    (a : α) : (strtokLoop delim body (some s) (b, a)).2 =
      (Lib.runs (isDelim delim) b.saveptr).foldl body (body a s) := by
  induction hn : b.saveptr.length using Nat.strong_induction_on generalizing s b a with
  | _ n ih =>
    rw [strtokLoop]
    rcases strtokR_cases delim b with ⟨h1, h2, -⟩ | ⟨t, h1, h2, hlt⟩
    · simp only [h1, h2, strtokLoop, List.foldl_nil]
    · simp only [h1, h2, List.foldl_cons]
      exact ih _ (hn ▸ hlt) t _ _ rfl

/-- A loop over the tokens of a string. -/
theorem strtokLoop_strtokR {α : Type*} (delim : CStr) (body : α → CStr → α) (b : StrtokBuf)
    (a : α) :
    (strtokLoop delim body (strtokR delim b).1 ((strtokR delim b).2, a)).2 =
      (Lib.runs (isDelim delim) b.saveptr).foldl body a := by
  rcases strtokR_cases delim b with ⟨h1, h2, -⟩ | ⟨t, h1, h2, -⟩
  · rw [h1, h2, strtokLoop]; rfl
  · rw [h1, h2, strtokLoop_some]; rfl

end Fischstaebchen
