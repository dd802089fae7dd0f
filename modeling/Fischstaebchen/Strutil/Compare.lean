/-
  C strings and their comparison (`common/strutil/compare.c`).

  A C string is the list of its chars before the terminating NUL; a `char*`
  that may be NULL is an `Option`.  Memory allocation is assumed to succeed,
  so a copied string (`strdup`) is the string itself.
-/
import Mathlib.Tactic

namespace Fischstaebchen

/-- The chars of a C string, without the terminating NUL. -/
abbrev CStr := List Char

/-- `STR_IS_EMPTY(s)`: NULL or the empty string. -/
def strIsEmpty : Option CStr → Bool
  | none => true
  | some s => s.isEmpty

/-- `strchr(s, c)`: the part of `s` that starts at the first `c`. -/
def strchr : CStr → Char → Option CStr
  | [], _ => none
  | x :: s, c => if x = c then some (x :: s) else strchr s c

/-- `strncmp(s, t, n) == 0`. -/
def strncmpEq (s t : CStr) (n : ℕ) : Bool := s.take n == t.take n

/-- `str_startswith`: the remainder of `str` after `pre`, or NULL. -/
def strStartswith (str pre : CStr) : Option CStr :=
  if strncmpEq str pre pre.length then some (str.drop pre.length) else none

/-- `_get_vargs_strmatch`: the index of the first candidate that `fcompare`
    accepts, counted from `k`; `none` stands for -1. -/
def getVargsStrmatch (fcompare : CStr → CStr → Bool) (str : CStr) : ℕ → List String → Option ℕ
  | _, [] => none
  | k, arg :: vargs =>
    if fcompare str arg.toList then some k else getVargsStrmatch fcompare str (k + 1) vargs

/-- `streq_switch(str, ...)`. -/
def streqSwitch (str : CStr) (candidates : List String) : Option ℕ :=
  getVargsStrmatch (· == ·) str 0 candidates

/-- What `strchr` finds: nothing, or the tail of the string from the first `c` on. -/
theorem strchr_eq (s : CStr) (c : Char) :
    strchr s c = if c ∈ s then some (s.dropWhile (· != c)) else none := by
  induction s with
  | nil => rfl
  | cons x s ih =>
    by_cases hx : x = c
    · simp [strchr, hx]
    · have hx' : (x != c) = true := by simpa using hx
      rw [strchr, if_neg hx, ih]
      simp [Ne.symm hx, hx']

theorem strncmpEq_iff (s t : CStr) : strncmpEq s t t.length = true ↔ t <+: s := by
  simp only [strncmpEq, List.take_length, beq_iff_eq]
  constructor
  · intro h; exact List.prefix_iff_eq_take.2 h.symm
  · rintro ⟨r, rfl⟩; simp

theorem strStartswith_eq_some {str pre rem : CStr} :
    strStartswith str pre = some rem ↔ str = pre ++ rem := by
  unfold strStartswith
  split_ifs with h
  · obtain ⟨r, rfl⟩ := (strncmpEq_iff _ _).1 h
    simp [eq_comm]
  · simp only [false_iff]
    rintro rfl
    exact h ((strncmpEq_iff _ _).2 (List.prefix_append _ _))

theorem strStartswith_eq_none {str pre : CStr} :
    strStartswith str pre = none ↔ ¬ pre <+: str := by
  rw [← strncmpEq_iff, strStartswith]; split_ifs with h <;> simp [h]

/-- A string matches none of the candidates iff it is none of them. -/
theorem streqSwitch_eq_none {str : CStr} {candidates : List String} :
    streqSwitch str candidates = none ↔ ∀ c ∈ candidates, str ≠ c.toList := by
  have key : ∀ k, getVargsStrmatch (· == ·) str k candidates = none ↔
      ∀ c ∈ candidates, str ≠ c.toList := by
    induction candidates with
    | nil => simp [getVargsStrmatch]
    | cons c cs ih =>
      intro k
      by_cases h : str = c.toList
      · simp [getVargsStrmatch, h]
      · simp [getVargsStrmatch, h, ih]
  exact key 0

/-- The candidate at the returned index is the string. -/
theorem streqSwitch_eq_some {str : CStr} {candidates : List String} {i : ℕ}
    (h : streqSwitch str candidates = some i) :
    ∃ c, candidates[i]? = some c ∧ str = c.toList := by
  have key : ∀ k, getVargsStrmatch (· == ·) str k candidates = some i →
      k ≤ i ∧ ∃ c, candidates[i - k]? = some c ∧ str = c.toList := by
    clear h
    induction candidates with
    | nil => simp [getVargsStrmatch]
    | cons c cs ih =>
      intro k hk
      rw [getVargsStrmatch] at hk
      split_ifs at hk with hc
      · cases hk; exact ⟨le_rfl, c, by simp, by simpa using hc⟩
      · obtain ⟨hle, d, hd, hs⟩ := ih (k + 1) hk
        refine ⟨by omega, d, ?_, hs⟩
        rw [show i - k = (i - (k + 1)) + 1 by omega, List.getElem?_cons_succ, hd]
  obtain ⟨-, c, hc, hs⟩ := key 0 h
  exact ⟨c, hc, hs⟩

end Fischstaebchen
