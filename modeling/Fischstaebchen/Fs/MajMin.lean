/-
  Device numbers as text (`common/fs/devfs.c`).

  `devfs_parse_maj_min` reads `MAJOR:MINOR` with two calls of a helper that keeps its
  place in `saveptr`.  Blanks are skipped by a loop that leaves after its first char.

  * `substr_zero`: what the helper accepts.
  * `MajMinForm.parse`: what is read from two runs of digits, which may be empty.
  * `parsesMajMin_iff`: when a string is read as the grammar says.
-/
import Fischstaebchen.Fs.ProcMisc

namespace Fischstaebchen

open Lib

/-- The chars that the `switch` of `_devfs_parse_maj_min_substr_skip_whitespace` names. -/
def isWhite (c : UInt8) : Bool := c == 0x20 || c == 0x0A || c == 0x0D

/-- `_devfs_parse_maj_min_substr_skip_whitespace`, on the string at the cursor: the case
    of a blank falls through to the `return` of the default case. -/
def devfsParseMajMinSubstrSkipWhitespace : List UInt8 → List UInt8
  | [] => []
  | c :: iter => if isWhite c then iter else c :: iter

/-- The loop of `_devfs_parse_maj_min_substr`: the return code, `*pubuf` and `*saveptr`. -/
def devfsParseMajMinSubstrLoop : List UInt8 → Unsigned → ℤ × Unsigned × Option (List UInt8)
  | [], ubuf => (0, ubuf, none)
  | c :: iter, ubuf =>
    if isDigit c then
      devfsParseMajMinSubstrLoop iter (10 * ubuf + BitVec.ofNat 32 c.toNat - 0x30)
    else if c = 0x3A then (0, ubuf, some iter)
    else (if devfsParseMajMinSubstrSkipWhitespace (c :: iter) = [] then 0 else -1, ubuf, none)

/-- `_devfs_parse_maj_min_substr`; `none` if `NULL` is read. -/
def devfsParseMajMinSubstr (str saveptr : Option (List UInt8)) :
    Option (ℤ × Unsigned × Option (List UInt8)) := do
  let iter ← str <|> saveptr
  let iter := devfsParseMajMinSubstrSkipWhitespace iter
  if iter = [] then some (-1, 0, none) else some (devfsParseMajMinSubstrLoop iter 0)

/-- `devfs_parse_maj_min`: the return code, `*maj` and `*min`; `same` if both pointers are
    the same. -/
def devfsParseMajMin (str : Option (List UInt8)) (same : Bool) (maj min : Unsigned) :
    Option (ℤ × Unsigned × Unsigned) := do
  if same then some (-15, maj, min)
  else do
    let first ← devfsParseMajMinSubstr str none
    if first.1 ≠ 0 then some (-1, 0, 0)
    else if first.2.2 = none then some (-2, first.2.1, 0)
    else do
      let second ← devfsParseMajMinSubstr none first.2.2
      if second.1 ≠ 0 then some (-3, first.2.1, 0)
      else if second.2.2 ≠ none then some (-4, first.2.1, second.2.1)
      else some (0, first.2.1, second.2.1)

/-! ## The helper -/

section
variable {s r w d : List UInt8} {c : UInt8}

theorem isWhite_iff : isWhite c = true ↔ c = 0x20 ∨ c = 0x0A ∨ c = 0x0D := by
  simp [isWhite, or_assoc]

theorem isWhite_of_isDigit (h : isDigit c = true) : isWhite c = false := by
  by_contra hb
  rcases isWhite_iff.1 (Bool.eq_true_of_not_eq_false hb) with rfl | rfl | rfl
  · cases h
  · cases h
  · cases h

theorem isDigit_of_isWhite (h : isWhite c = true) : isDigit c = false := by
  by_contra hd
  rw [isWhite_of_isDigit (Bool.eq_true_of_not_eq_false hd)] at h
  cases h

theorem ne_colon_of_isWhite (h : isWhite c = true) : c ≠ 0x3A := by
  rintro rfl
  cases h

/-- Some digits and the number that is read from them. -/
theorem substrLoop_digits (hd : ∀ c ∈ d, isDigit c = true) (r : List UInt8) (ubuf : Unsigned) :
    devfsParseMajMinSubstrLoop (d ++ r) ubuf =
      devfsParseMajMinSubstrLoop r (d.foldl numberStep ubuf) := by
  induction d generalizing ubuf with
  | nil => rfl
  | cons c d ih =>
    have hc : isDigit c = true := hd c List.mem_cons_self
    have hstep : 10 * ubuf + BitVec.ofNat 32 c.toNat - 0x30 = numberStep ubuf c := by
      rw [numberStep, BitVec.mul_comm, BitVec.sub_eq_add_neg, BitVec.sub_eq_add_neg,
        BitVec.add_assoc]
    rw [List.cons_append, devfsParseMajMinSubstrLoop, if_pos hc, hstep,
      ih fun b hb => hd b (List.mem_cons_of_mem c hb)]
    rfl

theorem skipWhitespace_cons (h : isWhite c = true) :
    devfsParseMajMinSubstrSkipWhitespace (c :: r) = r := if_pos h

theorem skipWhitespace_of_head (h : ∀ c ∈ r.head?, isWhite c = false) :
    devfsParseMajMinSubstrSkipWhitespace r = r := by
  cases r with
  | nil => rfl
  | cons c r => exact if_neg (Bool.eq_false_iff.1 (h c rfl))

/-- One blank at most is skipped. -/
theorem skipWhitespace_run (hw : ∀ c ∈ w, isWhite c = true) (hlen : w.length ≤ 1)
    (hr : ∀ c ∈ r.head?, isWhite c = false) :
    devfsParseMajMinSubstrSkipWhitespace (w ++ r) = r := by
  cases w with
  | nil => exact skipWhitespace_of_head hr
  | cons c w =>
    cases w with
    | nil => exact skipWhitespace_cons (hw c List.mem_cons_self)
    | cons c' w => simp at hlen

theorem loop_blank (h : isWhite c = true) (ubuf : Unsigned) :
    devfsParseMajMinSubstrLoop (c :: r) ubuf = (if r = [] then 0 else -1, ubuf, none) := by
  have hd : ¬ isDigit c = true := Bool.eq_false_iff.1 (isDigit_of_isWhite h)
  rw [devfsParseMajMinSubstrLoop, if_neg hd, if_neg (ne_colon_of_isWhite h),
    skipWhitespace_cons h]

/-- The helper on a string. -/
def readSubstr (s : List UInt8) : ℤ × Unsigned × Option (List UInt8) :=
  let iter := devfsParseMajMinSubstrSkipWhitespace s
  if iter = [] then (-1, 0, none) else devfsParseMajMinSubstrLoop iter 0

theorem substr_str (s : List UInt8) (saveptr : Option (List UInt8)) :
    devfsParseMajMinSubstr (some s) saveptr = some (readSubstr s) :=
  (apply_ite some _ _ _).symm

theorem substr_saveptr (s : List UInt8) :
    devfsParseMajMinSubstr none (some s) = some (readSubstr s) :=
  (apply_ite some _ _ _).symm

theorem digits_head (hd : ∀ c ∈ d, isDigit c = true) (hr : ∀ c ∈ r.head?, isWhite c = false) :
    ∀ c ∈ (d ++ r).head?, isWhite c = false := by
  cases d with
  | nil => exact hr
  | cons c d =>
    rintro b ⟨⟩
    exact isWhite_of_isDigit (hd c List.mem_cons_self)

/-- Up to a separator. -/
theorem readSubstr_sep (hw : ∀ c ∈ w, isWhite c = true) (hlen : w.length ≤ 1)
    (hd : ∀ c ∈ d, isDigit c = true) (r : List UInt8) :
    readSubstr (w ++ (d ++ 0x3A :: r)) = (0, d.foldl numberStep 0, some r) := by
  have hhead : ∀ c ∈ (d ++ 0x3A :: r).head?, isWhite c = false :=
    digits_head hd (by rintro c ⟨⟩; rfl)
  rw [readSubstr, skipWhitespace_run hw hlen hhead]
  rw [if_neg (by simp), substrLoop_digits hd]
  rfl

/-- Up to the end, with at least one digit. -/
theorem readSubstr_end (hw : ∀ c ∈ w, isWhite c = true) (hlen : w.length ≤ 1)
    (hd : ∀ c ∈ d, isDigit c = true) (hne : d ≠ []) (hr : ∀ c ∈ r, isWhite c = true) :
    readSubstr (w ++ (d ++ r)) =
      (if r.length ≤ 1 then 0 else -1, d.foldl numberStep 0, none) := by
  have hhead := head?_of_forall_mem hne (fun c hc => isWhite_of_isDigit (hd c hc)) r
  rw [readSubstr, skipWhitespace_run hw hlen hhead]
  rw [if_neg (by simp [hne]), substrLoop_digits hd]
  cases r with
  | nil => rfl
  | cons c r =>
    rw [loop_blank (hr c List.mem_cons_self)]
    cases r <;> simp

/-- After two blanks, only the end of the string is accepted. -/
theorem readSubstr_blanks {b c : UInt8} (hb : isWhite b = true) (hc : isWhite c = true)
    (r : List UInt8) : readSubstr (b :: c :: r) = (if r = [] then 0 else -1, 0, none) := by
  rw [readSubstr, skipWhitespace_cons hb]
  rw [if_neg (List.cons_ne_nil c r), loop_blank hc]

/-- Blanks only. -/
theorem readSubstr_blank (hw : ∀ c ∈ w, isWhite c = true) :
    ∃ ret, readSubstr w = (ret, 0, none) ∧ (ret = 0 ↔ w.length = 2) := by
  rcases w with _ | ⟨b, _ | ⟨c, w⟩⟩
  · exact ⟨-1, rfl, by simp⟩
  · refine ⟨-1, ?_, by simp⟩
    rw [readSubstr, skipWhitespace_cons (hw b List.mem_cons_self)]
    rfl
  · refine ⟨_, readSubstr_blanks (hw b (by simp)) (hw c (by simp)) w, ?_⟩
    cases w <;> simp

/-- **What the helper accepts**: blanks and digits up to a separator or to blanks at the
    end. -/
theorem substr_zero (h : (readSubstr s).1 = 0) :
    ∃ w d r, s = w ++ (d ++ r) ∧ (∀ c ∈ w, isWhite c = true) ∧ (∀ c ∈ d, isDigit c = true) ∧
      ((readSubstr s).2.2 = none ∧ (∀ c ∈ r, isWhite c = true) ∨
        ∃ r', r = 0x3A :: r' ∧ (readSubstr s).2.2 = some r') := by
  obtain ⟨w, hs, hw⟩ : ∃ w, s = w ++ devfsParseMajMinSubstrSkipWhitespace s ∧
      ∀ c ∈ w, isWhite c = true := by
    rcases s with _ | ⟨c, s⟩
    · exact ⟨[], rfl, nofun⟩
    · by_cases hc : isWhite c = true
      · exact ⟨[c], by rw [skipWhitespace_cons hc]; rfl, by simpa using hc⟩
      · exact ⟨[], (if_neg hc).symm, nofun⟩
  let iter := devfsParseMajMinSubstrSkipWhitespace s
  let d := iter.takeWhile isDigit
  let r := iter.dropWhile isDigit
  have hiter : d ++ r = iter := List.takeWhile_append_dropWhile
  have hd : ∀ c ∈ d, isDigit c = true := fun c hc => List.mem_takeWhile_imp hc
  have hr : ∀ c ∈ r.head?, isDigit c = false := head_dropWhile_run iter
  refine ⟨w, d, r, ?_, hw, hd, ?_⟩
  · rw [hiter]
    exact hs
  have hrun : readSubstr s =
      if iter = [] then (-1, 0, none)
      else devfsParseMajMinSubstrLoop r (d.foldl numberStep 0) := by
    rw [← substrLoop_digits hd r 0, hiter]
    rfl
  rw [hrun] at h ⊢
  by_cases hne : iter = []
  · rw [if_pos hne] at h
    cases h
  rw [if_neg hne] at h ⊢
  generalize d.foldl numberStep 0 = ubuf at h ⊢
  cases hcase : r with
  | nil => exact .inl ⟨rfl, nofun⟩
  | cons c t =>
    rw [hcase] at h hr
    have hc : ¬ isDigit c = true := Bool.eq_false_iff.1 (hr c rfl)
    rw [devfsParseMajMinSubstrLoop, if_neg hc] at h ⊢
    by_cases hsep : c = 0x3A
    · subst hsep
      exact .inr ⟨t, rfl, rfl⟩
    · rw [if_neg hsep] at h ⊢
      refine .inl ⟨rfl, ?_⟩
      by_cases hb : isWhite c = true
      · rw [skipWhitespace_cons hb] at h
        by_cases ht : t = []
        · subst ht
          simpa using hb
        · rw [if_neg ht] at h
          cases h
      · have hskip : devfsParseMajMinSubstrSkipWhitespace (c :: t) = c :: t := if_neg hb
        rw [hskip, if_neg (List.cons_ne_nil c t)] at h
        cases h

end

/-! ## The two numbers -/

/-- Two runs of digits, which may be empty, with a separator and blanks. -/
structure MajMinForm (s w₁ d₁ w₂ d₂ w₃ : List UInt8) : Prop where
  str_eq : s = w₁ ++ (d₁ ++ 0x3A :: (w₂ ++ (d₂ ++ w₃)))
  blank₁ : ∀ c ∈ w₁, isWhite c = true
  digit₁ : ∀ c ∈ d₁, isDigit c = true
  blank₂ : ∀ c ∈ w₂, isWhite c = true
  digit₂ : ∀ c ∈ d₂, isDigit c = true
  blank₃ : ∀ c ∈ w₃, isWhite c = true

/-- The blanks are as few as the code can skip; without a second number, there are two after
    the separator. -/
def FewBlanks (w₁ w₂ d₂ w₃ : List UInt8) : Prop :=
  w₁.length ≤ 1 ∧
    if d₂ = [] then (w₂ ++ w₃).length = 2 else w₂.length ≤ 1 ∧ w₃.length ≤ 1

section
variable {s w₁ d₁ w₂ d₂ w₃ : List UInt8} {maj min : Unsigned}

/-- The result if the first number is read. -/
theorem parse_first {r : List UInt8} {ubuf : Unsigned}
    (h : readSubstr s = (0, ubuf, some r)) :
    devfsParseMajMin (some s) false maj min =
      some (if (readSubstr r).1 ≠ 0 then (-3, ubuf, 0)
        else if (readSubstr r).2.2 ≠ none then (-4, ubuf, (readSubstr r).2.1)
        else (0, ubuf, (readSubstr r).2.1)) := by
  have hne : ¬ (0 : ℤ) ≠ 0 := not_not.2 rfl
  have hsome : ¬ (some r = none) := Option.some_ne_none r
  simp only [devfsParseMajMin, substr_str, Option.bind_eq_bind, Option.bind_some, h, hne, hsome,
    if_false, substr_saveptr, Bool.false_eq_true]
  split_ifs <;> rfl

/-- The first number is not read after two blanks. -/
theorem MajMinForm.first_blanks (h : MajMinForm s w₁ d₁ w₂ d₂ w₃) (hlen : 1 < w₁.length) :
    (readSubstr s).1 ≠ 0 := by
  obtain ⟨hs, hb, -, -, -, -⟩ := h
  rcases w₁ with _ | ⟨b, _ | ⟨c, w₁⟩⟩
  · simp at hlen
  · simp at hlen
  · rw [hs, List.cons_append, List.cons_append, readSubstr_blanks (hb b (by simp))
      (hb c (by simp)), if_neg (by simp)]
    exact Int.neg_ne_zero.2 one_ne_zero

/-- The second number. -/
theorem MajMinForm.second (h : MajMinForm s w₁ d₁ w₂ d₂ w₃) :
    ∃ ret ubuf, readSubstr (w₂ ++ (d₂ ++ w₃)) = (ret, ubuf, none) ∧
      (ret = 0 ↔ if d₂ = [] then (w₂ ++ w₃).length = 2 else w₂.length ≤ 1 ∧ w₃.length ≤ 1) ∧
      (ret = 0 → ubuf = d₂.foldl numberStep 0) := by
  obtain ⟨-, -, -, hb₂, hd₂, hb₃⟩ := h
  by_cases hne : d₂ = []
  · subst hne
    have hb : ∀ c ∈ w₂ ++ w₃, isWhite c = true := by
      intro c hc
      rcases List.mem_append.1 hc with hc | hc
      · exact hb₂ c hc
      · exact hb₃ c hc
    obtain ⟨ret, hrun, hret⟩ := readSubstr_blank hb
    refine ⟨ret, 0, hrun, ?_, fun _ => rfl⟩
    rw [if_pos rfl]
    exact hret
  · rw [if_neg hne]
    rcases w₂ with _ | ⟨b, _ | ⟨c, w₂⟩⟩
    · refine ⟨_, _, readSubstr_end hb₂ (Nat.zero_le 1) hd₂ hne hb₃, ?_, fun _ => rfl⟩
      simp
    · refine ⟨_, _, readSubstr_end hb₂ (Nat.le_refl 1) hd₂ hne hb₃, ?_, fun _ => rfl⟩
      simp
    · refine ⟨_, _, readSubstr_blanks (hb₂ b (by simp)) (hb₂ c (by simp)) _, ?_, ?_⟩
      · simp [hne]
      · simp [hne]

/-- **What is read from two runs of digits.** -/
theorem MajMinForm.parse (h : MajMinForm s w₁ d₁ w₂ d₂ w₃) (maj min : Unsigned) :
    ∃ ret maj' min', devfsParseMajMin (some s) false maj min = some (ret, maj', min') ∧
      (ret = 0 ↔ FewBlanks w₁ w₂ d₂ w₃) ∧
      (ret = 0 → maj' = BitVec.ofNat 32 (decimal digitOf d₁) ∧
        min' = BitVec.ofNat 32 (decimal digitOf d₂)) := by
  by_cases hlen : w₁.length ≤ 1
  · have hfirst : readSubstr s = (0, d₁.foldl numberStep 0, some (w₂ ++ (d₂ ++ w₃))) := by
      rw [h.str_eq]
      exact readSubstr_sep h.blank₁ hlen h.digit₁ _
    obtain ⟨ret, ubuf, hsecond, hret, hval⟩ := h.second
    rw [parse_first hfirst, hsecond, ← foldl_numberStep h.digit₁, ← foldl_numberStep h.digit₂]
    have hfew : ret = 0 ↔ FewBlanks w₁ w₂ d₂ w₃ := by
      rw [hret, FewBlanks, and_iff_right hlen]
    by_cases hzero : ret = 0
    · refine ⟨0, _, ubuf, by simp [hzero], ?_, fun _ => ⟨rfl, hval hzero⟩⟩
      rw [← hfew]
      exact iff_of_true rfl hzero
    · refine ⟨-3, d₁.foldl numberStep 0, 0, by simp [hzero], ?_, by simp⟩
      rw [← hfew]
      exact iff_of_false (by simp) hzero
  · refine ⟨-1, 0, 0, ?_, by simp [FewBlanks, hlen], by simp⟩
    have hfirst := h.first_blanks (Nat.lt_of_not_le hlen)
    simp [devfsParseMajMin, substr_str, hfirst]

/-- The digits of a string. -/
theorem MajMinForm.digits (h : MajMinForm s w₁ d₁ w₂ d₂ w₃) :
    (s.dropWhile isWhite).takeWhile isDigit = d₁ ∧
      ((((s.dropWhile isWhite).dropWhile isDigit).drop 1).dropWhile isWhite).takeWhile isDigit =
        d₂ := by
  obtain ⟨hs, hb₁, hd₁, hb₂, hd₂, hb₃⟩ := h
  have hhead : ∀ c ∈ (d₁ ++ 0x3A :: (w₂ ++ (d₂ ++ w₃))).head?, isWhite c = false :=
    digits_head hd₁ (by rintro c ⟨⟩; rfl)
  have hsep : ∀ c ∈ (0x3A :: (w₂ ++ (d₂ ++ w₃))).head?, isDigit c = false := by
    rintro c ⟨⟩
    rfl
  have hend : ∀ c ∈ w₃.head?, isDigit c = false := fun c hc =>
    isDigit_of_isWhite (hb₃ c (List.mem_of_mem_head? hc))
  rw [hs, dropWhile_run hb₁ hhead, takeWhile_run hd₁ hsep, dropWhile_run hd₁ hsep]
  refine ⟨rfl, ?_⟩
  show ((w₂ ++ (d₂ ++ w₃)).dropWhile isWhite).takeWhile isDigit = d₂
  by_cases hne : d₂ = []
  · subst hne
    have hnil : (w₂ ++ ([] ++ w₃)).dropWhile isWhite = [] := by
      rw [List.dropWhile_eq_nil_iff]
      intro c hc
      rcases List.mem_append.1 hc with hc | hc
      · exact hb₂ c hc
      · exact hb₃ c hc
    rw [hnil]
    rfl
  · have hhead₂ := head?_of_forall_mem hne (fun c hc => isWhite_of_isDigit (hd₂ c hc)) w₃
    rw [dropWhile_run hb₂ hhead₂, takeWhile_run hd₂ hend]

/-- A result is returned for every string. -/
theorem parse_total (s : List UInt8) (maj min : Unsigned) :
    ∃ ret maj' min', devfsParseMajMin (some s) false maj min = some (ret, maj', min') := by
  rcases hread : readSubstr s with ⟨ret, ubuf, saveptr⟩
  by_cases hret : ret = 0
  · subst hret
    cases saveptr with
    | none => exact ⟨-2, ubuf, 0, by simp [devfsParseMajMin, substr_str, hread]⟩
    | some r => exact ⟨_, _, _, parse_first hread⟩
  · exact ⟨-1, 0, 0, by simp [devfsParseMajMin, substr_str, hread, hret]⟩

/-- **Only such strings are accepted.** -/
theorem parse_zero {maj' min' : Unsigned}
    (h : devfsParseMajMin (some s) false maj min = some (0, maj', min')) :
    ∃ w₁ d₁ w₂ d₂ w₃, MajMinForm s w₁ d₁ w₂ d₂ w₃ := by
  by_cases hfirst : (readSubstr s).1 = 0
  · obtain ⟨w₁, d₁, r₁, hs, hb₁, hd₁, ⟨hnone, -⟩ | ⟨r, rfl, hsome⟩⟩ := substr_zero hfirst
    · simp [devfsParseMajMin, substr_str, hfirst, hnone] at h
    · have hread : readSubstr s = (0, (readSubstr s).2.1, some r) := by
        rw [← hfirst, ← hsome]
      rw [parse_first hread] at h
      by_cases hsecond : (readSubstr r).1 = 0
      · obtain ⟨w₂, d₂, w₃, hr, hb₂, hd₂, ⟨-, hb₃⟩ | ⟨r', -, hsome'⟩⟩ := substr_zero hsecond
        · rw [hr] at hs
          exact ⟨w₁, d₁, w₂, d₂, w₃, hs, hb₁, hd₁, hb₂, hd₂, hb₃⟩
        · simp [hsecond, hsome'] at h
      · simp [hsecond] at h
  · simp [devfsParseMajMin, substr_str, hfirst] at h

/-! ## The grammar -/

/-- `MAJOR:MINOR`. -/
def IsMajMin (s d₁ d₂ : List UInt8) : Prop :=
  (∃ w₁ w₂ w₃, MajMinForm s w₁ d₁ w₂ d₂ w₃) ∧
    (d₁ ≠ [] ∧ d₂ ≠ []) ∧ decimal digitOf d₁ < 2 ^ 32 ∧ decimal digitOf d₂ < 2 ^ 32

/-- **The string is read as the grammar says**: 0 is returned with both numbers for a
    string of the grammar, and another value for all other strings. -/
def ParsesMajMin (s : List UInt8) : Prop :=
  ∀ maj min, ∃ ret maj' min', devfsParseMajMin (some s) false maj min = some (ret, maj', min') ∧
    (ret = 0 ∧ (∃ d₁ d₂, IsMajMin s d₁ d₂ ∧ maj'.toNat = decimal digitOf d₁ ∧
        min'.toNat = decimal digitOf d₂) ∨
      ret ≠ 0 ∧ ¬ ∃ d₁ d₂, IsMajMin s d₁ d₂)

/-- There are only two numbers in a string. -/
theorem MajMinForm.isMajMin_iff (h : MajMinForm s w₁ d₁ w₂ d₂ w₃) {d d' : List UInt8} :
    IsMajMin s d d' ↔ (d = d₁ ∧ d' = d₂) ∧
      (d₁ ≠ [] ∧ d₂ ≠ []) ∧ decimal digitOf d₁ < 2 ^ 32 ∧ decimal digitOf d₂ < 2 ^ 32 := by
  constructor
  · rintro ⟨⟨v₁, v₂, v₃, hform⟩, hbounds⟩
    obtain ⟨hd₁, hd₂⟩ := h.digits
    obtain ⟨rfl, rfl⟩ := hform.digits
    rw [hd₁, hd₂] at hbounds ⊢
    exact ⟨⟨rfl, rfl⟩, hbounds⟩
  · rintro ⟨⟨rfl, rfl⟩, hbounds⟩
    exact ⟨⟨w₁, w₂, w₃, h⟩, hbounds⟩

/-- A string with two runs of digits. -/
theorem MajMinForm.parses (h : MajMinForm s w₁ d₁ w₂ d₂ w₃) :
    ParsesMajMin s ↔
      ((d₁ ≠ [] ∧ d₂ ≠ []) ∧ decimal digitOf d₁ < 2 ^ 32 ∧ decimal digitOf d₂ < 2 ^ 32 ↔
        FewBlanks w₁ w₂ d₂ w₃) := by
  constructor
  · intro hparses
    obtain ⟨ret, maj', min', hrun, hfew, -⟩ := h.parse 0 0
    obtain ⟨ret', maj'', min'', hrun', hsays⟩ := hparses 0 0
    obtain ⟨rfl, -⟩ := Prod.mk.inj (Option.some.inj (hrun.symm.trans hrun'))
    rw [← hfew]
    rcases hsays with ⟨hret, d, d', hmajmin, -⟩ | ⟨hret, hno⟩
    · exact iff_of_true (h.isMajMin_iff.1 hmajmin).2 hret
    · refine iff_of_false (fun hbounds => hno ⟨d₁, d₂, h.isMajMin_iff.2 ⟨⟨rfl, rfl⟩, hbounds⟩⟩)
        hret
  · intro hiff maj min
    obtain ⟨ret, maj', min', hrun, hfew, hval⟩ := h.parse maj min
    refine ⟨ret, maj', min', hrun, ?_⟩
    rw [← hfew] at hiff
    by_cases hret : ret = 0
    · obtain ⟨rfl, rfl⟩ := hval hret
      have hbounds := hiff.2 hret
      exact .inl ⟨hret, d₁, d₂, h.isMajMin_iff.2 ⟨⟨rfl, rfl⟩, hbounds⟩,
        toNat_word_iff.2 hbounds.2.1, toNat_word_iff.2 hbounds.2.2⟩
    · refine .inr ⟨hret, ?_⟩
      rintro ⟨d, d', hmajmin⟩
      exact hret (hiff.1 (h.isMajMin_iff.1 hmajmin).2)

/-- **When the grammar is met.** -/
theorem parsesMajMin_iff (s : List UInt8) :
    ParsesMajMin s ↔ ∀ w₁ d₁ w₂ d₂ w₃, MajMinForm s w₁ d₁ w₂ d₂ w₃ →
      ((d₁ ≠ [] ∧ d₂ ≠ []) ∧ decimal digitOf d₁ < 2 ^ 32 ∧ decimal digitOf d₂ < 2 ^ 32 ↔
        FewBlanks w₁ w₂ d₂ w₃) := by
  constructor
  · intro hparses w₁ d₁ w₂ d₂ w₃ h
    exact h.parses.1 hparses
  · intro hall
    by_cases hform : ∃ w₁ d₁ w₂ d₂ w₃, MajMinForm s w₁ d₁ w₂ d₂ w₃
    · obtain ⟨w₁, d₁, w₂, d₂, w₃, h⟩ := hform
      exact h.parses.2 (hall w₁ d₁ w₂ d₂ w₃ h)
    · intro maj min
      obtain ⟨ret, maj', min', hrun⟩ := parse_total s maj min
      refine ⟨ret, maj', min', hrun, .inr ⟨?_, ?_⟩⟩
      · rintro rfl
        exact hform (parse_zero hrun)
      · rintro ⟨d₁, d₂, ⟨w₁, w₂, w₃, h⟩, -⟩
        exact hform ⟨w₁, d₁, w₂, d₂, w₃, h⟩

/-- `8:  1`, with two blanks, is rejected. -/
theorem two_blanks_rejected : ¬ ParsesMajMin [0x38, 0x3A, 0x20, 0x20, 0x31] := by
  intro hparses
  have hform : MajMinForm [0x38, 0x3A, 0x20, 0x20, 0x31] [] [0x38] [0x20, 0x20] [0x31] [] :=
    ⟨rfl, nofun, by simp [isDigit], by simp [isWhite], by simp [isDigit], nofun⟩
  have hfew := (hform.parses.1 hparses).1 ⟨by simp, by decide, by decide⟩
  simp [FewBlanks] at hfew

end

end Fischstaebchen
