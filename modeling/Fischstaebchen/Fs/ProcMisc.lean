/-
  The lines of `/proc/misc` (`common/fs/proc_misc.c`).

  `_proc_misc_parse_line` moves one cursor over a line in four loops.  The second one
  reads the number, but takes any char from `*` to `?` for a digit.

  * `FormParts.parse`: what is read from a line with such a number.
  * `parseLine_no_form`: all other lines are rejected.
  * `readsGrammar_iff`: when a line is read as its grammar says.
-/
import Fischstaebchen.Fs.Fspath
import Fischstaebchen.Lib.Decimal
import Fischstaebchen.Lib.Scan

namespace Fischstaebchen

open Lib

/-- `unsigned`. -/
abbrev Unsigned := BitVec 32

/-- `struct proc_misc_chardev_info`; the name is a position in the line. -/
structure ChardevInfo where
  name : Option ℕ
  min : Unsigned

/-- `_proc_misc_parse_check_is_delimiter`. -/
def procMiscParseCheckIsDelimiter (c : UInt8) : ℤ :=
  if c = 0x0A ∨ c = 0x0D ∨ c = 0x20 then 0 else -1

/-- A delimiter. -/
def isDelimiter (c : UInt8) : Bool := procMiscParseCheckIsDelimiter c = 0

/-- A char that is taken for a digit; `char` is signed, so it is none from `0x80` on. -/
def isNumberChar (c : UInt8) : Bool := 0x29 < c && c < 0x40

/-- The first loop of `_proc_misc_parse_line`. -/
def skipDelimiters (line : Block UInt8) (lineLen : ℕ) : ℕ → ℕ → Option ℕ
  | 0, _ => none
  | fuel + 1, iter =>
    if iter < lineLen then do
      let c ← line.load iter
      if isDelimiter c then skipDelimiters line lineLen fuel (iter + 1) else some iter
    else some iter

/-- How a char is added to the number. -/
def numberStep (min : Unsigned) (c : UInt8) : Unsigned :=
  min * 10 + (BitVec.ofNat 32 c.toNat - 0x30)

/-- The second loop: the cursor and the number. -/
def readNumber (line : Block UInt8) (lineLen : ℕ) : ℕ → ℕ → Unsigned → Option (ℕ × Unsigned)
  | 0, _, _ => none
  | fuel + 1, iter, min =>
    if iter < lineLen then do
      let c ← line.load iter
      if isNumberChar c then
        readNumber line lineLen fuel (iter + 1) (numberStep min c)
      else some (iter, min)
    else some (iter, min)

/-- The third loop, which runs at least once: the line and the cursor. -/
def cutDelimiters (lineLen : ℕ) : ℕ → Block UInt8 → ℕ → Option (Block UInt8 × ℕ)
  | 0, _, _ => none
  | fuel + 1, line, iter => do
    let line ← line.store iter 0
    let iter := iter + 1
    if iter < lineLen then do
      let c ← line.load iter
      if isDelimiter c then cutDelimiters lineLen fuel line iter else some (line, iter)
    else some (line, iter)

/-- The last loop. -/
def cutName (lineLen : ℕ) : ℕ → Block UInt8 → ℕ → Option (Block UInt8)
  | 0, _, _ => none
  | fuel + 1, line, iter =>
    if iter < lineLen then do
      let c ← line.load iter
      if isDelimiter c then line.store iter 0 else cutName lineLen fuel line (iter + 1)
    else some line

/-- `_proc_misc_parse_line`: the return code, the line and the info; `none` if a cell
    is accessed that does not exist. -/
def procMiscParseLine (line : Block UInt8) (lineLen : ℕ) (info : ChardevInfo) :
    Option (ℤ × Block UInt8 × ChardevInfo) := do
  let iter ← skipDelimiters line lineLen (lineLen + 1) 0
  let r ← readNumber line lineLen (lineLen + 1) iter 0
  let iter := r.1
  if iter ≥ lineLen then some (-1, line, info)
  else do
    let c ← line.load iter
    if procMiscParseCheckIsDelimiter c ≠ 0 then some (-1, line, info)
    else do
      let cut ← cutDelimiters lineLen (lineLen + 1) line iter
      let line := cut.1
      let iter := cut.2
      if iter ≥ lineLen then some (-1, line, info)
      else do
        let info := ⟨some iter, r.2⟩
        let line ← cutName lineLen (lineLen + 1) line iter
        some (0, line, info)

/-! ## The loops -/

section
variable {done tail line : Block UInt8} {w r : List UInt8} {n i fuel : ℕ}

theorem skipDelimiters_eq (h : Cursor done tail (w ++ r) line n i)
    (hw : ∀ c ∈ w, isDelimiter c = true) (hr : ∀ c ∈ r.head?, isDelimiter c = false)
    (hfuel : w.length < fuel) :
    skipDelimiters line n fuel i = some (i + w.length) ∧
      Cursor (done ++ w.map some) tail r line n (i + w.length) := by
  induction w generalizing done i fuel with
  | nil =>
    obtain ⟨fuel, rfl⟩ := Nat.exists_eq_add_one.2 (Nat.zero_lt_of_lt hfuel)
    refine ⟨?_, by simpa using h⟩
    cases r with
    | nil => rw [skipDelimiters, if_neg h.not_lt]; rfl
    | cons c r =>
      have hc := hr c rfl
      simp [skipDelimiters, h.lt, h.load, hc]
  | cons c w ih =>
    obtain ⟨fuel, rfl⟩ := Nat.exists_eq_add_one.2 (Nat.zero_lt_of_lt hfuel)
    have hc := hw c List.mem_cons_self
    obtain ⟨hrun, hcur⟩ := ih h.next (fun b hb => hw b (List.mem_cons_of_mem c hb))
      (Nat.lt_of_succ_lt_succ hfuel)
    have hlen : i + 1 + w.length = i + (c :: w).length := by simp; omega
    rw [hlen] at hrun hcur
    refine ⟨?_, by simpa using hcur⟩
    have hlt : i < n := Cursor.lt h
    have hload : line.load i = some c := Cursor.load h
    simp [skipDelimiters, hlt, hload, hc, hrun]

theorem readNumber_eq (h : Cursor done tail (w ++ r) line n i)
    (hw : ∀ c ∈ w, isNumberChar c = true) (hr : ∀ c ∈ r.head?, isNumberChar c = false)
    (hfuel : w.length < fuel) (min : Unsigned) :
    readNumber line n fuel i min = some (i + w.length, w.foldl numberStep min) ∧
      Cursor (done ++ w.map some) tail r line n (i + w.length) := by
  induction w generalizing done i fuel min with
  | nil =>
    obtain ⟨fuel, rfl⟩ := Nat.exists_eq_add_one.2 (Nat.zero_lt_of_lt hfuel)
    refine ⟨?_, by simpa using h⟩
    cases r with
    | nil => rw [readNumber, if_neg h.not_lt]; rfl
    | cons c r =>
      have hc := hr c rfl
      simp [readNumber, h.lt, h.load, hc]
  | cons c w ih =>
    obtain ⟨fuel, rfl⟩ := Nat.exists_eq_add_one.2 (Nat.zero_lt_of_lt hfuel)
    have hc := hw c List.mem_cons_self
    obtain ⟨hrun, hcur⟩ := ih h.next (fun b hb => hw b (List.mem_cons_of_mem c hb))
      (Nat.lt_of_succ_lt_succ hfuel) (numberStep min c)
    have hlen : i + 1 + w.length = i + (c :: w).length := by simp; omega
    rw [hlen] at hrun hcur
    refine ⟨?_, by simpa using hcur⟩
    have hlt : i < n := Cursor.lt h
    have hload : line.load i = some c := Cursor.load h
    simp [readNumber, hlt, hload, hc, hrun]

theorem cutDelimiters_eq {c : UInt8} (h : Cursor done tail (c :: w ++ r) line n i)
    (hw : ∀ c ∈ w, isDelimiter c = true) (hr : ∀ c ∈ r.head?, isDelimiter c = false)
    (hfuel : w.length < fuel) :
    ∃ line', cutDelimiters n fuel line i = some (line', i + (c :: w).length) ∧
      Cursor (done ++ (c :: w).map fun _ => some 0) tail r line' n (i + (c :: w).length) := by
  induction w generalizing done i fuel line c with
  | nil =>
    obtain ⟨fuel, rfl⟩ := Nat.exists_eq_add_one.2 (Nat.zero_lt_of_lt hfuel)
    obtain ⟨line', hstore, hcur⟩ := Cursor.store h 0
    refine ⟨line', ?_, by simpa using hcur⟩
    cases r with
    | nil =>
      have hend := hcur.not_lt
      simp [cutDelimiters, hstore, hend]
    | cons c r =>
      have hc := hr c rfl
      simp [cutDelimiters, hstore, hcur.lt, hcur.load, hc]
  | cons d w ih =>
    obtain ⟨fuel, rfl⟩ := Nat.exists_eq_add_one.2 (Nat.zero_lt_of_lt hfuel)
    obtain ⟨line₁, hstore, hcur⟩ := Cursor.store h 0
    have hd := hw d List.mem_cons_self
    obtain ⟨line', hrun, hcur'⟩ := ih hcur (fun b hb => hw b (List.mem_cons_of_mem d hb))
      (Nat.lt_of_succ_lt_succ hfuel)
    have hlen : i + 1 + (d :: w).length = i + (c :: d :: w).length := by simp; omega
    rw [hlen] at hrun hcur'
    refine ⟨line', ?_, by simpa using hcur'⟩
    have hlt : i + 1 < n := Cursor.lt hcur
    have hload : line₁.load (i + 1) = some d := Cursor.load hcur
    simp [cutDelimiters, hstore, hlt, hload, hd, hrun]

/-- What follows the name, with a NUL in place of the first delimiter. -/
def cutAt : List UInt8 → Block UInt8
  | [] => []
  | _ :: r => some 0 :: r.map some

theorem cutName_eq (h : Cursor done tail (w ++ r) line n i)
    (hw : ∀ c ∈ w, isDelimiter c = false) (hr : ∀ c ∈ r.head?, isDelimiter c = true)
    (hfuel : w.length < fuel) :
    cutName n fuel line i = some (done ++ w.map some ++ cutAt r ++ tail) := by
  induction w generalizing done i fuel with
  | nil =>
    obtain ⟨fuel, rfl⟩ := Nat.exists_eq_add_one.2 (Nat.zero_lt_of_lt hfuel)
    cases r with
    | nil =>
      rw [cutName, if_neg h.not_lt, h.buf_eq]
      simp [cutAt]
    | cons c r =>
      have hc := hr c rfl
      obtain ⟨line', hstore, hcur⟩ := Cursor.store h 0
      simp [cutName, h.lt, h.load, hc, hstore, hcur.buf_eq, cutAt]
  | cons c w ih =>
    obtain ⟨fuel, rfl⟩ := Nat.exists_eq_add_one.2 (Nat.zero_lt_of_lt hfuel)
    have hc := hw c List.mem_cons_self
    have hrun := ih h.next (fun b hb => hw b (List.mem_cons_of_mem c hb))
      (Nat.lt_of_succ_lt_succ hfuel)
    have hlt : i < n := Cursor.lt h
    have hload : line.load i = some c := Cursor.load h
    simp [cutName, hlt, hload, hc, hrun]

end

/-! ## Lines of a form -/

/-- The parts of a line with a number, whose chars have the property `p`, and a name. -/
structure FormParts (p : UInt8 → Bool) (l before number between name after : List UInt8) :
    Prop where
  line_eq : l = before ++ (number ++ (between ++ (name ++ after)))
  before_delimiter : ∀ c ∈ before, isDelimiter c = true
  number_ne : number ≠ []
  number_char : ∀ c ∈ number, p c = true
  between_ne : between ≠ []
  between_delimiter : ∀ c ∈ between, isDelimiter c = true
  name_ne : name ≠ []
  name_char : ∀ c ∈ name, isDelimiter c = false
  after_delimiter : ∀ c ∈ after.head?, isDelimiter c = true

/-- A line with such a number and a name. -/
def HasForm (p : UInt8 → Bool) (l number name : List UInt8) : Prop :=
  ∃ before between after, FormParts p l before number between name after

section
variable {l before number between name after r : List UInt8} {p : UInt8 → Bool}

theorem isDelimiter_iff {c : UInt8} :
    isDelimiter c = true ↔ c = 0x0A ∨ c = 0x0D ∨ c = 0x20 := by
  simp [isDelimiter, procMiscParseCheckIsDelimiter]

theorem isDelimiter_of_isNumberChar {c : UInt8} (h : isNumberChar c = true) :
    isDelimiter c = false := by
  by_contra hd
  rcases isDelimiter_iff.1 (Bool.eq_true_of_not_eq_false hd) with rfl | rfl | rfl
  · cases h
  · cases h
  · cases h

theorem head?_of_forall_mem {q : UInt8 → Prop} {w : List UInt8} (hne : w ≠ [])
    (hw : ∀ c ∈ w, q c) (r : List UInt8) : ∀ c ∈ (w ++ r).head?, q c := by
  obtain ⟨d, w, rfl⟩ := List.exists_cons_of_ne_nil hne
  rintro c ⟨⟩
  exact hw d List.mem_cons_self

/-- The loops up to the number. -/
theorem parseLine_number (hl : l = before ++ (number ++ r))
    (hbefore : ∀ c ∈ before, isDelimiter c = true)
    (hnumber : ∀ c ∈ number, isNumberChar c = true)
    (hhead : ∀ c ∈ (number ++ r).head?, isDelimiter c = false)
    (hr : ∀ c ∈ r.head?, isNumberChar c = false) (tail : Block UInt8) :
    skipDelimiters (l.map some ++ tail) l.length (l.length + 1) 0 = some before.length ∧
      readNumber (l.map some ++ tail) l.length (l.length + 1) before.length 0 =
        some (before.length + number.length, number.foldl numberStep 0) ∧
      Cursor (before.map some ++ number.map some) tail r (l.map some ++ tail) l.length
        (before.length + number.length) := by
  have hstart : Cursor [] tail (before ++ (number ++ r)) (l.map some ++ tail) l.length 0 :=
    hl ▸ Cursor.start l tail
  have hlen : l.length = before.length + (number.length + r.length) := by
    rw [hl]
    simp
  obtain ⟨hskip, hcur⟩ := skipDelimiters_eq hstart hbefore hhead
    (show before.length < l.length + 1 by omega)
  rw [Nat.zero_add] at hskip hcur
  obtain ⟨hread, hcur'⟩ := readNumber_eq hcur hnumber hr
    (show number.length < l.length + 1 by omega) 0
  exact ⟨hskip, hread, hcur'⟩

/-- What is left when a number has been read that ends with a delimiter. -/
theorem parseLine_cut {d : UInt8} {ds : List UInt8}
    (hl : l = before ++ (number ++ (d :: ds ++ r)))
    (hbefore : ∀ c ∈ before, isDelimiter c = true)
    (hnumber : ∀ c ∈ number, isNumberChar c = true)
    (hhead : ∀ c ∈ (number ++ (d :: ds ++ r)).head?, isDelimiter c = false)
    (hdelimiters : ∀ c ∈ d :: ds, isDelimiter c = true)
    (hr : ∀ c ∈ r.head?, isDelimiter c = false) (tail : Block UInt8) (info : ChardevInfo) :
    ∃ line', Cursor (before.map some ++ number.map some ++ (d :: ds).map fun _ => some 0) tail r
        line' l.length (before.length + number.length + (d :: ds).length) ∧
      procMiscParseLine (l.map some ++ tail) l.length info =
        if before.length + number.length + (d :: ds).length ≥ l.length then some (-1, line', info)
        else (cutName l.length (l.length + 1) line'
            (before.length + number.length + (d :: ds).length)).map fun line =>
          (0, line, ⟨some (before.length + number.length + (d :: ds).length),
            number.foldl numberStep 0⟩) := by
  have hd : isDelimiter d = true := hdelimiters d List.mem_cons_self
  have hstop : ∀ c ∈ (d :: ds ++ r).head?, isNumberChar c = false := by
    rintro c ⟨⟩
    by_contra hn
    rw [isDelimiter_of_isNumberChar (Bool.eq_true_of_not_eq_false hn)] at hd
    cases hd
  obtain ⟨hskip, hread, hcur⟩ := parseLine_number hl hbefore hnumber hhead hstop tail
  have hlen : l.length = before.length + (number.length + (ds.length + 1 + r.length)) := by
    rw [hl]
    simp
    omega
  obtain ⟨line', hcut, hcur'⟩ := cutDelimiters_eq hcur
    (fun c hc => hdelimiters c (List.mem_cons_of_mem d hc)) hr
    (show ds.length < l.length + 1 by omega)
  refine ⟨line', hcur', ?_⟩
  have hlt : before.length + number.length < l.length := Cursor.lt hcur
  have hload : Block.load (l.map some ++ tail) (before.length + number.length) = some d :=
    Cursor.load hcur
  have hdel : ¬ procMiscParseCheckIsDelimiter d ≠ 0 := not_not.2 (of_decide_eq_true hd)
  rw [procMiscParseLine, hskip]
  simp only [Option.bind_eq_bind, Option.bind_some, hread]
  rw [if_neg (Nat.not_le.2 hlt), hload, Option.bind_some, if_neg hdel, hcut, Option.bind_some]
  dsimp only
  congr 1
  cases cutName l.length (l.length + 1) line'
    (before.length + number.length + (d :: ds).length) <;> rfl

/-- **A line with a number and a name** is read. -/
theorem FormParts.parse (h : FormParts isNumberChar l before number between name after)
    (tail : Block UInt8) (info : ChardevInfo) :
    procMiscParseLine (l.map some ++ tail) l.length info =
      some (0, before.map some ++ number.map some ++ between.map (fun _ => some 0) ++
          name.map some ++ cutAt after ++ tail,
        ⟨some (before.length + number.length + between.length), number.foldl numberStep 0⟩) := by
  have hhead : ∀ c ∈ (number ++ (between ++ (name ++ after))).head?, isDelimiter c = false :=
    head?_of_forall_mem h.number_ne
      (fun c hc => isDelimiter_of_isNumberChar (h.number_char c hc)) _
  have hname := head?_of_forall_mem h.name_ne h.name_char after
  have hdelimiters := h.between_delimiter
  have hl := h.line_eq
  obtain ⟨d, ds, hbetween⟩ := List.exists_cons_of_ne_nil h.between_ne
  rw [hbetween] at hl hhead hdelimiters ⊢
  obtain ⟨line', hcur, hrun⟩ :=
    parseLine_cut hl h.before_delimiter h.number_char hhead hdelimiters hname tail info
  have hlen : l.length = before.length + (number.length + ((d :: ds).length +
      (name.length + after.length))) := by
    rw [hl]
    simp
    omega
  have hend := cutName_eq hcur h.name_char h.after_delimiter
    (show name.length < l.length + 1 by omega)
  have hpos := List.length_pos_iff.2 h.name_ne
  rw [hrun, if_neg (by omega), hend]
  rfl

/-- A line is a run of delimiters, a run of number chars, a run of delimiters and the rest. -/
theorem exists_runs (p : UInt8 → Bool) (l : List UInt8) :
    ∃ before number between rest, l = before ++ (number ++ (between ++ rest)) ∧
      (∀ c ∈ before, isDelimiter c = true) ∧ (∀ c ∈ number, p c = true) ∧
      (∀ c ∈ between, isDelimiter c = true) ∧
      (∀ c ∈ (number ++ (between ++ rest)).head?, isDelimiter c = false) ∧
      (∀ c ∈ (between ++ rest).head?, p c = false) ∧
      ∀ c ∈ rest.head?, isDelimiter c = false := by
  let l₁ := l.dropWhile isDelimiter
  let l₂ := l₁.dropWhile p
  have h₁ : l₁.takeWhile p ++ l₂ = l₁ := List.takeWhile_append_dropWhile
  have h₂ : l₂.takeWhile isDelimiter ++ l₂.dropWhile isDelimiter = l₂ :=
    List.takeWhile_append_dropWhile
  refine ⟨l.takeWhile isDelimiter, l₁.takeWhile p, l₂.takeWhile isDelimiter,
    l₂.dropWhile isDelimiter, ?_, fun c hc => List.mem_takeWhile_imp hc,
    fun c hc => List.mem_takeWhile_imp hc, fun c hc => List.mem_takeWhile_imp hc, ?_, ?_,
    head_dropWhile_run l₂⟩
  · rw [h₂, h₁]
    exact List.takeWhile_append_dropWhile.symm
  · rw [h₂, h₁]
    exact head_dropWhile_run l
  · rw [h₂]
    exact head_dropWhile_run l₁

/-- A name ends before the first delimiter. -/
theorem HasForm.of_rest (hl : l = before ++ (number ++ (between ++ r)))
    (hbefore : ∀ c ∈ before, isDelimiter c = true) (hne : number ≠ [])
    (hnumber : ∀ c ∈ number, p c = true) (hbne : between ≠ [])
    (hbetween : ∀ c ∈ between, isDelimiter c = true) (hr : r ≠ [])
    (hhead : ∀ c ∈ r.head?, isDelimiter c = false) : ∃ name, HasForm p l number name := by
  refine ⟨r.takeWhile fun c => !isDelimiter c, before, between,
    r.dropWhile fun c => !isDelimiter c, ?_, hbefore, hne, hnumber, hbne, hbetween, ?_, ?_, ?_⟩
  · rw [List.takeWhile_append_dropWhile]
    exact hl
  · obtain ⟨d, ds, rfl⟩ := List.exists_cons_of_ne_nil hr
    have hd := hhead d rfl
    simp [hd]
  · intro c hc
    have h := List.mem_takeWhile_imp hc
    simpa using h
  · intro c hc
    have h := head_dropWhile_run (p := fun c => !isDelimiter c) r c hc
    simpa using h

/-- **All other lines** are rejected. -/
theorem parseLine_no_form (h : ¬ ∃ number name, HasForm isNumberChar l number name)
    (info : ChardevInfo) :
    ∃ cells : Block UInt8, cells.length = l.length ∧
      ∀ tail, procMiscParseLine (l.map some ++ tail) l.length info =
        some (-1, cells ++ tail, info) := by
  obtain ⟨before, number, between, rest, hl, hbefore, hnumber, hbetween, hhead, hstop,
    hrest⟩ := exists_runs isNumberChar l
  have hloops := parseLine_number hl hbefore hnumber hhead hstop
  cases between with
  | nil =>
    refine ⟨l.map some, by simp, fun tail => ?_⟩
    obtain ⟨hskip, hread, hcur⟩ := hloops tail
    rw [procMiscParseLine, hskip]
    simp only [Option.bind_eq_bind, Option.bind_some, hread]
    cases rest with
    | nil => rw [if_pos (Nat.le_of_not_lt hcur.not_lt)]
    | cons c rest =>
      have hc : procMiscParseCheckIsDelimiter c ≠ 0 := of_decide_eq_false (hrest c rfl)
      have hlt : before.length + number.length < l.length := Cursor.lt hcur
      have hload : Block.load (l.map some ++ tail) (before.length + number.length) = some c :=
        Cursor.load hcur
      rw [if_neg (Nat.not_le.2 hlt), hload, Option.bind_some, if_pos hc]
  | cons d ds =>
    have hd : isDelimiter d = true := hbetween d List.mem_cons_self
    have hnum : number ≠ [] := by
      rintro rfl
      have hd' := hhead d rfl
      rw [hd] at hd'
      cases hd'
    have hnil : rest = [] := by
      by_contra hne
      exact h ⟨number, HasForm.of_rest hl hbefore hnum hnumber (List.cons_ne_nil d ds) hbetween
        hne hrest⟩
    subst hnil
    have hlen : l.length = before.length + (number.length + (ds.length + 1)) := by
      rw [hl]
      simp
    refine ⟨before.map some ++ number.map some ++ (d :: ds).map (fun _ => some 0), ?_,
      fun tail => ?_⟩
    · simp [hlen]
    obtain ⟨line', hcur, hrun⟩ :=
      parseLine_cut hl hbefore hnumber hhead hbetween hrest tail info
    rw [hrun, if_pos (Nat.le_of_not_lt hcur.not_lt), hcur.buf_eq]
    simp

/-! ## Which number and which name -/

theorem HasForm.mono {q : UInt8 → Bool} (hpq : ∀ c, p c = true → q c = true)
    (h : HasForm p l number name) : HasForm q l number name := by
  obtain ⟨before, between, after, hparts⟩ := h
  exact ⟨before, between, after,
    { hparts with number_char := fun c hc => hpq c (hparts.number_char c hc) }⟩

/-- The number and the name are found by the runs. -/
theorem HasForm.runs (hp : ∀ c, p c = true → isDelimiter c = false)
    (h : HasForm p l number name) :
    (l.dropWhile isDelimiter).takeWhile p = number ∧
      (((l.dropWhile isDelimiter).dropWhile p).dropWhile isDelimiter).takeWhile
        (fun c => !isDelimiter c) = name := by
  obtain ⟨before, between, after, hparts⟩ := h
  have hnumber : ∀ c ∈ (number ++ (between ++ (name ++ after))).head?, isDelimiter c = false :=
    head?_of_forall_mem hparts.number_ne (fun c hc => hp c (hparts.number_char c hc)) _
  have hbetween : ∀ c ∈ (between ++ (name ++ after)).head?, p c = false := by
    refine head?_of_forall_mem hparts.between_ne (fun c hc => ?_) _
    by_contra hn
    have hd := hp c (Bool.eq_true_of_not_eq_false hn)
    rw [hparts.between_delimiter c hc] at hd
    cases hd
  have hname : ∀ c ∈ (name ++ after).head?, isDelimiter c = false :=
    head?_of_forall_mem hparts.name_ne hparts.name_char _
  have hafter : ∀ c ∈ after.head?, (!isDelimiter c) = false := by
    intro c hc
    rw [hparts.after_delimiter c hc]
    rfl
  have hchars : ∀ c ∈ name, (!isDelimiter c) = true := by
    intro c hc
    rw [hparts.name_char c hc]
    rfl
  rw [hparts.line_eq, dropWhile_run hparts.before_delimiter hnumber,
    takeWhile_run hparts.number_char hbetween, dropWhile_run hparts.number_char hbetween,
    dropWhile_run hparts.between_delimiter hname, takeWhile_run hchars hafter]
  exact ⟨rfl, rfl⟩

/-- There is only one number and one name. -/
theorem HasForm.unique {number' name' : List UInt8} (hp : ∀ c, p c = true → isDelimiter c = false)
    (h : HasForm p l number name) (h' : HasForm p l number' name') :
    number = number' ∧ name = name' := by
  obtain ⟨hnumber, hname⟩ := h.runs hp
  obtain ⟨hnumber', hname'⟩ := h'.runs hp
  exact ⟨hnumber.symm.trans hnumber', hname.symm.trans hname'⟩

theorem isNumberChar_of_isDigit (c : UInt8) (h : isDigit c = true) : isNumberChar c = true := by
  obtain ⟨hle, hge⟩ := isDigit_iff.1 h
  simp [isNumberChar, UInt8.lt_iff_toNat_lt]
  omega

/-- The number of a line with digits only. -/
theorem foldl_numberStep (h : ∀ c ∈ number, isDigit c = true) :
    number.foldl numberStep 0 = BitVec.ofNat 32 (decimal digitOf number) := by
  refine foldl_decimal_word fun c hc n => ?_
  have hdigit := ofNat_digitOf (w := 32) (h c hc)
  rw [numberStep, BitVec.mul_comm]
  exact congrArg (10#32 * n + ·) hdigit

/-! ## The grammar -/

/-- A line of `/proc/misc`. -/
def IsMiscLine (l digits name : List UInt8) : Prop :=
  HasForm isDigit l digits name ∧ decimal digitOf digits < 2 ^ 32

/-- What `info` says about the line, which is followed by a NUL. -/
def ChardevInfo.Says (info : ChardevInfo) (line : Block UInt8) (min : ℕ) (name : List UInt8) :
    Prop :=
  info.min.toNat = min ∧ ∃ pos, info.name = some pos ∧
    cstring ((line ++ [some 0]).drop pos) = some name

/-- **The line is read as the grammar says**: no cell behind the line is accessed,
    0 is returned for a line of the grammar, with its number and its name, and -1 for
    all other lines. -/
def ReadsGrammar (l : List UInt8) : Prop :=
  ∀ info, ∃ ret line info', line.length = l.length ∧
    (∀ tail, procMiscParseLine (l.map some ++ tail) l.length info =
      some (ret, line ++ tail, info')) ∧
    (ret = 0 ∧ (∃ digits name, IsMiscLine l digits name ∧
        info'.Says line (decimal digitOf digits) name) ∨
      ret = -1 ∧ ¬ ∃ digits name, IsMiscLine l digits name)

theorem cutAt_terminated (r : List UInt8) : ∃ rest, cutAt r ++ [some 0] = some 0 :: rest := by
  cases r with
  | nil => exact ⟨[], rfl⟩
  | cons c r => exact ⟨r.map some ++ [some 0], rfl⟩

/-- The name of the info is a string, which ends at the first NUL. -/
theorem cstring_name (done : Block UInt8) (name after : List UInt8) :
    cstring ((done ++ name.map some ++ cutAt after ++ [some 0]).drop done.length) = some name ↔
      0 ∉ name := by
  obtain ⟨rest, hrest⟩ := cutAt_terminated after
  rw [List.append_assoc, hrest, List.append_assoc, List.drop_left]
  constructor
  · intro hname
    obtain ⟨cells, -, hnul⟩ := exists_of_cstring hname
    exact hnul
  · intro hnul
    exact cstring_terminated hnul rest

/-- A line with a number and a name is read as the grammar says if its number has digits
    only, does not overflow, and the name has no NUL. -/
theorem HasForm.reads (h : HasForm isNumberChar l number name) :
    ReadsGrammar l ↔
      (∀ c ∈ number, isDigit c = true) ∧ decimal digitOf number < 2 ^ 32 ∧ 0 ∉ name := by
  obtain ⟨before, between, after, hparts⟩ := h
  let done : Block UInt8 :=
    before.map some ++ number.map some ++ between.map (fun _ => some 0)
  have hpos : before.length + number.length + between.length = done.length := by
    simp [done, Nat.add_assoc]
  have hrun : ∀ tail info, procMiscParseLine (l.map some ++ tail) l.length info =
      some (0, done ++ name.map some ++ cutAt after ++ tail,
        ⟨some done.length, number.foldl numberStep 0⟩) := by
    intro tail info
    rw [← hpos]
    exact hparts.parse tail info
  constructor
  · intro hreads
    obtain ⟨ret, line, info', -, hret, hsays⟩ := hreads ⟨none, 0⟩
    have heq := Option.some.inj ((hrun [] ⟨none, 0⟩).symm.trans (hret []))
    simp only [List.append_nil, Prod.mk.injEq] at heq
    obtain ⟨rfl, rfl, rfl⟩ := heq
    rcases hsays with ⟨-, digits, name', hmisc, hmin, pos, hname, hstr⟩ | ⟨hfail, -⟩
    · obtain ⟨rfl, rfl⟩ := HasForm.unique (fun _ => isDelimiter_of_isNumberChar)
        ⟨before, between, after, hparts⟩ (hmisc.1.mono isNumberChar_of_isDigit)
      obtain rfl : done.length = pos := Option.some.inj hname
      obtain ⟨⟨_, _, _, hdigits⟩, hlt⟩ := hmisc
      exact ⟨hdigits.number_char, hlt, (cstring_name done name after).1 hstr⟩
    · cases hfail
  · rintro ⟨hdigits, hlt, hnul⟩ info
    refine ⟨0, done ++ name.map some ++ cutAt after,
      ⟨some done.length, number.foldl numberStep 0⟩, ?_, fun tail => hrun tail info,
      .inl ⟨rfl, number, name, ⟨⟨before, between, after, { hparts with number_char := hdigits }⟩,
        hlt⟩, ?_, done.length, rfl, (cstring_name done name after).2 hnul⟩⟩
    · rw [hparts.line_eq]
      cases after with
      | nil => simp [done, cutAt]
      | cons c after => simp [done, cutAt]
    · rw [foldl_numberStep hdigits]
      exact toNat_word_iff.2 hlt

/-- **When the grammar is met.** -/
theorem readsGrammar_iff (l : List UInt8) :
    ReadsGrammar l ↔ ∀ number name, HasForm isNumberChar l number name →
      (∀ c ∈ number, isDigit c = true) ∧ decimal digitOf number < 2 ^ 32 ∧ 0 ∉ name := by
  constructor
  · intro hreads number name hform
    exact hform.reads.1 hreads
  · intro hforms
    by_cases hform : ∃ number name, HasForm isNumberChar l number name
    · obtain ⟨number, name, hform⟩ := hform
      exact hform.reads.2 (hforms number name hform)
    · intro info
      obtain ⟨line, hlen, hrun⟩ := parseLine_no_form hform info
      refine ⟨-1, line, info, hlen, hrun, .inr ⟨rfl, ?_⟩⟩
      rintro ⟨digits, name, hmisc, -⟩
      exact hform ⟨digits, name, hmisc.mono isNumberChar_of_isDigit⟩

/-- `*5 x` is read as a line with the number `4294967241`. -/
theorem star_read : ¬ ReadsGrammar [0x2A, 0x35, 0x20, 0x78] := by
  intro hreads
  have hform : HasForm isNumberChar [0x2A, 0x35, 0x20, 0x78] [0x2A, 0x35] [0x78] :=
    ⟨[], [0x20], [], rfl, nofun, by simp,
      List.forall_mem_cons.2 ⟨rfl, List.forall_mem_singleton.2 rfl⟩, by simp,
      List.forall_mem_singleton.2 rfl, by simp, List.forall_mem_singleton.2 rfl, nofun⟩
  have hdigit := (hform.reads.1 hreads).1 0x2A List.mem_cons_self
  cases hdigit

end

end Fischstaebchen
