/-
  Scanning a list or a buffer.

  * `takeWhile_run`, `dropWhile_run`: a run of elements with a property, which ends
    before an element without it.
  * `filter_eq_append_iff`: when a stronger test loses nothing.
  * `find?_eq_iff`: when a search with a weaker test finds the same.
  * `upTo p l`: what a search looks at.  `upTo_flatMap_filter_iff`: when a search
    through some of the groups looks at the same as the one through all of them.
  * `Cursor`: a cursor in a line; reading (`Cursor.load`), going on (`Cursor.next`)
    and writing (`Cursor.store`).
-/
import Fischstaebchen.Lib.Alloc

namespace Lib

variable {α : Type}

section
variable {p : α → Bool} {w r : List α}

/-- Where a run of elements with a property ends. -/
theorem takeWhile_run (hw : ∀ a ∈ w, p a = true) (hr : ∀ a ∈ r.head?, p a = false) :
    (w ++ r).takeWhile p = w := by
  induction w with
  | nil =>
    cases r with
    | nil => rfl
    | cons a r =>
      have ha := hr a rfl
      simp [ha]
  | cons a w ih =>
    rw [List.cons_append, List.takeWhile_cons_of_pos (hw a List.mem_cons_self),
      ih fun b hb => hw b (List.mem_cons_of_mem a hb)]

theorem dropWhile_run (hw : ∀ a ∈ w, p a = true) (hr : ∀ a ∈ r.head?, p a = false) :
    (w ++ r).dropWhile p = r := by
  have h := List.takeWhile_append_dropWhile (p := p) (l := w ++ r)
  rw [takeWhile_run hw hr] at h
  exact List.append_cancel_left h

/-- What follows a run. -/
theorem head_dropWhile_run (l : List α) : ∀ a ∈ (l.dropWhile p).head?, p a = false := by
  induction l with
  | nil => exact nofun
  | cons b l ih =>
    by_cases hb : p b = true
    · rw [List.dropWhile_cons_of_pos hb]
      exact ih
    · rw [List.dropWhile_cons_of_neg hb]
      rintro a ⟨⟩
      exact Bool.eq_false_of_not_eq_true hb

/-- **A stronger test** and a shorter list lose nothing if and only if both tests agree and
    nothing is left. -/
theorem filter_eq_append_iff {p q : α → Bool} {l r : List α}
    (hpq : ∀ a ∈ l, p a = true → q a = true) :
    l.filter p = l.filter q ++ r ↔ (∀ a ∈ l, q a = true → p a = true) ∧ r = [] := by
  constructor
  · intro h
    have hle : (l.filter p).length ≤ (l.filter q).length := by
      rw [← List.countP_eq_length_filter, ← List.countP_eq_length_filter]
      exact List.countP_mono_left hpq
    have hr : r = [] := by
      rw [h, List.length_append] at hle
      exact List.eq_nil_of_length_eq_zero (by omega)
    refine ⟨fun a ha hq => ?_, hr⟩
    have hmem : a ∈ l.filter p := by
      rw [h, hr, List.append_nil]
      exact List.mem_filter.2 ⟨ha, hq⟩
    exact (List.mem_filter.1 hmem).2
  · rintro ⟨hqp, rfl⟩
    rw [List.append_nil]
    refine List.filter_congr fun a ha => ?_
    exact Bool.eq_iff_iff.2 ⟨hpq a ha, hqp a ha⟩

/-- **A search with a weaker test** finds the same if and only if nothing before it passes
    the weaker test. -/
theorem find?_eq_iff {p q : α → Bool} (hpq : ∀ a, p a = true → q a = true) (l : List α) :
    l.find? q = l.find? p ↔ ∀ a ∈ l.takeWhile (fun a => !p a), q a = false := by
  induction l with
  | nil => simp
  | cons a l ih =>
    by_cases hp : p a = true
    · have hq := hpq a hp
      simp [hp, hq]
    · by_cases hq : q a = true
      · have hne : ¬ some a = l.find? p := by
          intro h
          exact hp (List.find?_some h.symm)
        simp [hp, hq, hne]
      · simp [hp, hq, ih]

end

/-! ## What a search looks at -/

/-- Everything up to the first hit. -/
def upTo (p : α → Bool) : List α → List α
  | [] => []
  | a :: l => if p a then [a] else a :: upTo p l

section
variable {β : Type} {p : α → Bool} {l : List α}

@[simp] theorem upTo_nil : upTo p [] = [] := rfl

theorem upTo_cons_hit {a : α} (ha : p a = true) (l : List α) : upTo p (a :: l) = [a] := if_pos ha

theorem upTo_cons_miss {a : α} (ha : p a = false) (l : List α) :
    upTo p (a :: l) = a :: upTo p l := by
  rw [upTo, ha]
  rfl

/-- A search that ends in the first part. -/
theorem upTo_append_hit (h : l.any p = true) (l' : List α) : upTo p (l ++ l') = upTo p l := by
  induction l with
  | nil => cases h
  | cons a l ih =>
    rw [List.cons_append]
    cases ha : p a with
    | true => rw [upTo_cons_hit ha, upTo_cons_hit ha]
    | false =>
      rw [List.any_cons, ha, Bool.false_or] at h
      rw [upTo_cons_miss ha, upTo_cons_miss ha, ih h]

/-- A search that goes on in the second part. -/
theorem upTo_append_miss (h : l.any p = false) (l' : List α) :
    upTo p (l ++ l') = l ++ upTo p l' := by
  induction l with
  | nil => rfl
  | cons a l ih =>
    rw [List.any_cons, Bool.or_eq_false_iff] at h
    rw [List.cons_append, upTo_cons_miss h.1, ih h.2, List.cons_append]

theorem upTo_miss (h : l.any p = false) : upTo p l = l := by
  have := upTo_append_miss h []
  rwa [List.append_nil, upTo_nil, List.append_nil] at this

theorem mem_of_mem_upTo {a : α} (h : a ∈ upTo p l) : a ∈ l := by
  induction l with
  | nil => exact h
  | cons b l ih =>
    rw [upTo] at h
    split at h
    · rw [List.mem_singleton] at h
      exact h ▸ List.mem_cons_self
    · rcases List.mem_cons.1 h with rfl | h
      · exact List.mem_cons_self
      · exact List.mem_cons_of_mem b (ih h)

/-- A search starts with the first element. -/
theorem head?_upTo (l : List α) : (upTo p l).head? = l.head? := by
  cases l with
  | nil => rfl
  | cons a l =>
    rw [upTo]
    split <;> rfl

/-- The hit is among what was looked at. -/
theorem find?_upTo (l : List α) : (upTo p l).find? p = l.find? p := by
  induction l with
  | nil => rfl
  | cons a l ih =>
    cases ha : p a with
    | true => rw [upTo_cons_hit ha, List.find?_cons_of_pos ha, List.find?_cons_of_pos ha]
    | false =>
      have ha : ¬ p a = true := by simp [ha]
      rw [upTo, if_neg ha, List.find?_cons_of_neg ha, List.find?_cons_of_neg ha, ih]

/-- A test that only depends on the image. -/
theorem map_upTo {q : β → Bool} {f : α → β} (hf : ∀ a, q (f a) = p a) (l : List α) :
    (upTo p l).map f = upTo q (l.map f) := by
  induction l with
  | nil => rfl
  | cons a l ih =>
    cases ha : p a with
    | true =>
      rw [upTo_cons_hit ha, List.map_cons, List.map_cons, upTo_cons_hit ((hf a).trans ha)]
      rfl
    | false => rw [upTo_cons_miss ha, List.map_cons, List.map_cons,
        upTo_cons_miss ((hf a).trans ha), ih]

theorem map_find? {q : β → Bool} {f : α → β} (hf : ∀ a, q (f a) = p a) (l : List α) :
    (l.find? p).map f = (l.map f).find? q := by
  rw [List.find?_map]
  congr 2
  funext a
  exact (hf a).symm

variable {f g : β → List α} {head : β → α} {keep : β → Bool} {ds : List β}

/-- **A search that skips groups** looks at the same as a complete one if and only if it
    skips none of the groups that the complete one reaches. -/
theorem upTo_flatMap_filter_iff (hhead : ∀ d ∈ ds, (f d).head? = some (head d))
    (hkeep : ∀ d ∈ ds, keep d = true → f d = g d)
    (hskip : ∀ d ∈ ds, ∀ d' ∈ ds, keep d = false → keep d' = true → head d ≠ head d') :
    upTo p (ds.flatMap f) = upTo p ((ds.filter keep).flatMap g) ↔
      ∀ d ∈ upTo (fun d => (f d).any p) ds, keep d = true := by
  induction ds with
  | nil => simp
  | cons d ds ih =>
    have ih := ih (fun d' h => hhead d' (List.mem_cons_of_mem d h))
      (fun d' h => hkeep d' (List.mem_cons_of_mem d h))
      (fun d' h d'' h' => hskip d' (List.mem_cons_of_mem d h) d'' (List.mem_cons_of_mem d h'))
    cases hd : keep d with
    | true =>
      rw [List.filter_cons_of_pos hd, List.flatMap_cons, List.flatMap_cons,
        ← hkeep d List.mem_cons_self hd]
      cases hany : (f d).any p with
      | true =>
        rw [upTo_append_hit hany, upTo_append_hit hany,
          upTo_cons_hit (p := fun d => (f d).any p) hany]
        simp [hd]
      | false =>
        rw [upTo_append_miss hany, upTo_append_miss hany, List.append_cancel_left_eq, ih,
          upTo_cons_miss (p := fun d => (f d).any p) hany]
        simp [hd]
    | false =>
      have hreached : d ∈ upTo (fun d => (f d).any p) (d :: ds) := by
        refine List.mem_of_mem_head? ?_
        rw [head?_upTo]
        rfl
      refine ⟨fun h => ?_, fun h => ?_⟩
      · exfalso
        have h := congrArg List.head? h
        rw [head?_upTo, head?_upTo, List.flatMap_cons, List.head?_append,
          hhead d List.mem_cons_self, List.filter_cons_of_neg (by simp [hd])] at h
        cases hkept : ds.filter keep with
        | nil =>
          rw [hkept] at h
          cases h
        | cons d' rest =>
          have hmem : d' ∈ ds.filter keep := hkept ▸ List.mem_cons_self
          obtain ⟨hd', hkeep'⟩ := List.mem_filter.1 hmem
          have hd' := List.mem_cons_of_mem d hd'
          rw [hkept, List.flatMap_cons, List.head?_append, ← hkeep d' hd' hkeep',
            hhead d' hd'] at h
          exact hskip d List.mem_cons_self d' hd' hd hkeep' (Option.some.inj h)
      · rw [h d hreached] at hd
        cases hd

end

/-! ## A cursor in a buffer -/

/-- The cursor `i` in a line of `n` cells: `done` is before it, the rest `l` of the
    line is still to be read, and `tail` is behind the line. -/
structure Cursor (done tail : Block α) (l : List α) (buf : Block α) (n i : ℕ) : Prop where
  buf_eq : buf = done ++ (l.map some ++ tail)
  pos : i = done.length
  len : n = done.length + l.length

namespace Cursor
variable {done tail : Block α} {a : α} {l : List α} {buf : Block α} {n i : ℕ}

/-- At the start of a line. -/
theorem start (l : List α) (tail : Block α) :
    Cursor [] tail l (l.map some ++ tail) l.length 0 :=
  ⟨rfl, rfl, (Nat.zero_add _).symm⟩

theorem not_lt (h : Cursor done tail [] buf n i) : ¬ i < n := by
  rw [h.pos, h.len]
  simp

theorem lt (h : Cursor done tail (a :: l) buf n i) : i < n := by
  rw [h.pos, h.len]
  simp

theorem load (h : Cursor done tail (a :: l) buf n i) : buf.load i = some a := by
  rw [h.buf_eq, h.pos]
  simp [Block.load]

theorem next (h : Cursor done tail (a :: l) buf n i) :
    Cursor (done ++ [some a]) tail l buf n (i + 1) where
  buf_eq := by simp [h.buf_eq]
  pos := by simp [h.pos]
  len := by
    rw [h.len]
    simp
    omega

/-- Writing at the cursor. -/
theorem store (h : Cursor done tail (a :: l) buf n i) (x : α) :
    ∃ buf', buf.store i x = some buf' ∧ Cursor (done ++ [some x]) tail l buf' n (i + 1) := by
  refine ⟨done ++ some x :: (l.map some ++ tail), ?_, ?_, ?_, ?_⟩
  · rw [h.buf_eq, h.pos, Block.store_eq_some (by simp), List.set_append_right _ _ le_rfl]
    simp
  · simp
  · simp [h.pos]
  · rw [h.len]
    simp
    omega

end Cursor

end Lib
