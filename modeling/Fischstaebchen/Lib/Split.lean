/-
  Cutting a list at separators.

  * `runs p l`: the non-empty fields of `l` between the elements satisfying
    `p`, i.e. its maximal runs of non-separators.
  * `runs_cons_word`, `runs_append_sep`: the first field, and the fields of a
    concatenation.
  * `runs_map`: the fields of a list whose elements are replaced.
  * `runs_intercalate`: joining non-empty fields and cutting again gives the
    fields back.
  * `terminated`: fields that each end with a terminator, which determines them
    (`terminated_append_inj`).
  * `pair_infix_append`: where two neighbours are in a list of two parts.
  * `rdropWhile_map`, `rdropWhile_dropWhile`: what is cut off the end of a list.
-/
import Mathlib.Data.List.DropRight
import Mathlib.Data.List.TakeWhile
import Mathlib.Tactic

namespace Lib

variable {α β : Type*}

/-- The non-empty fields of `l` between the separators `p`. -/
def runs (p : α → Bool) (l : List α) : List (List α) :=
  (l.splitOnP p).filter fun r => !r.isEmpty

section
variable {p : α → Bool}

@[simp] theorem runs_nil : runs p [] = [] := by simp [runs]

@[simp] theorem runs_cons_sep {a : α} (ha : p a = true) (l : List α) :
    runs p (a :: l) = runs p l := by
  simp [runs, List.splitOnP_cons_eq_if_modifyHead, ha]

/-- The fields of two lists joined by a separator. -/
theorem runs_append_sep (xs : List α) {a : α} (ha : p a = true) (ys : List α) :
    runs p (xs ++ a :: ys) = runs p xs ++ runs p ys := by
  simp [runs, List.splitOnP_append_cons xs ys ha]

/-- A list without separators is its only field. -/
theorem runs_word {xs : List α} (hne : xs ≠ []) (h : ∀ x ∈ xs, p x = false) :
    runs p xs = [xs] := by
  simp [runs, List.splitOnP_eq_singleton h, hne]

/-- Leading separators do not matter. -/
theorem runs_dropWhile (l : List α) : runs p (l.dropWhile p) = runs p l := by
  induction l with
  | nil => rfl
  | cons a l ih =>
    by_cases ha : p a = true
    · rw [List.dropWhile_cons_of_pos ha, ih, runs_cons_sep ha]
    · rw [List.dropWhile_cons_of_neg ha]

/-- A field ends with a separator. -/
theorem sep_of_dropWhile {l bs : List α} {b : α} (hd : (l.dropWhile fun x => !p x) = b :: bs) :
    p b = true := by
  have hne : (l.dropWhile fun x => !p x) ≠ [] := by simp [hd]
  have hhead := List.head_dropWhile_not (fun x => !p x) hne
  simpa [hd] using hhead

/-- The first field of a list that starts with a non-separator. -/
theorem runs_cons_word {a : α} (ha : p a = false) (l : List α) :
    runs p (a :: l) =
      (a :: l.takeWhile fun x => !p x) :: runs p (l.dropWhile fun x => !p x) := by
  have hw : ∀ x ∈ a :: l.takeWhile (fun x => !p x), p x = false := by
    intro x hx
    rcases List.mem_cons.1 hx with rfl | hx
    · exact ha
    · simpa using List.mem_takeWhile_imp hx
  have hl : a :: l = (a :: l.takeWhile fun x => !p x) ++ l.dropWhile fun x => !p x := by simp
  rw [hl]
  cases hd : l.dropWhile fun x => !p x with
  | nil => rw [List.append_nil, runs_word (by simp) hw, runs_nil]
  | cons b bs =>
    have hb : p b = true := sep_of_dropWhile hd
    rw [runs_append_sep _ hb, runs_word (by simp) hw, runs_cons_sep hb]; rfl

/-- The separator that ends a field may be dropped. -/
theorem runs_drop_sep (l : List α) :
    runs p ((l.dropWhile fun x => !p x).drop 1) = runs p (l.dropWhile fun x => !p x) := by
  cases hd : l.dropWhile fun x => !p x with
  | nil => rfl
  | cons b bs =>
    have hb : p b = true := sep_of_dropWhile hd
    rw [List.drop_one, List.tail_cons, runs_cons_sep hb]

/-- Induction along the fields: a separator is dropped, a word is dropped
    with the rest of its field. -/
theorem runs_induction {P : List α → Prop} (nil : P [])
    (sep : ∀ a l, p a = true → P l → P (a :: l))
    (word : ∀ a l, p a = false → P (l.dropWhile fun x => !p x) → P (a :: l)) :
    ∀ l, P l := by
  intro l
  induction hn : l.length using Nat.strong_induction_on generalizing l with
  | _ n ih =>
    subst hn
    cases l with
    | nil => exact nil
    | cons a l =>
      cases ha : p a with
      | true => exact sep a l ha (ih _ (by simp) l rfl)
      | false =>
        have hlen := (List.dropWhile_sublist (l := l) fun x => !p x).length_le
        exact word a l ha (ih _ (by simp; omega) _ rfl)

/-- A replacement that keeps the separators apart from the others keeps the
    fields. -/
theorem runs_map {q : β → Bool} {f : α → β} (hf : ∀ a, q (f a) = p a) (l : List α) :
    runs q (l.map f) = (runs p l).map (List.map f) := by
  have hnot : (fun b => !q b) ∘ f = fun a => !p a := by
    funext a
    rw [Function.comp_apply, hf]
  induction l using runs_induction (p := p) with
  | nil => rw [List.map_nil, runs_nil, runs_nil, List.map_nil]
  | sep a l ha ih => rw [List.map_cons, runs_cons_sep (by rwa [hf]), ih, runs_cons_sep ha]
  | word a l ha ih =>
    rw [List.map_cons, runs_cons_word (by rwa [hf]), List.takeWhile_map, List.dropWhile_map, hnot,
      ih, runs_cons_word ha, List.map_cons, List.map_cons]

/-- Fields are not empty. -/
theorem runs_ne_nil {l w : List α} (hw : w ∈ runs p l) : w ≠ [] := by
  rintro rfl
  exact absurd (List.mem_filter.1 hw).2 (by simp)

/-- Fields are parts of the list. -/
theorem sublist_of_mem_runs {l w : List α} (hw : w ∈ runs p l) : w.Sublist l := by
  induction l using runs_induction (p := p) with
  | nil => rw [runs_nil] at hw; cases hw
  | sep a l ha ih =>
    rw [runs_cons_sep ha] at hw
    exact (ih hw).cons a
  | word a l ha ih =>
    rw [runs_cons_word ha] at hw
    rcases List.mem_cons.1 hw with rfl | hw
    · exact (List.takeWhile_sublist _).cons_cons a
    · exact ((ih hw).trans (List.dropWhile_sublist _)).cons a

theorem mem_of_mem_runs {l w : List α} (hw : w ∈ runs p l) : ∀ x ∈ w, p x = false := by
  induction l using runs_induction (p := p) with
  | nil => rw [runs_nil] at hw; cases hw
  | sep a l ha ih =>
    rw [runs_cons_sep ha] at hw
    exact ih hw
  | word a l ha ih =>
    rw [runs_cons_word ha] at hw
    rcases List.mem_cons.1 hw with rfl | hw
    · intro x hx
      rcases List.mem_cons.1 hx with rfl | hx
      · exact ha
      · simpa using List.mem_takeWhile_imp hx
    · exact ih hw

end

/-! ## Terminated fields -/

/-- The fields, each followed by `t`. -/
def terminated (t : α) (fields : List (List α)) : List α := fields.flatMap (· ++ [t])

@[simp] theorem terminated_nil (t : α) : terminated t [] = [] := rfl

theorem terminated_cons (t : α) (w : List α) (fields : List (List α)) :
    terminated t (w :: fields) = w ++ t :: terminated t fields := by
  rw [terminated, List.flatMap_cons, List.append_assoc]
  rfl

theorem terminated_append (t : α) (fields fields' : List (List α)) :
    terminated t (fields ++ fields') = terminated t fields ++ terminated t fields' :=
  List.flatMap_append

/-- The first field of two lists of the same elements. -/
theorem append_cons_inj {t : α} {w w' r r' : List α} (hw : t ∉ w) (hw' : t ∉ w')
    (heq : w ++ t :: r = w' ++ t :: r') : w = w' ∧ r = r' := by
  rcases List.append_eq_append_iff.1 heq with ⟨_ | ⟨a, c⟩, hc, hr⟩ | ⟨_ | ⟨a, c⟩, hc, hr⟩
  · exact ⟨by rw [hc, List.append_nil], (List.cons.inj hr).2⟩
  · obtain rfl : t = a := (List.cons.inj hr).1
    exact absurd (hc ▸ by simp : t ∈ w') hw'
  · exact ⟨by rw [hc, List.append_nil], (List.cons.inj hr).2.symm⟩
  · obtain rfl : t = a := (List.cons.inj hr).1
    exact absurd (hc ▸ by simp : t ∈ w) hw

/-- The fields and what follows them can be told from the whole. -/
theorem terminated_append_inj {t : α} {fields fields' : List (List α)} {rest rest' : List α}
    (h : ∀ w ∈ fields, t ∉ w) (h' : ∀ w ∈ fields', t ∉ w) (hr : t ∉ rest) (hr' : t ∉ rest')
    (heq : terminated t fields ++ rest = terminated t fields' ++ rest') :
    fields = fields' ∧ rest = rest' := by
  induction fields generalizing fields' with
  | nil =>
    cases fields' with
    | nil => exact ⟨rfl, heq⟩
    | cons w fields' =>
      rw [terminated_cons] at heq
      have heq : rest = w ++ t :: terminated t fields' ++ rest' := heq
      exact absurd (heq ▸ by simp : t ∈ rest) hr
  | cons w fields ih =>
    cases fields' with
    | nil =>
      rw [terminated_cons] at heq
      have heq : w ++ t :: terminated t fields ++ rest = rest' := heq
      exact absurd (heq ▸ by simp : t ∈ rest') hr'
    | cons w' fields' =>
      rw [terminated_cons, terminated_cons, List.append_assoc, List.append_assoc,
        List.cons_append, List.cons_append] at heq
      obtain ⟨rfl, hrest⟩ :=
        append_cons_inj (h w List.mem_cons_self) (h' w' List.mem_cons_self) heq
      obtain ⟨rfl, rfl⟩ := ih (fun v hv => h v (List.mem_cons_of_mem _ hv))
        (fun v hv => h' v (List.mem_cons_of_mem _ hv)) hrest
      exact ⟨rfl, rfl⟩

/-- Where a pair of neighbours is in a list of two parts. -/
theorem pair_infix_append {a b : α} {xs ys : List α} : [a, b] <:+: xs ++ ys ↔
    [a, b] <:+: xs ∨ [a, b] <:+: ys ∨ (xs.getLast? = some a ∧ ys.head? = some b) := by
  constructor
  · intro h
    rcases List.infix_append_iff_ne_nil.1 h with h | h | ⟨l, r, hl, hr, heq, hsuffix, hprefix⟩
    · exact .inl h
    · exact .inr (.inl h)
    · obtain ⟨c, l, rfl⟩ := List.exists_cons_of_ne_nil hl
      obtain ⟨d, r, rfl⟩ := List.exists_cons_of_ne_nil hr
      obtain ⟨rfl, rfl, rfl, rfl⟩ : a = c ∧ l = [] ∧ b = d ∧ r = [] := by
        cases l <;> simp_all
      obtain ⟨s, rfl⟩ := hsuffix
      obtain ⟨t, rfl⟩ := hprefix
      exact .inr (.inr ⟨by simp, rfl⟩)
  · rintro (h | h | ⟨hxs, hys⟩)
    · exact h.trans (List.prefix_append xs ys).isInfix
    · exact h.trans (List.suffix_append xs ys).isInfix
    · obtain ⟨xs, rfl⟩ := List.getLast?_eq_some_iff.1 hxs
      obtain ⟨ys, rfl⟩ := List.head?_eq_some_iff.1 hys
      exact ⟨xs, ys, by simp⟩

/-! ## The end of a list -/

theorem rdropWhile_map {q : β → Bool} {p : α → Bool} {f : α → β} (hf : ∀ a, q (f a) = p a)
    (l : List α) : (l.map f).rdropWhile q = (l.rdropWhile p).map f := by
  have hcomp : q ∘ f = p := funext hf
  rw [List.rdropWhile, ← List.map_reverse, List.dropWhile_map, hcomp, ← List.map_reverse]
  rfl

/-- The two ends of a list do not interfere, if what is dropped at the start may
    be dropped at the end. -/
theorem rdropWhile_dropWhile {p q : α → Bool} (h : ∀ a, q a = true → p a = true) (l : List α) :
    (l.dropWhile q).rdropWhile p = (l.rdropWhile p).dropWhile q := by
  induction l using List.reverseRecOn with
  | nil => rfl
  | append_singleton l x ih =>
    by_cases hall : ∀ y ∈ l, q y = true
    · have hdrop : (l ++ [x]).dropWhile q = [x].dropWhile q :=
        List.dropWhile_append_of_pos hall
      cases hx : p x with
      | true =>
        have hnil : ∀ y ∈ l ++ [x], p y = true := by
          intro y hy
          rcases List.mem_append.1 hy with hy | hy
          · exact h y (hall y hy)
          · rwa [List.mem_singleton.1 hy]
        rw [List.rdropWhile_eq_nil_iff.2 hnil, List.dropWhile_nil, List.rdropWhile_eq_nil_iff]
        exact fun y hy => hnil y ((List.dropWhile_sublist q).subset hy)
      | false =>
        have hqx : ¬ q x = true := fun hq => by rw [h x hq] at hx; cases hx
        rw [List.rdropWhile_concat_neg _ _ _ (by rw [hx]; exact Bool.false_ne_true), hdrop,
          List.dropWhile_cons_of_neg hqx, List.rdropWhile_singleton, hx]
        rfl
    · have hdrop (t : List α) : (l ++ t).dropWhile q = l.dropWhile q ++ t := by
        rw [List.dropWhile_append, if_neg]
        rwa [List.isEmpty_iff, List.dropWhile_eq_nil_iff]
      cases hx : p x with
      | true =>
        rw [hdrop, List.rdropWhile_concat_pos _ _ _ hx, List.rdropWhile_concat_pos _ _ _ hx, ih]
      | false =>
        have hneg : ¬ p x = true := by rw [hx]; exact Bool.false_ne_true
        rw [hdrop, List.rdropWhile_concat_neg _ _ _ hneg, List.rdropWhile_concat_neg _ _ _ hneg,
          hdrop]

/-- The last element that stays is the last one that may. -/
theorem getLast?_rdropWhile (p : α → Bool) (l : List α) :
    (l.rdropWhile p).getLast? = (l.filter fun x => !p x).getLast? := by
  induction l using List.reverseRecOn with
  | nil => rfl
  | append_singleton l x ih =>
    cases hx : p x with
    | true =>
      rw [List.rdropWhile_concat_pos _ _ _ hx, ih, List.filter_append, List.filter_singleton, hx]
      simp
    | false =>
      rw [List.rdropWhile_concat_neg _ _ _ (by rw [hx]; exact Bool.false_ne_true),
        List.filter_append, List.filter_singleton, hx]
      simp

/-- The fields of words and a last list joined by a separator: the words and the
    fields of the list. -/
theorem runs_intercalate_concat [DecidableEq α] (sep : α) (l : List α) :
    ∀ ws : List (List α), (∀ w ∈ ws, w ≠ [] ∧ sep ∉ w) →
      runs (· == sep) ([sep].intercalate (ws ++ [l])) = ws ++ runs (· == sep) l
  | [], _ => by simp [List.intercalate]
  | w :: ws, h => by
    obtain ⟨hne, hs⟩ := h w (by simp)
    have hi : [sep].intercalate (w :: (ws ++ [l])) = w ++ sep :: [sep].intercalate (ws ++ [l]) := by
      cases ws <;> simp [List.intercalate]
    have hw : ∀ x ∈ w, (x == sep) = false := by
      intro x hx; simp; rintro rfl; exact hs hx
    rw [List.cons_append, hi, runs_append_sep _ (by simp), runs_word hne hw,
      runs_intercalate_concat sep l ws fun v hv => h v (by simp [hv])]
    rfl

/-- The fields of words that each end with a separator, and of what follows them. -/
theorem runs_terminated_append {p : α → Bool} {a : α} (ha : p a = true) (l : List α)
    {ws : List (List α)} (h : ∀ w ∈ ws, w ≠ [] ∧ ∀ x ∈ w, p x = false) :
    runs p (terminated a ws ++ l) = ws ++ runs p l := by
  induction ws with
  | nil => rfl
  | cons w ws ih =>
    obtain ⟨hne, hw⟩ := h w (by simp)
    rw [terminated_cons, List.append_assoc, List.cons_append, runs_append_sep _ ha,
      runs_word hne hw, ih fun v hv => h v (by simp [hv])]
    rfl

/-- Joined words are terminated words and a last one. -/
theorem intercalate_concat (a : α) (ws : List (List α)) (w : List α) :
    [a].intercalate (ws ++ [w]) = terminated a ws ++ w := by
  induction ws with
  | nil => simp
  | cons v ws ih =>
    rw [List.cons_append, List.intercalate_cons_of_ne_nil (by simp), ih, terminated_cons]
    simp

/-- Every word but the first comes with the separator. -/
theorem intercalate_cons_eq (seq w : List α) (ws : List (List α)) :
    seq.intercalate (w :: ws) = w ++ ws.flatMap (seq ++ ·) := by
  induction ws generalizing w with
  | nil => rw [List.intercalate_singleton, List.flatMap_nil, List.append_nil]
  | cons v ws ih =>
    rw [List.intercalate_cons_cons, ih, List.flatMap_cons, List.append_assoc, List.append_assoc]

/-- Joining without a separator. -/
theorem intercalate_nil_eq_flatten (ws : List (List α)) : [].intercalate ws = ws.flatten := by
  cases ws with
  | nil => rfl
  | cons w ws =>
    have hid : ([] ++ · : List α → List α) = id := rfl
    rw [intercalate_cons_eq, hid, List.flatMap_id, List.flatten_cons]

/-- Words that are not empty are joined to nothing only if there are none. -/
theorem intercalate_eq_nil_iff {seq : List α} {ws : List (List α)} (h : ∀ w ∈ ws, w ≠ []) :
    seq.intercalate ws = [] ↔ ws = [] := by
  cases ws with
  | nil => exact iff_of_true rfl rfl
  | cons w ws =>
    rw [intercalate_cons_eq, List.append_eq_nil_iff]
    exact iff_of_false (fun hnil => h w List.mem_cons_self hnil.1) (List.cons_ne_nil w ws)

theorem length_intercalate (seq : List α) (ws : List (List α)) :
    (seq.intercalate ws).length = ws.flatten.length + (ws.length - 1) * seq.length := by
  cases ws with
  | nil => simp
  | cons w ws =>
    have htail : (ws.flatMap (seq ++ ·)).length = ws.flatten.length + ws.length * seq.length := by
      induction ws with
      | nil => simp
      | cons v ws ih =>
        simp only [List.flatMap_cons, List.length_append, ih, List.flatten_cons, List.length_cons]
        ring
    rw [intercalate_cons_eq, List.length_append, htail, List.flatten_cons, List.length_append,
      List.length_cons, Nat.add_sub_cancel, Nat.add_assoc]

theorem mem_or_of_mem_intercalate {seq : List α} {x : α} {ws : List (List α)}
    (hx : x ∈ seq.intercalate ws) : x ∈ seq ∨ ∃ w ∈ ws, x ∈ w := by
  cases ws with
  | nil => cases hx
  | cons w ws =>
    rw [intercalate_cons_eq, List.mem_append, List.mem_flatMap] at hx
    rcases hx with hx | ⟨v, hv, hx⟩
    · exact .inr ⟨w, List.mem_cons_self, hx⟩
    · rcases List.mem_append.1 hx with hx | hx
      · exact .inl hx
      · exact .inr ⟨v, List.mem_cons_of_mem w hv, hx⟩

/-- What joined words consist of. -/
theorem mem_intercalate {a x : α} {ws : List (List α)} (hx : x ∈ [a].intercalate ws) :
    x = a ∨ ∃ w ∈ ws, x ∈ w :=
  (mem_or_of_mem_intercalate hx).imp_left List.mem_singleton.1

/-- **A separator in joined words** is one of those that join them. -/
theorem intercalate_split {p : α → Bool} {a x : α} : ∀ {ws : List (List α)} {u v : List α},
    (∀ w ∈ ws, ∀ y ∈ w, p y = false) → p x = true → [a].intercalate ws = u ++ x :: v →
      x = a ∧ ∃ ws₁ ws₂, ws = ws₁ ++ ws₂ ∧ ws₁ ≠ [] ∧ ws₂ ≠ [] ∧
        u = [a].intercalate ws₁ ∧ v = [a].intercalate ws₂
  | [], u, v, _, _, h => by simp at h
  | [w], u, v, hws, hx, h => by
    rw [List.intercalate_singleton] at h
    have hfalse := hws w (by simp) x (by rw [h]; simp)
    rw [hx] at hfalse
    cases hfalse
  | w :: w' :: ws, u, v, hws, hx, h => by
    rw [List.intercalate_cons_cons, List.append_assoc, List.singleton_append,
      List.append_eq_append_iff] at h
    rcases h with ⟨m, rfl, hm⟩ | ⟨m, hw, hm⟩
    · match m, hm with
      | [], hm =>
        obtain ⟨rfl, rfl⟩ := List.cons.inj hm
        exact ⟨rfl, [w], w' :: ws, rfl, by simp, by simp, by simp, rfl⟩
      | _ :: m, hm =>
        obtain ⟨rfl, hrest⟩ := List.cons.inj hm
        obtain ⟨rfl, ws₁, ws₂, hsplit, hne₁, hne₂, rfl, rfl⟩ :=
          intercalate_split (fun y hy => hws y (List.mem_cons_of_mem w hy)) hx hrest
        refine ⟨rfl, w :: ws₁, ws₂, by rw [hsplit, List.cons_append], by simp, hne₂, ?_, rfl⟩
        rw [List.intercalate_cons_of_ne_nil hne₁, List.append_assoc, List.singleton_append]
    · match m, hm with
      | [], hm =>
        obtain ⟨rfl, rfl⟩ := List.cons.inj hm
        exact ⟨rfl, [w], w' :: ws, rfl, by simp, by simp, by simp [hw], rfl⟩
      | _ :: m, hm =>
        -- the separator would be part of the first word
        obtain ⟨rfl, -⟩ := List.cons.inj hm
        have hfalse := hws w (by simp) x (by rw [hw]; simp)
        rw [hx] at hfalse
        cases hfalse

theorem intercalate_append (a : α) {ws ws' : List (List α)} (hws : ws ≠ []) (hws' : ws' ≠ []) :
    [a].intercalate (ws ++ ws') = [a].intercalate ws ++ a :: [a].intercalate ws' := by
  induction ws with
  | nil => exact absurd rfl hws
  | cons w ws ih =>
    by_cases hnil : ws = []
    · subst hnil
      rw [List.singleton_append, List.intercalate_cons_of_ne_nil hws', List.intercalate_singleton,
        List.append_assoc, List.singleton_append]
    · rw [List.cons_append, List.intercalate_cons_of_ne_nil (by simp [hnil]), ih hnil,
        List.intercalate_cons_of_ne_nil hnil, List.append_assoc, List.append_assoc,
        List.append_assoc]

/-- The fields of words joined by a separator. -/
theorem runs_intercalate_of {p : α → Bool} {a : α} (ha : p a = true) {ws : List (List α)}
    (h : ∀ w ∈ ws, w ≠ [] ∧ ∀ x ∈ w, p x = false) : runs p ([a].intercalate ws) = ws := by
  rcases List.eq_nil_or_concat ws with rfl | ⟨ws, w, rfl⟩
  · exact runs_nil
  · rw [List.concat_eq_append] at h ⊢
    obtain ⟨hne, hw⟩ := h w (by simp)
    rw [intercalate_concat, runs_terminated_append ha _ fun v hv => h v (by simp [hv]),
      runs_word hne hw]

/-- **Words joined by a separator** are the fields of the result. -/
theorem runs_intercalate [DecidableEq α] (sep : α) (ws : List (List α))
    (h : ∀ w ∈ ws, w ≠ [] ∧ sep ∉ w) : runs (· == sep) ([sep].intercalate ws) = ws := by
  rcases List.eq_nil_or_concat ws with rfl | ⟨ws, w, rfl⟩
  · simp [List.intercalate]
  · rw [List.concat_eq_append] at h ⊢
    obtain ⟨hne, hs⟩ := h w (by simp)
    rw [runs_intercalate_concat sep w ws fun v hv => h v (by simp [hv]), runs_word hne]
    intro x hx; simp; rintro rfl; exact hs hx

end Lib
