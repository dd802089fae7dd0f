/-
  Regular expressions without alternation: sequences of repeated sets.

  * `Rep`, `Item`: how often an element of a set may be repeated.  `fullMatch`: a
    list consists of what the items of a sequence match.
  * `Regex`: a sequence that may be bound to the start or the end of a list.
    `found`: it matches a part of the list.  `substitute`: what it matches first is
    replaced; of the matches with the same start, the longest one is taken.
  * `longest_eq_some`, `longest_eq_none`: finding the longest match from its properties.
-/
import Mathlib.Tactic

namespace Lib

namespace Ere

variable {α : Type*}

/-! ## Sequences -/

/-- How often: once, `?`, `*` or `+`. -/
inductive Rep
  | once
  | opt
  | many
  | some
  deriving DecidableEq

def Rep.allows : Rep → ℕ → Bool
  | once, n => n = 1
  | opt, n => n ≤ 1
  | many, _ => true
  | some, n => 1 ≤ n

/-- A set of elements and how often they may be repeated. -/
structure Item (α : Type*) where
  set : α → Bool
  rep : Rep

def Item.covers (i : Item α) (u : List α) : Bool := u.all i.set && i.rep.allows u.length

/-- The list consists of what the items match. -/
def fullMatch : List (Item α) → List α → Bool
  | [], s => s.isEmpty
  | i :: is, s =>
    (List.range (s.length + 1)).any fun n => i.covers (s.take n) && fullMatch is (s.drop n)

section
variable {i : Item α} {is is' : List (Item α)} {s u v : List α} {p : α → Bool} {a : α}

@[simp] theorem fullMatch_nil_iff : fullMatch ([] : List (Item α)) s = true ↔ s = [] := by
  rw [fullMatch, List.isEmpty_iff]

theorem fullMatch_cons_iff : fullMatch (i :: is) s = true ↔
    ∃ u v, s = u ++ v ∧ i.covers u = true ∧ fullMatch is v = true := by
  rw [fullMatch, List.any_eq_true]
  constructor
  · rintro ⟨n, -, h⟩
    rw [Bool.and_eq_true] at h
    exact ⟨s.take n, s.drop n, (List.take_append_drop n s).symm, h⟩
  · rintro ⟨u, v, rfl, h⟩
    refine ⟨u.length, ?_, ?_⟩
    · rw [List.mem_range, List.length_append]
      omega
    · rw [List.take_left, List.drop_left, Bool.and_eq_true]
      exact h

/-- **A sequence of sequences.** -/
theorem fullMatch_append_iff : fullMatch (is ++ is') s = true ↔
    ∃ u v, s = u ++ v ∧ fullMatch is u = true ∧ fullMatch is' v = true := by
  induction is generalizing s with
  | nil =>
    simp only [List.nil_append, fullMatch_nil_iff]
    constructor
    · intro h
      exact ⟨[], s, rfl, rfl, h⟩
    · rintro ⟨u, v, rfl, rfl, h⟩
      exact h
  | cons i is ih =>
    rw [List.cons_append, fullMatch_cons_iff]
    constructor
    · rintro ⟨u, v, rfl, hu, hv⟩
      obtain ⟨w, x, rfl, hw, hx⟩ := ih.1 hv
      exact ⟨u ++ w, x, by rw [List.append_assoc], fullMatch_cons_iff.2 ⟨u, w, rfl, hu, hw⟩, hx⟩
    · rintro ⟨y, x, rfl, hy, hx⟩
      obtain ⟨u, w, rfl, hu, hw⟩ := fullMatch_cons_iff.1 hy
      exact ⟨u, w ++ x, by rw [List.append_assoc], hu, ih.2 ⟨w, x, rfl, hw, hx⟩⟩

theorem covers_once_iff : (⟨p, .once⟩ : Item α).covers u = true ↔ ∃ a, u = [a] ∧ p a = true := by
  rw [Item.covers, Bool.and_eq_true, Rep.allows, decide_eq_true_iff, List.length_eq_one_iff]
  constructor
  · rintro ⟨hall, a, rfl⟩
    exact ⟨a, rfl, by simpa using hall⟩
  · rintro ⟨a, rfl, ha⟩
    exact ⟨by simpa using ha, a, rfl⟩

theorem covers_opt_iff : (⟨p, .opt⟩ : Item α).covers u = true ↔
    u = [] ∨ ∃ a, u = [a] ∧ p a = true := by
  rw [Item.covers, Bool.and_eq_true, Rep.allows, decide_eq_true_iff]
  constructor
  · rintro ⟨hall, hlen⟩
    match u, hlen with
    | [], _ => exact .inl rfl
    | [a], _ => exact .inr ⟨a, rfl, by simpa using hall⟩
  · rintro (rfl | ⟨a, rfl, ha⟩)
    · simp
    · simpa using ha

theorem covers_some_iff : (⟨p, .some⟩ : Item α).covers u = true ↔ u ≠ [] ∧ ∀ a ∈ u, p a = true := by
  rw [Item.covers, Bool.and_eq_true, Rep.allows, decide_eq_true_iff, List.all_eq_true,
    Nat.one_le_iff_ne_zero, ne_eq, List.length_eq_zero_iff, and_comm]

/-- A sequence that starts with one element. -/
theorem fullMatch_once_iff : fullMatch (⟨p, .once⟩ :: is) s = true ↔
    ∃ a v, s = a :: v ∧ p a = true ∧ fullMatch is v = true := by
  rw [fullMatch_cons_iff]
  constructor
  · rintro ⟨u, v, rfl, hu, hv⟩
    obtain ⟨a, rfl, ha⟩ := covers_once_iff.1 hu
    exact ⟨a, v, rfl, ha, hv⟩
  · rintro ⟨a, v, rfl, ha, hv⟩
    exact ⟨[a], v, rfl, covers_once_iff.2 ⟨a, rfl, ha⟩, hv⟩

/-- A sequence that starts with several elements of a set. -/
theorem fullMatch_some_iff : fullMatch (⟨p, .some⟩ :: is) s = true ↔
    ∃ u v, s = u ++ v ∧ (u ≠ [] ∧ ∀ a ∈ u, p a = true) ∧ fullMatch is v = true := by
  simp only [fullMatch_cons_iff, covers_some_iff]

end

/-! ## Matches in a list -/

/-- A sequence, and whether it is bound to the start (`^`) or the end (`$`). -/
structure Regex (α : Type*) where
  items : List (Item α)
  atStart : Bool
  atEnd : Bool

namespace Regex
variable (r : Regex α)

/-- The first `n` elements are matched. -/
def matchesFirst (s : List α) (n : ℕ) : Bool :=
  fullMatch r.items (s.take n) && (!r.atEnd || decide (n = s.length))

/-- The longest match at the start of a list, and the rest of it. -/
def longest (s : List α) : Option (List α × List α) :=
  ((List.range (s.length + 1)).reverse.find? (r.matchesFirst s)).map s.splitAt

/-- The first match is replaced. -/
def substitute (f : List α → List α) : List α → List α
  | [] => (r.longest []).elim [] fun (m, rest) => f m ++ rest
  | a :: s => (r.longest (a :: s)).elim (a :: if r.atStart then s else substitute f s)
      fun (m, rest) => f m ++ rest

/-- There is a match. -/
def found (s : List α) : Bool :=
  (if r.atStart then [s] else s.tails).any fun t => (r.longest t).isSome

end Regex

section
variable {r : Regex α} {is : List (Item α)} {s u v : List α}

theorem matchesFirst_iff : r.matchesFirst (u ++ v) u.length = true ↔
    fullMatch r.items u = true ∧ (r.atEnd = true → v = []) := by
  rw [Regex.matchesFirst, List.take_left, Bool.and_eq_true, Bool.or_eq_true, Bool.not_eq_true',
    decide_eq_true_iff, List.length_append]
  refine and_congr Iff.rfl ?_
  constructor
  · rintro (hend | hlen) h
    · rw [hend] at h
      cases h
    · exact List.length_eq_zero_iff.1 (by omega)
  · intro h
    by_cases hend : r.atEnd = true
    · rw [h hend]
      exact .inr rfl
    · exact .inl (by simpa using hend)

/-- Nothing is matched at the start of the list. -/
theorem longest_eq_none (h : ∀ u v, s = u ++ v → fullMatch r.items u = true →
    (r.atEnd = true → v = []) → False) : r.longest s = none := by
  rw [Regex.longest, Option.map_eq_none_iff, List.find?_eq_none]
  intro n hn hmatch
  have hlen : (s.take n).length = n := by
    rw [List.mem_reverse, List.mem_range] at hn
    rw [List.length_take]
    omega
  have hsplit : s = s.take n ++ s.drop n := (List.take_append_drop n s).symm
  have hfirst : r.matchesFirst (s.take n ++ s.drop n) (s.take n).length = true := by
    rw [← hsplit, hlen]
    exact hmatch
  obtain ⟨hu, hv⟩ := matchesFirst_iff.1 hfirst
  exact h _ _ hsplit hu hv

theorem find?_reverse_range {p : ℕ → Bool} {n : ℕ} (hn : p n = true) : ∀ {m : ℕ}, n < m →
    (∀ k < m, p k = true → k ≤ n) → (List.range m).reverse.find? p = some n
  | m + 1, hlt, hmax => by
    rw [List.range_succ, List.reverse_append, List.reverse_singleton, List.singleton_append]
    rcases Nat.lt_succ_iff_lt_or_eq.1 hlt with hlt | rfl
    · have hm : p m = false := by
        by_contra hm
        have hle := hmax m (by omega) (by simpa using hm)
        omega
      rw [List.find?_cons_of_neg (by simp [hm])]
      exact find?_reverse_range hn hlt fun k hk => hmax k (by omega)
    · rw [List.find?_cons_of_pos hn]

/-- **The longest match.** -/
theorem longest_eq_some (hs : s = u ++ v) (hu : fullMatch r.items u = true)
    (hv : r.atEnd = true → v = [])
    (hmax : ∀ u' v', s = u' ++ v' → fullMatch r.items u' = true → (r.atEnd = true → v' = []) →
      u'.length ≤ u.length) : r.longest s = some (u, v) := by
  subst hs
  have hfind : (List.range ((u ++ v).length + 1)).reverse.find? (r.matchesFirst (u ++ v)) =
      some u.length := by
    refine find?_reverse_range (matchesFirst_iff.2 ⟨hu, hv⟩) ?_ fun n hn hmatch => ?_
    · rw [List.length_append]
      omega
    · have hlen : ((u ++ v).take n).length = n := by
        rw [List.length_take]
        omega
      have hsplit : u ++ v = (u ++ v).take n ++ (u ++ v).drop n :=
        (List.take_append_drop n _).symm
      have hfirst : r.matchesFirst ((u ++ v).take n ++ (u ++ v).drop n) ((u ++ v).take n).length =
          true := by
        rw [← hsplit, hlen]
        exact hmatch
      obtain ⟨hu', hv'⟩ := matchesFirst_iff.1 hfirst
      rw [← hlen]
      exact hmax _ _ hsplit hu' hv'
  rw [Regex.longest, hfind, Option.map_some, List.splitAt_eq, List.take_left, List.drop_left]

/-- Whether there is a match at the start of a list. -/
theorem longest_isSome_iff : (r.longest s).isSome = true ↔
    ∃ u v, s = u ++ v ∧ fullMatch r.items u = true ∧ (r.atEnd = true → v = []) := by
  constructor
  · intro h
    by_contra hnone
    have heq : r.longest s = none := longest_eq_none fun u v hs hu hv => hnone ⟨u, v, hs, hu, hv⟩
    rw [heq] at h
    cases h
  · rintro ⟨u, v, rfl, hu, hv⟩
    rw [Regex.longest, Option.isSome_map, List.find?_isSome]
    refine ⟨u.length, ?_, matchesFirst_iff.2 ⟨hu, hv⟩⟩
    rw [List.mem_reverse, List.mem_range, List.length_append]
    omega

/-- **A sequence that is bound to nothing** is found if it matches a part of the list. -/
theorem found_iff : (⟨is, false, false⟩ : Regex α).found s = true ↔
    ∃ pre m post, s = pre ++ (m ++ post) ∧ fullMatch is m = true := by
  rw [Regex.found, if_neg (by simp), List.any_eq_true]
  constructor
  · rintro ⟨t, ht, h⟩
    obtain ⟨pre, rfl⟩ := (List.mem_tails _ _).1 ht
    obtain ⟨m, post, rfl, hm, -⟩ := longest_isSome_iff.1 h
    exact ⟨pre, m, post, rfl, hm⟩
  · rintro ⟨pre, m, post, rfl, hm⟩
    refine ⟨m ++ post, (List.mem_tails _ _).2 (List.suffix_append ..), ?_⟩
    exact longest_isSome_iff.2 ⟨m, post, rfl, hm, fun h => by cases h⟩

variable {f : List α → List α} {a : α}

theorem substitute_of_longest (h : r.longest (a :: s) = some (u, v)) :
    r.substitute f (a :: s) = f u ++ v := by
  rw [Regex.substitute, h]
  rfl

theorem substitute_of_none (h : r.longest (a :: s) = none) :
    r.substitute f (a :: s) = a :: if r.atStart then s else r.substitute f s := by
  rw [Regex.substitute, h]
  rfl

end

end Ere

end Lib
