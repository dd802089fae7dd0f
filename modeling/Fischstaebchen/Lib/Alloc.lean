/-
  Programs that allocate.

  A computation `Alloc α` asks an allocator for memory, which grants or refuses
  each request; it has no result where its behaviour is undefined (an access
  out of bounds, a loop that does not end).

  * `Ensures refuses m Q`: `m` is defined and its result satisfies `Q`, for
    every allocator if `refuses`, else for the one that grants every request.
    The rules are `Ensures.pure`, `Ensures.bind`, `ensures_request_bind`,
    `ensures_defined` and `Ensures.mono`.
  * `Block`: an array in memory, whose cells may not be initialised yet, with
    the accesses `load` and `store` and the reallocation `regrow`.
  * `Block.copyTo`: the loop that copies chars to the cells from an offset on.
    It is defined exactly if there are enough cells (`copyTo_eq`,
    `copyTo_overflow`).
  * `doubleWhile`: the loop that doubles a machine integer while it is too
    small.  `doubleWhile_spec` is its result below half of the range, and
    `doubleWhile_eq_none` says that it runs out of fuel only if it never ends.
-/
import Mathlib.Tactic

namespace Lib

variable {α β : Type}

/-- `SIZE_MAX`. -/
def sizeMax : ℕ := 2 ^ 64 - 1

/-! ## Requests -/

/-- The answers to the coming requests. -/
abbrev Allocator := ℕ → Bool

/-- A computation that requests memory; without a result, it is undefined. -/
abbrev Alloc := StateT Allocator Option

/-- A request, and whether it is granted. -/
def request : Alloc Bool := fun a => some (a 0, fun n => a (n + 1))

/-- A part that requests nothing. -/
def defined (o : Option α) : Alloc α := fun a => o.map fun x => (x, a)

theorem defined_some (x : α) : defined (some x) = pure x := rfl

theorem run_request_bind (f : Bool → Alloc α) (a : Allocator) :
    (request >>= f).run a = (f (a 0)).run fun n => a (n + 1) := rfl

/-- `refuses`: the allocator may refuse a request. -/
def Admits (refuses : Prop) (a : Allocator) : Prop := refuses ∨ ∀ n, a n = true

def Ensures (refuses : Prop) (m : Alloc α) (Q : α → Prop) : Prop :=
  ∀ a, Admits refuses a → ∃ x a', m.run a = some (x, a') ∧ Admits refuses a' ∧ Q x

section
variable {refuses : Prop} {P : β → Prop} {Q R : α → Prop}

theorem Ensures.pure {x : α} (h : Q x) : Ensures refuses (pure x : Alloc α) Q :=
  fun a ha => ⟨x, a, rfl, ha, h⟩

theorem Ensures.mono {m : Alloc α} (h : Ensures refuses m Q) (hQR : ∀ x, Q x → R x) :
    Ensures refuses m R := by
  intro a ha
  obtain ⟨x, a', hrun, ha', hQ⟩ := h a ha
  exact ⟨x, a', hrun, ha', hQR x hQ⟩

theorem Ensures.bind {m : Alloc β} {f : β → Alloc α} (h : Ensures refuses m P)
    (hf : ∀ x, P x → Ensures refuses (f x) Q) : Ensures refuses (m >>= f) Q := by
  intro a ha
  obtain ⟨x, a', hrun, ha', hP⟩ := h a ha
  obtain ⟨y, a'', hrun', ha'', hQ⟩ := hf x hP a' ha'
  refine ⟨y, a'', ?_, ha'', hQ⟩
  rw [StateT.run_bind, hrun]
  exact hrun'

theorem ensures_request {Q : Bool → Prop} (hgranted : Q true) (hrefused : refuses → Q false) :
    Ensures refuses request Q := by
  intro a ha
  refine ⟨a 0, fun n => a (n + 1), rfl, ha.imp_right fun h n => h (n + 1), ?_⟩
  cases h0 : a 0 with
  | true => exact hgranted
  | false =>
    rcases ha with hr | hall
    · exact hrefused hr
    · rw [hall 0] at h0; cases h0

theorem ensures_defined {o : Option α} {x : α} (ho : o = some x) (h : Q x) :
    Ensures refuses (defined o) Q := by
  intro a ha
  subst ho
  exact ⟨x, a, rfl, ha, h⟩

/-- A request and what is done with its answer. -/
theorem ensures_request_bind {f : Bool → Alloc α} (hgranted : Ensures refuses (f true) Q)
    (hrefused : refuses → Ensures refuses (f false) Q) : Ensures refuses (request >>= f) Q := by
  have hrequest : Ensures refuses request fun granted => granted = true ∨ refuses :=
    ensures_request (.inl rfl) .inr
  refine hrequest.bind fun granted h => ?_
  cases granted with
  | true => exact hgranted
  | false => exact hrefused (h.resolve_left Bool.false_ne_true)

end

/-- An allocator that may refuse anything admits every behaviour. -/
theorem admits_any (a : Allocator) : Admits True a := .inl trivial

/-! ## Blocks of memory -/

/-- The cells of an array; `none` is not initialised. -/
abbrev Block (α : Type) := List (Option α)

/-- What `malloc` returns. -/
def Block.fresh (n : ℕ) : Block α := List.replicate n none

/-- What `realloc` returns. -/
def Block.regrow (b : Block α) (n : ℕ) : Block α :=
  b.take n ++ List.replicate (n - b.length) none

/-- Reads a cell, which has to exist and to be initialised. -/
def Block.load (b : Block α) (i : ℕ) : Option α := b[i]?.join

/-- Writes a cell, which has to exist. -/
def Block.store (b : Block α) (i : ℕ) (x : α) : Option (Block α) :=
  if i < b.length then some (b.set i (some x)) else none

section
variable {b b' : Block α} {i k n : ℕ} {x : α} {l : List α}

@[simp] theorem Block.length_fresh : (Block.fresh n : Block α).length = n :=
  List.length_replicate

@[simp] theorem Block.length_regrow : (b.regrow n).length = n := by
  simp only [Block.regrow, List.length_append, List.length_take, List.length_replicate]
  omega

/-- Growing keeps what was written. -/
theorem Block.take_regrow (hk : k ≤ b.length) (hn : k ≤ n) : (b.regrow n).take k = b.take k := by
  rw [Block.regrow, List.take_append_of_le_length (by rw [List.length_take]; omega),
    List.take_take, min_eq_left hn]

theorem Block.store_eq_some (hi : i < b.length) : b.store i x = some (b.set i (some x)) :=
  if_pos hi

/-- Writes the cell behind those that are initialised. -/
theorem Block.store_append (l : List α) (c : Option α) (rest : Block α) (hi : i = l.length) :
    Block.store (l.map some ++ c :: rest) i x = some ((l ++ [x]).map some ++ rest) := by
  subst hi
  rw [Block.store_eq_some (by simp), List.set_append_right _ _ (by simp)]
  simp

/-- Reads one of the initialised cells at the start. -/
theorem Block.load_of_take (h : b.take k = l.map some) (hi : i < k) : b.load i = l[i]? := by
  have : (b.take k)[i]? = (l.map some)[i]? := by rw [h]
  rw [List.getElem?_take_of_lt hi, List.getElem?_map] at this
  rw [Block.load, this]
  cases l[i]? <;> rfl

/-- The first of the initialised cells. -/
theorem Block.take_of_append {l' : List α} (h : b.take (l ++ l').length = (l ++ l').map some) :
    b.take l.length = l.map some := by
  have := congrArg (List.take l.length) h
  rwa [List.take_take, min_eq_left (by simp), ← List.map_take, List.take_left' rfl] at this

/-- Writing behind the initialised cells. -/
theorem Block.take_set (hik : k ≤ i) : (b.set i (some x)).take k = b.take k :=
  List.take_set_of_le hik

/-- Writing the next cell. -/
theorem Block.take_succ_set (h : b.take k = l.map some) (hk : k < b.length) :
    (b.set k (some x)).take (k + 1) = (l ++ [x]).map some := by
  rw [List.take_succ_eq_append_getElem (by rwa [List.length_set]), List.take_set_of_le le_rfl, h]
  simp

/-- Writing the next cell, as a run. -/
theorem Block.store_next (h : b.take l.length = l.map some) (hin : l.length < b.length) (x : α) :
    ∃ b', b.store l.length x = some b' ∧ b'.length = b.length ∧
      b'.take (l.length + 1) = (l ++ [x]).map some :=
  ⟨b.set l.length (some x), store_eq_some hin, List.length_set, take_succ_set h hin⟩

end

/-! ## Copying -/

/-- `for (i = 0; i < l_len; i++) { b[offset + i] = l[i]; }` with `w`-bit indices. -/
def Block.copyTo (w : ℕ) (b : Block α) (offset : ℕ) : List α → Option (Block α)
  | [] => some b
  | x :: l => do
    let b ← b.store (offset % 2 ^ w) x
    copyTo w b (offset + 1) l

section
variable {w : ℕ} {b b' : Block α} {l : List α} {offset : ℕ}

theorem Block.length_store {i : ℕ} {x : α} (h : b.store i x = some b') : b'.length = b.length := by
  rw [Block.store] at h
  split_ifs at h
  cases h
  exact List.length_set

/-- Copying does not change the size. -/
theorem Block.length_copyTo (h : b.copyTo w offset l = some b') : b'.length = b.length := by
  induction l generalizing b offset with
  | nil => cases h; rfl
  | cons x l ih =>
    obtain ⟨b₁, hstore, hcopy⟩ := Option.bind_eq_some_iff.1 h
    rw [ih hcopy, length_store hstore]

/-- **Copying with enough cells** continues what was written before. -/
theorem Block.copyTo_eq (l' : List α) (hw : b.length ≤ 2 ^ w) (hl : b.take l.length = l.map some)
    (hroom : l.length + l'.length ≤ b.length) :
    ∃ b', b.copyTo w l.length l' = some b' ∧ b'.length = b.length ∧
      b'.take (l ++ l').length = (l ++ l').map some := by
  induction l' generalizing b l with
  | nil => exact ⟨b, rfl, rfl, by rwa [List.append_nil]⟩
  | cons x l' ih =>
    rw [List.length_cons] at hroom
    obtain ⟨b₁, hstore, hlen, htake⟩ := store_next hl (by omega) x
    have hlength : (l ++ [x]).length = l.length + 1 := List.length_append
    rw [← hlen] at hw
    obtain ⟨b', hcopy, hlen', htake'⟩ := ih hw (by rwa [hlength]) (by omega)
    refine ⟨b', ?_, hlen'.trans hlen, by rwa [List.append_assoc] at htake'⟩
    rw [copyTo, Nat.mod_eq_of_lt (by omega), hstore, ← hlength]
    exact hcopy

/-- **Copying with too few cells** writes behind the last one. -/
theorem Block.copyTo_overflow (hw : b.length < 2 ^ w) (hoffset : offset ≤ b.length)
    (h : b.length < offset + l.length) : b.copyTo w offset l = none := by
  induction l generalizing b offset with
  | nil =>
    rw [List.length_nil] at h
    omega
  | cons x l ih =>
    rw [copyTo, Nat.mod_eq_of_lt (by omega), Block.store]
    rw [List.length_cons] at h
    by_cases hlt : offset < b.length
    · rw [if_pos hlt]
      have hlen : (b.set offset (some x)).length = b.length := List.length_set
      exact ih (by rwa [hlen]) (by omega) (by omega)
    · rw [if_neg hlt]
      rfl

end

/-! ## Doubling -/

/-- `while (short (n)) { n *= 2; }` for a `w`-bit `n`; `none` if more than
    `fuel` doublings are needed. -/
def doubleWhile (w : ℕ) (short : ℕ → Bool) : ℕ → ℕ → Option ℕ
  | 0, n => if short n then none else some n
  | fuel + 1, n => if short n then doubleWhile w short fuel (2 * n % 2 ^ w) else some n

section
variable {w : ℕ} {short : ℕ → Bool} {want : ℕ}

/-- The result is the first doubling that is large enough. -/
theorem doubleWhile_spec (hshort : ∀ n, short n = true ↔ n < want) (hw : 2 * want ≤ 2 ^ w) :
    ∀ {fuel n}, want ≤ n * 2 ^ fuel →
      ∃ i, doubleWhile w short fuel n = some (n * 2 ^ i) ∧ want ≤ n * 2 ^ i ∧
        ∀ j, want ≤ n * 2 ^ j → i ≤ j
  | 0, n, hf => by
    refine ⟨0, ?_, hf, fun _ _ => Nat.zero_le _⟩
    rw [pow_zero, mul_one] at hf ⊢
    rw [doubleWhile, if_neg (by rw [hshort]; omega)]
  | fuel + 1, n, hf => by
    have hdouble (k : ℕ) : n * 2 ^ (k + 1) = 2 * n * 2 ^ k := by ring
    by_cases h : n < want
    · have hlt : 2 * n < 2 ^ w := by omega
      obtain ⟨i, hi, hwant, hfirst⟩ :=
        doubleWhile_spec hshort hw (hf.trans_eq (hdouble fuel))
      refine ⟨i + 1, ?_, by rwa [hdouble], fun j hj => ?_⟩
      · rw [doubleWhile, if_pos ((hshort n).2 h), Nat.mod_eq_of_lt hlt, hi, hdouble]
      · cases j with
        | zero =>
          rw [pow_zero, mul_one] at hj
          omega
        | succ j => exact Nat.succ_le_succ (hfirst j (by rwa [← hdouble]))
    · refine ⟨0, ?_, by omega, fun _ _ => Nat.zero_le _⟩
      rw [pow_zero, mul_one, doubleWhile, if_neg (by rw [hshort]; exact h)]

/-- Running out of fuel: all doublings made are too small. -/
theorem doubleWhile_eq_none_iff :
    ∀ {fuel n}, n < 2 ^ w →
      (doubleWhile w short fuel n = none ↔ ∀ i ≤ fuel, short (n * 2 ^ i % 2 ^ w) = true)
  | 0, n, hn => by
    rw [doubleWhile]
    simp [Nat.mod_eq_of_lt hn]
  | fuel + 1, n, hn => by
    have hdouble (i : ℕ) : 2 * n % 2 ^ w * 2 ^ i % 2 ^ w = n * 2 ^ (i + 1) % 2 ^ w := by
      rw [Nat.mod_mul_mod]
      congr 1
      ring
    have ih : doubleWhile w short fuel (2 * n % 2 ^ w) = none ↔ _ :=
      doubleWhile_eq_none_iff (Nat.mod_lt _ (by positivity))
    simp only [hdouble] at ih
    have h0 : n * 2 ^ 0 % 2 ^ w = n := by rw [pow_zero, mul_one, Nat.mod_eq_of_lt hn]
    rw [doubleWhile]
    constructor
    · intro h i hi
      split_ifs at h with hs
      cases i with
      | zero => rw [h0]; exact hs
      | succ i => exact ih.1 h i (by omega)
    · intro h
      have hs := h 0 (by omega)
      rw [h0] at hs
      rw [if_pos hs, ih]
      exact fun i hi => h (i + 1) (by omega)

/-- A loop that has not ended after `w` doublings has reached 0 and stays
    there. -/
theorem doubleWhile_eq_none {n : ℕ} (hn : n < 2 ^ w) (h : doubleWhile w short w n = none)
    (fuel : ℕ) : doubleWhile w short fuel n = none := by
  rw [doubleWhile_eq_none_iff hn] at h ⊢
  intro i _
  rcases Nat.lt_or_ge i w with hi | hi
  · exact h i hi.le
  · have hzero : n * 2 ^ i % 2 ^ w = n * 2 ^ w % 2 ^ w := by
      rw [Nat.mul_mod_left]
      exact Nat.mod_eq_zero_of_dvd ((pow_dvd_pow 2 hi).mul_left n)
    rw [hzero]
    exact h w le_rfl

end

end Lib
