/-
  Records that are written one after the other, the later ones over the earlier ones.

  * `lastWith p l`: the last record of `l` with `p`.
  * `LastHolds p R l`: for each key `i`, `R i` of the last record that is written at `i`;
    `LastHolds.concat`: one more record.
-/
import Mathlib.Tactic

namespace Lib

variable {α ι : Type*}

/-- The last element with a property. -/
def lastWith (p : α → Bool) (l : List α) : Option α := l.reverse.find? p

@[simp] theorem lastWith_nil (p : α → Bool) : lastWith p [] = none := rfl

theorem lastWith_concat (p : α → Bool) (l : List α) (a : α) :
    lastWith p (l ++ [a]) = if p a = true then some a else lastWith p l := by
  rw [lastWith, List.reverse_append, List.reverse_singleton, List.singleton_append,
    List.find?_cons]
  cases p a <;> rfl

theorem of_lastWith {p : α → Bool} {l : List α} {a : α} (h : lastWith p l = some a) :
    p a = true := List.find?_some h

theorem exists_lastWith {p : α → Bool} {l : List α} {a : α} (ha : a ∈ l) (hp : p a = true) :
    ∃ b, lastWith p l = some b :=
  Option.isSome_iff_exists.1 (List.find?_isSome.2 ⟨a, List.mem_reverse.2 ha, hp⟩)

/-- What holds of the last record at each key. -/
def LastHolds (p : ι → α → Bool) (R : ι → α → Prop) (l : List α) : Prop :=
  ∀ i a, lastWith (p i) l = some a → R i a

theorem LastHolds.nil (p : ι → α → Bool) (R : ι → α → Prop) : LastHolds p R [] := by
  intro i a h
  cases h

/-- **One more record**: it holds at the keys where it is written, and the other keys keep
    what they have. -/
theorem LastHolds.concat {p : ι → α → Bool} {R R' : ι → α → Prop} {l : List α} {a : α}
    (h : LastHolds p R l) (hnew : ∀ i, p i a = true → R' i a)
    (hold : ∀ i b, p i a = false → p i b = true → R i b → R' i b) : LastHolds p R' (l ++ [a]) := by
  intro i b hb
  rw [lastWith_concat] at hb
  cases hp : p i a with
  | true =>
    rw [hp, if_pos rfl, Option.some.injEq] at hb
    exact hb ▸ hnew i hp
  | false =>
    rw [hp, if_neg Bool.false_ne_true] at hb
    exact hold i b hp (of_lastWith hb) (h i b hb)

end Lib
