/-
  In-place insertion sort.

  `inPlaceSort moves arr` takes the entries of an array one after the other
  and moves each of them down over the entries that have to make room for it:
  `moves a x` says that `a` makes room for `x`.

  * `inPlaceSort_eq`: the loops compute `List.insertionSort` (from the other
    end of the array).
  * Sorting by a key, from high to low, is a permutation (`inPlaceSort_perm`),
    sorted (`inPlaceSort_sorted`) and stable (`inPlaceSort_stable`).
-/
import Mathlib.Data.List.Sort
import Mathlib.Tactic

namespace Lib

variable {α : Type*}

/-- The inner loop: moves the entries below `j` up while `p` holds of them, and
    gives the position of the gap. -/
def shiftUp (p : α → Bool) : ℕ → List α → ℕ × List α
  | 0, arr => (0, arr)
  | j + 1, arr =>
    match arr[j]? with
    | some a => if p a then shiftUp p j (arr.set (j + 1) a) else (j + 1, arr)
    | none => (j + 1, arr)

/-- The body of the outer loop: puts the `k`-th entry in its place among the
    entries before it. -/
def insertEntry (moves : α → α → Bool) (arr : List α) (k : ℕ) : List α :=
  match arr[k]? with
  | some x =>
    let r := shiftUp (fun a => moves a x) k arr
    r.2.set r.1 x
  | none => arr

/-- Insertion sort. -/
def inPlaceSort (moves : α → α → Bool) (arr : List α) : List α :=
  (List.range' 1 (arr.length - 1)).foldl (insertEntry moves) arr

section
variable (moves : α → α → Bool)

/-- The gap that the inner loop leaves is where an ordered insertion into the
    reversed entries would put `x`. -/
theorem shiftUp_set (x : α) (pre : List α) : ∀ (y : α) (post : List α),
    let r := shiftUp (fun a => moves a x) pre.length (pre ++ y :: post)
    r.2.set r.1 x =
      (pre.reverse.orderedInsert (fun x a => moves a x = false) x).reverse ++ post := by
  induction pre using List.reverseRecOn with
  | nil => intro y post; simp [shiftUp]
  | append_singleton pre z ih =>
    intro y post
    have hz : (pre ++ [z] ++ y :: post)[pre.length]? = some z := by simp
    simp only [List.length_append, List.length_singleton, shiftUp, hz, List.reverse_append,
      List.reverse_singleton, List.singleton_append, List.orderedInsert_cons]
    by_cases h : moves z x = true
    · have hset : (pre ++ [z] ++ y :: post).set (pre.length + 1) z = pre ++ z :: (z :: post) := by
        simp
      rw [if_pos h, hset, ih, if_neg (by simp [h])]
      simp
    · rw [if_neg h, if_pos (by simpa using h)]
      simp

theorem insertEntry_eq (pre : List α) (x : α) (post : List α) :
    insertEntry moves (pre ++ x :: post) pre.length =
      (pre.reverse.orderedInsert (fun x a => moves a x = false) x).reverse ++ post := by
  have hx : (pre ++ x :: post)[pre.length]? = some x := by simp
  rw [insertEntry, hx]
  exact shiftUp_set moves x pre x post

theorem foldl_insertEntry : ∀ (post pre : List α),
    (List.range' pre.length post.length).foldl (insertEntry moves) (pre ++ post) =
      (post.foldl (fun acc x => acc.orderedInsert (fun x a => moves a x = false) x)
        pre.reverse).reverse
  | [], pre => by simp
  | x :: post, pre => by
    have hlen : pre.length + 1 =
        (pre.reverse.orderedInsert (fun x a => moves a x = false) x).reverse.length := by
      simp [List.orderedInsert_length]
    rw [List.length_cons, List.range'_succ, List.foldl_cons, insertEntry_eq, hlen,
      foldl_insertEntry post, List.reverse_reverse, List.foldl_cons]

/-- **The loops compute `List.insertionSort`.** -/
theorem inPlaceSort_eq (arr : List α) :
    inPlaceSort moves arr =
      (arr.reverse.insertionSort fun x a => moves a x = false).reverse := by
  cases arr with
  | nil => rfl
  | cons a arr =>
    have h := foldl_insertEntry moves arr [a]
    simp only [List.length_singleton, List.singleton_append, List.reverse_singleton] at h
    rw [inPlaceSort, List.length_cons, Nat.add_sub_cancel, h, List.insertionSort,
      List.foldr_reverse, List.foldl_cons, List.orderedInsert_nil]

end

/-! ## Sorting by a key, from high to low -/

section
variable {κ : Type*} [LinearOrder κ] (key : α → κ)

/-- Entries with a lower key make room. -/
def lowerKey (a x : α) : Bool := decide (key a < key x)

theorem lowerKey_total : Std.Total fun x a : α => lowerKey key a x = false :=
  ⟨fun a b => by simpa [lowerKey] using le_total (key a) (key b)⟩

theorem lowerKey_trans : IsTrans α fun x a => lowerKey key a x = false :=
  ⟨fun a b c => by simpa [lowerKey] using le_trans⟩

theorem inPlaceSort_perm (arr : List α) : (inPlaceSort (lowerKey key) arr).Perm arr := by
  rw [inPlaceSort_eq]
  exact (List.reverse_perm _).trans ((List.perm_insertionSort _ _).trans (List.reverse_perm _))

theorem inPlaceSort_sorted (arr : List α) :
    (inPlaceSort (lowerKey key) arr).Pairwise fun a b => key b ≤ key a := by
  have := lowerKey_total key
  have := lowerKey_trans key
  rw [inPlaceSort_eq, List.pairwise_reverse]
  refine (List.pairwise_insertionSort _ _).imp fun h => ?_
  simpa [lowerKey] using h

/-- **Stability**: entries with the same key keep their order. -/
theorem inPlaceSort_stable (arr : List α) (k : κ) :
    (inPlaceSort (lowerKey key) arr).filter (key · = k) = arr.filter (key · = k) := by
  have := lowerKey_total key
  have := lowerKey_trans key
  have hp : (arr.reverse.filter (key · = k)).Pairwise fun x a => lowerKey key a x = false :=
    List.pairwise_iff_forall_sublist.2 fun {a b} hab => by
      have ha := List.mem_filter.1 (hab.subset (by simp : a ∈ [a, b]))
      have hb := List.mem_filter.1 (hab.subset (by simp : b ∈ [a, b]))
      simp only [decide_eq_true_eq] at ha hb
      simp [lowerKey, ha.2, hb.2]
  have hsub := (List.sublist_insertionSort hp List.filter_sublist).filter (key · = k)
  rw [List.filter_filter] at hsub
  simp only [Bool.and_self] at hsub
  have hlen := ((inPlaceSort_perm key arr).filter (key · = k)).length_eq
  rw [inPlaceSort_eq, List.filter_reverse] at hlen ⊢
  rw [List.length_reverse] at hlen
  rw [List.filter_reverse] at hsub
  rw [← hsub.eq_of_length (by rw [List.length_reverse, hlen]), List.reverse_reverse]

/-- Two entries with the same key come in the same order after sorting. -/
theorem pair_sublist_inPlaceSort {arr : List α} {a b : α} (h : key a = key b) :
    [a, b].Sublist (inPlaceSort (lowerKey key) arr) ↔ [a, b].Sublist arr := by
  have hpair : ∀ l : List α, [a, b].Sublist l ↔ [a, b].Sublist (l.filter (key · = key b)) :=
    fun l => ⟨fun hl => by simpa [h] using hl.filter (key · = key b),
      fun hl => hl.trans List.filter_sublist⟩
  rw [hpair, inPlaceSort_stable, ← hpair]

end

end Lib
