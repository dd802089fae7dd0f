/-
  Requests that are granted at most once.

  Keys are requested one after another.  Some keys may be granted only once: these are
  granted unless they have been used before.  The other keys are always granted.

  * `granted_append`: requests are handled one after another.
  * `granted_congr`: what is granted depends only on the use of the requested keys.
  * `length_granted_eq_iff`: with more keys used, as many requests are granted exactly if
    none of the requested keys is among those that are used in addition.
  * `Grants.handleAll`, `Grants.eq_iff`: a function whose results depend on the used keys
    only by what is granted, and when two results are the same.
-/
import Mathlib.Tactic

namespace Lib

variable {κ : Type*} [DecidableEq κ] (once : κ → Bool)

/-- The requests that are granted. -/
def granted : List κ → List κ → List κ
  | _, [] => []
  | used, k :: ks =>
    if once k = true ∧ k ∈ used then granted used ks else k :: granted (k :: used) ks

/-- The keys that are used afterwards. -/
def usedAfter : List κ → List κ → List κ
  | used, [] => used
  | used, k :: ks =>
    if once k = true ∧ k ∈ used then usedAfter used ks else usedAfter (k :: used) ks

variable {once}

theorem granted_cons_of_denied {used : List κ} {k : κ} (h : once k = true ∧ k ∈ used)
    (ks : List κ) : granted once used (k :: ks) = granted once used ks := by
  rw [granted, if_pos h]

theorem granted_cons_of_granted {used : List κ} {k : κ} (h : ¬(once k = true ∧ k ∈ used))
    (ks : List κ) : granted once used (k :: ks) = k :: granted once (k :: used) ks := by
  rw [granted, if_neg h]

/-- A requested key is used. -/
theorem mem_usedAfter {k : κ} (used ks : List κ) :
    k ∈ usedAfter once used ks ↔ k ∈ used ∨ k ∈ ks := by
  induction ks generalizing used with
  | nil => simp [usedAfter]
  | cons k' ks ih =>
    rw [usedAfter]
    by_cases h : once k' = true ∧ k' ∈ used
    · rw [if_pos h, ih, List.mem_cons]
      constructor
      · rintro (hk | hk)
        · exact .inl hk
        · exact .inr (.inr hk)
      · rintro (hk | rfl | hk)
        · exact .inl hk
        · exact .inl h.2
        · exact .inr hk
    · rw [if_neg h, ih, List.mem_cons, List.mem_cons]
      tauto

/-- Requests are handled one after another. -/
theorem usedAfter_append (used ks ks' : List κ) :
    usedAfter once used (ks ++ ks') = usedAfter once (usedAfter once used ks) ks' := by
  induction ks generalizing used with
  | nil => rfl
  | cons k ks ih =>
    simp only [List.cons_append, usedAfter]
    split
    · exact ih used
    · exact ih (k :: used)

theorem granted_append (used ks ks' : List κ) :
    granted once used (ks ++ ks') =
      granted once used ks ++ granted once (usedAfter once used ks) ks' := by
  induction ks generalizing used with
  | nil => rfl
  | cons k ks ih =>
    simp only [List.cons_append, granted, usedAfter]
    split
    · exact ih used
    · rw [ih, List.cons_append]

/-- **What is granted depends only on the use of the requested keys.** -/
theorem granted_congr {used used' ks : List κ}
    (h : ∀ k ∈ ks, once k = true → (k ∈ used ↔ k ∈ used')) :
    granted once used ks = granted once used' ks := by
  induction ks generalizing used used' with
  | nil => rfl
  | cons k ks ih =>
    have hk : once k = true ∧ k ∈ used ↔ once k = true ∧ k ∈ used' :=
      and_congr_right (h k List.mem_cons_self)
    by_cases hd : once k = true ∧ k ∈ used
    · rw [granted_cons_of_denied hd, granted_cons_of_denied (hk.1 hd)]
      exact ih fun x hx => h x (List.mem_cons_of_mem _ hx)
    · rw [granted_cons_of_granted hd, granted_cons_of_granted (hd ∘ hk.2)]
      congr 1
      refine ih fun x hx hox => ?_
      rw [List.mem_cons, List.mem_cons, h x (List.mem_cons_of_mem _ hx) hox]

/-- With more keys used, no more requests are granted. -/
theorem length_granted_le {used used' : List κ} (hsub : ∀ k ∈ used', k ∈ used) (ks : List κ) :
    (granted once used ks).length ≤ (granted once used' ks).length := by
  induction ks generalizing used used' with
  | nil => exact le_rfl
  | cons k ks ih =>
    have hcons : ∀ x ∈ k :: used', x ∈ k :: used := List.cons_subset_cons k hsub
    by_cases hd' : once k = true ∧ k ∈ used'
    · rw [granted_cons_of_denied hd', granted_cons_of_denied ⟨hd'.1, hsub k hd'.2⟩]
      exact ih hsub
    · rw [granted_cons_of_granted hd', List.length_cons]
      by_cases hd : once k = true ∧ k ∈ used
      · rw [granted_cons_of_denied hd]
        refine (ih fun x hx => ?_).trans (Nat.le_succ _)
        rcases List.mem_cons.1 hx with rfl | hx
        · exact hd.2
        · exact hsub x hx
      · rw [granted_cons_of_granted hd, List.length_cons]
        exact Nat.succ_le_succ (ih hcons)

/-- **As many requests are granted** exactly if no requested key is one of those that are
    used in addition. -/
theorem length_granted_eq_iff {used used' : List κ} (hsub : ∀ k ∈ used', k ∈ used)
    (ks : List κ) :
    (granted once used ks).length = (granted once used' ks).length ↔
      ∀ k ∈ ks, once k = true → k ∈ used → k ∈ used' := by
  constructor
  · intro h
    induction ks generalizing used used' with
    | nil => exact fun k hk => absurd hk List.not_mem_nil
    | cons k ks ih =>
      have hcons : ∀ x ∈ k :: used', x ∈ k :: used := List.cons_subset_cons k hsub
      by_cases hd' : once k = true ∧ k ∈ used'
      · rw [granted_cons_of_denied hd', granted_cons_of_denied ⟨hd'.1, hsub k hd'.2⟩] at h
        intro x hx hox hux
        rcases List.mem_cons.1 hx with rfl | hx
        · exact hd'.2
        · exact ih hsub h x hx hox hux
      · rw [granted_cons_of_granted hd', List.length_cons] at h
        by_cases hd : once k = true ∧ k ∈ used
        -- granted only where fewer keys are used
        · rw [granted_cons_of_denied hd] at h
          have hcons' : ∀ x ∈ k :: used', x ∈ used := fun x hx =>
            (List.mem_cons.1 hx).elim (fun h => h ▸ hd.2) (hsub x)
          have hle : (granted once used ks).length ≤ (granted once (k :: used') ks).length :=
            length_granted_le hcons' ks
          omega
        · rw [granted_cons_of_granted hd, List.length_cons, Nat.succ_inj] at h
          have hrest := ih hcons h
          intro x hx hox hux
          by_cases hxk : x = k
          · subst hxk
            exact absurd ⟨hox, hux⟩ hd
          · have hmem := hrest x ((List.mem_cons.1 hx).resolve_left hxk) hox
              (List.mem_cons_of_mem _ hux)
            exact (List.mem_cons.1 hmem).resolve_left hxk
  · intro h
    rw [granted_congr fun k hk hok => ⟨h k hk hok, hsub k⟩]

/-! ## Functions that request keys -/

section
variable {σ α β γ : Type*}

/-- The items are handled one after another. -/
def handleAll (f : σ → α → σ × β) : σ → List α → σ × List β
  | s, [] => (s, [])
  | s, a :: as =>
    ((handleAll f (f s a).1 as).1, (f s a).2 :: (handleAll f (f s a).1 as).2)

theorem length_handleAll (f : σ → α → σ × β) (s : σ) (as : List α) :
    (handleAll f s as).2.length = as.length := by
  induction as generalizing s with
  | nil => rfl
  | cons a as ih => rw [handleAll, List.length_cons, ih, List.length_cons]

theorem handleAll_append (f : σ → α → σ × β) (s : σ) (as as' : List α) :
    handleAll f s (as ++ as') =
      ((handleAll f (handleAll f s as).1 as').1,
        (handleAll f s as).2 ++ (handleAll f (handleAll f s as).1 as').2) := by
  induction as generalizing s with
  | nil => rfl
  | cons a as ih =>
    rw [List.cons_append, handleAll, ih]
    rfl

end

section
variable {α β γ : Type*} (once)

/-- The function requests the keys `req a`; its result depends on the used keys only by
    what is granted, and its weight counts the granted keys. -/
structure Grants (f : List κ → α → List κ × β) (req : α → List κ) (weight : β → ℕ) : Prop where
  used : ∀ u a, (f u a).1 = usedAfter once u (req a)
  congr : ∀ u v a, (∀ k ∈ req a, once k = true → (k ∈ u ↔ k ∈ v)) → (f u a).2 = (f v a).2
  weight : ∃ base : α → ℕ, ∀ u a, weight (f u a).2 = base a + (granted once u (req a)).length

variable {once} {f : List κ → α → List κ × β} {req : α → List κ} {weight : β → ℕ}

/-- Items that are handled one after another. -/
theorem Grants.handleAll (h : Grants once f req weight) :
    Grants once (handleAll f) (fun as => as.flatMap req) fun bs => (bs.map weight).sum := by
  refine ⟨?_, ?_, ?_⟩
  · intro u as
    induction as generalizing u with
    | nil => rfl
    | cons a as ih => rw [Lib.handleAll, List.flatMap_cons, usedAfter_append, ih, h.used]
  · intro u v as
    induction as generalizing u v with
    | nil => exact fun _ => rfl
    | cons a as ih =>
      intro hagree
      rw [List.flatMap_cons] at hagree
      rw [Lib.handleAll, Lib.handleAll,
        h.congr u v a fun k hk => hagree k (List.mem_append_left _ hk)]
      dsimp only
      congr 1
      refine ih _ _ fun k hk hok => ?_
      rw [h.used, h.used, mem_usedAfter, mem_usedAfter,
        hagree k (List.mem_append_right _ hk) hok]
  · obtain ⟨base, hbase⟩ := h.weight
    refine ⟨fun as => (as.map base).sum, fun u as => ?_⟩
    induction as generalizing u with
    | nil => rfl
    | cons a as ih =>
      rw [Lib.handleAll, List.map_cons, List.sum_cons, ih, hbase, h.used, List.flatMap_cons,
        granted_append, List.length_append]
      simp only [List.map_cons, List.sum_cons]
      omega

/-- A function of the result, with the same weight. -/
theorem Grants.map (h : Grants once f req weight) {g : β → γ} {weight' : γ → ℕ}
    (hg : ∀ b, weight' (g b) = weight b) :
    Grants once (fun u a => ((f u a).1, g (f u a).2)) req weight' := by
  refine ⟨h.used, fun u v a hagree => ?_, ?_⟩
  · dsimp only
    rw [h.congr u v a hagree]
  · obtain ⟨base, hbase⟩ := h.weight
    exact ⟨base, fun u a => (hg _).trans (hbase u a)⟩

/-- **The results are the same** exactly if no requested key is used in addition. -/
theorem Grants.eq_iff (h : Grants once f req weight) {used used' : List κ}
    (hsub : ∀ k ∈ used', k ∈ used) (a : α) :
    (f used a).2 = (f used' a).2 ↔ ∀ k ∈ req a, once k = true → k ∈ used → k ∈ used' := by
  obtain ⟨base, hbase⟩ := h.weight
  constructor
  · intro heq
    have hweight := congrArg weight heq
    rw [hbase, hbase] at hweight
    exact (length_granted_eq_iff hsub (req a)).1 (Nat.add_left_cancel hweight)
  · intro hreq
    exact h.congr used used' a fun k hk hok => ⟨hreq k hk hok, hsub k⟩

end

end Lib
