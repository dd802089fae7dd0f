/-
  Acquired resources.

  Resources `α` have states `β`.  `Acquired free taken base cur keys` says that
  the resources `keys`, which were `free` in the states `base`, are now taken,
  and that the states `cur` of all others are still those of `base`.

  Acquiring and releasing a resource keep such a statement (`acquire`,
  `release`); when nothing is held any more, all resources are as before
  (`acquired_nil`).
-/
import Mathlib.Tactic

namespace Lib

variable {α β : Type*}

structure Acquired (free : β) (taken : β → Prop) (base cur : α → β) (keys : List α) : Prop where
  nodup : keys.Nodup
  wasFree : ∀ k ∈ keys, base k = free
  isTaken : ∀ k ∈ keys, taken (cur k)
  other : ∀ k, k ∉ keys → cur k = base k

section
variable {free : β} {taken : β → Prop} {base cur : α → β} {keys : List α} {k : α}

theorem acquired_nil : Acquired free taken base cur [] ↔ cur = base :=
  ⟨fun h => funext fun k => h.other k List.not_mem_nil, fun h => by
    subst h; exact ⟨List.nodup_nil, by simp, by simp, fun _ _ => rfl⟩⟩

/-- What is held is no longer as before. -/
theorem Acquired.ne_base (h : Acquired free taken base cur keys) (hfree : ¬ taken free)
    (hk : k ∈ keys) : cur k ≠ base k := by
  intro heq
  have := h.isTaken k hk
  rw [heq, h.wasFree k hk] at this
  exact hfree this

theorem Acquired.perm {keys' : List α} (h : Acquired free taken base cur keys)
    (hp : keys.Perm keys') : Acquired free taken base cur keys' :=
  ⟨hp.nodup h.nodup, fun k hk => h.wasFree k (hp.mem_iff.2 hk),
    fun k hk => h.isTaken k (hp.mem_iff.2 hk),
    fun k hk => h.other k fun hk' => hk (hp.mem_iff.1 hk')⟩

/-- Another way of being taken. -/
theorem Acquired.of_taken {taken' : β → Prop} (h : Acquired free taken base cur keys)
    (ht : ∀ k ∈ keys, taken' (cur k)) : Acquired free taken' base cur keys :=
  ⟨h.nodup, h.wasFree, ht, h.other⟩

variable [DecidableEq α]

/-- Taking a free resource. -/
theorem Acquired.acquire (h : Acquired free taken base cur keys) (hfree : ¬ taken free)
    (hk : cur k = free) {v : β} (hv : taken v) :
    Acquired free taken base (Function.update cur k v) (keys ++ [k]) := by
  have hnot : k ∉ keys := fun hmem => hfree (hk ▸ h.isTaken k hmem)
  have hne : ∀ j ∈ keys, j ≠ k := fun j hj hjk => hnot (hjk ▸ hj)
  refine ⟨?_, fun j hj => ?_, fun j hj => ?_, fun j hj => ?_⟩
  · exact List.nodup_append.2 ⟨h.nodup, by simp, by simpa using hne⟩
  · rcases List.mem_append.1 hj with hj | hj
    · exact h.wasFree j hj
    · rw [List.mem_singleton.1 hj, ← h.other k hnot, hk]
  · rcases List.mem_append.1 hj with hj | hj
    · rw [Function.update_of_ne (hne j hj)]; exact h.isTaken j hj
    · rw [List.mem_singleton.1 hj, Function.update_self]; exact hv
  · simp only [List.mem_append, List.mem_singleton, not_or] at hj
    rw [Function.update_of_ne hj.2]; exact h.other j hj.1

/-- Releasing a resource. -/
theorem Acquired.release (h : Acquired free taken base cur (k :: keys)) :
    Acquired free taken base (Function.update cur k free) keys := by
  obtain ⟨hnot, hnodup⟩ := List.nodup_cons.1 h.nodup
  have hne : ∀ j ∈ keys, j ≠ k := fun j hj hjk => hnot (hjk ▸ hj)
  refine ⟨hnodup, fun j hj => h.wasFree j (by simp [hj]), fun j hj => ?_, fun j hj => ?_⟩
  · rw [Function.update_of_ne (hne j hj)]; exact h.isTaken j (by simp [hj])
  · by_cases hjk : j = k
    · rw [hjk, Function.update_self, h.wasFree k (by simp)]
    · rw [Function.update_of_ne hjk]; exact h.other j (by simp [hj, hjk])

/-- Releasing the resource that was taken last. -/
theorem Acquired.release_last (h : Acquired free taken base cur (keys ++ [k])) :
    Acquired free taken base (Function.update cur k free) keys :=
  (h.perm (List.perm_append_singleton k keys)).release

/-- Using a resource that is held. -/
theorem Acquired.use (h : Acquired free taken base cur keys) (hk : k ∈ keys) {v : β}
    (hv : taken v) : Acquired free taken base (Function.update cur k v) keys := by
  refine ⟨h.nodup, h.wasFree, fun j hj => ?_, fun j hj => ?_⟩
  · by_cases hjk : j = k
    · rw [hjk, Function.update_self]; exact hv
    · rw [Function.update_of_ne hjk]; exact h.isTaken j hj
  · rw [Function.update_of_ne fun hjk => hj (by rw [hjk]; exact hk)]; exact h.other j hj

end

end Lib
