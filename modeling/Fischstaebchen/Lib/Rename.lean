/-
  Stores of named contents, and changes of the names.

  * `contents_moved`: no content is lost if an entry gets a name that is free.
-/
import Mathlib.Data.Set.Basic
import Mathlib.Logic.Function.Basic

namespace Lib

variable {α β : Type*}

/-- What is stored. -/
def contents (f : α → Option β) : Set β := {c | ∃ p, f p = some c}

section
variable [DecidableEq α] {f : α → Option β} {src dst p : α}

/-- The entry `src` gets the name `dst`. -/
def moved (f : α → Option β) (src dst : α) : α → Option β :=
  Function.update (Function.update f src none) dst (f src)

@[simp] theorem moved_dst : moved f src dst dst = f src := Function.update_self ..

theorem moved_src (h : src ≠ dst) : moved f src dst src = none := by
  rw [moved, Function.update_of_ne h, Function.update_self]

theorem moved_of_ne (hsrc : p ≠ src) (hdst : p ≠ dst) : moved f src dst p = f p := by
  rw [moved, Function.update_of_ne hdst, Function.update_of_ne hsrc]

/-- A free name is used. -/
theorem contents_update (hfree : f dst = none) (v : Option β) :
    contents f ⊆ contents (Function.update f dst v) := by
  rintro c ⟨q, hq⟩
  have hne : q ≠ dst := by
    rintro rfl
    rw [hfree] at hq
    cases hq
  exact ⟨q, by rw [Function.update_of_ne hne, hq]⟩

/-- **An entry that is moved to a free name** is not lost, nor is any other. -/
theorem contents_moved (hfree : f dst = none) : contents f ⊆ contents (moved f src dst) := by
  rintro c ⟨q, hq⟩
  by_cases hsrc : q = src
  · subst hsrc
    exact ⟨dst, by rw [moved_dst, hq]⟩
  · have hdst : q ≠ dst := by
      rintro rfl
      rw [hfree] at hq
      cases hq
    exact ⟨q, by rw [moved_of_ne hsrc hdst, hq]⟩

/-- A link whose first name is removed has been moved. -/
theorem removed_linked (hne : src ≠ dst) :
    Function.update (Function.update f dst (f src)) src none = moved f src dst := by
  rw [moved, Function.update_comm hne]

end

end Lib
