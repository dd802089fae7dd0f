/-
  Field splitting of the shell.

  An unquoted expansion is cut into fields at the chars of `IFS`.  Blanks
  separate fields; any other char of `IFS` ends a field, which may be empty.

  * `fields`: the fields for the default `IFS`.
  * `fieldsAt`: the fields for an `IFS` of one char that is no blank.
  * `fields_joined`: the fields of words that have been joined by blanks.
  * `fields_joined_fieldsAt`: the fields of a string that has been split at a
    char and joined by blanks.
-/
import Fischstaebchen.Lib.Split

namespace Lib

namespace Shell

/-- The chars of the default `IFS`. -/
def isIfsBlank (c : Char) : Bool := c = ' ' || c = '\t' || c = '\n'

/-- The fields for the default `IFS`. -/
def fields (s : List Char) : List (List Char) := runs isIfsBlank s

/-- The fields for an `IFS` of one char that is no blank: what follows the last
    such char is a field only if it is not empty. -/
def fieldsAt (sep : Char) (s : List Char) : List (List Char) :=
  let parts := s.splitOnP (· == sep)
  if parts.getLast? = some [] then parts.dropLast else parts

/-- `"${*}"`: the words joined by blanks. -/
def joined (ws : List (List Char)) : List Char := [' '].intercalate ws

/-- No char is a blank. -/
def Unblank (s : List Char) : Prop := ∀ c ∈ s, isIfsBlank c = false

instance (s : List Char) : Decidable (Unblank s) := List.decidableBAll _ s

theorem isIfsBlank_space : isIfsBlank ' ' = true := rfl

/-- A word without blanks is its only field, unless it is empty. -/
theorem fields_of_unblank {s : List Char} (h : Unblank s) :
    fields s = if s = [] then [] else [s] := by
  split_ifs with hs
  · rw [hs]; exact runs_nil
  · exact runs_word hs h

theorem joined_cons (w : List Char) {ws : List (List Char)} (h : ws ≠ []) :
    joined (w :: ws) = w ++ ' ' :: joined ws := by
  cases ws with
  | nil => exact absurd rfl h
  | cons v ws => simp [joined, List.intercalate]

/-- **The fields of joined words** are the fields of the words. -/
theorem fields_joined (ws : List (List Char)) : fields (joined ws) = ws.flatMap fields := by
  induction ws with
  | nil => exact runs_nil
  | cons w ws ih =>
    by_cases hws : ws = []
    · subst hws
      simp [joined, List.intercalate]
    · rw [joined_cons w hws, List.flatMap_cons, ← ih]
      exact runs_append_sep w isIfsBlank_space _

/-- Joining words without blanks and splitting gives back the words that are not
    empty. -/
theorem fields_joined_of_unblank {ws : List (List Char)} (h : ∀ w ∈ ws, Unblank w) :
    fields (joined ws) = ws.filter fun w => !w.isEmpty := by
  rw [fields_joined]
  induction ws with
  | nil => rfl
  | cons w ws ih =>
    rw [List.flatMap_cons, fields_of_unblank (h w (by simp)), ih fun v hv => h v (by simp [hv])]
    cases w <;> simp

theorem filter_fieldsAt (sep : Char) (s : List Char) :
    ((fieldsAt sep s).filter fun w => !w.isEmpty) = runs (· == sep) s := by
  rw [fieldsAt, runs]
  split_ifs with hlast
  · rw [List.getLast?_eq_some_iff] at hlast
    obtain ⟨parts, hparts⟩ := hlast
    rw [hparts]
    simp
  · rfl

theorem mem_of_mem_splitOnP {p : Char → Bool} {c : Char} {w : List Char} (hc : c ∈ w) :
    ∀ {s : List Char}, w ∈ s.splitOnP p → c ∈ s
  | [], hw => by
    rw [List.splitOnP_nil, List.mem_singleton] at hw
    rw [hw] at hc
    exact hc
  | x :: s, hw => by
    obtain ⟨v, vs, hs⟩ := List.exists_cons_of_ne_nil (List.splitOnP_ne_nil p s)
    rw [List.splitOnP_cons_eq_if_modifyHead] at hw
    split_ifs at hw with hx
    · rcases List.mem_cons.1 hw with rfl | hw
      · cases hc
      · exact List.mem_cons_of_mem _ (mem_of_mem_splitOnP hc hw)
    · rw [hs, List.modifyHead_cons] at hw
      rcases List.mem_cons.1 hw with rfl | hw
      · rcases List.mem_cons.1 hc with rfl | hc
        · exact List.mem_cons_self
        · exact List.mem_cons_of_mem _ (mem_of_mem_splitOnP hc (hs ▸ List.mem_cons_self))
      · exact List.mem_cons_of_mem _ (mem_of_mem_splitOnP hc (hs ▸ List.mem_cons_of_mem _ hw))

theorem mem_of_mem_fieldsAt {sep c : Char} {s w : List Char} (hw : w ∈ fieldsAt sep s)
    (hc : c ∈ w) : c ∈ s := by
  rw [fieldsAt] at hw
  split_ifs at hw
  · exact mem_of_mem_splitOnP hc (List.dropLast_subset _ hw)
  · exact mem_of_mem_splitOnP hc hw

/-- **Splitting at a char, joining by blanks and splitting again** gives the parts
    between the occurrences of the char that are not empty. -/
theorem fields_joined_fieldsAt {sep : Char} {s : List Char} (h : Unblank s) :
    fields (joined (fieldsAt sep s)) = runs (· == sep) s := by
  rw [fields_joined_of_unblank, filter_fieldsAt]
  intro w hw c hc
  exact h c (mem_of_mem_fieldsAt hw hc)

end Shell

end Lib
