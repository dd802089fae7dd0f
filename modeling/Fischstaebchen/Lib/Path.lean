/-
  Paths: lists whose components are separated by runs of a separator.

  * `components sep p`: the non-empty components of `p`.
  * `joinPath sep abs ws`: the shortest path with the components `ws`, absolute
    if `abs`.  `components_joinPath`, `isAbs_joinPath`: it has these components,
    and is absolute if it should be.
  * `normalPath sep p`: the shortest path like `p`.  It has the same components
    (`components_normalPath`), is normal (`isNormal_normalPath`), not longer
    (`length_normalPath_le`) and its own normal form (`normalPath_idem`).
  * `trimmed_cons_word`, `trimmed_cons_sep`: computing it from left to right;
    only the root has to be restored at the end (`normalPath_of_trimmed`).
  * `squeezed sep p`: the path with single separators.  A separator more next to
    one does not change it (`squeezed_append_sep`).
-/
import Mathlib.Data.List.Destutter
import Fischstaebchen.Lib.Split

namespace Lib

variable {α : Type*} (sep : α)

/-! ## Joining components -/

/-- The path with the given components and a single separator between them. -/
def joinPath (abs : Bool) (ws : List (List α)) : List α :=
  (if abs then [sep] else []) ++ [sep].intercalate ws

/-- Components: not empty, and without separators. -/
def AreNames (ws : List (List α)) : Prop := ∀ w ∈ ws, w ≠ [] ∧ sep ∉ w

/-- A path without superfluous separators. -/
structure IsNormal (p : List α) : Prop where
  noRepeat : ¬ [sep, sep] <:+: p
  noTrailing : p.getLast? = some sep → p = [sep]

variable {sep}

section
variable {ws ws' : List (List α)} {abs : Bool} {w : List α}

theorem AreNames.tail (h : AreNames sep (w :: ws)) : AreNames sep ws :=
  fun v hv => h v (List.mem_cons_of_mem _ hv)

theorem AreNames.append_left (h : AreNames sep (ws ++ ws')) : AreNames sep ws :=
  fun v hv => h v (List.mem_append_left _ hv)

theorem joinPath_concat (hne : ws ≠ []) (w : List α) :
    joinPath sep abs (ws ++ [w]) = joinPath sep abs ws ++ sep :: w := by
  obtain ⟨v, ws, rfl⟩ := List.exists_cons_of_ne_nil hne
  have hjoin : [sep].intercalate (v :: ws ++ [w]) = [sep].intercalate (v :: ws) ++ sep :: w := by
    clear hne
    induction ws generalizing v with
    | nil => simp [List.intercalate]
    | cons u ws ih =>
      rw [List.cons_append, List.cons_append, List.intercalate_cons_cons,
        List.intercalate_cons_cons, ← List.cons_append, ih]
      simp
  rw [joinPath, joinPath, hjoin, List.append_assoc]

theorem joinPath_singleton (w : List α) :
    joinPath sep abs [w] = (if abs then [sep] else []) ++ w := by
  rw [joinPath, List.intercalate_singleton]

theorem intercalate_cons_head (c : α) (w : List α) (ws : List (List α)) :
    [sep].intercalate ((c :: w) :: ws) = c :: [sep].intercalate (w :: ws) := by
  cases ws with
  | nil => rw [List.intercalate_singleton, List.intercalate_singleton]
  | cons v ws => simp only [List.intercalate_cons_cons, List.cons_append]

/-- The first component, and the others with a separator before each of them. -/
theorem intercalate_cons_flatMap (w : List α) (ws : List (List α)) :
    [sep].intercalate (w :: ws) = w ++ ws.flatMap (sep :: ·) := intercalate_cons_eq [sep] w ws

/-- Joined components end with a component. -/
theorem getLast?_joinPath (h : AreNames sep ws) (hlast : (joinPath sep abs ws).getLast? = some sep) :
    abs = true ∧ ws = [] := by
  rcases List.eq_nil_or_concat ws with rfl | ⟨ws, w, rfl⟩
  · cases abs with
    | true => exact ⟨rfl, rfl⟩
    | false => cases hlast
  · obtain ⟨hne, hsep⟩ := h w (by simp)
    have hw : (joinPath sep abs (ws.concat w)).getLast? = w.getLast? := by
      rw [List.concat_eq_append, joinPath, intercalate_concat, ← List.append_assoc,
        List.getLast?_append_of_ne_nil _ hne]
    rw [hw] at hlast
    exact absurd (List.mem_of_getLast? hlast) hsep

/-- No two separators in a row, as a chain. -/
theorem isChain_joinPath (h : AreNames sep ws) :
    (joinPath sep abs ws).IsChain fun a b => ¬ (a = sep ∧ b = sep) := by
  have hword : ∀ w : List α, sep ∉ w → w.IsChain fun a b => ¬ (a = sep ∧ b = sep) := by
    intro w hw
    refine (List.pairwise_of_forall_mem_list fun a ha b _ => ?_).isChain
    rintro ⟨rfl, -⟩
    exact hw ha
  induction ws using List.reverseRecOn with
  | nil => cases abs <;> simp [joinPath]
  | append_singleton ws w ih =>
    obtain ⟨hne, hsep⟩ := h w (by simp)
    obtain ⟨c, cs, rfl⟩ := List.exists_cons_of_ne_nil hne
    have hc : c ≠ sep := fun hc => hsep (hc ▸ List.mem_cons_self)
    have hlast : ((sep :: c :: cs).IsChain fun a b => ¬ (a = sep ∧ b = sep)) :=
      List.isChain_cons_cons.2 ⟨fun hboth => hc hboth.2, hword _ hsep⟩
    by_cases hws : ws = []
    · rw [hws, List.nil_append, joinPath_singleton]
      cases abs with
      | true => exact hlast
      | false => exact hword _ hsep
    · rw [joinPath_concat hws, List.isChain_append]
      refine ⟨ih h.append_left, hlast, ?_⟩
      -- what comes before the last separator ends with a component
      rintro a ha b hb ⟨rfl, -⟩
      exact hws (getLast?_joinPath h.append_left ha).2

theorem isNormal_joinPath (h : AreNames sep ws) : IsNormal sep (joinPath sep abs ws) := by
  constructor
  · rintro ⟨pre, post, hmid⟩
    have hchain : (joinPath sep abs ws).IsChain _ := isChain_joinPath h
    rw [← hmid, List.append_assoc] at hchain
    have hpair := (List.isChain_append.1 hchain).2.1
    exact (List.isChain_cons_cons.1 hpair).1 ⟨rfl, rfl⟩
  · intro hlast
    obtain ⟨rfl, rfl⟩ := getLast?_joinPath h hlast
    rfl

end

/-! ## The components of a path -/

variable [DecidableEq α]

section
variable (sep)

/-- The components of a path. -/
def components (p : List α) : List (List α) := runs (· == sep) p

/-- The path begins with a separator. -/
def isAbs (p : List α) : Bool := p.head? = some sep

/-- The path with the components of `p` and single separators. -/
def normalPath (p : List α) : List α := joinPath sep (isAbs sep p) (components sep p)

end

section
variable {ws ws' : List (List α)} {abs abs' : Bool} {p w : List α}

theorem areNames_components (p : List α) : AreNames sep (components sep p) := by
  intro w hw
  refine ⟨runs_ne_nil hw, fun hsep => ?_⟩
  have hfalse := mem_of_mem_runs hw sep hsep
  simp at hfalse

@[simp] theorem components_nil : components sep ([] : List α) = [] := runs_nil

@[simp] theorem components_cons_sep (p : List α) :
    components sep (sep :: p) = components sep p := runs_cons_sep (by simp) p

theorem components_cons_word {c : α} (hc : c ≠ sep) (p : List α) :
    components sep (c :: p) =
      (c :: p.takeWhile (· != sep)) :: components sep (p.dropWhile (· != sep)) :=
  runs_cons_word (by simpa using hc) p

theorem components_append_sep (p q : List α) :
    components sep (p ++ sep :: q) = components sep p ++ components sep q :=
  runs_append_sep p (by simp) q

/-- A path without separators has one component at most. -/
theorem components_word (hw : sep ∉ w) : components sep w = if w = [] then [] else [w] := by
  split_ifs with hne
  · rw [hne, components_nil]
  · refine runs_word hne fun x hx => ?_
    have hx' : x ≠ sep := ne_of_mem_of_not_mem hx hw
    simpa using hx'

/-- Leading separators do not matter. -/
theorem components_dropWhile (p : List α) :
    components sep (p.dropWhile (· == sep)) = components sep p := runs_dropWhile p

theorem length_components_le (p : List α) : (components sep p).length ≤ p.length := by
  induction p using runs_induction (p := (· == sep)) with
  | nil => exact le_rfl
  | sep a l ha ih =>
    obtain rfl : a = sep := by simpa using ha
    rw [components_cons_sep]
    exact ih.trans (Nat.le_succ _)
  | word a l ha ih =>
    have hdrop := (List.dropWhile_sublist (l := l) (· != sep)).length_le
    rw [components_cons_word (by simpa using ha), List.length_cons, List.length_cons]
    exact Nat.succ_le_succ (ih.trans hdrop)

/-- Joined components do not begin with a separator. -/
theorem isAbs_intercalate (h : AreNames sep ws) : isAbs sep ([sep].intercalate ws) = false := by
  cases ws with
  | nil => rfl
  | cons w ws =>
    obtain ⟨hne, hsep⟩ := h w List.mem_cons_self
    obtain ⟨c, cs, rfl⟩ := List.exists_cons_of_ne_nil hne
    have hc : c ≠ sep := fun hc => hsep (hc ▸ List.mem_cons_self)
    have hhead : ([sep].intercalate ((c :: cs) :: ws)).head? = some c := by
      cases ws with
      | nil => rw [List.intercalate_singleton]; rfl
      | cons v ws => rw [List.intercalate_cons_cons]; rfl
    rw [isAbs, hhead]
    simpa using hc

theorem isAbs_joinPath (h : AreNames sep ws) : isAbs sep (joinPath sep abs ws) = abs := by
  cases abs with
  | true => simp [isAbs, joinPath]
  | false =>
    rw [joinPath, if_neg Bool.false_ne_true, List.nil_append]
    exact isAbs_intercalate h

theorem components_joinPath (h : AreNames sep ws) : components sep (joinPath sep abs ws) = ws := by
  have hws : runs (· == sep) ([sep].intercalate ws) = ws := runs_intercalate sep ws h
  cases abs with
  | true => rw [components, joinPath, if_pos rfl, List.singleton_append, runs_cons_sep (by simp), hws]
  | false => rw [components, joinPath, if_neg Bool.false_ne_true, List.nil_append, hws]

/-- A path in normal form can be told from its components. -/
theorem joinPath_inj (h : AreNames sep ws) (h' : AreNames sep ws')
    (heq : joinPath sep abs ws = joinPath sep abs' ws') : abs = abs' ∧ ws = ws' := by
  have habs : isAbs sep (joinPath sep abs ws) = abs := isAbs_joinPath h
  have hws : components sep (joinPath sep abs ws) = ws := components_joinPath h
  rw [heq] at habs hws
  rw [isAbs_joinPath h'] at habs
  rw [components_joinPath h'] at hws
  exact ⟨habs.symm, hws.symm⟩

/-! ## Normal forms -/

theorem joinPath_eq_nil (h : AreNames sep ws) :
    joinPath sep abs ws = [] ↔ abs = false ∧ ws = [] := by
  constructor
  · intro hnil
    have hnames : AreNames sep ([] : List (List α)) := fun _ hw => absurd hw List.not_mem_nil
    have hempty : joinPath sep abs ws = joinPath sep false [] := hnil
    exact joinPath_inj h hnames hempty
  · rintro ⟨rfl, rfl⟩
    rfl

end

section
variable (p : List α)

@[simp] theorem isAbs_normalPath : isAbs sep (normalPath sep p) = isAbs sep p :=
  isAbs_joinPath (areNames_components p)

@[simp] theorem components_normalPath : components sep (normalPath sep p) = components sep p :=
  components_joinPath (areNames_components p)

theorem isNormal_normalPath : IsNormal sep (normalPath sep p) :=
  isNormal_joinPath (areNames_components p)

/-- **Normal forms are fixed.** -/
theorem normalPath_idem : normalPath sep (normalPath sep p) = normalPath sep p := by
  rw [normalPath, isAbs_normalPath, components_normalPath]
  rfl

theorem normalPath_eq_nil : normalPath sep p = [] ↔ p = [] := by
  rw [normalPath, joinPath_eq_nil (areNames_components p)]
  constructor
  · rintro ⟨habs, hnil⟩
    cases p with
    | nil => rfl
    | cons c p =>
      have hc : (c == sep) = false := by simpa [isAbs] using habs
      rw [components_cons_word (by simpa using hc)] at hnil
      cases hnil
  · rintro rfl
    exact ⟨rfl, runs_nil⟩

/-- The normal form, or nothing if there are no components. -/
def trimmed (sep : α) (p : List α) : List α :=
  if components sep p = [] then [] else normalPath sep p

/-- A component is kept. -/
theorem trimmed_cons_word {c : α} (hc : c ≠ sep) : trimmed sep (c :: p) = c :: trimmed sep p := by
  have habs : isAbs sep (c :: p) = false := by simpa [isAbs] using hc
  have hword : trimmed sep (c :: p) =
      c :: [sep].intercalate (p.takeWhile (· != sep) :: components sep (p.dropWhile (· != sep))) := by
    rw [trimmed, components_cons_word hc, if_neg (List.cons_ne_nil _ _), normalPath, joinPath, habs,
      if_neg Bool.false_ne_true, List.nil_append, components_cons_word hc, intercalate_cons_head]
  rw [hword]
  cases p with
  | nil => simp [trimmed]
  | cons d p =>
    by_cases hd : d = sep
    · subst hd
      have htake : (d :: p).takeWhile (· != d) = [] := by simp
      have hdrop : (d :: p).dropWhile (· != d) = d :: p := by simp
      have habs : isAbs d (d :: p) = true := by simp [isAbs]
      rw [htake, hdrop, components_cons_sep, trimmed, normalPath, joinPath, components_cons_sep, habs]
      cases components d p with
      | nil => rfl
      | cons w ws => rw [List.intercalate_cons_cons]; rfl
    · have htake : (d :: p).takeWhile (· != sep) = d :: p.takeWhile (· != sep) := by simp [hd]
      have hdrop : (d :: p).dropWhile (· != sep) = p.dropWhile (· != sep) := by simp [hd]
      have habs : isAbs sep (d :: p) = false := by simpa [isAbs] using hd
      rw [htake, hdrop, trimmed, components_cons_word hd, if_neg (List.cons_ne_nil _ _), normalPath,
        joinPath, habs, components_cons_word hd]
      rfl

/-- Of several separators one is kept, and none at the end. -/
theorem trimmed_cons_sep : trimmed sep (sep :: p) =
    if p.dropWhile (· == sep) = [] then [] else sep :: trimmed sep (p.dropWhile (· == sep)) := by
  have habs : isAbs sep (sep :: p) = true := by simp [isAbs]
  rw [trimmed, components_cons_sep, ← components_dropWhile]
  cases hdrop : p.dropWhile (· == sep) with
  | nil => rfl
  | cons c q =>
    have hc : c ≠ sep := by
      have hhead := List.head_dropWhile_not (· == sep) (l := p) (by simp [hdrop])
      simpa [hdrop] using hhead
    have habs' : isAbs sep (c :: q) = false := by simpa [isAbs] using hc
    have hne : components sep (c :: q) ≠ [] := by
      rw [components_cons_word hc]
      exact List.cons_ne_nil _ _
    rw [if_neg hne, if_neg (List.cons_ne_nil _ _), trimmed, if_neg hne, normalPath, joinPath, habs,
      components_cons_sep, ← components_dropWhile, hdrop, normalPath, joinPath, habs']
    rfl

/-- Separators are left out, nothing else. -/
theorem trimmed_sublist : (trimmed sep p).Sublist p := by
  induction hn : p.length using Nat.strong_induction_on generalizing p with
  | _ n ih =>
    subst hn
    cases p with
    | nil => exact List.Sublist.refl []
    | cons c p =>
      by_cases hc : c = sep
      · subst hc
        have hdrop := List.dropWhile_sublist (l := p) (· == c)
        have hlen := hdrop.length_le
        rw [trimmed_cons_sep]
        split_ifs
        · exact List.nil_sublist _
        · exact ((ih _ (by rw [List.length_cons]; omega) _ rfl).trans hdrop).cons_cons c
      · rw [trimmed_cons_word p hc]
        exact (ih _ (by rw [List.length_cons]; omega) p rfl).cons_cons c

/-- The root is restored. -/
theorem normalPath_of_trimmed : normalPath sep p =
    if trimmed sep p = [] ∧ isAbs sep p = true then [sep] else trimmed sep p := by
  by_cases hne : components sep p = []
  · rw [trimmed, if_pos hne, normalPath, joinPath, hne]
    cases isAbs sep p <;> rfl
  · have hnil : normalPath sep p ≠ [] := by
      intro hnil
      rw [normalPath_eq_nil] at hnil
      rw [hnil] at hne
      exact hne components_nil
    rw [trimmed, if_neg hne, if_neg fun h => hnil h.1]

/-- A path that does not end with a separator, and has single ones. -/
theorem trimmed_eq_self {p : List α} (hrepeat : ¬ [sep, sep] <:+: p)
    (hlast : p.getLast? ≠ some sep) : trimmed sep p = p := by
  induction p with
  | nil => simp [trimmed]
  | cons c p ih =>
    have hrepeat' : ¬ [sep, sep] <:+: p := fun h => hrepeat (h.trans (List.suffix_cons c p).isInfix)
    by_cases hp : p = []
    · subst hp
      have hc : c ≠ sep := by simpa using hlast
      rw [trimmed_cons_word [] hc]
      simp [trimmed]
    · obtain ⟨d, q, rfl⟩ := List.exists_cons_of_ne_nil hp
      have hlast' : (d :: q).getLast? ≠ some sep := by
        rwa [List.getLast?_cons_cons] at hlast
      by_cases hc : c = sep
      · subst hc
        have hd : d ≠ c := by
          rintro rfl
          exact hrepeat ⟨[], q, rfl⟩
        have hdrop : (d :: q).dropWhile (· == c) = d :: q := by simp [hd]
        rw [trimmed_cons_sep, hdrop, if_neg hp, ih hrepeat' hlast']
      · rw [trimmed_cons_word _ hc, ih hrepeat' hlast']

/-- **Paths without superfluous separators** are their own normal forms. -/
theorem normalPath_of_isNormal {p : List α} (h : IsNormal sep p) : normalPath sep p = p := by
  by_cases hlast : p.getLast? = some sep
  · rw [h.noTrailing hlast]
    simp [normalPath, joinPath, isAbs]
  · have htrimmed : trimmed sep p = p := trimmed_eq_self h.noRepeat hlast
    rw [normalPath_of_trimmed, htrimmed, if_neg]
    rintro ⟨rfl, habs⟩
    cases habs

theorem normalPath_sublist : (normalPath sep p).Sublist p := by
  rw [normalPath_of_trimmed]
  split_ifs with h
  · cases p with
    | nil => cases h.2
    | cons c p =>
      have hc : c = sep := by simpa [isAbs] using h.2
      rw [hc]
      exact (List.nil_sublist p).cons_cons sep
  · exact trimmed_sublist p

/-- Dropping superfluous separators shortens a path. -/
theorem length_normalPath_le : (normalPath sep p).length ≤ p.length :=
  (normalPath_sublist p).length_le

end

/-! ## Repeated separators -/

/-- The path with a single separator for each run of them. -/
def squeezed (sep : α) (p : List α) : List α := p.destutter fun a b => ¬ (a = sep ∧ b = sep)

section
variable {sep : α} (p q : List α)

theorem squeezed_idem : squeezed sep (squeezed sep p) = squeezed sep p := List.destutter_idem _ _

theorem destutter'_append_sep (a : α) :
    (p ++ sep :: sep :: q).destutter' (fun a b => ¬ (a = sep ∧ b = sep)) a =
      (p ++ sep :: q).destutter' (fun a b => ¬ (a = sep ∧ b = sep)) a := by
  induction p generalizing a with
  | nil =>
    by_cases ha : a = sep
    · simp [List.destutter', ha]
    · simp [List.destutter', ha]
  | cons b p ih =>
    rw [List.cons_append, List.cons_append, List.destutter', List.destutter', ih, ih]

/-- A separator next to a separator. -/
theorem squeezed_append_sep :
    squeezed sep (p ++ sep :: sep :: q) = squeezed sep (p ++ sep :: q) := by
  cases p with
  | nil =>
    rw [List.nil_append, List.nil_append, squeezed, squeezed, List.destutter_cons',
      List.destutter_cons', List.destutter'_cons_neg]
    simp
  | cons a p => exact destutter'_append_sep p q a

/-- Separators behind a separator. -/
theorem squeezed_append_dropWhile (r : List α) :
    squeezed sep (p ++ sep :: (q.dropWhile (· == sep) ++ r)) =
      squeezed sep (p ++ sep :: (q ++ r)) := by
  induction q with
  | nil => rfl
  | cons a q ih =>
    by_cases ha : a = sep
    · rw [ha, List.cons_append, squeezed_append_sep, List.dropWhile_cons_of_pos (by simp), ih]
    · rw [List.dropWhile_cons_of_neg (by simpa using ha)]

theorem filter_destutter' (a : α) :
    (p.destutter' (fun a b => ¬ (a = sep ∧ b = sep)) a).filter (· ≠ sep) =
      (a :: p).filter (· ≠ sep) := by
  induction p generalizing a with
  | nil => rfl
  | cons b p ih =>
    by_cases h : a = sep ∧ b = sep
    · rw [List.destutter'_cons_neg _ (not_not.2 h), ih]
      simp [h.1, h.2]
    · rw [List.destutter'_cons_pos _ h, List.filter_cons, ih, List.filter_cons (x := a)]

/-- Only separators are left out. -/
theorem filter_squeezed : (squeezed sep p).filter (· ≠ sep) = p.filter (· ≠ sep) := by
  cases p with
  | nil => rfl
  | cons a p => exact filter_destutter' p a

end

end Lib
