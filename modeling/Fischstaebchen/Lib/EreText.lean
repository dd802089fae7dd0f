/-
  The text of regular expressions without alternation.

  * `ereItems s`: the items of an extended regular expression that consists of chars, `.`,
    bracket expressions, `\s` and `\S`, quoted special chars, and quantifiers.  Others, such
    as groups and anchors, are not covered.
  * `ereItems_append`: one expression after another.
  * `ereItems_word`, `fullMatch_word_iff`: a text of ordinary chars and dots.
-/
import Fischstaebchen.Lib.Ere

namespace Lib

namespace Ere

/-! ## Reading an expression -/

/-- What is being read. -/
inductive Mode
  | plain
  | escape
  /-- After `[`. -/
  | opening
  /-- Inside of brackets: whether the set is complemented, whether a `]` would be the first
      char, and the chars so far. -/
  | bracket (negated first : Bool) (set : List Char)

/-- The mode, and the items so far, the last one first. -/
structure Reader where
  mode : Mode
  items : List (Item Char)

def isSpace (c : Char) : Bool := " \t\n\x0b\x0c\r".toList.contains c

/-- The chars with a meaning of their own. -/
def isSpecial (c : Char) : Bool := "\\[.*+?()\x7b|^$".toList.contains c

def Reader.push (r : Reader) (set : Char → Bool) : Reader := ⟨.plain, ⟨set, .once⟩ :: r.items⟩

/-- A quantifier after an item. -/
def Reader.quantify (r : Reader) (rep : Rep) : Option Reader :=
  match r.items with
  | ⟨set, .once⟩ :: items => some ⟨.plain, ⟨set, rep⟩ :: items⟩
  | _ => none

/-- A char between brackets. -/
def Reader.inBracket (r : Reader) (negated first : Bool) (set : List Char) (c : Char) :
    Option Reader :=
  if c = ']' ∧ first = false then some (r.push fun x => set.contains x != negated)
  -- ranges, classes, and the end of an expression
  else if c = '-' ∨ c = '[' ∨ c = '\n' then none
  else some { r with mode := .bracket negated false (c :: set) }

def Reader.step (r : Reader) (c : Char) : Option Reader :=
  match r.mode with
  | .plain =>
    if c = '.' then some (r.push fun _ => true)
    else if c = '\\' then some { r with mode := .escape }
    else if c = '[' then some { r with mode := .opening }
    else if c = '*' then r.quantify .many
    else if c = '+' then r.quantify .some
    else if c = '?' then r.quantify .opt
    else if isSpecial c || c = '\n' then none
    else some (r.push (· == c))
  | .escape =>
    if c = 's' then some (r.push isSpace)
    else if c = 'S' then some (r.push fun x => !isSpace x)
    else if isSpecial c then some (r.push (· == c))
    else none
  | .opening =>
    if c = '^' then some { r with mode := .bracket true true [] } else r.inBracket false true [] c
  | .bracket negated first set => r.inBracket negated first set c

/-- The items of an expression. -/
def ereItems (s : List Char) : Option (List (Item Char)) :=
  match s.foldlM Reader.step ⟨.plain, []⟩ with
  | some ⟨.plain, items⟩ => some items.reverse
  | _ => none

/-! ## Expressions one after another -/

section
variable {r r' : Reader} {items items' pre : List (Item Char)} {s t : List Char} {c : Char}

/-- Items that have been read before. -/
def Reader.after (r : Reader) (pre : List (Item Char)) : Reader := ⟨r.mode, r.items ++ pre⟩

theorem quantify_after {rep : Rep} (h : r.quantify rep = some r') :
    (r.after pre).quantify rep = some (r'.after pre) := by
  obtain ⟨mode, items⟩ := r
  match items, h with
  | ⟨set, .once⟩ :: items, h =>
    obtain rfl := Option.some.inj h
    rfl

theorem inBracket_after {negated first : Bool} {set : List Char}
    (h : r.inBracket negated first set c = some r') :
    (r.after pre).inBracket negated first set c = some (r'.after pre) := by
  rw [Reader.inBracket] at h ⊢
  split_ifs at h ⊢ with hclose hrange
  · obtain rfl := Option.some.inj h
    rfl
  · obtain rfl := Option.some.inj h
    rfl

/-- **Reading a char** does not depend on the items before, if it succeeds without them. -/
theorem step_after (h : r.step c = some r') : (r.after pre).step c = some (r'.after pre) := by
  obtain ⟨mode, items⟩ := r
  cases mode with
  | plain =>
    simp only [Reader.step] at h
    simp only [Reader.step, Reader.after]
    split_ifs at h ⊢
    all_goals first
      | exact quantify_after h
      | (obtain rfl := Option.some.inj h; rfl)
  | escape =>
    simp only [Reader.step] at h
    simp only [Reader.step, Reader.after]
    split_ifs at h ⊢
    all_goals (obtain rfl := Option.some.inj h; rfl)
  | opening =>
    simp only [Reader.step] at h
    simp only [Reader.step, Reader.after]
    split_ifs at h ⊢
    · obtain rfl := Option.some.inj h
      rfl
    · exact inBracket_after h
  | bracket negated first set => exact inBracket_after h

theorem foldlM_after (h : s.foldlM Reader.step r = some r') :
    s.foldlM Reader.step (r.after pre) = some (r'.after pre) := by
  induction s generalizing r with
  | nil =>
    obtain rfl := Option.some.inj h
    rfl
  | cons c s ih =>
    rw [List.foldlM_cons, Option.bind_eq_bind, Option.bind_eq_some_iff] at h
    obtain ⟨r₁, hstep, hrest⟩ := h
    rw [List.foldlM_cons, step_after hstep]
    exact ih hrest

theorem ereItems_eq_some_iff : ereItems s = some items ↔
    s.foldlM Reader.step ⟨.plain, []⟩ = some ⟨.plain, items.reverse⟩ := by
  rw [ereItems]
  constructor
  · intro h
    split at h
    · next is heq =>
      rw [heq, ← Option.some.inj h, List.reverse_reverse]
    · cases h
  · intro h
    rw [h]
    show some items.reverse.reverse = some items
    rw [List.reverse_reverse]

/-- **One expression after another** has the items of both. -/
theorem ereItems_append (hs : ereItems s = some items) (ht : ereItems t = some items') :
    ereItems (s ++ t) = some (items ++ items') := by
  rw [ereItems_eq_some_iff] at hs ht ⊢
  rw [List.foldlM_append, hs]
  have hafter : t.foldlM Reader.step (Reader.after ⟨.plain, []⟩ items.reverse) =
      some (Reader.after ⟨.plain, items'.reverse⟩ items.reverse) := foldlM_after ht
  rw [List.reverse_append]
  exact hafter

end

/-! ## Texts of ordinary chars and dots -/

/-- The char stands for itself, or is a dot. -/
def isOrdinary (c : Char) : Bool := c = '.' || !(isSpecial c || c = '\n')

/-- The item of an ordinary char, or of a dot. -/
def charItem (c : Char) : Item Char := ⟨fun x => c = '.' || x == c, .once⟩

/-- The texts are the same, except where the first one has a dot. -/
def Agrees (s t : List Char) : Prop := List.Forall₂ (fun c x => c = '.' ∨ x = c) s t

section
variable {s t : List Char} {c : Char}

theorem step_ordinary (h : isOrdinary c = true) (items : List (Item Char)) :
    Reader.step ⟨.plain, items⟩ c = some ⟨.plain, charItem c :: items⟩ := by
  by_cases hdot : c = '.'
  · subst hdot
    simp [Reader.step, Reader.push, charItem]
  · have hplain : (isSpecial c || decide (c = '\n')) = false := by
      simpa [isOrdinary, hdot] using h
    have hspecial : ∀ d, isSpecial d = true → c ≠ d := by
      rintro d hd rfl
      rw [hd] at hplain
      cases hplain
    rw [Reader.step]
    dsimp only
    rw [if_neg hdot, if_neg (hspecial '\\' (by decide)), if_neg (hspecial '[' (by decide)),
      if_neg (hspecial '*' (by decide)), if_neg (hspecial '+' (by decide)),
      if_neg (hspecial '?' (by decide)), if_neg (by simp [hplain])]
    simp [Reader.push, charItem, hdot]

/-- **The items of a text** of ordinary chars and dots. -/
theorem ereItems_word (h : ∀ c ∈ s, isOrdinary c = true) :
    ereItems s = some (s.map charItem) := by
  rw [ereItems_eq_some_iff]
  have hrun : ∀ items, s.foldlM Reader.step ⟨.plain, items⟩ =
      some ⟨.plain, (s.map charItem).reverse ++ items⟩ := by
    induction s with
    | nil =>
      intro items
      rfl
    | cons c s ih =>
      intro items
      rw [List.foldlM_cons, step_ordinary (h c (by simp))]
      show s.foldlM Reader.step ⟨.plain, charItem c :: items⟩ = _
      rw [ih fun x hx => h x (by simp [hx])]
      simp
  rw [hrun, List.append_nil]

theorem fullMatch_word_iff : fullMatch (s.map charItem) t = true ↔ Agrees s t := by
  induction s generalizing t with
  | nil => rw [List.map_nil, fullMatch_nil_iff, Agrees, List.forall₂_nil_left_iff]
  | cons c s ih =>
    rw [List.map_cons, charItem, fullMatch_once_iff, Agrees, List.forall₂_cons_left_iff]
    constructor
    · rintro ⟨x, v, rfl, hx, hv⟩
      exact ⟨x, v, by simpa using hx, ih.1 hv, rfl⟩
    · rintro ⟨x, v, hx, hv, rfl⟩
      exact ⟨x, v, rfl, by simpa using hx, ih.2 hv⟩

theorem agrees_self (s : List Char) : Agrees s s := List.forall₂_same.2 fun _ _ => .inr rfl

end

end Ere

end Lib
