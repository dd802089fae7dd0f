/-
  Patterns of the shell, as in a `case` statement.

  * `matches_words`: patterns without special chars match the words that they are.
  * `matches_prefix`, `matches_suffix`, `matches_inner`: patterns with stars.
  * `selectArm_of_split`, `selectArm_eq_none`: the arm of a `case` statement.
-/
import Mathlib.Tactic

namespace Lib

namespace Shell

/-- What a pattern consists of. -/
inductive GlobAtom
  | char (c : Char)
  | any
  | star
  deriving DecidableEq

def globAtom (c : Char) : GlobAtom :=
  if c = '*' then .star else if c = '?' then .any else .char c

/-- Whether a string matches a pattern. -/
def glob : List GlobAtom → List Char → Bool
  | [], s => s.isEmpty
  | .star :: p, s => p.isEmpty || s.tails.any (glob p)
  | .any :: _, [] => false
  | .any :: p, _ :: s => glob p s
  | .char _ :: _, [] => false
  | .char c :: p, x :: s => x = c && glob p s

/-- `case s in p|...)`: whether the string matches one of the patterns. -/
def caseOf (s : List Char) (patterns : List String) : Bool :=
  patterns.any fun p => glob (p.toList.map globAtom) s

/-- The arm of a `case` statement whose patterns match first. -/
def selectArm {α : Type*} (arms : List (List String × α)) (s : List Char) : Option α :=
  (arms.find? fun arm => caseOf s arm.1).map Prod.snd

/-- `${s%w}` for a word that stands for itself. -/
def withoutSuffix (w s : List Char) : List Char :=
  if w <:+ s then s.take (s.length - w.length) else s

@[simp] theorem withoutSuffix_append (s w : List Char) : withoutSuffix w (s ++ w) = s := by
  rw [withoutSuffix, if_pos (List.suffix_append s w), List.length_append, Nat.add_sub_cancel,
    List.take_left]

/-- The char has no special meaning in a pattern. -/
def IsPlain (c : Char) : Prop := c ≠ '*' ∧ c ≠ '?'

instance (c : Char) : Decidable (IsPlain c) := inferInstanceAs (Decidable (_ ∧ _))

/-- No char has a special meaning in a pattern. -/
def IsLiteral (s : List Char) : Prop := ∀ c ∈ s, IsPlain c

instance (s : List Char) : Decidable (IsLiteral s) := List.decidableBAll _ s

theorem globAtom_of_plain {c : Char} (h : IsPlain c) : globAtom c = .char c := by
  rw [globAtom, if_neg h.1, if_neg h.2]

/-- A pattern that starts with plain chars. -/
theorem glob_plain_append {w : List Char} (hw : IsLiteral w) (p : List GlobAtom) :
    ∀ s : List Char, glob (w.map globAtom ++ p) s = true ↔ ∃ r, s = w ++ r ∧ glob p r = true := by
  induction w with
  | nil => simp
  | cons c w ih =>
    have hc := globAtom_of_plain (hw c (by simp))
    have ih := ih fun x hx => hw x (by simp [hx])
    intro s
    rw [List.map_cons, List.cons_append, hc]
    cases s with
    | nil => simp [glob]
    | cons x s =>
      rw [glob, Bool.and_eq_true, ih, decide_eq_true_eq]
      constructor
      · rintro ⟨rfl, r, rfl, hr⟩
        exact ⟨r, rfl, hr⟩
      · rintro ⟨r, hs, hr⟩
        rw [List.cons_append, List.cons.injEq] at hs
        exact ⟨hs.1, r, hs.2, hr⟩

/-- A plain pattern matches itself. -/
theorem glob_word {w s : List Char} (hw : IsLiteral w) :
    glob (w.map globAtom) s = true ↔ s = w := by
  have h := glob_plain_append hw [] s
  rw [List.append_nil] at h
  rw [h]
  constructor
  · rintro ⟨r, rfl, hr⟩
    rw [List.isEmpty_iff.1 hr, List.append_nil]
  · rintro rfl
    exact ⟨[], (List.append_nil _).symm, rfl⟩

theorem glob_star (s : List Char) : glob [.star] s = true := rfl

/-- **Plain patterns** match the words that they are. -/
theorem matches_words {patterns : List String} (h : ∀ p ∈ patterns, IsLiteral p.toList)
    {s : List Char} : caseOf s patterns = true ↔ ∃ p ∈ patterns, s = p.toList := by
  rw [caseOf, List.any_eq_true]
  constructor
  · rintro ⟨p, hp, hs⟩
    exact ⟨p, hp, (glob_word (h p hp)).1 hs⟩
  · rintro ⟨p, hp, hs⟩
    exact ⟨p, hp, (glob_word (h p hp)).2 hs⟩

/-- A pattern such as `*,*` matches the strings with its char. -/
theorem matches_char {c : Char} (hc : IsPlain c) {p : String} (hp : p.toList = ['*', c, '*'])
    {s : List Char} : caseOf s [p] = true ↔ c ∈ s := by
  have hpattern : p.toList.map globAtom = [.star, .char c, .star] := by
    rw [hp, List.map_cons, List.map_cons, globAtom_of_plain hc]
    rfl
  rw [caseOf, List.any_cons, List.any_nil, Bool.or_false, hpattern, glob, List.isEmpty_cons,
    Bool.false_or, List.any_eq_true]
  constructor
  · rintro ⟨r, hr, hglob⟩
    cases r with
    | nil => cases hglob
    | cons x r =>
      rw [glob, Bool.and_eq_true, decide_eq_true_eq] at hglob
      rw [List.mem_tails] at hr
      exact hr.subset (hglob.1 ▸ List.mem_cons_self)
  · intro hmem
    obtain ⟨l, r, rfl⟩ := List.append_of_mem hmem
    refine ⟨c :: r, (List.mem_tails _ _).2 (List.suffix_append _ _), ?_⟩
    rw [glob, glob_star, decide_eq_true rfl]
    rfl

theorem glob_star_word {w : List Char} (hw : IsLiteral w) (s : List Char) :
    glob (.star :: w.map globAtom) (s ++ w) = true := by
  rw [glob, Bool.or_eq_true, List.any_eq_true]
  exact .inr ⟨w, (List.mem_tails _ _).2 (List.suffix_append _ _), (glob_word hw).2 rfl⟩

/-- A pattern such as `/*=rw` matches the strings that start and end so. -/
theorem matches_ends {pre suf : List Char} {p : String} (hp : p.toList = pre ++ '*' :: suf)
    (hpre : IsLiteral pre) (hsuf : IsLiteral suf) (s : List Char) :
    glob (p.toList.map globAtom) (pre ++ s ++ suf) = true := by
  rw [hp, List.map_append, List.map_cons, glob_plain_append hpre]
  exact ⟨s ++ suf, List.append_assoc _ _ _, glob_star_word hsuf s⟩

/-- A pattern such as `file=*` matches the strings that start so. -/
theorem matches_prefix {w : List Char} (hw : IsLiteral w) {p : String} (hp : p.toList = w ++ ['*'])
    {s : List Char} : glob (p.toList.map globAtom) s = true ↔ w <+: s := by
  rw [hp, List.map_append, glob_plain_append hw]
  constructor
  · rintro ⟨r, rfl, -⟩
    exact List.prefix_append _ _
  · rintro ⟨r, rfl⟩
    exact ⟨r, rfl, rfl⟩

/-- A pattern such as `*.sfs` matches the strings that end so. -/
theorem matches_suffix {w : List Char} (hw : IsLiteral w) {p : String} (hp : p.toList = '*' :: w)
    {s : List Char} : glob (p.toList.map globAtom) s = true ↔ w <:+ s := by
  have hpattern : p.toList.map globAtom = .star :: w.map globAtom := by
    rw [hp]
    rfl
  rw [hpattern]
  constructor
  · intro h
    rw [glob, Bool.or_eq_true, List.any_eq_true] at h
    rcases h with h | ⟨r, hr, h⟩
    · rw [List.map_eq_nil_iff.1 (List.isEmpty_iff.1 h)]
      exact List.nil_suffix
    · rw [(glob_word hw).1 h] at hr
      exact (List.mem_tails _ _).1 hr
  · rintro ⟨r, rfl⟩
    exact glob_star_word hw r

/-- A pattern such as `?*/?*` matches the strings with its char, neither first nor last. -/
theorem matches_inner {c : Char} (hc : IsPlain c) {p : String}
    (hp : p.toList = ['?', '*', c, '?', '*']) {s : List Char} :
    glob (p.toList.map globAtom) s = true ↔ ∃ a u b v, s = a :: (u ++ c :: b :: v) := by
  have hpattern : p.toList.map globAtom = [.any, .star, .char c, .any, .star] := by
    rw [hp]
    simp only [List.map_cons, globAtom_of_plain hc]
    rfl
  rw [hpattern]
  cases s with
  | nil => simp [glob]
  | cons a s =>
    rw [glob, glob, List.isEmpty_cons, Bool.false_or, List.any_eq_true]
    constructor
    · rintro ⟨r, hr, hglob⟩
      obtain ⟨u, rfl⟩ := (List.mem_tails _ _).1 hr
      match r, hglob with
      | [], hglob => cases hglob
      | [x], hglob => simp [glob] at hglob
      | x :: b :: v, hglob =>
        rw [glob, Bool.and_eq_true, decide_eq_true_eq] at hglob
        exact ⟨a, u, b, v, by rw [hglob.1]⟩
    · rintro ⟨a', u, b, v, heq⟩
      obtain ⟨rfl, rfl⟩ := List.cons.inj heq
      exact ⟨c :: b :: v, (List.mem_tails _ _).2 (List.suffix_append _ _), by simp [glob]⟩

/-- A char that is in the pattern is in the string, at least as often. -/
theorem count_le_of_glob (c : Char) : ∀ (p : List GlobAtom) {s : List Char}, glob p s = true →
    p.count (.char c) ≤ s.count c
  | [], _, _ => Nat.zero_le _
  | .star :: p, s, h => by
    rw [List.count_cons_of_ne GlobAtom.noConfusion]
    rw [glob, Bool.or_eq_true, List.any_eq_true] at h
    rcases h with h | ⟨r, hr, h⟩
    · rw [List.isEmpty_iff.1 h]
      exact Nat.zero_le _
    · exact (count_le_of_glob c p h).trans (((List.mem_tails _ _).1 hr).sublist.count_le c)
  | .any :: p, [], h => by cases h
  | .any :: p, x :: s, h => by
    rw [List.count_cons_of_ne GlobAtom.noConfusion, List.count_cons]
    exact (count_le_of_glob c p h).trans (Nat.le_add_right _ _)
  | .char d :: p, [], h => by cases h
  | .char d :: p, x :: s, h => by
    rw [glob, Bool.and_eq_true, decide_eq_true_eq] at h
    obtain ⟨rfl, h⟩ := h
    have ih := count_le_of_glob c p h
    by_cases hx : x = c
    · subst hx
      rw [List.count_cons_self, List.count_cons_self]
      exact Nat.succ_le_succ ih
    · rw [List.count_cons_of_ne (by simpa using hx), List.count_cons_of_ne hx]
      exact ih

/-! ## Selecting an arm -/

section
variable {α : Type*} {arms : List (List String × α)} {s : List Char}

/-- The arms before the one that is selected do not match. -/
theorem selectArm_of_split {before after : List (List String × α)} {patterns : List String}
    {body : α} (harms : arms = before ++ (patterns, body) :: after)
    (hbefore : before.all (fun arm => !caseOf s arm.1) = true) (hs : caseOf s patterns = true) :
    selectArm arms s = some body := by
  have hfind : arms.find? (fun arm => caseOf s arm.1) = some (patterns, body) := by
    rw [List.find?_eq_some_iff_append]
    exact ⟨hs, before, after, harms, fun arm harm => List.all_eq_true.1 hbefore arm harm⟩
  rw [selectArm, hfind]
  rfl

/-- **No arm is selected** only if no pattern matches. -/
theorem selectArm_eq_none : selectArm arms s = none ↔ ∀ arm ∈ arms, caseOf s arm.1 = false := by
  rw [selectArm, Option.map_eq_none_iff, List.find?_eq_none]
  simp

end

end Shell

end Lib
