/-
  When the shell path normal form is one (`shellfunc/src/base/21-fsutil/04-strippath.sh`).

  * `stripLine_eq`: what is left after the first two commands are the path up to its first
    slashes, a single slash, and the rest.
  * `stripLine_abs`, `stripLine_rel`: what becomes of the components of a path whose later
    slashes are single.
  * `ioStripFspath_normalForm_iff`: when the result is the normal form of the path.
-/
import Fischstaebchen.Lib.Scan
import Fischstaebchen.Overlay.StripFspath

namespace Fischstaebchen

open Lib (components isAbs IsNormal AreNames)

/-! ## The first two commands -/

/-- The path without the slashes at its end. -/
def withoutTrailing (p : CStr) : CStr := p.rdropWhile isSlash

/-- What follows the first slashes of a path. -/
def afterFirstSlashes (p : CStr) : CStr := (p.dropWhile (· != '/')).dropWhile isSlash

/-- The path with a single slash at the place of its first slashes. -/
def singleFirst (p : CStr) : CStr :=
  p.takeWhile (· != '/') ++ if '/' ∈ p then '/' :: afterFirstSlashes p else []

/-- The slashes after the first ones are single, those at the end aside. -/
def LaterSingle (p : CStr) : Prop := ¬ ['/', '/'] <:+: afterFirstSlashes (withoutTrailing p)

instance (p : CStr) : Decidable (LaterSingle p) := inferInstanceAs (Decidable (¬ _))

section
variable {p s t u : CStr} {d : Char}

theorem withoutTrailing_eq_nil_iff : withoutTrailing p = [] ↔ ∀ x ∈ p, x = '/' := by
  simp only [withoutTrailing, List.rdropWhile_eq_nil_iff, isSlash, beq_iff_eq]

/-- The end of a path without slashes at its end. -/
theorem exists_last (h : withoutTrailing p ≠ []) :
    ∃ s d t, withoutTrailing p = s ++ [d] ∧ d ≠ '/' ∧ p = s ++ d :: t ∧ ∀ x ∈ t, x = '/' := by
  have hsplit : p.rdropWhile isSlash ++ p.rtakeWhile isSlash = p := List.rdropWhile_append_rtakeWhile
  have hlast := List.rdropWhile_last_not isSlash p h
  refine ⟨(withoutTrailing p).dropLast, (withoutTrailing p).getLast h, p.rtakeWhile isSlash,
    (List.dropLast_append_getLast h).symm, ?_, ?_, ?_⟩
  · intro heq
    exact hlast (by simpa [isSlash, withoutTrailing] using heq)
  · rw [← List.singleton_append, ← List.append_assoc, List.dropLast_append_getLast h]
    exact hsplit.symm
  · intro x hx
    have hx' : isSlash x = true := List.mem_takeWhile_imp (List.mem_reverse.1 hx)
    simpa [isSlash] using hx'

/-- A path up to its first slash. -/
theorem singleFirst_append (hu : '/' ∉ u) (t : CStr) :
    singleFirst (u ++ '/' :: t) = u ++ '/' :: t.dropWhile isSlash ∧
      afterFirstSlashes (u ++ '/' :: t) = t.dropWhile isSlash := by
  have hwords : ∀ x ∈ u, (x != '/') = true := by
    intro x hx
    simpa using ne_of_mem_of_not_mem hx hu
  have hdrop : (u ++ '/' :: t).dropWhile (· != '/') = '/' :: t := by
    rw [List.dropWhile_append_of_pos hwords]
    rfl
  have htake : (u ++ '/' :: t).takeWhile (· != '/') = u := by
    rw [List.takeWhile_append_of_pos hwords]
    exact List.append_nil u
  have hafter : afterFirstSlashes (u ++ '/' :: t) = t.dropWhile isSlash := by
    rw [afterFirstSlashes, hdrop]
    rfl
  exact ⟨by rw [singleFirst, htake, if_pos (by simp), hafter], hafter⟩

theorem singleFirst_word (hu : '/' ∉ u) : singleFirst u = u ∧ afterFirstSlashes u = [] := by
  have hwords : ∀ x ∈ u, (x != '/') = true := by
    intro x hx
    simpa using ne_of_mem_of_not_mem hx hu
  constructor
  · rw [singleFirst, if_neg hu, List.append_nil, List.takeWhile_eq_self_iff]
    exact hwords
  · rw [afterFirstSlashes, List.dropWhile_eq_nil_iff.2 hwords]
    rfl

theorem slashRun_eq (p : CStr) : slashRun.run p = singleFirst p := by
  by_cases h : '/' ∈ p
  · obtain ⟨u, t, rfl, hu⟩ := List.eq_append_cons_of_mem h
    rw [slashRun_run hu, (singleFirst_append hu t).1]
  · rw [slashRun_word h, (singleFirst_word h).1]

/-- **The first two commands.** -/
theorem stripLine_eq (h : withoutTrailing p ≠ []) : stripLine p =
    dotAtEnd.run (onlyDot.run (dotInside.run (singleFirst (withoutTrailing p)))) := by
  obtain ⟨s, d, t, hq, hd, rfl, ht⟩ := exists_last h
  have hfirst : trailingSlashes.run (s ++ d :: t) = withoutTrailing (s ++ d :: t) := by
    rw [trailingSlashes_run hd ht, hq]
  rw [← slashRun_eq, ← hfirst]
  rfl

/-- A path of slashes is the root. -/
theorem stripLine_slashes (hne : p ≠ []) (h : withoutTrailing p = []) :
    stripLine p = "/".toList := by
  have hall := withoutTrailing_eq_nil_iff.1 h
  obtain ⟨c, t, rfl⟩ := List.exists_cons_of_ne_nil hne
  obtain rfl : c = '/' := hall c (by simp)
  have hdrop : t.dropWhile isSlash = [] := by
    rw [List.dropWhile_eq_nil_iff]
    intro x hx
    simpa [isSlash] using hall x (List.mem_cons_of_mem _ hx)
  have hroot : slashRun.run (trailingSlashes.run ('/' :: t)) = "/".toList := by
    rw [trailingSlashes_slashes hall, slashRun_eq]
    have hsingle := (singleFirst_append (u := []) (by simp) t).1
    rw [List.nil_append, hdrop] at hsingle
    exact hsingle
  show dotAtEnd.run (onlyDot.run (dotInside.run (slashRun.run (trailingSlashes.run ('/' :: t))))) = _
  rw [hroot]
  decide

end

/-! ## What the first two commands keep -/

section
variable {p u : CStr}

theorem components_slashes {t : CStr} (h : ∀ x ∈ t, x = '/') : components '/' t = [] := by
  induction t with
  | nil => rfl
  | cons c t ih =>
    obtain rfl : c = '/' := h c (by simp)
    rw [Lib.components_cons_sep, ih fun x hx => h x (List.mem_cons_of_mem _ hx)]

/-- Slashes at the end do not matter. -/
theorem components_withoutTrailing (p : CStr) :
    components '/' (withoutTrailing p) = components '/' p := by
  have hsplit : p.rdropWhile isSlash ++ p.rtakeWhile isSlash = p := List.rdropWhile_append_rtakeWhile
  have hslashes : ∀ x ∈ p.rtakeWhile isSlash, x = '/' := by
    intro x hx
    have hx' : isSlash x = true := List.mem_takeWhile_imp (List.mem_reverse.1 hx)
    simpa [isSlash] using hx'
  cases hr : p.rtakeWhile isSlash with
  | nil => rw [hr, List.append_nil] at hsplit; rw [withoutTrailing, hsplit]
  | cons c t =>
    rw [hr] at hsplit hslashes
    obtain rfl : c = '/' := hslashes c (by simp)
    conv_rhs => rw [← hsplit, Lib.components_append_sep]
    rw [components_slashes fun x hx => hslashes x (List.mem_cons_of_mem _ hx), List.append_nil]
    rfl

theorem isAbs_withoutTrailing (h : withoutTrailing p ≠ []) :
    isAbs '/' (withoutTrailing p) = isAbs '/' p := by
  obtain ⟨t, ht⟩ := List.rdropWhile_prefix isSlash p
  obtain ⟨c, s, hs⟩ := List.exists_cons_of_ne_nil h
  rw [hs]
  rw [withoutTrailing] at hs
  rw [hs] at ht
  rw [← ht]
  rfl

theorem components_singleFirst (p : CStr) : components '/' (singleFirst p) = components '/' p := by
  by_cases h : '/' ∈ p
  · obtain ⟨u, t, rfl, hu⟩ := List.eq_append_cons_of_mem h
    rw [(singleFirst_append hu t).1, Lib.components_append_sep, Lib.components_append_sep]
    congr 1
    exact Lib.components_dropWhile t
  · rw [(singleFirst_word h).1]

theorem isAbs_singleFirst (p : CStr) : isAbs '/' (singleFirst p) = isAbs '/' p := by
  by_cases h : '/' ∈ p
  · obtain ⟨u, t, rfl, hu⟩ := List.eq_append_cons_of_mem h
    rw [(singleFirst_append hu t).1]
    cases u <;> rfl
  · rw [(singleFirst_word h).1]

/-- Two slashes are not in a word. -/
theorem slashes_infix_append (hu : '/' ∉ u) (t : CStr) :
    ['/', '/'] <:+: u ++ t ↔ ['/', '/'] <:+: t := by
  rw [Lib.pair_infix_append]
  constructor
  · rintro (h | h | ⟨hlast, -⟩)
    · exact absurd (h.subset (by simp)) hu
    · exact h
    · exact absurd (List.mem_of_getLast? hlast) hu
  · intro h
    exact .inr (.inl h)

/-- The rest of a path does not begin with a slash. -/
theorem head_dropWhile_slash (t : CStr) : (t.dropWhile isSlash).head? ≠ some '/' := by
  intro h
  have hfalse : isSlash '/' = false := Lib.head_dropWhile_run t '/' h
  cases hfalse

/-- How the path looks after the first two commands, if it is more than the root. -/
theorem singleFirst_spec (h : withoutTrailing p ≠ []) :
    let q := singleFirst (withoutTrailing p)
    q ≠ [] ∧ q.getLast? ≠ some '/' ∧ ¬ ['/', '/'] <+: q ∧
      (['/', '/'] <:+: q ↔ ¬ LaterSingle p) := by
  obtain ⟨s, d, t, hq, hd, -, -⟩ := exists_last h
  rw [LaterSingle, not_not]
  generalize withoutTrailing p = q at hq h
  subst hq
  dsimp only
  by_cases hmem : '/' ∈ s ++ [d]
  · obtain ⟨u, t, heq, hu⟩ := List.eq_append_cons_of_mem hmem
    obtain ⟨hsingle, hafter⟩ := singleFirst_append hu t
    rw [heq, hsingle, hafter]
    -- the rest ends with the last char of the path
    have hd' : ('/' :: t).getLast? = some d := by
      have hlast : (u ++ '/' :: t).getLast? = some d := by rw [← heq]; simp
      rwa [List.getLast?_append_of_ne_nil _ (by simp)] at hlast
    have hrest : d ∈ t.dropWhile isSlash ∧ (t.dropWhile isSlash).getLast? = some d := by
      have ht : t.getLast? = some d := by
        cases t with
        | nil => exact absurd (Option.some.inj hd').symm hd
        | cons c t => rwa [List.getLast?_cons_cons] at hd'
      have hne : t.dropWhile isSlash ≠ [] := by
        intro hnil
        have hslash := List.dropWhile_eq_nil_iff.1 hnil d (List.mem_of_getLast? ht)
        exact hd (by simpa [isSlash] using hslash)
      rw [← List.takeWhile_append_dropWhile (p := isSlash) (l := t),
        List.getLast?_append_of_ne_nil _ hne] at ht
      exact ⟨List.mem_of_getLast? ht, ht⟩
    have hprefix : ¬ ['/', '/'] <+: '/' :: t.dropWhile isSlash := by
      intro hpre
      obtain ⟨r, hr⟩ := (List.cons_prefix_cons.1 hpre).2
      exact head_dropWhile_slash t (by rw [← hr]; rfl)
    refine ⟨by simp, ?_, ?_, ?_⟩
    · obtain ⟨c, r, hr⟩ := List.exists_cons_of_ne_nil (List.ne_nil_of_mem hrest.1)
      rw [List.getLast?_append_of_ne_nil _ (by simp), hr, List.getLast?_cons_cons, ← hr, hrest.2]
      exact fun heq => hd (Option.some.inj heq)
    · cases u with
      | nil => exact hprefix
      | cons c u =>
        intro hpre
        exact hu (by rw [(List.cons_prefix_cons.1 hpre).1]; simp)
    · rw [slashes_infix_append hu, List.infix_cons_iff]
      exact or_iff_right hprefix
  · obtain ⟨hsingle, hafter⟩ := singleFirst_word hmem
    rw [hsingle, hafter]
    refine ⟨h, ?_, ?_, ?_⟩
    · simpa using hd
    · intro hpre
      exact hmem (hpre.subset (by simp))
    · refine iff_of_false (fun hmid => hmem (hmid.subset (by simp))) ?_
      simp

/-- **A path whose later slashes are single** has its own components left. -/
theorem singleFirst_eq (h : withoutTrailing p ≠ []) (hsingle : LaterSingle p) :
    singleFirst (withoutTrailing p) =
      Lib.joinPath '/' (isAbs '/' p) (components '/' p) := by
  obtain ⟨-, hlast, -, hmid⟩ := singleFirst_spec h
  have hnormal : IsNormal '/' (singleFirst (withoutTrailing p)) :=
    ⟨fun hrepeat => hmid.1 hrepeat hsingle, fun hslash => absurd hslash hlast⟩
  have hself := Lib.normalPath_of_isNormal hnormal
  rw [Lib.normalPath, isAbs_singleFirst, isAbs_withoutTrailing h, components_singleFirst,
    components_withoutTrailing] at hself
  exact hself.symm

theorem components_ne_nil_of_mem {d : Char} (hd : d ≠ '/') (h : d ∈ p) :
    components '/' p ≠ [] := by
  induction p with
  | nil => cases h
  | cons c p ih =>
    by_cases hc : c = '/'
    · subst hc
      rw [Lib.components_cons_sep]
      exact ih ((List.mem_cons.1 h).resolve_left hd)
    · rw [Lib.components_cons_word hc]
      exact List.cons_ne_nil _ _

/-- There is a component if there is more than the root. -/
theorem components_ne_nil (h : withoutTrailing p ≠ []) : components '/' p ≠ [] := by
  obtain ⟨s, d, t, -, hd, rfl, -⟩ := exists_last h
  exact components_ne_nil_of_mem hd (by simp)

end

/-! ## The components that are left -/

section
variable {w : CStr} {ws : List CStr}

theorem dropDot_sublist : ∀ ws : List CStr, (dropDot ws).Sublist ws
  | [] => List.Sublist.refl _
  | [_] => List.Sublist.refl _
  | w :: v :: ws => by
    rw [dropDot]
    split_ifs
    · exact List.sublist_cons_self ..
    · exact (dropDot_sublist (v :: ws)).cons_cons w

theorem dropLastDot_sublist (ws : List CStr) : (dropLastDot ws).Sublist ws := by
  rw [dropLastDot]
  split_ifs
  · exact List.dropLast_sublist ws
  · exact List.Sublist.refl ws

/-- The components that are no `.`. -/
def withoutDots (ws : List CStr) : List CStr := ws.filter (· ≠ ".".toList)

theorem withoutDots_eq_nil_iff : withoutDots ws = [] ↔ ∀ w ∈ ws, w = ".".toList := by
  simp [withoutDots, List.filter_eq_nil_iff]

theorem withoutDots_eq_self_iff : withoutDots ws = ws ↔ ".".toList ∉ ws := by
  rw [withoutDots, List.filter_eq_self]
  constructor
  · intro h hmem
    simpa using h _ hmem
  · intro h w hw
    simpa using ne_of_mem_of_not_mem hw h

theorem withoutDots_dropDot : ∀ ws : List CStr, withoutDots (dropDot ws) = withoutDots ws
  | [] => rfl
  | [_] => rfl
  | w :: v :: ws => by
    rw [dropDot]
    split_ifs with hdot
    · exact (List.filter_cons_of_neg (by simp [hdot])).symm
    · have ih := withoutDots_dropDot (v :: ws)
      rw [withoutDots] at ih ⊢
      rw [withoutDots, List.filter_cons_of_pos (by simpa using hdot),
        List.filter_cons_of_pos (by simpa using hdot), ih]
      rfl

theorem withoutDots_dropLastDot (ws : List CStr) :
    withoutDots (dropLastDot ws) = withoutDots ws := by
  rw [dropLastDot]
  split_ifs with hlast
  · obtain ⟨l, rfl⟩ := List.getLast?_eq_some_iff.1 hlast
    rw [List.dropLast_concat, withoutDots, withoutDots, List.filter_append,
      List.filter_cons_of_neg (by simp), List.filter_nil, List.append_nil]
  · rfl

/-- At the end one `.` is removed. -/
theorem dot_notMem_dropLastDot : ".".toList ∉ dropLastDot ws ↔ ".".toList ∉ ws.dropLast := by
  rcases List.eq_nil_or_concat ws with rfl | ⟨l, w, rfl⟩
  · rfl
  · rw [List.concat_eq_append, dropLastDot, List.getLast?_concat, List.dropLast_concat]
    split_ifs with hdot
    · rfl
    · have hne : ".".toList ≠ w := fun heq => hdot (by rw [heq])
      rw [List.mem_append, List.mem_singleton, or_iff_left hne]

theorem dropDot_eq_nil_iff : dropDot ws = [] ↔ ws = [] := by
  match ws with
  | [] => exact Iff.rfl
  | [_] => exact Iff.rfl
  | w :: v :: ws =>
    rw [dropDot]
    split_ifs <;> simp

/-- Before the end one `.` is removed. -/
theorem count_dropDot : ∀ ws : List CStr,
    (dropDot ws).dropLast.count ".".toList = ws.dropLast.count ".".toList - 1
  | [] => rfl
  | [_] => rfl
  | w :: v :: ws => by
    rw [dropDot, List.dropLast_cons_cons]
    split_ifs with hdot
    · rw [hdot, List.count_cons_self, Nat.add_sub_cancel]
    · have hne : dropDot (v :: ws) ≠ [] := fun hnil => List.cons_ne_nil v ws (dropDot_eq_nil_iff.1 hnil)
      obtain ⟨x, xs, hx⟩ := List.exists_cons_of_ne_nil hne
      rw [hx, List.dropLast_cons_cons, ← hx, List.count_cons_of_ne hdot, List.count_cons_of_ne hdot,
        count_dropDot (v :: ws)]

/-- **When no `.` is left.** -/
theorem dot_notMem_iff : ".".toList ∉ dropLastDot (dropDot ws) ↔
    ws.dropLast.count ".".toList ≤ 1 := by
  rw [dot_notMem_dropLastDot, ← List.count_eq_zero, count_dropDot]
  omega

theorem dropLastDot_eq_nil_iff : dropLastDot ws = [] ↔ ws = [] ∨ ws = [".".toList] := by
  rcases List.eq_nil_or_concat ws with rfl | ⟨l, w, rfl⟩
  · exact iff_of_true rfl (.inl rfl)
  · rw [List.concat_eq_append, dropLastDot, List.getLast?_concat, List.dropLast_concat]
    split_ifs with hdot
    · rw [Option.some.inj hdot]
      constructor
      · rintro rfl
        exact .inr rfl
      · rintro (h | h)
        · simp at h
        · simpa using h
    · refine iff_of_false (by simp) ?_
      rintro (h | h)
      · simp at h
      · cases l with
        | nil => exact hdot (congrArg List.getLast? h)
        | cons v l => simp at h

theorem dropDot_eq_dot_iff : dropDot ws = [".".toList] ↔
    ws = [".".toList] ∨ ws = [".".toList, ".".toList] := by
  match ws with
  | [] => simp [dropDot]
  | [w] => simp [dropDot]
  | w :: v :: ws =>
    rw [dropDot]
    split_ifs with hdot
    · simp [hdot]
    · have hw : w ≠ ['.'] := hdot
      simp [dropDot_eq_nil_iff, hw]

/-- **When nothing is left** after the first component. -/
theorem dropLastDot_dropDot_eq_nil_iff : dropLastDot (dropDot ws) = [] ↔
    (∀ w ∈ ws, w = ".".toList) ∧ ws.length ≤ 2 := by
  rw [dropLastDot_eq_nil_iff, dropDot_eq_nil_iff, dropDot_eq_dot_iff]
  match ws with
  | [] => simp
  | [w] => simp
  | [w, v] => simp
  | w :: v :: x :: ws => simp

end

/-! ## What becomes of the components -/

section
variable {p w : CStr} {ws : List CStr}

/-- **An absolute path** whose later slashes are single. -/
theorem stripLine_abs (h : withoutTrailing p ≠ []) (hsingle : LaterSingle p)
    (habs : isAbs '/' p = true) : stripLine p =
      if dropDot (components '/' p) = [".".toList] then ".".toList
      else rooted (dropLastDot (dropDot (components '/' p))) := by
  have hnames : AreNames '/' (components '/' p) := Lib.areNames_components p
  have hnames' : AreNames '/' (dropDot (components '/' p)) :=
    fun w hw => hnames w ((dropDot_sublist _).subset hw)
  rw [stripLine_eq h, singleFirst_eq h hsingle, habs, joinPath_abs (components_ne_nil h),
    dotInside_rooted hnames, onlyDot_rooted hnames']
  split_ifs
  · rfl
  · exact dotAtEnd_rooted hnames'

/-- **A relative path** whose later slashes are single. -/
theorem stripLine_rel (h : withoutTrailing p ≠ []) (hsingle : LaterSingle p)
    (habs : isAbs '/' p = false) (hws : components '/' p = w :: ws) :
    stripLine p = w ++ rooted (dropLastDot (dropDot ws)) := by
  have hnames : AreNames '/' (w :: ws) := by
    rw [← hws]
    exact Lib.areNames_components p
  have hnames' : AreNames '/' (w :: dropDot ws) :=
    fun v hv => hnames v (((dropDot_sublist ws).cons_cons w).subset hv)
  obtain ⟨-, hw⟩ := hnames w (by simp)
  rw [stripLine_eq h, singleFirst_eq h hsingle, habs, hws, joinPath_rel, dotInside_word hw,
    dotInside_rooted hnames.tail, onlyDot_rel hnames', dotAtEnd_word hw, dotAtEnd_rooted hnames'.tail]

end

/-! ## The normal form of a path -/

/-- The normal form of a path: it has the same components except for `.`, no `.` unless it
    is one, single slashes, and is its own normal form. -/
structure NormalForm (p out : CStr) : Prop where
  abs : isAbs '/' out = isAbs '/' p
  normal : out ≠ [] ∧ IsNormal '/' out
  noDot : out = ".".toList ∨ ".".toList ∉ components '/' out
  same : withoutDots (components '/' out) = withoutDots (components '/' p)
  fixed : ioStripFspath out = out

/-- The components for which the commands suffice: at most one `.` between the others, and
    none that would have to be the first or the only one. -/
def DotsFit (abs : Bool) : List CStr → Prop
  | [] => True
  | w :: ws =>
    if abs then
      (∃ v ∈ w :: ws, v ≠ ".".toList) ∧ (w :: ws).dropLast.count ".".toList ≤ 1
    else if w = ".".toList then (∀ v ∈ ws, v = ".".toList) ∧ ws.length ≤ 2
    else ws.dropLast.count ".".toList ≤ 1

section
variable {p out w : CStr} {ws : List CStr}

/-- Results without `.` are fixed. -/
theorem stripLine_fixed (hne : out ≠ []) (hnormal : IsNormal '/' out)
    (hdot : ".".toList ∉ components '/' out) : stripLine out = out := by
  have hself : Lib.joinPath '/' (isAbs '/' out) (components '/' out) = out :=
    Lib.normalPath_of_isNormal hnormal
  by_cases htrailing : withoutTrailing out = []
  · have hslashes := withoutTrailing_eq_nil_iff.1 htrailing
    rw [stripLine_slashes hne htrailing]
    obtain ⟨c, t, rfl⟩ := List.exists_cons_of_ne_nil hne
    obtain rfl : c = '/' := hslashes c (by simp)
    rw [← hself, components_slashes hslashes]
    rfl
  · have hsingle : LaterSingle out := by
      intro hmid
      refine hnormal.noRepeat (hmid.trans ?_)
      have hafter : afterFirstSlashes (withoutTrailing out) <:+ withoutTrailing out :=
        (List.dropWhile_suffix _).trans (List.dropWhile_suffix _)
      exact hafter.isInfix.trans (List.rdropWhile_prefix isSlash out).isInfix
    have hkeep : ∀ ws : List CStr, ".".toList ∉ ws → dropLastDot (dropDot ws) = ws := by
      intro ws hws
      have h : withoutDots (dropLastDot (dropDot ws)) = ws := by
        rw [withoutDots_dropLastDot, withoutDots_dropDot, withoutDots_eq_self_iff]
        exact hws
      have hsub : ".".toList ∉ dropLastDot (dropDot ws) := fun hmem =>
        hws ((dropDot_sublist ws).subset ((dropLastDot_sublist _).subset hmem))
      rwa [withoutDots_eq_self_iff.2 hsub] at h
    cases habs : isAbs '/' out with
    | true =>
      have hne' : dropDot (components '/' out) ≠ [".".toList] := fun heq =>
        hdot ((dropDot_sublist _).subset (by rw [heq]; simp))
      rw [stripLine_abs htrailing hsingle habs, if_neg hne', hkeep _ hdot]
      rwa [habs, joinPath_abs (components_ne_nil htrailing)] at hself
    | false =>
      obtain ⟨w, ws, hws⟩ := List.exists_cons_of_ne_nil (components_ne_nil htrailing)
      rw [hws] at hdot hself
      rw [stripLine_rel htrailing hsingle habs hws,
        hkeep ws fun hmem => hdot (List.mem_cons_of_mem w hmem), ← joinPath_rel]
      rwa [habs] at hself

/-- A newline is not made. -/
theorem newline_notMem_rooted (h : '\n' ∉ p) (hws : ws ⊆ components '/' p) :
    '\n' ∉ rooted ws := by
  intro hmem
  obtain ⟨w, hw, hmem⟩ := List.mem_flatMap.1 hmem
  rcases List.mem_cons.1 hmem with heq | hmem
  · cases heq
  · exact h ((Lib.sublist_of_mem_runs (hws hw)).subset hmem)

theorem dotsFit_abs_iff (hne : ws ≠ []) : DotsFit true ws ↔
    (∃ v ∈ ws, v ≠ ".".toList) ∧ ws.dropLast.count ".".toList ≤ 1 := by
  obtain ⟨w, ws, rfl⟩ := List.exists_cons_of_ne_nil hne
  rw [DotsFit, if_pos rfl]

/-- The components that are left of an absolute path make a normal form. -/
theorem normalForm_rooted (hline : '\n' ∉ p) (habs : isAbs '/' p = true) (hne : ws ≠ [])
    (hws : ws ⊆ components '/' p) (hdot : ".".toList ∉ ws)
    (hsame : withoutDots ws = withoutDots (components '/' p)) : NormalForm p (rooted ws) := by
  have hnames : AreNames '/' ws := fun w hw => Lib.areNames_components p w (hws hw)
  have hcomponents : components '/' (rooted ws) = ws := components_rooted hnames
  have hempty : rooted ws ≠ [] := by
    intro hnil
    rw [hnil] at hcomponents
    exact hne hcomponents.symm
  have hnormal : IsNormal '/' (rooted ws) := by
    rw [← joinPath_abs hne]
    exact Lib.isNormal_joinPath hnames
  refine ⟨?_, ⟨hempty, hnormal⟩, .inr (by rwa [hcomponents]), by rwa [hcomponents], ?_⟩
  · rw [← joinPath_abs hne, Lib.isAbs_joinPath hnames, habs]
  · rw [ioStripFspath_line (newline_notMem_rooted hline hws)]
    exact stripLine_fixed hempty hnormal (by rwa [hcomponents])

theorem normalForm_abs_iff (hline : '\n' ∉ p) (h : withoutTrailing p ≠ [])
    (hsingle : LaterSingle p) (habs : isAbs '/' p = true) :
    NormalForm p (stripLine p) ↔ DotsFit true (components '/' p) := by
  have hsub : dropLastDot (dropDot (components '/' p)) ⊆ components '/' p := fun w hw =>
    (dropDot_sublist _).subset ((dropLastDot_sublist _).subset hw)
  have hsame : withoutDots (dropLastDot (dropDot (components '/' p))) =
      withoutDots (components '/' p) := by rw [withoutDots_dropLastDot, withoutDots_dropDot]
  rw [stripLine_abs h hsingle habs, dotsFit_abs_iff (components_ne_nil h), ← dot_notMem_iff]
  by_cases honly : dropDot (components '/' p) = [".".toList]
  · rw [if_pos honly]
    refine iff_of_false ?_ ?_
    · intro hform
      have habs' : isAbs '/' ".".toList = isAbs '/' p := hform.abs
      rw [habs] at habs'
      cases habs'
    · -- then all components are `.`
      rintro ⟨⟨v, hv, hne⟩, -⟩
      have hnil : withoutDots (components '/' p) = [] := by
        rw [← withoutDots_dropDot, honly]
        rfl
      exact hne (withoutDots_eq_nil_iff.1 hnil v hv)
  · rw [if_neg honly]
    generalize dropLastDot (dropDot (components '/' p)) = ws at hsub hsame ⊢
    have hnames : AreNames '/' ws := fun w hw => Lib.areNames_components p w (hsub hw)
    constructor
    · intro hform
      have hdot : ".".toList ∉ ws := by
        rcases hform.noDot with heq | hdot
        · have habs' := hform.abs
          rw [heq, habs] at habs'
          cases habs'
        · rwa [components_rooted hnames] at hdot
      have hne : ws ≠ [] := by
        rintro rfl
        exact hform.normal.1 rfl
      obtain ⟨v, ws, rfl⟩ := List.exists_cons_of_ne_nil hne
      exact ⟨⟨v, hsub (by simp), (ne_of_mem_of_not_mem (by simp) hdot)⟩, hdot⟩
    · rintro ⟨⟨v, hv, hne⟩, hdot⟩
      have hws : ws ≠ [] := by
        rintro rfl
        exact hne (withoutDots_eq_nil_iff.1 hsame.symm v hv)
      exact normalForm_rooted hline habs hws hsub hdot hsame

/-- The components that are left of a relative path make a normal form. -/
theorem normalForm_rel (hline : '\n' ∉ p) (habs : isAbs '/' p = false)
    (hws : w :: ws ⊆ components '/' p)
    (hdot : w ++ rooted ws = ".".toList ∨ ".".toList ∉ w :: ws)
    (hsame : withoutDots (w :: ws) = withoutDots (components '/' p)) :
    NormalForm p (w ++ rooted ws) := by
  have hnames : AreNames '/' (w :: ws) := fun v hv => Lib.areNames_components p v (hws hv)
  have hcomponents : components '/' (w ++ rooted ws) = w :: ws := components_rel hnames
  have hempty : w ++ rooted ws ≠ [] := by
    intro hnil
    rw [hnil] at hcomponents
    cases hcomponents
  have hnormal : IsNormal '/' (w ++ rooted ws) := by
    rw [← joinPath_rel]
    exact Lib.isNormal_joinPath hnames
  have hfixed : ioStripFspath (w ++ rooted ws) = w ++ rooted ws := by
    rcases hdot with hdot | hdot
    · rw [hdot]
      decide
    · rw [ioStripFspath_line, stripLine_fixed hempty hnormal (by rwa [hcomponents])]
      intro hmem
      rcases List.mem_append.1 hmem with hmem | hmem
      · exact hline ((Lib.sublist_of_mem_runs (hws (by simp : w ∈ w :: ws))).subset hmem)
      · exact newline_notMem_rooted hline (fun v hv => hws (by simp [hv])) hmem
  refine ⟨?_, ⟨hempty, hnormal⟩, ?_, by rwa [hcomponents], hfixed⟩
  · rw [isAbs_rel hnames, habs]
  · rwa [hcomponents]

theorem normalForm_rel_iff (hline : '\n' ∉ p) (h : withoutTrailing p ≠ [])
    (hsingle : LaterSingle p) (habs : isAbs '/' p = false) :
    NormalForm p (stripLine p) ↔ DotsFit false (components '/' p) := by
  obtain ⟨w, ws, hws⟩ := List.exists_cons_of_ne_nil (components_ne_nil h)
  have hsub : dropLastDot (dropDot ws) ⊆ ws := fun v hv =>
    (dropDot_sublist _).subset ((dropLastDot_sublist _).subset hv)
  have hsame : withoutDots (dropLastDot (dropDot ws)) = withoutDots ws := by
    rw [withoutDots_dropLastDot, withoutDots_dropDot]
  rw [stripLine_rel h hsingle habs hws, hws, DotsFit, if_neg Bool.false_ne_true,
    ← dropLastDot_dropDot_eq_nil_iff, ← dot_notMem_iff]
  generalize dropLastDot (dropDot ws) = vs at hsub hsame ⊢
  have hsub' : w :: vs ⊆ components '/' p := by
    rw [hws]
    exact List.cons_subset_cons w hsub
  have hsame' : withoutDots (w :: vs) = withoutDots (components '/' p) := by
    rw [hws, withoutDots, withoutDots, List.filter_cons, List.filter_cons]
    rw [withoutDots, withoutDots] at hsame
    rw [hsame]
  have hcomponents : components '/' (w ++ rooted vs) = w :: vs :=
    components_rel fun v hv => Lib.areNames_components p v (hsub' hv)
  have honly : w ++ rooted vs = ".".toList → w = ".".toList ∧ vs = [] := by
    intro heq
    rw [heq] at hcomponents
    exact ⟨(List.cons.inj hcomponents).1.symm, (List.cons.inj hcomponents).2.symm⟩
  split_ifs with hw
  · constructor
    · intro hform
      rcases hform.noDot with heq | hdot
      · exact (honly heq).2
      · rw [hcomponents, hw] at hdot
        exact absurd (by simp) hdot
    · rintro rfl
      exact normalForm_rel hline habs hsub' (.inl (by rw [hw]; rfl)) hsame'
  · constructor
    · intro hform
      rcases hform.noDot with heq | hdot
      · exact absurd (honly heq).1 hw
      · rw [hcomponents] at hdot
        exact fun hmem => hdot (List.mem_cons_of_mem w hmem)
    · intro hdot
      refine normalForm_rel hline habs hsub' (.inr ?_) hsame'
      rw [List.mem_cons, not_or]
      exact ⟨fun heq => hw heq.symm, hdot⟩

end

/-! ## Later slashes that are not single -/

section
variable {p : CStr}

theorem dotInside_cases (s : CStr) : dotInside.run s = s ∨
    ∃ a b, s = a ++ ("/./".toList ++ b) ∧ dotInside.run s = a ++ '/' :: b := by
  induction s with
  | nil => exact .inl rfl
  | cons c s ih =>
    by_cases hpre : "/./".toList <+: c :: s
    · obtain ⟨b, hb⟩ := hpre
      refine .inr ⟨[], b, hb.symm, ?_⟩
      rw [← hb]
      exact dotInside_hit b
    · rw [dotInside_miss hpre]
      rcases ih with h | ⟨a, b, rfl, h⟩
      · exact .inl (by rw [h])
      · exact .inr ⟨c :: a, b, rfl, by rw [h]; rfl⟩

theorem dotAtEnd_cases (s : CStr) : dotAtEnd.run s = s ∨
    ∃ a, s = a ++ "/.".toList ∧ dotAtEnd.run s = a := by
  induction s with
  | nil => exact .inl rfl
  | cons c s ih =>
    by_cases heq : c :: s = "/.".toList
    · refine .inr ⟨[], heq, ?_⟩
      rw [heq]
      rfl
    · rw [dotAtEnd_miss heq]
      rcases ih with h | ⟨a, rfl, h⟩
      · exact .inl (by rw [h])
      · exact .inr ⟨c :: a, rfl, by rw [h]⟩

/-- Two slashes are not removed by the next two commands. -/
theorem slashes_kept {q : CStr} (h : ['/', '/'] <:+: q) :
    ['/', '/'] <:+: dotInside.run q ∧ onlyDot.run (dotInside.run q) = dotInside.run q := by
  have hkept : ['/', '/'] <:+: dotInside.run q := by
    rcases dotInside_cases q with heq | ⟨a, b, hq, heq⟩
    · rwa [heq]
    · rw [heq, Lib.pair_infix_append]
      rw [hq, Lib.pair_infix_append, Lib.pair_infix_append] at h
      rcases h with h | (h | h | ⟨-, hb⟩) | ⟨ha, -⟩
      · exact .inl h
      · exact absurd h (by decide)
      · exact .inr (.inl (h.trans (List.suffix_cons '/' b).isInfix))
      · obtain ⟨b, rfl⟩ := List.head?_eq_some_iff.1 hb
        exact .inr (.inl ⟨[], b, rfl⟩)
      · exact .inr (.inr ⟨ha, rfl⟩)
  refine ⟨hkept, ?_⟩
  rw [onlyDot_run, if_neg]
  intro hmem
  simp only [List.mem_cons, List.not_mem_nil, or_false] at hmem
  rcases hmem with heq | heq | heq | heq <;> rw [heq] at hkept <;>
    exact absurd hkept (by decide)

/-- The path whose slashes are removed by chance. -/
def DotsOnly (p : CStr) : Prop :=
  isAbs '/' p = true ∧ (withoutTrailing p).dropWhile isSlash = ".//.".toList

/-- **Two slashes after the first ones** are left, but for a single path. -/
theorem dotsOnly_of_isNormal (h : withoutTrailing p ≠ []) (hdouble : ¬ LaterSingle p)
    (hnormal : IsNormal '/' (stripLine p)) : DotsOnly p := by
  obtain ⟨hne, -, hprefix, hmid⟩ := singleFirst_spec h
  obtain ⟨hkept, honly⟩ := slashes_kept (hmid.2 hdouble)
  rw [stripLine_eq h, honly] at hnormal
  have habs : isAbs '/' (singleFirst (withoutTrailing p)) = isAbs '/' p := by
    rw [isAbs_singleFirst, isAbs_withoutTrailing h]
  -- the last command must have removed one of them
  have hroot : dotInside.run (singleFirst (withoutTrailing p)) = "//.".toList := by
    rcases dotAtEnd_cases (dotInside.run (singleFirst (withoutTrailing p))) with heq | ⟨a, ha, heq⟩
    · rw [heq] at hnormal
      exact absurd hkept hnormal.noRepeat
    · rw [heq] at hnormal
      rw [ha, Lib.pair_infix_append] at hkept
      rcases hkept with hkept | hkept | ⟨hlast, -⟩
      · exact absurd hkept hnormal.noRepeat
      · exact absurd hkept (by decide)
      · rw [ha, hnormal.noTrailing hlast]
        rfl
  have hpath : singleFirst (withoutTrailing p) = "/.//.".toList := by
    rcases dotInside_cases (singleFirst (withoutTrailing p)) with heq | ⟨a, b, hq, heq⟩
    · rw [hroot] at heq
      exact absurd (by rw [← heq]; decide) hprefix
    · rw [hroot] at heq
      match a, heq with
      | [], heq =>
        obtain rfl : b = "/.".toList := (List.cons.inj heq).2.symm
        exact hq
      | [_], heq =>
        obtain ⟨rfl, -⟩ := List.cons.inj heq
        exact absurd (by rw [hq]; exact ⟨_, rfl⟩) hprefix
      | _ :: _ :: [], heq => simp at heq
      | _ :: _ :: _ :: _, heq => simp at heq
  refine ⟨by rw [← habs, hpath]; rfl, ?_⟩
  by_cases hmem : '/' ∈ withoutTrailing p
  · obtain ⟨u, t, heq, hu⟩ := List.eq_append_cons_of_mem hmem
    rw [heq, (singleFirst_append hu t).1] at hpath
    cases u with
    | nil =>
      rw [heq]
      exact (List.cons.inj hpath).2
    | cons c u =>
      have hc : c = '/' := (List.cons.inj hpath).1
      exact absurd (by rw [hc]; simp) hu
  · rw [(singleFirst_word hmem).1] at hpath
    rw [hpath] at hmem
    exact absurd (by decide) hmem

/-- Its normal form is the root. -/
theorem normalForm_of_dotsOnly (h : DotsOnly p) : NormalForm p (stripLine p) := by
  obtain ⟨habs, hrest⟩ := h
  have hne : withoutTrailing p ≠ [] := by
    intro hnil
    rw [hnil] at hrest
    cases hrest
  have hcomponents : components '/' p = [".".toList, ".".toList] := by
    have hdrop : components '/' ((withoutTrailing p).dropWhile isSlash) =
        components '/' (withoutTrailing p) := Lib.components_dropWhile _
    rw [← components_withoutTrailing, ← hdrop, hrest]
    rfl
  have hpath : singleFirst (withoutTrailing p) = "/.//.".toList := by
    have habs' : isAbs '/' (withoutTrailing p) = true := by rw [isAbs_withoutTrailing hne, habs]
    obtain ⟨t, ht⟩ : ∃ t, withoutTrailing p = '/' :: t :=
      List.head?_eq_some_iff.1 (by simpa [isAbs] using habs')
    rw [ht] at hrest ⊢
    have hsingle := (singleFirst_append (u := []) (by simp) t).1
    rw [List.nil_append] at hsingle
    rw [hsingle, show t.dropWhile isSlash = ".//.".toList from hrest]
    rfl
  have hroot : stripLine p = "/".toList := by
    rw [stripLine_eq hne, hpath]
    decide
  rw [hroot]
  refine ⟨by rw [habs]; rfl, ⟨by simp, ?_⟩, .inr (by decide), ?_, by decide⟩
  · exact ⟨by decide, fun _ => rfl⟩
  · rw [hcomponents]
    rfl

/-! ## The result -/

/-- The paths that are stripped to their normal form. -/
def Strippable (p : CStr) : Prop :=
  (LaterSingle p ∧ DotsFit (isAbs '/' p) (components '/' p)) ∨ DotsOnly p

theorem normalForm_slashes (hne : p ≠ []) (h : withoutTrailing p = []) :
    NormalForm p (stripLine p) ∧ Strippable p := by
  have hall := withoutTrailing_eq_nil_iff.1 h
  have hcomponents : components '/' p = [] := components_slashes hall
  constructor
  · rw [stripLine_slashes hne h]
    obtain ⟨c, t, rfl⟩ := List.exists_cons_of_ne_nil hne
    obtain rfl : c = '/' := hall c (by simp)
    refine ⟨rfl, ⟨by simp, by decide, fun _ => rfl⟩, .inr (by decide), ?_, by decide⟩
    rw [hcomponents]
    rfl
  · refine .inl ⟨?_, ?_⟩
    · rw [LaterSingle, h]
      decide
    · rw [hcomponents]
      trivial

/-- **A path is stripped to its normal form** exactly if its later slashes are single and
    there are not too many components `.`, or if it is a single path of dots. -/
theorem ioStripFspath_normalForm_iff (hne : p ≠ []) (hline : '\n' ∉ p) :
    NormalForm p (ioStripFspath p) ↔ Strippable p := by
  rw [ioStripFspath_line hline]
  by_cases h : withoutTrailing p = []
  · obtain ⟨hform, hfit⟩ := normalForm_slashes hne h
    exact iff_of_true hform hfit
  by_cases hsingle : LaterSingle p
  · have hfit : NormalForm p (stripLine p) ↔ DotsFit (isAbs '/' p) (components '/' p) := by
      cases habs : isAbs '/' p with
      | true => exact normalForm_abs_iff hline h hsingle habs
      | false => exact normalForm_rel_iff hline h hsingle habs
    constructor
    · intro hform
      exact .inl ⟨hsingle, hfit.1 hform⟩
    · rintro (⟨-, hdots⟩ | hdots)
      · exact hfit.2 hdots
      · exact normalForm_of_dotsOnly hdots
  · constructor
    · intro hform
      exact .inr (dotsOnly_of_isNormal h hsingle hform.normal.2)
    · rintro (⟨hsingle', -⟩ | hdots)
      · exact absurd hsingle' hsingle
      · exact normalForm_of_dotsOnly hdots

/-- A path with a `.` is stripped, one that starts with it is not. -/
theorem strip_dots : NormalForm "/a/./b/".toList (ioStripFspath "/a/./b/".toList) ∧
    ¬ NormalForm "./a".toList (ioStripFspath "./a".toList) := by
  constructor
  · refine (ioStripFspath_normalForm_iff (by simp) (by simp)).2 (.inl ⟨by decide, ?_⟩)
    exact ⟨⟨['a'], by decide, by decide⟩, by decide⟩
  · rw [ioStripFspath_normalForm_iff (by simp) (by simp)]
    rintro (⟨-, hfit⟩ | ⟨habs, -⟩)
    · have hcomponents : components '/' "./a".toList = [".".toList, "a".toList] := by decide
      rw [hcomponents] at hfit
      exact absurd (hfit.1 "a".toList (by simp)) (by decide)
    · cases habs

/-- A path whose dots are not all removed. -/
theorem two_dots_kept : ¬ ∀ p : CStr, p ≠ [] → '\n' ∉ p → NormalForm p (ioStripFspath p) := by
  intro h
  have hform := h "/a/./b/./c".toList (by simp) (by simp)
  rcases hform.noDot with heq | hdot
  · exact absurd heq (by decide)
  · exact absurd (by decide) hdot

end

end Fischstaebchen
