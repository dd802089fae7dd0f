/-
  The shell path normal form (`shellfunc/src/base/21-fsutil/04-strippath.sh`).

  `io_strip_fspath` runs five substitutions of `sed` on each line.

  * `trailingSlashes_run`, `slashRun_run`, `onlyDot_run`: what they do to the text.
  * `dotInside_rooted`, `onlyDot_rooted`, `dotAtEnd_rooted`: what they do to the components of
    a path with single slashes.
-/
import Fischstaebchen.Lib.Ere
import Fischstaebchen.Lib.Path
import Fischstaebchen.Strutil.Compare

namespace Fischstaebchen

open Lib (components isAbs)
open Lib.Ere (Regex)

/-! ## The commands -/

/-- A command `s,pattern,replacement,`. -/
structure SedSubst where
  pattern : Regex Char
  replacement : CStr → CStr

def SedSubst.run (c : SedSubst) (line : CStr) : CStr := c.pattern.substitute c.replacement line

def isSlash : Char → Bool := (· == '/')

def isDot : Char → Bool := (· == '.')

/-- `s,([^/])/+$,\1,` -/
def trailingSlashes : SedSubst :=
  ⟨⟨[⟨(· != '/'), .once⟩, ⟨isSlash, .some⟩], false, true⟩, fun m => m.take 1⟩

/-- `s,/+,/,` -/
def slashRun : SedSubst := ⟨⟨[⟨isSlash, .some⟩], false, false⟩, fun _ => "/".toList⟩

/-- `s,/[.]/,/,` -/
def dotInside : SedSubst :=
  ⟨⟨[⟨isSlash, .once⟩, ⟨isDot, .once⟩, ⟨isSlash, .once⟩], false, false⟩, fun _ => "/".toList⟩

/-- `s,^[/]?[.][/]?$,.,` -/
def onlyDot : SedSubst :=
  ⟨⟨[⟨isSlash, .opt⟩, ⟨isDot, .once⟩, ⟨isSlash, .opt⟩], true, true⟩, fun _ => ".".toList⟩

/-- `s,/[.]$,,` -/
def dotAtEnd : SedSubst :=
  ⟨⟨[⟨isSlash, .once⟩, ⟨isDot, .once⟩], false, true⟩, fun _ => []⟩

/-- What `io_strip_fspath` makes of a line. -/
def stripLine (line : CStr) : CStr :=
  [trailingSlashes, slashRun, dotInside, onlyDot, dotAtEnd].foldl (fun s c => c.run s) line

/-- `io_strip_fspath`. -/
def ioStripFspath (input : CStr) : CStr := ['\n'].intercalate ((input.splitOn '\n').map stripLine)

/-- A line is stripped as a whole. -/
theorem ioStripFspath_line {p : CStr} (h : '\n' ∉ p) : ioStripFspath p = stripLine p := by
  rw [ioStripFspath, List.splitOn_eq_singleton h, List.map_singleton, List.intercalate_singleton]

/-! ## What the commands do -/

section
variable {c d : Char} {s t u : CStr}

/-- A command that is not bound to the start skips what it does not match. -/
theorem run_skip {cmd : SedSubst} (hstart : cmd.pattern.atStart = false)
    (hnone : cmd.pattern.longest (c :: s) = none) : cmd.run (c :: s) = c :: cmd.run s := by
  rw [SedSubst.run, Lib.Ere.substitute_of_none hnone, if_neg (by simp [hstart])]
  rfl

/-- `trailingSlashes` matches a char and the slashes after it. -/
theorem trailingSlashes_match_iff : Lib.Ere.fullMatch trailingSlashes.pattern.items u = true ↔
    ∃ c t, u = c :: t ∧ c ≠ '/' ∧ t ≠ [] ∧ ∀ x ∈ t, x = '/' := by
  rw [trailingSlashes, Lib.Ere.fullMatch_once_iff]
  simp only [Lib.Ere.fullMatch_some_iff, Lib.Ere.fullMatch_nil_iff, isSlash, beq_iff_eq, bne_iff_ne]
  constructor
  · rintro ⟨c, v, rfl, hc, t, w, rfl, ht, rfl⟩
    exact ⟨c, t, by rw [List.append_nil], hc, ht⟩
  · rintro ⟨c, t, rfl, hc, ht⟩
    exact ⟨c, t, rfl, hc, t, [], (List.append_nil t).symm, ht, rfl⟩

/-- **The slashes at the end** are removed. -/
theorem trailingSlashes_run (hd : d ≠ '/') (ht : ∀ x ∈ t, x = '/') :
    trailingSlashes.run (s ++ d :: t) = s ++ [d] := by
  induction s with
  | nil =>
    by_cases hempty : t = []
    · subst hempty
      rw [List.nil_append, run_skip rfl]
      · rfl
      · refine Lib.Ere.longest_eq_none fun u v hs hu _ => ?_
        obtain ⟨c, t, rfl, -, hne, -⟩ := trailingSlashes_match_iff.1 hu
        rw [List.cons_append, List.cons.injEq, List.nil_eq_append_iff] at hs
        exact hne hs.2.1
    · have hlongest : trailingSlashes.pattern.longest (d :: t) = some (d :: t, []) := by
        refine Lib.Ere.longest_eq_some (List.append_nil _).symm
          (trailingSlashes_match_iff.2 ⟨d, t, rfl, hd, hempty, ht⟩) (fun _ => rfl) ?_
        intro u' v' hs _ _
        rw [hs, List.length_append]
        exact Nat.le_add_right ..
      rw [List.nil_append, SedSubst.run, Lib.Ere.substitute_of_longest hlongest]
      rfl
  | cons c s ih =>
    rw [List.cons_append, run_skip rfl, ih, List.cons_append]
    -- what follows the char is not only slashes
    refine Lib.Ere.longest_eq_none fun u v hs hu hv => ?_
    obtain ⟨c', t', rfl, -, -, hall⟩ := trailingSlashes_match_iff.1 hu
    rw [hv rfl, List.append_nil, List.cons.injEq] at hs
    exact hd (hall d (by rw [← hs.2]; simp))

/-- Slashes only are left as they are. -/
theorem trailingSlashes_slashes (h : ∀ x ∈ s, x = '/') : trailingSlashes.run s = s := by
  induction s with
  | nil => rfl
  | cons c s ih =>
    rw [run_skip rfl, ih fun x hx => h x (List.mem_cons_of_mem c hx)]
    refine Lib.Ere.longest_eq_none fun u v hs hu _ => ?_
    obtain ⟨c', t', rfl, hc', -, -⟩ := trailingSlashes_match_iff.1 hu
    rw [List.cons_append, List.cons.injEq] at hs
    exact hc' (by rw [← hs.1]; exact h c (by simp))

theorem slashRun_match_iff : Lib.Ere.fullMatch slashRun.pattern.items u = true ↔
    u ≠ [] ∧ ∀ x ∈ u, x = '/' := by
  rw [slashRun, Lib.Ere.fullMatch_some_iff]
  simp only [Lib.Ere.fullMatch_nil_iff, isSlash, beq_iff_eq]
  constructor
  · rintro ⟨t, v, rfl, ht, rfl⟩
    rwa [List.append_nil]
  · intro h
    exact ⟨u, [], (List.append_nil u).symm, h, rfl⟩

theorem slashRun_longest_word {c : Char} (hc : '/' ≠ c) (t : CStr) :
    slashRun.pattern.longest (c :: t) = none := by
  refine Lib.Ere.longest_eq_none fun u v hs hu _ => ?_
  obtain ⟨hne, hall⟩ := slashRun_match_iff.1 hu
  obtain ⟨c', u', rfl⟩ := List.exists_cons_of_ne_nil hne
  rw [List.cons_append, List.cons.injEq] at hs
  exact hc ((hall c' (by simp)).symm.trans hs.1.symm)

/-- **The first slashes** become a single one. -/
theorem slashRun_run (hu : '/' ∉ u) :
    slashRun.run (u ++ '/' :: t) = u ++ '/' :: t.dropWhile isSlash := by
  induction u with
  | nil =>
    have hsplit : '/' :: t = ('/' :: t.takeWhile isSlash) ++ t.dropWhile isSlash := by
      rw [List.cons_append, List.takeWhile_append_dropWhile]
    have hslashes : ∀ x ∈ '/' :: t.takeWhile isSlash, x = '/' := by
      intro x hx
      rcases List.mem_cons.1 hx with rfl | hx
      · rfl
      · simpa [isSlash] using List.mem_takeWhile_imp hx
    have hlongest : slashRun.pattern.longest ('/' :: t) =
        some ('/' :: t.takeWhile isSlash, t.dropWhile isSlash) := by
      refine Lib.Ere.longest_eq_some hsplit (slashRun_match_iff.2 ⟨by simp, hslashes⟩)
        (fun h => by cases h) ?_
      intro u' v' hs hu' _
      obtain ⟨-, hall⟩ := slashRun_match_iff.1 hu'
      have hprefix : u' <+: ('/' :: t).takeWhile isSlash := by
        rw [hs, List.takeWhile_append_of_pos fun x hx => by simp [isSlash, hall x hx]]
        exact List.prefix_append ..
      have hlen := hprefix.length_le
      simpa [isSlash] using hlen
    rw [List.nil_append, SedSubst.run, Lib.Ere.substitute_of_longest hlongest]
    rfl
  | cons c u ih =>
    rw [List.mem_cons, not_or] at hu
    rw [List.cons_append, run_skip rfl, ih hu.2, List.cons_append]
    exact slashRun_longest_word hu.1 _

theorem slashRun_word (hu : '/' ∉ u) : slashRun.run u = u := by
  induction u with
  | nil => rfl
  | cons c u ih =>
    rw [List.mem_cons, not_or] at hu
    rw [run_skip rfl, ih hu.2]
    exact slashRun_longest_word hu.1 _

theorem dotInside_match_iff : Lib.Ere.fullMatch dotInside.pattern.items u = true ↔
    u = "/./".toList := by
  simp only [dotInside, Lib.Ere.fullMatch_once_iff, Lib.Ere.fullMatch_nil_iff, isSlash, isDot,
    beq_iff_eq]
  constructor
  · rintro ⟨_, _, rfl, rfl, _, _, rfl, rfl, _, _, rfl, rfl, rfl⟩
    rfl
  · rintro rfl
    exact ⟨_, _, rfl, rfl, _, _, rfl, rfl, _, _, rfl, rfl, rfl⟩

/-- `dotInside` replaces the text `/./`. -/
theorem dotInside_hit (t : CStr) : dotInside.run ("/./".toList ++ t) = '/' :: t := by
  have hlongest : dotInside.pattern.longest ("/./".toList ++ t) = some ("/./".toList, t) := by
    refine Lib.Ere.longest_eq_some rfl (dotInside_match_iff.2 rfl) (fun h => by cases h) ?_
    intro u' v' _ hu' _
    rw [dotInside_match_iff.1 hu']
  exact Lib.Ere.substitute_of_longest hlongest

theorem dotInside_miss (h : ¬ "/./".toList <+: c :: s) :
    dotInside.run (c :: s) = c :: dotInside.run s := by
  rw [run_skip rfl]
  refine Lib.Ere.longest_eq_none fun u v hs hu _ => h ?_
  rw [hs, dotInside_match_iff.1 hu]
  exact List.prefix_append ..

theorem onlyDot_match_iff : Lib.Ere.fullMatch onlyDot.pattern.items u = true ↔
    u ∈ [".".toList, "/.".toList, "./".toList, "/./".toList] := by
  have hlast : ∀ v, Lib.Ere.fullMatch [(⟨isSlash, .opt⟩ : Lib.Ere.Item Char)] v = true ↔
      v = [] ∨ v = ['/'] := by
    intro v
    rw [Lib.Ere.fullMatch_cons_iff]
    simp only [Lib.Ere.covers_opt_iff, Lib.Ere.fullMatch_nil_iff, isSlash, beq_iff_eq]
    constructor
    · rintro ⟨w, _, rfl, rfl | ⟨_, rfl, rfl⟩, rfl⟩
      · exact .inl rfl
      · exact .inr rfl
    · rintro (rfl | rfl)
      · exact ⟨[], [], rfl, .inl rfl, rfl⟩
      · exact ⟨['/'], [], rfl, .inr ⟨'/', rfl, rfl⟩, rfl⟩
  rw [onlyDot, Lib.Ere.fullMatch_cons_iff]
  simp only [Lib.Ere.covers_opt_iff, Lib.Ere.fullMatch_once_iff, hlast, isSlash, isDot, beq_iff_eq,
    List.mem_cons, List.not_mem_nil, or_false]
  constructor
  · rintro ⟨_, _, rfl, rfl | ⟨_, rfl, rfl⟩, _, _, rfl, rfl, rfl | rfl⟩
    · exact .inl rfl
    · exact .inr (.inr (.inl rfl))
    · exact .inr (.inl rfl)
    · exact .inr (.inr (.inr rfl))
  · rintro (rfl | rfl | rfl | rfl)
    · exact ⟨[], ['.'], rfl, .inl rfl, '.', [], rfl, rfl, .inl rfl⟩
    · exact ⟨['/'], ['.'], rfl, .inr ⟨'/', rfl, rfl⟩, '.', [], rfl, rfl, .inl rfl⟩
    · exact ⟨[], ['.', '/'], rfl, .inl rfl, '.', ['/'], rfl, rfl, .inr rfl⟩
    · exact ⟨['/'], ['.', '/'], rfl, .inr ⟨'/', rfl, rfl⟩, '.', ['/'], rfl, rfl, .inr rfl⟩

/-- `onlyDot` replaces the whole line. -/
theorem onlyDot_run (s : CStr) : onlyDot.run s =
    if s ∈ [".".toList, "/.".toList, "./".toList, "/./".toList] then ".".toList else s := by
  cases s with
  | nil => rfl
  | cons c s =>
    by_cases hmem : c :: s ∈ [".".toList, "/.".toList, "./".toList, "/./".toList]
    · have hlongest : onlyDot.pattern.longest (c :: s) = some (c :: s, []) := by
        refine Lib.Ere.longest_eq_some (List.append_nil _).symm (onlyDot_match_iff.2 hmem)
          (fun _ => rfl) ?_
        intro u' v' hs _ _
        rw [hs, List.length_append]
        exact Nat.le_add_right ..
      rw [if_pos hmem, SedSubst.run, Lib.Ere.substitute_of_longest hlongest]
      rfl
    · have hnone : onlyDot.pattern.longest (c :: s) = none := by
        refine Lib.Ere.longest_eq_none fun u v hs hu hv => hmem ?_
        rw [hs, hv rfl, List.append_nil]
        exact onlyDot_match_iff.1 hu
      rw [if_neg hmem, SedSubst.run, Lib.Ere.substitute_of_none hnone]
      rfl

theorem dotAtEnd_match_iff : Lib.Ere.fullMatch dotAtEnd.pattern.items u = true ↔
    u = "/.".toList := by
  simp only [dotAtEnd, Lib.Ere.fullMatch_once_iff, Lib.Ere.fullMatch_nil_iff, isSlash, isDot,
    beq_iff_eq]
  constructor
  · rintro ⟨_, _, rfl, rfl, _, _, rfl, rfl, rfl⟩
    rfl
  · rintro rfl
    exact ⟨_, _, rfl, rfl, _, _, rfl, rfl, rfl⟩

theorem dotAtEnd_miss (h : c :: s ≠ "/.".toList) :
    dotAtEnd.run (c :: s) = c :: dotAtEnd.run s := by
  rw [run_skip rfl]
  refine Lib.Ere.longest_eq_none fun u v hs hu hv => h ?_
  rw [hs, hv rfl, List.append_nil, dotAtEnd_match_iff.1 hu]

/-- Commands whose text starts with a slash skip a word. -/
theorem dotInside_word (hu : '/' ∉ u) (t : CStr) :
    dotInside.run (u ++ t) = u ++ dotInside.run t := by
  induction u with
  | nil => rfl
  | cons c u ih =>
    rw [List.mem_cons, not_or] at hu
    rw [List.cons_append, dotInside_miss, ih hu.2, List.cons_append]
    intro h
    exact hu.1 (List.cons_prefix_cons.1 h).1

theorem dotAtEnd_word (hu : '/' ∉ u) (t : CStr) :
    dotAtEnd.run (u ++ t) = u ++ dotAtEnd.run t := by
  induction u with
  | nil => rfl
  | cons c u ih =>
    rw [List.mem_cons, not_or] at hu
    rw [List.cons_append, dotAtEnd_miss, ih hu.2, List.cons_append]
    intro h
    exact hu.1 (List.cons.inj h).1.symm

end

/-! ## Components -/

/-- Components with a slash before each of them. -/
def rooted (ws : List CStr) : CStr := ws.flatMap ('/' :: ·)

/-- The components that are left by `dotInside`. -/
def dropDot : List CStr → List CStr
  | w :: v :: ws => if w = ".".toList then v :: ws else w :: dropDot (v :: ws)
  | ws => ws

/-- The components that are left by `dotAtEnd`. -/
def dropLastDot (ws : List CStr) : List CStr :=
  if ws.getLast? = some ".".toList then ws.dropLast else ws

section
variable {w : CStr} {ws : List CStr}

@[simp] theorem rooted_nil : rooted [] = [] := rfl

theorem rooted_cons (w : CStr) (ws : List CStr) : rooted (w :: ws) = '/' :: (w ++ rooted ws) := rfl

theorem joinPath_rel (w : CStr) (ws : List CStr) :
    Lib.joinPath '/' false (w :: ws) = w ++ rooted ws := Lib.intercalate_cons_flatMap w ws

theorem joinPath_abs (h : ws ≠ []) : Lib.joinPath '/' true ws = rooted ws := by
  obtain ⟨w, ws, rfl⟩ := List.exists_cons_of_ne_nil h
  rw [Lib.joinPath, if_pos rfl, Lib.intercalate_cons_flatMap]
  rfl

theorem components_rooted (h : Lib.AreNames '/' ws) : components '/' (rooted ws) = ws := by
  by_cases hws : ws = []
  · rw [hws]
    rfl
  · rw [← joinPath_abs hws]
    exact Lib.components_joinPath h

theorem components_rel (h : Lib.AreNames '/' (w :: ws)) :
    components '/' (w ++ rooted ws) = w :: ws := by
  rw [← joinPath_rel]
  exact Lib.components_joinPath h

theorem isAbs_rel (h : Lib.AreNames '/' (w :: ws)) : isAbs '/' (w ++ rooted ws) = false := by
  rw [← joinPath_rel]
  exact Lib.isAbs_joinPath h

/-- A component that begins like `./` is the component `.`. -/
theorem eq_dot_of_prefix_append {t : CStr} (hne : w ≠ []) (hw : '/' ∉ w)
    (h : ['.', '/'] <+: w ++ t) : w = ".".toList := by
  obtain ⟨c, w, rfl⟩ := List.exists_cons_of_ne_nil hne
  obtain ⟨rfl, hrest⟩ := List.cons_prefix_cons.1 h
  cases w with
  | nil => rfl
  | cons d w =>
    obtain ⟨rfl, -⟩ := List.cons_prefix_cons.1 hrest
    exact absurd (by simp) hw

/-- **The first component `.`** is removed if another one follows. -/
theorem dotInside_rooted (h : Lib.AreNames '/' ws) :
    dotInside.run (rooted ws) = rooted (dropDot ws) := by
  induction ws with
  | nil => rfl
  | cons w ws ih =>
    obtain ⟨hne, hw⟩ := h w (by simp)
    rw [rooted_cons]
    cases ws with
    | nil =>
      rw [dotInside_miss, dotInside_word hw]
      · rfl
      · intro hpre
        have hpre' : "./".toList <+: w ++ [] := (List.cons_prefix_cons.1 hpre).2
        rw [List.append_nil] at hpre'
        exact hw (hpre'.subset (by simp))
    | cons v ws =>
      by_cases hdot : w = ".".toList
      · rw [dropDot, if_pos hdot, hdot, rooted_cons]
        exact dotInside_hit (v ++ rooted ws)
      · rw [dropDot, if_neg hdot, dotInside_miss, dotInside_word hw, ih h.tail, rooted_cons]
        intro hpre
        exact hdot (eq_dot_of_prefix_append hne hw (List.cons_prefix_cons.1 hpre).2)

theorem dropLastDot_cons_cons (w v : CStr) (ws : List CStr) :
    dropLastDot (w :: v :: ws) = w :: dropLastDot (v :: ws) := by
  rw [dropLastDot, dropLastDot, List.getLast?_cons_cons]
  split_ifs with hlast
  · rfl
  · rfl

/-- **A last component `.`** is removed. -/
theorem dotAtEnd_rooted (h : Lib.AreNames '/' ws) :
    dotAtEnd.run (rooted ws) = rooted (dropLastDot ws) := by
  induction ws with
  | nil => rfl
  | cons w ws ih =>
    obtain ⟨hne, hw⟩ := h w (by simp)
    rw [rooted_cons]
    cases ws with
    | nil =>
      by_cases hdot : w = ".".toList
      · rw [hdot]
        rfl
      · have hlast : dropLastDot [w] = [w] := by
          rw [dropLastDot, if_neg]
          intro heq
          exact hdot (Option.some.inj heq)
        rw [dotAtEnd_miss, dotAtEnd_word hw, hlast]
        · rfl
        · intro heq
          rw [rooted_nil, List.append_nil] at heq
          exact hdot (List.cons.inj heq).2
    | cons v ws =>
      rw [dropLastDot_cons_cons, dotAtEnd_miss, dotAtEnd_word hw, ih h.tail, rooted_cons]
      intro heq
      -- the second slash is not part of `/.`
      have hrest : w ++ rooted (v :: ws) = ['.'] := (List.cons.inj heq).2
      have hmem : '/' ∈ ['.'] := by
        rw [← hrest, rooted_cons]
        simp
      simp at hmem

theorem onlyDot_rooted (h : Lib.AreNames '/' ws) : onlyDot.run (rooted ws) =
    if ws = [".".toList] then ".".toList else rooted ws := by
  rw [onlyDot_run]
  by_cases hdot : ws = [".".toList]
  · rw [if_pos hdot, hdot]
    rfl
  · rw [if_neg hdot, if_neg]
    intro hmem
    have hcomponents : components '/' (rooted ws) = ws := components_rooted h
    simp only [List.mem_cons, List.not_mem_nil, or_false] at hmem
    rcases hmem with heq | heq | heq | heq <;> rw [heq] at hcomponents <;>
      exact hdot hcomponents.symm

theorem onlyDot_rel (h : Lib.AreNames '/' (w :: ws)) :
    onlyDot.run (w ++ rooted ws) = w ++ rooted ws := by
  rw [onlyDot_run]
  split_ifs with hmem
  · have hcomponents : components '/' (w ++ rooted ws) = w :: ws := components_rel h
    have hdot : w :: ws = [".".toList] := by
      simp only [List.mem_cons, List.not_mem_nil, or_false] at hmem
      rcases hmem with heq | heq | heq | heq <;> rw [heq] at hcomponents <;>
        exact hcomponents.symm
    obtain ⟨rfl, rfl⟩ := List.cons.inj hdot
    rfl
  · rfl

end

end Fischstaebchen
