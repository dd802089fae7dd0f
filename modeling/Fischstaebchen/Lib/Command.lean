/-
  Commands that are printed for the shell.

  A printed command consists of arguments that stand for themselves, or between
  double quotes, with blanks between them.

  * `run_bare`, `run_quoted`: what an argument adds to the word that is read.
  * `tokens_render`: a printed command is read as its words.
  * `run_rendered`: a printed command before other text.
-/
import Fischstaebchen.Lib.Fields
import Fischstaebchen.Lib.Shell

namespace Lib

namespace Shell

/-- The char stands for itself outside of quotes. -/
def IsBare (c : Char) : Prop :=
  isOperator c = false ∧ isBlank c = false ∧ c ∉ ['\\', '\'', '"', '#', '$', '\x60']

/-- The char stands for itself between double quotes. -/
def IsQuoted (c : Char) : Prop := c ∉ ['\\', '"', '$', '\x60']

instance (c : Char) : Decidable (IsBare c) := inferInstanceAs (Decidable (_ ∧ _))
instance (c : Char) : Decidable (IsQuoted c) := inferInstanceAs (Decidable (¬ _))

/-- A word that needs no quotes. -/
def IsBareWord (w : List Char) : Prop := w ≠ [] ∧ ∀ c ∈ w, IsBare c

instance (w : List Char) : Decidable (IsBareWord w) :=
  have := List.decidableBAll IsBare w
  inferInstanceAs (Decidable (_ ∧ _))

/-- All chars stand for themselves between double quotes. -/
def Quotable (s : List Char) : Prop := ∀ c ∈ s, IsQuoted c

instance (s : List Char) : Decidable (Quotable s) := List.decidableBAll _ s

/-- An argument of a printed command. -/
inductive Arg
  | bare (w : List Char)
  | quoted (w : List Char)

namespace Arg

/-- The word that is meant. -/
def word : Arg → List Char
  | bare w => w
  | quoted w => w

/-- The text that is printed. -/
def text : Arg → List Char
  | bare w => w
  | quoted w => '"' :: w ++ ['"']

/-- The text is read as the word. -/
def Plain : Arg → Prop
  | bare w => IsBareWord w
  | quoted w => Quotable w

end Arg

/-- The text of a command. -/
def render (args : List Arg) : List Char := joined (args.map Arg.text)

theorem render_singleton (a : Arg) : render [a] = a.text := by
  simp [render, joined, List.intercalate]

theorem render_cons (a : Arg) {args : List Arg} (h : args ≠ []) :
    render (a :: args) = a.text ++ ' ' :: render args :=
  joined_cons a.text (by simpa using h)

theorem Arg.text_quoted_append (w s : List Char) :
    (quoted w).text ++ s = '"' :: (w ++ '"' :: s) := by
  simp [text]

theorem Quotable.append {s t : List Char} (hs : Quotable s) (ht : Quotable t) :
    Quotable (s ++ t) := by
  intro c hc
  rcases List.mem_append.1 hc with hc | hc
  · exact hs c hc
  · exact ht c hc

/-! ## Reading an argument -/

section
variable (toks : List Token)

/-- A bare char is added to the word. -/
theorem step_bare {c : Char} (hc : IsBare c) (cur : Option (List Char)) :
    (⟨.plain, cur, toks⟩ : Lexer).step c = ⟨.plain, some (cur.getD [] ++ [c]), toks⟩ := by
  obtain ⟨hop, hblank, hspecial⟩ := hc
  simp only [List.mem_cons, List.not_mem_nil, or_false, not_or] at hspecial
  obtain ⟨hesc, hsingle, hdouble, hhash, -, -⟩ := hspecial
  simp [Lexer.step, effect, nextMode, Lexer.apply, hop, hblank, hesc, hsingle, hdouble, hhash]

/-- A bare word is added to the word that is read. -/
theorem run_bare {w : List Char} (hw : ∀ c ∈ w, IsBare c) (cur : List Char) :
    (⟨.plain, some cur, toks⟩ : Lexer).run w = ⟨.plain, some (cur ++ w), toks⟩ := by
  induction w generalizing cur with
  | nil => rw [run_nil, List.append_nil]
  | cons c w ih =>
    rw [run_cons, step_bare toks (hw c (by simp)), Option.getD_some,
      ih (fun x hx => hw x (by simp [hx])), List.append_assoc, List.singleton_append]

theorem run_quotedChars {w : List Char} (hw : Quotable w) (cur : List Char) :
    (⟨.double, some cur, toks⟩ : Lexer).run w = ⟨.double, some (cur ++ w), toks⟩ := by
  induction w generalizing cur with
  | nil => rw [run_nil, List.append_nil]
  | cons c w ih =>
    have hc : IsQuoted c := hw c (by simp)
    simp only [IsQuoted, List.mem_cons, List.not_mem_nil, or_false, not_or] at hc
    have hstep : (⟨.double, some cur, toks⟩ : Lexer).step c =
        ⟨.double, some (cur ++ [c]), toks⟩ := by
      simp [Lexer.step, effect, nextMode, Lexer.apply, hc.1, hc.2.1]
    rw [run_cons, hstep, ih (fun x hx => hw x (by simp [hx])), List.append_assoc,
      List.singleton_append]

/-- **What stands between double quotes** is added to the word that is read. -/
theorem run_quoted {w : List Char} (hw : Quotable w) (cur : Option (List Char)) :
    (⟨.plain, cur, toks⟩ : Lexer).run ('"' :: w ++ ['"']) =
      ⟨.plain, some (cur.getD [] ++ w), toks⟩ := by
  have hopen : (⟨.plain, cur, toks⟩ : Lexer).step '"' = ⟨.double, some (cur.getD []), toks⟩ := by
    simp [Lexer.step, effect, nextMode, Lexer.apply, isOperator, isBlank]
  rw [List.cons_append, run_cons, hopen, run_append, run_quotedChars toks hw]
  simp [Lexer.step, effect, nextMode, Lexer.apply]

/-- An argument is read as its word. -/
theorem run_text {a : Arg} (ha : a.Plain) :
    (between toks).run a.text = ⟨.plain, some a.word, toks⟩ := by
  cases a with
  | quoted w => exact run_quoted toks ha none
  | bare w =>
    obtain ⟨hne, hw⟩ := ha
    obtain ⟨c, w, rfl⟩ := List.exists_cons_of_ne_nil hne
    rw [Arg.text, run_cons, between, step_bare toks (hw c (by simp)),
      run_bare toks fun x hx => hw x (by simp [hx])]
    rfl

/-! ## Reading a command -/

/-- **A printed command before other text.** -/
theorem run_rendered {args : List Arg} (hargs : ∀ a ∈ args, a.Plain) :
    (between toks).run (terminated ' ' (args.map Arg.text)) =
      between (toks ++ args.map fun a => .word a.word) := by
  induction args generalizing toks with
  | nil => simp
  | cons a args ih =>
    have hstep : (⟨.plain, some a.word, toks⟩ : Lexer).step ' ' =
        between (toks ++ [.word a.word]) := rfl
    rw [List.map_cons, terminated_cons, run_append, run_text toks (hargs a (by simp)), run_cons,
      hstep, ih _ fun b hb => hargs b (by simp [hb])]
    simp

end

theorem hasSubstitution_eq_false {s : List Char} (h : ∀ c ∈ s, c ≠ '$' ∧ c ≠ '\x60') :
    hasSubstitution s = false := by
  induction s with
  | nil => rfl
  | cons c s ih =>
    obtain ⟨hdollar, hquote⟩ := h c (by simp)
    rw [hasSubstitution, ih fun x hx => h x (by simp [hx])]
    simp [hdollar, hquote]

/-- The text of an argument has no substitution. -/
theorem mem_text {a : Arg} (ha : a.Plain) {c : Char} (hc : c ∈ a.text) : c ≠ '$' ∧ c ≠ '\x60' := by
  cases a with
  | bare w =>
    have hspecial := (ha.2 c hc).2.2
    simp only [List.mem_cons, List.not_mem_nil, or_false, not_or] at hspecial
    exact ⟨hspecial.2.2.2.2.1, hspecial.2.2.2.2.2⟩
  | quoted w =>
    rcases List.mem_append.1 hc with hc | hc
    · rcases List.mem_cons.1 hc with rfl | hc
      · decide
      · have hspecial := ha c hc
        simp only [IsQuoted, List.mem_cons, List.not_mem_nil, or_false, not_or] at hspecial
        exact ⟨hspecial.2.2.1, hspecial.2.2.2⟩
    · rw [List.mem_singleton.1 hc]
      decide

theorem mem_render {args : List Arg} (hargs : ∀ a ∈ args, a.Plain) {c : Char}
    (hc : c ∈ render args) : c ≠ '$' ∧ c ≠ '\x60' := by
  rcases mem_intercalate hc with rfl | ⟨w, hw, hc⟩
  · decide
  · obtain ⟨a, ha, rfl⟩ := List.mem_map.1 hw
    exact mem_text (hargs a ha) hc

/-- **A printed command** is read as its words. -/
theorem tokens_render {args : List Arg} (hargs : ∀ a ∈ args, a.Plain) :
    tokens (render args) = some (args.map fun a => .word a.word) := by
  rw [tokens, hasSubstitution_eq_false fun c hc => mem_render hargs hc, if_neg (by simp)]
  rcases List.eq_nil_or_concat args with rfl | ⟨args, a, rfl⟩
  · rfl
  · rw [List.concat_eq_append] at hargs ⊢
    have hinit : ∀ b ∈ args, b.Plain := fun b hb => hargs b (by simp [hb])
    have hstart : Lexer.init = between [] := rfl
    rw [render, List.map_append, List.map_cons, List.map_nil, joined, intercalate_concat, run_append, hstart,
      run_rendered [] hinit, run_text _ (hargs a (by simp))]
    simp [Lexer.finish, Lexer.delimit]

end Shell

end Lib
