/-
  Reading options with `getopt`, as POSIX has it.

  A call finds one option or, at the first word that is none, the operands.  A
  word after the dash is a cluster of options; the last one may take the rest of
  the word, or the next word, as its argument.

  * `parse`: all options and the operands, word by word.
  * `getopt_cases`, `getopt_induction`: the calls find them one after the other.
    Each call reads some chars (`Reads.size`), so that there is an end.
  * `weight_parse_le`, `optarg_parse_subset`: the arguments are no longer than the
    words and consist of their chars.
-/
import Mathlib.Tactic

namespace Lib.Getopt

variable {α : Type*}

/-- What is found: an option, or one that is unknown or lacks its argument. -/
inductive Opt (α : Type*)
  | flag (c : α)
  | arg (c : α) (optarg : List α)
  | bad (c : α)

/-- The chars of the word that is being read, and the words after it. -/
structure Cursor (α : Type*) where
  cluster : List α
  args : List (List α)

/-- The result of a call. -/
inductive Found (α : Type*)
  | opt (o : Opt α) (next : Cursor α)
  | operands (args : List (List α))

section
variable [DecidableEq α] (colon dash : α) (optstring : List α)

/-- Whether the option `c` takes an argument, if it is one. -/
def takesArg : List α → α → Option Bool
  | [], _ => none
  | d :: spec, c => if d = c ∧ c ≠ colon then some (spec.head? = some colon) else takesArg spec c

/-- The option `c` with the chars behind it and the words after these. -/
def optionAt (c : α) (rest : List α) (args : List (List α)) : Found α :=
  match takesArg colon optstring c with
  | none => .opt (.bad c) ⟨rest, args⟩
  | some false => .opt (.flag c) ⟨rest, args⟩
  | some true =>
    if rest ≠ [] then .opt (.arg c rest) ⟨[], args⟩
    else
      match args with
      | [] => .opt (.bad c) ⟨[], []⟩
      | optarg :: args => .opt (.arg c optarg) ⟨[], args⟩

/-- `getopt`. -/
def getopt : Cursor α → Found α
  | ⟨c :: rest, args⟩ => optionAt colon optstring c rest args
  | ⟨[], []⟩ => .operands []
  | ⟨[], w :: args⟩ =>
    match w with
    | d :: c :: rest =>
      if d ≠ dash then .operands (w :: args)
      else if c = dash ∧ rest = [] then .operands args
      else optionAt colon optstring c rest args
    | _ => .operands (w :: args)

/-! ## Word by word -/

/-- The options of a cluster, and the one that still needs its argument. -/
def readCluster : List α → List (Opt α) × Option α
  | [] => ([], none)
  | c :: rest =>
    match takesArg colon optstring c with
    | none => (.bad c :: (readCluster rest).1, (readCluster rest).2)
    | some false => (.flag c :: (readCluster rest).1, (readCluster rest).2)
    | some true => if rest ≠ [] then ([.arg c rest], none) else ([], some c)

/-- The options and the operands of some words, the first of which may be the
    argument of a pending option. -/
def readArgs : Option α → List (List α) → List (Opt α) × List (List α)
  | none, [] => ([], [])
  | some c, [] => ([.bad c], [])
  | some c, optarg :: args => (.arg c optarg :: (readArgs none args).1, (readArgs none args).2)
  | none, w :: args =>
    match w with
    | d :: c :: rest =>
      if d ≠ dash then ([], w :: args)
      else if c = dash ∧ rest = [] then ([], args)
      else
        let r := readCluster colon optstring (c :: rest)
        (r.1 ++ (readArgs r.2 args).1, (readArgs r.2 args).2)
    | _ => ([], w :: args)

/-- All options and the operands. -/
def parse (s : Cursor α) : List (Opt α) × List (List α) :=
  let r := readCluster colon optstring s.cluster
  (r.1 ++ (readArgs colon dash optstring r.2 s.args).1,
    (readArgs colon dash optstring r.2 s.args).2)

end

/-! ## What a call reads -/

/-- The chars that are not read yet, with one more for each word. -/
def Cursor.size (s : Cursor α) : ℕ := s.cluster.length + (s.args.map fun w => w.length + 1).sum

/-- The chars that an option takes at least. -/
def Opt.weight : Opt α → ℕ
  | .arg _ optarg => optarg.length + 1
  | .flag _ | .bad _ => 1

def Cursor.chars (s : Cursor α) : List α := s.cluster ++ s.args.flatten

def Opt.optarg : Opt α → List α
  | .arg _ optarg => optarg
  | .flag _ | .bad _ => []

theorem Opt.one_le_weight (o : Opt α) : 1 ≤ o.weight := by
  cases o <;> simp [Opt.weight]

section
variable [DecidableEq α] (colon dash : α) (optstring : List α)

/-- The option `o` is the first one of `s`, and `s'` is what is left. -/
structure Reads (s : Cursor α) (o : Opt α) (s' : Cursor α) : Prop where
  parse : parse colon dash optstring s =
    (o :: (parse colon dash optstring s').1, (parse colon dash optstring s').2)
  size : s'.size + o.weight ≤ s.size
  optarg : o.optarg ⊆ s.chars
  chars : s'.chars ⊆ s.chars

/-- **One option** is read, by the kinds of options. -/
theorem optionAt_reads (c : α) (rest : List α) (args : List (List α)) :
    ∃ o s', optionAt colon optstring c rest args = .opt o s' ∧
      Reads colon dash optstring ⟨c :: rest, args⟩ o s' := by
  unfold optionAt
  cases htakes : takesArg colon optstring c with
  | none =>
    refine ⟨_, _, rfl, ?_, ?_, ?_, ?_⟩
    · rw [Getopt.parse, readCluster, htakes]
      rfl
    · simp only [Cursor.size, Opt.weight, List.length_cons]
      omega
    · simp [Opt.optarg]
    · simp [Cursor.chars]
  | some takes =>
  cases takes with
  | false =>
    refine ⟨_, _, rfl, ?_, ?_, ?_, ?_⟩
    · rw [Getopt.parse, readCluster, htakes]
      rfl
    · simp only [Cursor.size, Opt.weight, List.length_cons]
      omega
    · simp [Opt.optarg]
    · simp [Cursor.chars]
  | true =>
  by_cases hrest : rest = []
  · subst hrest
    cases args with
    | nil =>
      refine ⟨_, _, rfl, ?_, ?_, ?_, ?_⟩
      · rw [Getopt.parse, readCluster, htakes]
        rfl
      · simp [Cursor.size, Opt.weight]
      · simp [Opt.optarg]
      · simp [Cursor.chars]
    | cons optarg args =>
      refine ⟨_, _, rfl, ?_, ?_, ?_, ?_⟩
      · rw [Getopt.parse, readCluster, htakes]
        rfl
      · simp only [Cursor.size, Opt.weight, List.length_cons, List.map_cons, List.sum_cons,
          List.length_nil]
        omega
      · simp [Opt.optarg, Cursor.chars]
      · simp [Cursor.chars]
  · refine ⟨_, _, if_pos hrest, ?_, ?_, ?_, ?_⟩
    · rw [Getopt.parse, readCluster, htakes]
      dsimp only
      rw [if_pos hrest]
      rfl
    · simp only [Cursor.size, Opt.weight, List.length_cons, List.length_nil]
      omega
    · simp [Opt.optarg, Cursor.chars]
    · simp [Cursor.chars]

/-- The first word is a cluster, or it ends the options. -/
theorem getopt_word (w : List α) (args : List (List α)) :
    (∃ c rest, w = dash :: c :: rest ∧
        getopt colon dash optstring ⟨[], w :: args⟩ = optionAt colon optstring c rest args ∧
        parse colon dash optstring ⟨[], w :: args⟩ =
          parse colon dash optstring ⟨c :: rest, args⟩) ∨
      ∃ ops, getopt colon dash optstring ⟨[], w :: args⟩ = .operands ops ∧
        parse colon dash optstring ⟨[], w :: args⟩ = ([], ops) := by
  match w with
  | [] => exact .inr ⟨_, rfl, rfl⟩
  | [_] => exact .inr ⟨_, rfl, rfl⟩
  | d :: c :: rest =>
    rw [getopt, parse, readCluster]
    dsimp only
    rw [readArgs]
    by_cases hd : d = dash
    · rw [if_neg (not_not.2 hd), if_neg (not_not.2 hd)]
      by_cases hend : c = dash ∧ rest = []
      · rw [if_pos hend, if_pos hend]
        exact .inr ⟨_, rfl, rfl⟩
      · rw [if_neg hend, if_neg hend]
        exact .inl ⟨c, rest, by rw [hd], rfl, rfl⟩
    · rw [if_pos hd, if_pos hd]
      exact .inr ⟨_, rfl, rfl⟩

/-- **A call** finds the first option, or the operands. -/
theorem getopt_cases (s : Cursor α) :
    (∃ o s', getopt colon dash optstring s = .opt o s' ∧ Reads colon dash optstring s o s') ∨
      ∃ ops, getopt colon dash optstring s = .operands ops ∧
        parse colon dash optstring s = ([], ops) := by
  obtain ⟨cluster, args⟩ := s
  match cluster, args with
  | c :: rest, args => exact .inl (optionAt_reads colon dash optstring c rest args)
  | [], [] => exact .inr ⟨_, rfl, rfl⟩
  | [], w :: args =>
    rcases getopt_word colon dash optstring w args with ⟨c, rest, rfl, hget, hparse⟩ | hops
    · obtain ⟨o, s', hoption, hreads⟩ := optionAt_reads colon dash optstring c rest args
      have hsub : (⟨c :: rest, args⟩ : Cursor α).chars ⊆
          (⟨[], (dash :: c :: rest) :: args⟩ : Cursor α).chars := by
        simp [Cursor.chars]
      refine .inl ⟨o, s', hget.trans hoption, hparse.trans hreads.parse, hreads.size.trans ?_,
        List.Subset.trans hreads.optarg hsub, List.Subset.trans hreads.chars hsub⟩
      simp only [Cursor.size, List.length_cons, List.length_nil, List.map_cons, List.sum_cons]
      omega
    · exact .inr hops

/-- **Induction on the calls.** -/
theorem getopt_induction {P : Cursor α → Prop}
    (hopt : ∀ s o s', Reads colon dash optstring s o s' → P s' → P s)
    (hops : ∀ s ops, parse colon dash optstring s = ([], ops) → P s) (s : Cursor α) : P s := by
  induction hn : s.size using Nat.strong_induction_on generalizing s with
  | _ n ih =>
    subst hn
    rcases getopt_cases colon dash optstring s with ⟨o, s', -, hreads⟩ | ⟨ops, -, hparse⟩
    · have hsize := hreads.size
      have hweight := o.one_le_weight
      exact hopt s o s' hreads (ih s'.size (by omega) s' rfl)
    · exact hops s ops hparse

/-- The options are no longer than the words. -/
theorem weight_parse_le (s : Cursor α) :
    ((parse colon dash optstring s).1.map Opt.weight).sum ≤ s.size := by
  induction s using getopt_induction colon dash optstring with
  | hopt s o s' hreads ih =>
    have hsize := hreads.size
    rw [hreads.parse, List.map_cons, List.sum_cons]
    omega
  | hops s ops hparse =>
    rw [hparse]
    exact Nat.zero_le _

/-- The arguments consist of chars of the words. -/
theorem optarg_parse_subset (s : Cursor α) :
    ∀ o ∈ (parse colon dash optstring s).1, o.optarg ⊆ s.chars := by
  induction s using getopt_induction colon dash optstring with
  | hopt s o s' hreads ih =>
    rw [hreads.parse]
    intro o' ho'
    rcases List.mem_cons.1 ho' with rfl | ho'
    · exact hreads.optarg
    · exact List.Subset.trans (ih o' ho') hreads.chars
  | hops s ops hparse =>
    rw [hparse]
    exact fun o ho => absurd ho List.not_mem_nil

end

end Lib.Getopt
