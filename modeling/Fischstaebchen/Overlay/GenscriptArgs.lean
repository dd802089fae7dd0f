/-
  The arguments of the overlayfs script generator
  (`union_mount_base/rootfs/bin/aufs-overlayfs-genscript`).

  A sentinel is put behind the arguments.  The first loop takes the options out
  and moves the other words behind the sentinel, the second one does so with the
  words after `--`.

  * `optionStep_loop`, `rotateStep_loop`: the loops are those of `genscript`.
  * `optionStep_ends`, `optionStep_endless`: what the first loop does, by the words
    from the left.
  * `parsesArgs_iff`: parsing ends as documented exactly if no empty word, and no
    option without its argument, is in the way.
-/
import Fischstaebchen.Lib.While
import Fischstaebchen.Overlay.FspathNormalForm
import Fischstaebchen.Overlay.OverlayfsGenscript

namespace Fischstaebchen

open Lib (whileLoop Ends Endless)
open Lib.Shell (caseOf)

/-! ## The loops -/

/-- The arms of the first `case` statement. -/
inductive ArgKind
  | sentinel
  | endOfOptions
  | empty
  | layerRoot
  | mem
  | help
  | positional
  deriving DecidableEq

/-- The arm that is taken. -/
def argKind (arg : CStr) : ArgKind :=
  if caseOf arg ["^^^"] then .sentinel
  else if caseOf arg ["--"] then .endOfOptions
  else if caseOf arg [""] then .empty
  else if caseOf arg ["-L", "--layer-root"] then .layerRoot
  else if caseOf arg ["-M", "--mem"] then .mem
  else if caseOf arg ["-h", "--help"] then .help
  else .positional

/-- How the parsing of the arguments ends. -/
inductive ArgsEnd
  | exit (code : ℕ)
  | params (args : List CStr) (o : GenscriptOpts)

section
variable (fspathArg : CStr → Option CStr)

/-- An iteration of the first loop; `shift` takes the first parameter away. -/
def optionStep : List CStr × GenscriptOpts → Lib.Flow (List CStr × GenscriptOpts) ArgsEnd
  | ([], o) => .leave (.params [] o)
  | (arg :: args, o) =>
    match argKind arg with
    | .sentinel => .leave (.params (arg :: args) o)
    | .endOfOptions => .leave (.params args o)
    -- there is no `shift` in this arm
    | .empty => .next (arg :: args, o)
    | .layerRoot =>
      match fspathArg (args.headD []) with
      | none => .leave (.exit 1)
      | some v0 => .next (args.tail, { o with layerRoot := v0 })
    | .mem => .next (args, { o with lastBranchIsOvDir := true })
    | .help => .leave (.exit 0)
    | .positional => .next (args ++ [arg], o)

/-- An iteration of the second loop. -/
def rotateStep : List CStr → Lib.Flow (List CStr) (List CStr)
  | [] => .leave []
  | arg :: args => if caseOf arg ["^^^"] then .leave args else .next (args ++ [arg])

/-- `set -- "${@}" ^^^` and the two loops. -/
def parseArgs (fuel : ℕ) (args : List CStr) : Option ArgsEnd :=
  match whileLoop (optionStep fspathArg) fuel (args ++ ["^^^".toList], ⟨[], false⟩) with
  | none => none
  | some (.exit code) => some (.exit code)
  | some (.params args o) => (whileLoop rotateStep fuel args).map fun args => .params args o

end

/-- `fspath_arg`: `v0`.  The command substitution drops the newlines at the end. -/
def fspathArgText (arg : CStr) : Option CStr :=
  let v0 := (ioStripFspath arg).rdropWhile (· == '\n')
  if arg = [] ∨ v0 = [] then none else some v0

/-! ## The model of the script -/

section
variable {c : Char} {s : CStr}

theorem trailingSlashes_eq (s : CStr) : trailingSlashes.run s = sedTrailingSlashes s := by
  by_cases h : withoutTrailing s = []
  · rw [trailingSlashes_slashes (withoutTrailing_eq_nil_iff.1 h)]
    exact (if_pos h).symm
  · obtain ⟨u, d, t, hlast, hd, hs, ht⟩ := exists_last h
    have hrun : trailingSlashes.run s = withoutTrailing s := by
      rw [hlast, hs]
      exact trailingSlashes_run hd ht
    rw [hrun]
    exact (if_neg h).symm

theorem sedSlashes_append {u : CStr} (hu : '/' ∉ u) (t : CStr) :
    sedSlashes (u ++ t) = u ++ sedSlashes t := by
  induction u with
  | nil => rfl
  | cons c u ih =>
    rw [List.mem_cons, not_or] at hu
    rw [List.cons_append, sedSlashes, if_neg (Ne.symm hu.1), ih hu.2, List.cons_append]

theorem slashRun_eq_sedSlashes (s : CStr) : slashRun.run s = sedSlashes s := by
  by_cases h : '/' ∈ s
  · obtain ⟨u, t, rfl, hu⟩ := List.eq_append_cons_of_mem h
    rw [slashRun_run hu, sedSlashes_append hu]
    rfl
  · have hword := sedSlashes_append h []
    rw [List.append_nil] at hword
    rw [slashRun_word h, hword]
    exact (List.append_nil s).symm

theorem dotInside_eq (s : CStr) : dotInside.run s = sedDot s := by
  induction s with
  | nil => rfl
  | cons c s ih =>
    rw [sedDot]
    by_cases hpre : "/./".toList <+: c :: s
    · obtain ⟨t, ht⟩ := hpre
      rw [if_pos ⟨t, ht⟩, ← ht, dotInside_hit]
      obtain ⟨-, rfl⟩ := List.cons.inj ht
      rfl
    · rw [if_neg hpre, dotInside_miss hpre, ih]

theorem onlyDot_eq (s : CStr) : onlyDot.run s = sedOnlyDot s := by
  rw [onlyDot_run, sedOnlyDot]
  simp

theorem dotAtEnd_eq (s : CStr) : dotAtEnd.run s = sedFinalDot s := by
  induction s with
  | nil => rfl
  | cons c s ih =>
    by_cases heq : c :: s = "/.".toList
    · rw [heq]
      rfl
    · have hsuffix : "/.".toList <:+ c :: s ↔ "/.".toList <:+ s := by
        rw [List.suffix_cons_iff]
        exact or_iff_right (Ne.symm heq)
      rw [dotAtEnd_miss heq, ih, sedFinalDot, sedFinalDot]
      by_cases h : "/.".toList <:+ s
      · obtain ⟨t, rfl⟩ := h
        have hdrop (u : CStr) : (u ++ "/.".toList).dropLast.dropLast = u := by simp
        rw [if_pos (List.suffix_append _ _), if_pos (hsuffix.2 (List.suffix_append _ _)), hdrop,
          ← List.cons_append, hdrop]
      · rw [if_neg h, if_neg (mt hsuffix.1 h)]

/-- The substitutions of `genscript` are those of the path normal form. -/
theorem stripFspath_eq_stripLine (s : CStr) : stripFspath s = stripLine s := by
  rw [stripFspath, ← trailingSlashes_eq, ← slashRun_eq_sedSlashes, ← dotInside_eq, ← onlyDot_eq,
    ← dotAtEnd_eq]
  rfl

/-- An argument of one line. -/
theorem fspathArgText_line (h : '\n' ∉ s) : fspathArgText s = fspathArg s := by
  have hstripped : (ioStripFspath s).rdropWhile (· == '\n') = stripFspath s := by
    rw [ioStripFspath_line h, ← stripFspath_eq_stripLine, List.rdropWhile_eq_self_iff]
    intro hne hlast
    exact h (beq_iff_eq.1 hlast ▸ stripFspath_subset (List.getLast_mem hne))
  rw [fspathArgText, hstripped, fspathArg]

end

/-- The first loop is the one of `genscript`, which does not tell why there is no
    result. -/
theorem optionStep_loop (fuel : ℕ) (args : List CStr) (o : GenscriptOpts) :
    optionLoop fuel args o =
      match whileLoop (optionStep fspathArg) fuel (args, o) with
      | some (.params args o) => some (args, o)
      | _ => none := by
  induction fuel generalizing args o with
  | zero => rfl
  | succ fuel ih =>
    cases args with
    | nil => rfl
    | cons arg args =>
      rw [optionLoop, Lib.whileLoop_succ, optionStep, argKind]
      split_ifs
      · rfl
      · rfl
      · exact ih _ _
      · cases hv : fspathArg (args.headD []) with
        | none => rfl
        | some v0 => exact ih _ _
      · exact ih _ _
      · rfl
      · exact ih _ _

theorem rotateStep_loop (fuel : ℕ) (args : List CStr) :
    rotateLoop fuel args = whileLoop rotateStep fuel args := by
  induction fuel generalizing args with
  | zero => rfl
  | succ fuel ih =>
    cases args with
    | nil => rfl
    | cons arg args =>
      rw [rotateLoop, Lib.whileLoop_succ, rotateStep]
      split_ifs
      · rfl
      · exact ih _

/-! ## The words -/

section
variable {arg v : CStr} {todo done : List CStr} {o : GenscriptOpts}

/-- The arguments that are left as positional parameters: the words that are no
    options, and all words after `--`. -/
def positionals : List CStr → List CStr
  | [] => []
  | arg :: args =>
    match argKind arg with
    | .endOfOptions => args
    | .layerRoot =>
      match args with
      | [] => []
      | _ :: args => positionals args
    | .positional => arg :: positionals args
    | .sentinel | .empty | .mem | .help => positionals args

theorem argKind_sentinel_iff : argKind arg = .sentinel ↔ arg = "^^^".toList := by
  constructor
  · intro h
    rw [argKind] at h
    split_ifs at h with h₁
    rw [Lib.Shell.matches_words (by decide)] at h₁
    simpa using h₁
  · rintro rfl
    rfl

variable (fspathArg : CStr → Option CStr)

/-- No empty word is met, and no option without its argument after a positional
    word (`seen`), up to the end of the options or an exit. -/
def wordsOk : Bool → List CStr → Bool
  | _, [] => true
  | seen, arg :: args =>
    match argKind arg with
    | .empty => false
    | .layerRoot =>
      match args with
      | [] => !seen
      | v :: args => (fspathArg v).isNone || wordsOk seen args
    | .mem => wordsOk seen args
    | .positional => wordsOk true args
    | .sentinel | .endOfOptions | .help => true

/-! ## The second loop -/

theorem rotateStep_sentinel (args : List CStr) : rotateStep ("^^^".toList :: args) = .leave args :=
  rfl

theorem rotateStep_word (h : arg ≠ "^^^".toList) (args : List CStr) :
    rotateStep (arg :: args) = .next (args ++ [arg]) := by
  rw [rotateStep, if_neg]
  rw [Lib.Shell.matches_words (by decide)]
  simpa using h

/-- **The words up to the sentinel** are put behind the others. -/
theorem rotateStep_ends (h : "^^^".toList ∉ todo) :
    Ends rotateStep (todo ++ "^^^".toList :: done) (done ++ todo) := by
  induction todo generalizing done with
  | nil =>
    rw [List.append_nil]
    exact Lib.ends_leave (rotateStep_sentinel done)
  | cons arg todo ih =>
    rw [List.mem_cons, not_or] at h
    refine Lib.ends_next (rotateStep_word (Ne.symm h.1) _) ?_
    have hend : Ends rotateStep (todo ++ "^^^".toList :: (done ++ [arg])) (done ++ [arg] ++ todo) :=
      ih h.2
    simpa using hend

/-! ## The first loop -/

/-- The first loop and the second one end, and leave the parameters `ps`; or the
    first loop exits. -/
def ArgsParsed (s : List CStr × GenscriptOpts) (ps : List CStr) : Prop :=
  (∃ code, Ends (optionStep fspathArg) s (.exit code)) ∨
    ∃ args o, Ends (optionStep fspathArg) s (.params args o) ∧ Ends rotateStep args ps

variable {fspathArg}

theorem ArgsParsed.next {s s' : List CStr × GenscriptOpts} {ps : List CStr}
    (hstep : optionStep fspathArg s = .next s') (h : ArgsParsed fspathArg s' ps) :
    ArgsParsed fspathArg s ps := by
  rcases h with ⟨code, hend⟩ | ⟨args, o, hend, hrotate⟩
  · exact .inl ⟨code, Lib.ends_next hstep hend⟩
  · exact .inr ⟨args, o, Lib.ends_next hstep hend, hrotate⟩

theorem optionStep_mem (h : argKind arg = .mem) (args : List CStr) :
    optionStep fspathArg (arg :: args, o) = .next (args, { o with lastBranchIsOvDir := true }) := by
  rw [optionStep, h]

theorem optionStep_positional (h : argKind arg = .positional) (args : List CStr) :
    optionStep fspathArg (arg :: args, o) = .next (args ++ [arg], o) := by
  rw [optionStep, h]

theorem optionStep_layerRoot (h : argKind arg = .layerRoot) (args : List CStr) {v0 : CStr}
    (hv : fspathArg v = some v0) : optionStep fspathArg (arg :: v :: args, o) =
      .next (args, { o with layerRoot := v0 }) := by
  rw [optionStep, h]
  dsimp only
  rw [List.headD_cons, hv]
  rfl

theorem optionStep_layerRoot_none (h : argKind arg = .layerRoot) (args : List CStr)
    (hv : fspathArg v = none) : optionStep fspathArg (arg :: v :: args, o) = .leave (.exit 1) := by
  rw [optionStep, h]
  dsimp only
  rw [List.headD_cons, hv]

/-- **The first loop ends** if no word is in the way: by induction on the words
    that it has not read, with those that it has moved. -/
theorem optionStep_ends (hsentinel : fspathArg "^^^".toList ≠ none) :
    ∀ {todo done : List CStr} {o : GenscriptOpts}, "^^^".toList ∉ todo →
      wordsOk fspathArg (!done.isEmpty) todo = true →
      ArgsParsed fspathArg (todo ++ "^^^".toList :: done, o) (done ++ positionals todo)
  | [], done, o, _, _ => by
    rw [positionals, List.append_nil]
    exact .inr ⟨_, o, Lib.ends_leave rfl, Lib.ends_leave (rotateStep_sentinel done)⟩
  | arg :: todo, done, o, hmem, hok => by
    rw [List.mem_cons, not_or] at hmem
    unfold wordsOk at hok
    unfold positionals
    rw [List.cons_append]
    cases hkind : argKind arg with
    | sentinel => exact absurd (argKind_sentinel_iff.1 hkind).symm hmem.1
    | empty =>
      rw [hkind] at hok
      cases hok
    | endOfOptions =>
      refine .inr ⟨todo ++ "^^^".toList :: done, o, Lib.ends_leave ?_, rotateStep_ends hmem.2⟩
      rw [optionStep, hkind]
    | help =>
      refine .inl ⟨0, Lib.ends_leave ?_⟩
      rw [optionStep, hkind]
    | mem =>
      rw [hkind] at hok
      exact .next (optionStep_mem hkind _) (optionStep_ends hsentinel hmem.2 hok)
    | positional =>
      rw [hkind] at hok
      have hseen : (!(done ++ [arg]).isEmpty) = true := by simp
      have hend : ArgsParsed fspathArg (todo ++ "^^^".toList :: (done ++ [arg]), o) _ :=
        optionStep_ends hsentinel hmem.2 (hseen ▸ hok)
      refine .next (optionStep_positional hkind _) ?_
      simpa using hend
    | layerRoot =>
      rw [hkind] at hok
      cases todo with
      | nil =>
        -- the sentinel is taken for the argument, and nothing else is left
        obtain rfl : done = [] := by simpa using hok
        obtain ⟨v0, hv0⟩ := Option.ne_none_iff_exists'.1 hsentinel
        exact .next (optionStep_layerRoot hkind [] hv0)
          (.inr ⟨[], _, Lib.ends_leave rfl, Lib.ends_leave rfl⟩)
      | cons v todo =>
        cases hv : fspathArg v with
        | none => exact .inl ⟨1, Lib.ends_leave (optionStep_layerRoot_none hkind _ hv)⟩
        | some v0 =>
          dsimp only at hok
          rw [hv, Option.isNone_some, Bool.false_or] at hok
          rw [List.mem_cons, not_or] at hmem
          exact .next (optionStep_layerRoot hkind _ hv) (optionStep_ends hsentinel hmem.2.2 hok)
  termination_by todo => todo.length

/-- Words without a sentinel are moved around forever. -/
theorem optionStep_rotates (hne : done ≠ []) (hdone : ∀ w ∈ done, argKind w = .positional) :
    Endless (optionStep fspathArg) (done, o) := by
  refine Lib.endless_of_invariant (I := fun s : List CStr × GenscriptOpts =>
    s.1 ≠ [] ∧ ∀ w ∈ s.1, argKind w = .positional) ?_ ⟨hne, hdone⟩
  rintro ⟨args, o⟩ ⟨hargs, hwords⟩
  obtain ⟨arg, args, rfl⟩ := List.exists_cons_of_ne_nil hargs
  refine ⟨_, optionStep_positional (hwords arg List.mem_cons_self) args, by simp, fun w hw => ?_⟩
  exact hwords w (by simpa [or_comm] using hw)

/-- An empty word is read again and again. -/
theorem optionStep_empty (h : argKind arg = .empty) (args : List CStr) :
    Endless (optionStep fspathArg) (arg :: args, o) := by
  refine Lib.endless_of_invariant (I := (· = (arg :: args, o))) ?_ rfl
  rintro _ rfl
  exact ⟨_, by rw [optionStep, h], rfl⟩

/-- **The first loop does not end** if a word is in the way. -/
theorem optionStep_endless (hsentinel : fspathArg "^^^".toList ≠ none) :
    ∀ {todo done : List CStr} {o : GenscriptOpts}, "^^^".toList ∉ todo →
      (∀ w ∈ done, argKind w = .positional) → wordsOk fspathArg (!done.isEmpty) todo = false →
      Endless (optionStep fspathArg) (todo ++ "^^^".toList :: done, o)
  | [], done, o, _, _, hok => by
    rw [wordsOk] at hok
    cases hok
  | arg :: todo, done, o, hmem, hdone, hok => by
    rw [List.mem_cons, not_or] at hmem
    unfold wordsOk at hok
    rw [List.cons_append]
    cases hkind : argKind arg with
    | sentinel => exact absurd (argKind_sentinel_iff.1 hkind).symm hmem.1
    | empty => exact optionStep_empty hkind _
    | endOfOptions | help =>
      rw [hkind] at hok
      cases hok
    | mem =>
      rw [hkind] at hok
      exact Lib.endless_next (optionStep_mem hkind _)
        (optionStep_endless hsentinel hmem.2 hdone hok)
    | positional =>
      rw [hkind] at hok
      have hseen : (!(done ++ [arg]).isEmpty) = true := by simp
      have hdone' : ∀ w ∈ done ++ [arg], argKind w = .positional := by
        intro w hw
        rcases List.mem_append.1 hw with hw | hw
        · exact hdone w hw
        · rwa [List.mem_singleton.1 hw]
      have hend : Endless (optionStep fspathArg) (todo ++ "^^^".toList :: (done ++ [arg]), o) :=
        optionStep_endless hsentinel hmem.2 hdone' (hseen ▸ hok)
      refine Lib.endless_next (optionStep_positional hkind _) ?_
      simpa using hend
    | layerRoot =>
      rw [hkind] at hok
      cases todo with
      | nil =>
        have hne : done ≠ [] := by simpa using hok
        obtain ⟨v0, hv0⟩ := Option.ne_none_iff_exists'.1 hsentinel
        exact Lib.endless_next (optionStep_layerRoot hkind done hv0) (optionStep_rotates hne hdone)
      | cons v todo =>
        dsimp only at hok
        rw [Bool.or_eq_false_iff] at hok
        obtain ⟨v0, hv0⟩ := Option.isSome_iff_exists.1 (by simpa using hok.1)
        rw [List.mem_cons, not_or] at hmem
        exact Lib.endless_next (optionStep_layerRoot hkind _ hv0)
          (optionStep_endless hsentinel hmem.2.2 hdone hok.2)
  termination_by todo => todo.length

/-! ## Parsing -/

/-- Parsing terminates, with an exit or with the positional parameters. -/
def ParsesArgs (args : List CStr) : Prop :=
  ∃ fuel e, parseArgs fspathArgText fuel args = some e ∧
    ∀ params o, e = .params params o → params = positionals args

theorem parseArgs_of_parsed {args ps : List CStr}
    (h : ArgsParsed fspathArg (args ++ ["^^^".toList], ⟨[], false⟩) ps) :
    ∃ fuel e, parseArgs fspathArg fuel args = some e ∧
      ∀ params o, e = .params params o → params = ps := by
  rcases h with ⟨code, fuel, hend⟩ | ⟨params, o, ⟨fuel, hend⟩, fuel', hrotate⟩
  · refine ⟨fuel, .exit code, ?_, nofun⟩
    rw [parseArgs, hend]
  · refine ⟨max fuel fuel', .params ps o, ?_, ?_⟩
    · rw [parseArgs, Lib.whileLoop_mono hend (le_max_left _ _)]
      dsimp only
      rw [Lib.whileLoop_mono hrotate (le_max_right _ _)]
      rfl
    · rintro _ _ ⟨⟩
      rfl

theorem fspathArgText_sentinel : fspathArgText "^^^".toList ≠ none := by
  decide

theorem parseArgs_of_words {args : List CStr} (hsentinel : "^^^".toList ∉ args)
    (hwords : wordsOk fspathArgText false args = false) (fuel : ℕ) :
    parseArgs fspathArgText fuel args = none := by
  have hendless : Endless (optionStep fspathArgText) (args ++ "^^^".toList :: [], ⟨[], false⟩) :=
    optionStep_endless fspathArgText_sentinel hsentinel (fun w hw => absurd hw List.not_mem_nil)
      hwords
  rw [parseArgs, hendless fuel]

/-- **Parsing ends as it should** exactly if the first loop meets no empty word, and
    no last `-L` without an argument after a positional word. -/
theorem parsesArgs_iff (args : List CStr) (hsentinel : "^^^".toList ∉ args) :
    ParsesArgs args ↔ wordsOk fspathArgText false args = true := by
  constructor
  · rintro ⟨fuel, e, hparse, -⟩
    by_contra hok
    rw [parseArgs_of_words hsentinel (Bool.eq_false_of_not_eq_true hok)] at hparse
    cases hparse
  · intro hok
    have hparsed : ArgsParsed fspathArgText (args ++ ["^^^".toList], ⟨[], false⟩)
        ([] ++ positionals args) := optionStep_ends fspathArgText_sentinel hsentinel hok
    exact parseArgs_of_parsed hparsed

/-- A directory for the layers, two branches and a mountpoint. -/
theorem parsesArgs_mount :
    ParsesArgs ["-L".toList, "/l".toList, "/a:/b".toList, "/mnt".toList] :=
  (parsesArgs_iff _ (by decide)).2 (by decide)

/-- The same without branches. -/
theorem not_parsesArgs_noBranches :
    ¬ ParsesArgs ["-L".toList, "/l".toList, [], "/mnt".toList] := by
  rintro ⟨fuel, e, hparse, -⟩
  rw [parseArgs_of_words (by decide) (by decide)] at hparse
  cases hparse

end

end Fischstaebchen
