/-
  Printing environments (`app/read-proc/read-proc-environ.c`).

  `main_print_environ` has three loops.  The plain one prints all entries as they are;
  the other two split the entries at the first `=` and stop at an entry without one.

  * `splitLoop_items`: what a loop prints that splits the entries.
  * `printsEnviron_iff`: when no entry is lost.
  * `loops_agree`: the loops print the same for well-formed entries.
-/
import Fischstaebchen.App.Filescan

namespace Fischstaebchen

open Lib

/-- What `environ_varname_value_pair_set` finds in an entry. -/
inductive PairParse
  /-- `ENVIRON_VARNAME_VALUE_PAIR_PARSE_SUCCESS` -/
  | success (varname value : Arg)
  /-- `ENVIRON_VARNAME_VALUE_PAIR_PARSE_NOVALUE` -/
  | novalue (varname : Arg)
  /-- No memory. -/
  | failed

/-- The char `=` is in an entry. -/
def hasValue (entry : Arg) : Bool := entry.contains 0x3D

/-- The text before the first `=`. -/
def varnameOf (entry : Arg) : Arg := entry.takeWhile (· ≠ 0x3D)

/-- The text after the first `=`. -/
def valueStrOf (entry : Arg) : Arg := (entry.dropWhile (· ≠ 0x3D)).drop 1

/-- `environ_varname_value_pair_set`; `strdup` fails for the strings that are not granted. -/
def environVarnameValuePairSet (grants : Arg → Bool) (str : Arg) : PairParse :=
  if grants str then
    if hasValue str then .success (varnameOf str) (valueStrOf str) else .novalue str
  else .failed

/-- The result of `fnmatch(3)`. -/
inductive FnmatchRet
  | found
  | noMatch
  | error
  deriving DecidableEq

/-- What is printed: separators, variables (with their entry) and the last newline. -/
inductive Printed
  | argSep
  | item (entry text : Arg)
  | newline
  deriving DecidableEq

/-- The flag `is_first` and what has been printed. -/
structure PrintState where
  isFirst : Bool
  out : List Printed

/-- `LX__PRINT_ARG_SEP`, and the variable. -/
def PrintState.print (st : PrintState) (entry text : Arg) : PrintState :=
  ⟨false, st.out ++ (if st.isFirst then [] else [.argSep]) ++ [.item entry text]⟩

/-- The output of `main_print_environ_item`. -/
def environItem (varname value quoteSeq : Arg) : Arg :=
  varname ++ [0x3D] ++ quoteSeq ++ value ++ quoteSeq

/-- The globals, with `fnmatch(3)` for the flags of the program. -/
structure EnvironGlobals where
  noNewline : Bool
  quoteArg : Option Arg
  matchVarnames : List Arg
  fnmatch : Arg → Arg → FnmatchRet

section
variable (grants : Arg → Bool) (g : EnvironGlobals)

/-- `main_print_environ_fnmatch_varname`. -/
def fnmatchVarname (fnmatch : Arg → Arg → FnmatchRet) (varname : Arg) : List Arg → ℤ
  | [] => 1
  | pattern :: patterns =>
    match fnmatch pattern varname with
    | .found => 0
    | .noMatch => fnmatchVarname fnmatch varname patterns
    | .error => -1

/-- The loops that split the entries, for a test of the name: whether the loop has reached
    its end, and the state. -/
def splitLoop (test : Arg → Bool) (quoteSeq : Arg) : List Arg → PrintState → Bool × PrintState
  | [], st => (true, st)
  | entry :: entries, st =>
    match environVarnameValuePairSet grants entry with
    | .success varname value =>
      splitLoop test quoteSeq entries
        (if test varname then st.print entry (environItem varname value quoteSeq) else st)
    | .novalue _ => (false, st)
    | .failed => (false, st)

/-- The first loop, which tests the names. -/
def matchLoop (quoteSeq : Arg) : List Arg → PrintState → Bool × PrintState :=
  splitLoop grants (fun varname => fnmatchVarname g.fnmatch varname g.matchVarnames = 0) quoteSeq

/-- The second loop. -/
def plainLoop : List Arg → PrintState → Bool × PrintState
  | [], st => (true, st)
  | entry :: entries, st => plainLoop entries (st.print entry entry)

/-- The last loop. -/
def quoteLoop (quoteSeq : Arg) : List Arg → PrintState → Bool × PrintState :=
  splitLoop grants (fun _ => true) quoteSeq

/-- `main_print_environ`: the return code and what is printed. -/
def mainPrintEnviron (entries : List Arg) : ℤ × List Printed :=
  let quoteSeq := g.quoteArg.getD []
  let r :=
    if g.matchVarnames.length > 0 then matchLoop grants g quoteSeq entries ⟨true, []⟩
    else if quoteSeq = [] then plainLoop entries ⟨true, []⟩
    else quoteLoop grants quoteSeq entries ⟨true, []⟩
  if r.1 then (0, r.2.out ++ if ¬ r.2.isFirst ∧ ¬ g.noNewline then [.newline] else [])
  else (-1, r.2.out)

end

/-! ## What is printed -/

/-- The variables of an output. -/
def printedItems (out : List Printed) : List (Arg × Arg) :=
  out.filterMap fun p => match p with
    | .item entry text => some (entry, text)
    | _ => none

/-- A variable as it is to be printed. -/
def shownItem (quoteSeq entry : Arg) : Arg × Arg :=
  (entry, environItem (varnameOf entry) (valueStrOf entry) quoteSeq)

/-- A variable that is wanted: its name matches a pattern, if there are any. -/
def EnvironGlobals.wants (g : EnvironGlobals) (entry : Arg) : Bool :=
  hasValue entry && (g.matchVarnames.isEmpty ||
    g.matchVarnames.any fun pattern => g.fnmatch pattern (varnameOf entry) = .found)

/-- A pattern that matches, with no error at the patterns before it. -/
def EnvironGlobals.MatchesFirst (g : EnvironGlobals) (varname : Arg) : Prop :=
  ∃ pre pattern post, g.matchVarnames = pre ++ pattern :: post ∧
    g.fnmatch pattern varname = .found ∧ ∀ q ∈ pre, g.fnmatch q varname = .noMatch

/-- **No variable is lost**: of the entries with a `=`, those are printed that are wanted,
    in order. -/
def PrintsEnviron (g : EnvironGlobals) (entries : List Arg) : Prop :=
  (printedItems (mainPrintEnviron (fun _ => true) g entries).2).filter (hasValue ·.1) =
    (entries.filter g.wants).map (shownItem (g.quoteArg.getD []))

/-- **The loops print the same** for entries with a `=`, no quotes, and patterns that match
    all names. -/
def LoopsAgree (g : EnvironGlobals) (entries : List Arg) : Prop :=
  (∀ entry ∈ entries, hasValue entry = true) →
    (∀ entry ∈ entries, fnmatchVarname g.fnmatch (varnameOf entry) g.matchVarnames = 0) →
    ∀ st, matchLoop (fun _ => true) g [] entries st = plainLoop entries st ∧
      plainLoop entries st = quoteLoop (fun _ => true) [] entries st

section
variable {g : EnvironGlobals} {entry text quoteSeq : Arg} {entries : List Arg} {st : PrintState}

/-- An entry is its name, a `=` and its value. -/
theorem environItem_self (h : hasValue entry = true) :
    environItem (varnameOf entry) (valueStrOf entry) [] = entry := by
  have hmem : 0x3D ∈ entry := by simpa [hasValue] using h
  obtain ⟨name, value, rfl, hname⟩ := List.eq_append_cons_of_mem hmem
  have hchars : ∀ c ∈ name, decide (c ≠ 0x3D) = true := by
    intro c hc
    refine decide_eq_true ?_
    rintro rfl
    exact hname hc
  have hstop : ∀ c ∈ (0x3D :: value).head?, decide (c ≠ 0x3D) = false := by
    rintro c ⟨⟩
    rfl
  rw [varnameOf, valueStrOf, takeWhile_run hchars hstop, dropWhile_run hchars hstop]
  simp [environItem]

theorem shownItem_nil (h : hasValue entry = true) : shownItem [] entry = (entry, entry) := by
  rw [shownItem, environItem_self h]

theorem shownItem_injective (quoteSeq : Arg) : Function.Injective (shownItem quoteSeq) :=
  fun _ _ h => congrArg Prod.fst h

theorem printedItems_append (out out' : List Printed) :
    printedItems (out ++ out') = printedItems out ++ printedItems out' :=
  List.filterMap_append

theorem printedItems_print (st : PrintState) (entry text : Arg) :
    printedItems (st.print entry text).out = printedItems st.out ++ [(entry, text)] := by
  rw [PrintState.print, printedItems_append, printedItems_append]
  cases st.isFirst <;> simp [printedItems]

/-- A loop stops at the first entry without a `=`. -/
theorem splitLoop_items (test : Arg → Bool) (quoteSeq : Arg) (entries : List Arg)
    (st : PrintState) :
    printedItems (splitLoop (fun _ => true) test quoteSeq entries st).2.out =
      printedItems st.out ++ ((entries.takeWhile hasValue).filter fun entry =>
        test (varnameOf entry)).map (shownItem quoteSeq) := by
  induction entries generalizing st with
  | nil => simp [splitLoop]
  | cons entry entries ih =>
    by_cases hval : hasValue entry = true
    · have hset : environVarnameValuePairSet (fun _ => true) entry =
          .success (varnameOf entry) (valueStrOf entry) := by
        simp [environVarnameValuePairSet, hval]
      rw [splitLoop, hset, ih, List.takeWhile_cons_of_pos hval, List.filter_cons]
      by_cases htest : test (varnameOf entry) = true
      · simp [htest, printedItems_print, shownItem]
      · simp [htest]
    · have hset : environVarnameValuePairSet (fun _ => true) entry = .novalue entry := by
        simp [environVarnameValuePairSet, hval]
      rw [splitLoop, hset, List.takeWhile_cons_of_neg hval]
      simp

theorem plainLoop_items (entries : List Arg) (st : PrintState) :
    printedItems (plainLoop entries st).2.out =
      printedItems st.out ++ entries.map fun entry => (entry, entry) := by
  induction entries generalizing st with
  | nil => simp [plainLoop]
  | cons entry entries ih => simp [plainLoop, ih, printedItems_print]

/-- The names that the first loop prints. -/
theorem fnmatchVarname_eq_zero (fnmatch : Arg → Arg → FnmatchRet) (varname : Arg)
    (patterns : List Arg) :
    fnmatchVarname fnmatch varname patterns = 0 ↔
      ∃ pre pattern post, patterns = pre ++ pattern :: post ∧
        fnmatch pattern varname = .found ∧ ∀ q ∈ pre, fnmatch q varname = .noMatch := by
  induction patterns with
  | nil => simp [fnmatchVarname]
  | cons first patterns ih =>
    rw [fnmatchVarname]
    cases hfirst : fnmatch first varname with
    | found => exact iff_of_true rfl ⟨[], first, patterns, rfl, hfirst, nofun⟩
    | noMatch =>
      refine ih.trans ⟨?_, ?_⟩
      · rintro ⟨pre, pattern, post, rfl, hfound, hpre⟩
        refine ⟨first :: pre, pattern, post, rfl, hfound, fun q hq => ?_⟩
        rcases List.mem_cons.1 hq with rfl | hq
        · exact hfirst
        · exact hpre q hq
      · rintro ⟨pre, pattern, post, hsplit, hfound, hpre⟩
        cases pre with
        | nil =>
          cases hsplit
          rw [hfirst] at hfound
          cases hfound
        | cons q pre =>
          cases hsplit
          exact ⟨pre, pattern, post, rfl, hfound, fun q hq => hpre q (List.mem_cons_of_mem _ hq)⟩
    | error =>
      refine iff_of_false (by simp) ?_
      rintro ⟨pre, pattern, post, hsplit, hfound, hpre⟩
      cases pre with
      | nil =>
        cases hsplit
        rw [hfirst] at hfound
        cases hfound
      | cons q pre =>
        cases hsplit
        have hno := hpre first List.mem_cons_self
        rw [hfirst] at hno
        cases hno

theorem wants_of_matchesFirst (hval : hasValue entry = true)
    (h : g.MatchesFirst (varnameOf entry)) : g.wants entry = true := by
  obtain ⟨pre, pattern, post, hsplit, hfound, -⟩ := h
  rw [EnvironGlobals.wants, hval, hsplit]
  simp [hfound]

theorem wants_nil (hnil : g.matchVarnames = []) : g.wants = hasValue := by
  ext entry
  simp [EnvironGlobals.wants, hnil]

/-- What is printed by the loops that split the entries. -/
theorem splitLoop_eq_plainLoop {test : Arg → Bool} (hval : ∀ entry ∈ entries, hasValue entry = true)
    (htest : ∀ entry ∈ entries, test (varnameOf entry) = true) (st : PrintState) :
    splitLoop (fun _ => true) test [] entries st = plainLoop entries st := by
  induction entries generalizing st with
  | nil => rfl
  | cons entry entries ih =>
    have hentry := hval entry List.mem_cons_self
    have hset : environVarnameValuePairSet (fun _ => true) entry =
        .success (varnameOf entry) (valueStrOf entry) := by
      simp [environVarnameValuePairSet, hentry]
    rw [splitLoop, hset]
    dsimp only
    rw [if_pos (htest entry List.mem_cons_self), environItem_self hentry,
      ih (fun e he => hval e (List.mem_cons_of_mem _ he))
        (fun e he => htest e (List.mem_cons_of_mem _ he))]
    rfl

/-- **The three loops** print the same. -/
theorem loopsAgree (g : EnvironGlobals) (entries : List Arg) : LoopsAgree g entries := by
  intro hval hall st
  constructor
  · exact splitLoop_eq_plainLoop hval (fun entry he => decide_eq_true (hall entry he)) st
  · exact (splitLoop_eq_plainLoop hval (fun _ _ => rfl) st).symm

/-- The variables that are printed, without the last newline. -/
theorem mainPrintEnviron_items (g : EnvironGlobals) (entries : List Arg) :
    printedItems (mainPrintEnviron (fun _ => true) g entries).2 = printedItems
      (if g.matchVarnames.length > 0 then
        matchLoop (fun _ => true) g (g.quoteArg.getD []) entries ⟨true, []⟩
      else if g.quoteArg.getD [] = [] then plainLoop entries ⟨true, []⟩
      else quoteLoop (fun _ => true) (g.quoteArg.getD []) entries ⟨true, []⟩).2.out := by
  rw [mainPrintEnviron]
  split_ifs <;> simp [printedItems]

/-- The plain loop loses nothing. -/
theorem printsEnviron_plain (hnil : g.matchVarnames = []) (hquote : g.quoteArg.getD [] = []) :
    PrintsEnviron g entries := by
  rw [PrintsEnviron, mainPrintEnviron_items, hquote, wants_nil hnil, hnil]
  rw [if_neg (by simp), if_pos rfl, plainLoop_items]
  have hshown : (entries.filter hasValue).map (shownItem []) =
      (entries.filter hasValue).map fun entry => (entry, entry) :=
    List.map_congr_left fun entry hmem => shownItem_nil (List.mem_filter.1 hmem).2
  rw [hshown]
  simp [printedItems, List.filter_map, Function.comp_def]

/-- The other loops lose what their test leaves out, and what is behind the first entry without
    a `=`. -/
theorem printsEnviron_split (test : Arg → Bool)
    (hitems : printedItems (mainPrintEnviron (fun _ => true) g entries).2 =
      ((entries.takeWhile hasValue).filter fun entry =>
        test (varnameOf entry)).map (shownItem (g.quoteArg.getD [])))
    (htest : ∀ entry, hasValue entry = true → test (varnameOf entry) = true →
      g.wants entry = true) :
    PrintsEnviron g entries ↔
      (∀ entry ∈ entries.takeWhile hasValue, g.wants entry = true →
        test (varnameOf entry) = true) ∧
        ∀ entry ∈ entries.dropWhile hasValue, g.wants entry = false := by
  have hall : ∀ item ∈ ((entries.takeWhile hasValue).filter fun entry =>
      test (varnameOf entry)).map (shownItem (g.quoteArg.getD [])), hasValue item.1 = true := by
    intro item hitem
    obtain ⟨entry, hmem, rfl⟩ := List.mem_map.1 hitem
    exact List.mem_takeWhile_imp (List.mem_filter.1 hmem).1
  have hsplit : entries.filter g.wants = (entries.takeWhile hasValue).filter g.wants ++
      (entries.dropWhile hasValue).filter g.wants := by
    rw [← List.filter_append, List.takeWhile_append_dropWhile]
  rw [PrintsEnviron, hitems, List.filter_eq_self.2 hall, hsplit,
    (List.map_injective_iff.2 (shownItem_injective _)).eq_iff,
    filter_eq_append_iff fun entry hmem => htest entry (List.mem_takeWhile_imp hmem),
    List.filter_eq_nil_iff]
  simp only [Bool.not_eq_true]

/-- **When no variable is lost.** -/
theorem printsEnviron_iff (g : EnvironGlobals) (entries : List Arg) :
    PrintsEnviron g entries ∧ LoopsAgree g entries ↔
      (g.matchVarnames = [] ∧ g.quoteArg.getD [] = []) ∨
        ((∀ entry ∈ entries.takeWhile hasValue, g.wants entry = true →
          g.matchVarnames = [] ∨ g.MatchesFirst (varnameOf entry)) ∧
          ∀ entry ∈ entries.dropWhile hasValue, g.wants entry = false) := by
  rw [and_iff_left (loopsAgree g entries)]
  by_cases hnil : g.matchVarnames = []
  · have hlen : ¬ g.matchVarnames.length > 0 := by simp [hnil]
    by_cases hquote : g.quoteArg.getD [] = []
    · exact iff_of_true (printsEnviron_plain hnil hquote) (.inl ⟨hnil, hquote⟩)
    · have hitems := mainPrintEnviron_items g entries
      rw [if_neg hlen, if_neg hquote, quoteLoop, splitLoop_items] at hitems
      rw [printsEnviron_split (fun _ => true) hitems fun entry hval _ => by
        rw [wants_nil hnil]
        exact hval]
      simp [hnil, hquote]
  · have hitems := mainPrintEnviron_items g entries
    rw [if_pos (List.length_pos_iff.2 hnil), matchLoop, splitLoop_items] at hitems
    have htest : ∀ entry, hasValue entry = true →
        decide (fnmatchVarname g.fnmatch (varnameOf entry) g.matchVarnames = 0) = true →
        g.wants entry = true := fun entry hval hfound =>
      wants_of_matchesFirst hval ((fnmatchVarname_eq_zero _ _ _).1 (of_decide_eq_true hfound))
    rw [printsEnviron_split (fun varname =>
      fnmatchVarname g.fnmatch varname g.matchVarnames = 0) hitems htest]
    simp [hnil, fnmatchVarname_eq_zero, EnvironGlobals.MatchesFirst]

/-- With `-Q`, nothing is printed behind an entry without a `=`. -/
theorem malformed_stops :
    ¬ (PrintsEnviron ⟨false, some [0x22], [], fun _ _ => .noMatch⟩ [[0x78], [0x61, 0x3D, 0x62]] ∧
      LoopsAgree ⟨false, some [0x22], [], fun _ _ => .noMatch⟩ [[0x78], [0x61, 0x3D, 0x62]]) := by
  rintro ⟨hprints, -⟩
  cases hprints

end

end Fischstaebchen
