/-
  Ranges of arguments (`app/read-proc/_base.c`, `read-proc-cmdline.c`) and the last part
  of a path (`common/strutil/lazy_basename.c`).

  * `FieldRange.parse`: the bounds that a range string stands for.
  * `lazyBasename_eq`: the text after the last slash; for an empty string, the static
    pointer that is returned has never been set.
  * `printsRange_iff`: when the arguments of a range are printed.
-/
import Fischstaebchen.Lib.Decimal
import Fischstaebchen.Lib.Scan

namespace Fischstaebchen

open Lib

/-- `size_t`. -/
abbrev SizeT := BitVec 64

/-- How a digit is added to a field. -/
def fieldStep (field : SizeT) (c : UInt8) : SizeT :=
  10 * field + (BitVec.ofNat 64 c.toNat - 0x30)

/-- The loop of `splitprog_parse_range_arg`: the return code and both results. -/
def splitprogParseRangeLoop : List UInt8 → SizeT → SizeT → ℕ → ℤ × SizeT × SizeT
  | [], field₀, field₁, fieldno =>
    (0, if field₀ < 1 then 0 else field₀ - 1, if fieldno < 1 then field₀ else field₁)
  | c :: iter, field₀, field₁, fieldno =>
    if c = 0x2D then
      if fieldno + 1 > 1 then (-1, 0, 0)
      else splitprogParseRangeLoop iter field₀ field₁ (fieldno + 1)
    else if isDigit c then
      if fieldno = 0 then splitprogParseRangeLoop iter (fieldStep field₀ c) field₁ fieldno
      else splitprogParseRangeLoop iter field₀ (fieldStep field₁ c) fieldno
    else (-1, 0, 0)

/-- `splitprog_parse_range_arg`. -/
def splitprogParseRangeArg (inputStr : Option (List UInt8)) : ℤ × SizeT × SizeT :=
  if inputStr.getD [] = [] then (-1, 0, 0)
  else splitprogParseRangeLoop (inputStr.getD []) 0 0 0

/-- `EMPTY_STR`: a static pointer without an initializer. -/
def emptyStr : Option (List UInt8) := none

/-- The loop of `lazy_basename`: what `p_basename` points to at the end. -/
def lazyBasenameLoop : List UInt8 → List UInt8 → List UInt8
  | [], basename => basename
  | c :: iter, basename => lazyBasenameLoop iter (if c = 0x2F then iter else basename)

/-- `lazy_basename`. -/
def lazyBasename (inputStr : Option (List UInt8)) : Option (List UInt8) :=
  if inputStr.getD [] = [] then emptyStr
  else
    let basename := lazyBasenameLoop (inputStr.getD []) (inputStr.getD [])
    if basename.head? ≠ some 0x2F then some basename else emptyStr

/-- `struct splitprog_globals`. -/
structure SplitprogGlobals where
  noNewline : Bool
  argSep : List UInt8
  quoteArg : Option (List UInt8)
  argBegin : SizeT
  argMax : SizeT
  wantProgBasename : Bool

/-- `main_print_cmdline_arg_item`; `none` if `printf` is given a null pointer. -/
def mainPrintCmdlineArgItem (argStr : Option (List UInt8)) (quoteSeq : List UInt8) :
    Option (List UInt8) :=
  argStr.map fun str => quoteSeq ++ str ++ quoteSeq

/-- The last loop of `main_print_cmdline_argv`, for the `n` arguments from `k` on. -/
def printArgs (argSep quoteSeq : List UInt8) (argv : List (List UInt8)) :
    ℕ → ℕ → Bool → Option (List UInt8)
  | 0, _, _ => some []
  | n + 1, k, isFirst => do
    let item ← mainPrintCmdlineArgItem argv[k]? quoteSeq
    let rest ← printArgs argSep quoteSeq argv n (k + 1) false
    some ((if isFirst then [] else argSep) ++ item ++ rest)

/-- `main_print_cmdline_argv`: what is printed for an array of arguments. -/
def mainPrintCmdlineArgv (g : SplitprogGlobals) (argv : List (List UInt8)) :
    Option (List UInt8) := do
  let iterMax :=
    if g.argMax > 0 ∧ g.argMax.toNat < argv.length then g.argMax.toNat else argv.length
  let quoteSeq := g.quoteArg.getD []
  let k := g.argBegin.toNat
  if g.wantProgBasename ∧ k < iterMax then do
    let item ← mainPrintCmdlineArgItem (lazyBasename argv[k]?) quoteSeq
    let rest ← printArgs g.argSep quoteSeq argv (iterMax - (k + 1)) (k + 1) false
    some (item ++ rest ++ if g.noNewline then [] else [0x0A])
  else do
    let out ← printArgs g.argSep quoteSeq argv (iterMax - k) k true
    some (out ++ if k < iterMax ∧ ¬ g.noNewline then [0x0A] else [])

/-! ## Ranges -/

/-- A decimal number that fits a field. -/
structure FieldNumber where
  digits : List UInt8
  digits_ne : digits ≠ []
  digits_digit : ∀ c ∈ digits, isDigit c = true
  fits : decimal digitOf digits < 2 ^ 64

/-- The value of a number. -/
def FieldNumber.value (n : FieldNumber) : ℕ := decimal digitOf n.digits

/-- The forms of a range. -/
inductive FieldRange
  /-- `n-m` -/
  | both (n m : FieldNumber)
  /-- `n-` -/
  | start (n : FieldNumber)
  /-- `-m` -/
  | upTo (m : FieldNumber)
  /-- `n` -/
  | single (n : FieldNumber)

namespace FieldRange

/-- A range as an argument. -/
def str : FieldRange → List UInt8
  | both n m => n.digits ++ 0x2D :: m.digits
  | start n => n.digits ++ [0x2D]
  | upTo m => 0x2D :: m.digits
  | single n => n.digits

/-- The position of the first field; positions start at 1. -/
def first : FieldRange → ℕ
  | both n _ => max n.value 1
  | start n => max n.value 1
  | upTo _ => 1
  | single n => max n.value 1

/-- The position of the last field, or 0. -/
def last : FieldRange → ℕ
  | both _ m => m.value
  | start _ => 0
  | upTo m => m.value
  | single n => n.value

/-- The arguments of a range: those from the first to the last position, or to the end. -/
def selected (range : FieldRange) (argv : List (List UInt8)) : List (List UInt8) :=
  (if range.last = 0 then argv else argv.take range.last).drop (range.first - 1)

end FieldRange

section
variable {d r : List UInt8} {field₀ field₁ : SizeT} {fieldno : ℕ} {c : UInt8}

theorem isDigit_ne_dash (h : isDigit c = true) : c ≠ 0x2D := by
  rintro rfl
  cases h

/-- The digits of the first field. -/
theorem parseRange_first (hd : ∀ c ∈ d, isDigit c = true) (r : List UInt8)
    (field₀ field₁ : SizeT) :
    splitprogParseRangeLoop (d ++ r) field₀ field₁ 0 =
      splitprogParseRangeLoop r (d.foldl fieldStep field₀) field₁ 0 := by
  induction d generalizing field₀ with
  | nil => rfl
  | cons c d ih =>
    have hc := hd c List.mem_cons_self
    rw [List.cons_append, splitprogParseRangeLoop, if_neg (isDigit_ne_dash hc), if_pos hc,
      if_pos rfl, ih fun b hb => hd b (List.mem_cons_of_mem c hb)]
    rfl

/-- The digits of the second field. -/
theorem parseRange_second (hd : ∀ c ∈ d, isDigit c = true) (r : List UInt8)
    (field₀ field₁ : SizeT) :
    splitprogParseRangeLoop (d ++ r) field₀ field₁ 1 =
      splitprogParseRangeLoop r field₀ (d.foldl fieldStep field₁) 1 := by
  induction d generalizing field₁ with
  | nil => rfl
  | cons c d ih =>
    have hc := hd c List.mem_cons_self
    rw [List.cons_append, splitprogParseRangeLoop, if_neg (isDigit_ne_dash hc), if_pos hc,
      if_neg one_ne_zero, ih fun b hb => hd b (List.mem_cons_of_mem c hb)]
    rfl

theorem foldl_fieldStep (n : FieldNumber) :
    n.digits.foldl fieldStep 0 = BitVec.ofNat 64 n.value := by
  refine foldl_decimal_word fun c hc field => ?_
  have hdigit := ofNat_digitOf (w := 64) (n.digits_digit c hc)
  exact congrArg (10#64 * field + ·) hdigit

theorem FieldNumber.toNat (n : FieldNumber) : (BitVec.ofNat 64 n.value).toNat = n.value :=
  toNat_word_iff.2 n.fits

/-- The start of a range: positions start at 1, and 0 is the same as 1. -/
theorem start_toNat (n : FieldNumber) :
    (if BitVec.ofNat 64 n.value < 1 then 0 else BitVec.ofNat 64 n.value - 1 : SizeT).toNat =
      max n.value 1 - 1 := by
  have hlt : BitVec.ofNat 64 n.value < 1 ↔ n.value < 1 := by
    rw [BitVec.lt_def, n.toNat]
    rfl
  by_cases hzero : n.value < 1
  · rw [if_pos (hlt.2 hzero)]
    have hmax : max n.value 1 = 1 := max_eq_right (Nat.le_of_lt hzero)
    rw [hmax]
    rfl
  · have hle : (1 : SizeT) ≤ BitVec.ofNat 64 n.value := by
      rw [BitVec.le_def, n.toNat]
      exact Nat.le_of_not_lt hzero
    rw [if_neg (fun h => hzero (hlt.1 h)), BitVec.toNat_sub_of_le hle, n.toNat,
      max_eq_left (Nat.le_of_not_lt hzero)]
    rfl

/-- **The bounds of a range.** -/
theorem FieldRange.parse (range : FieldRange) :
    ∃ begin max, splitprogParseRangeArg (some range.str) = (0, begin, max) ∧
      begin.toNat = range.first - 1 ∧ max.toNat = range.last := by
  cases range with
  | both n m =>
    have hne : ¬ (some (both n m).str).getD [] = [] := by simp [str]
    refine ⟨_, _, ?_, start_toNat n, m.toNat⟩
    have hsecond := parseRange_second m.digits_digit [] (BitVec.ofNat 64 n.value) 0
    rw [List.append_nil, foldl_fieldStep] at hsecond
    rw [splitprogParseRangeArg, if_neg hne, Option.getD_some, str,
      parseRange_first n.digits_digit, foldl_fieldStep]
    exact hsecond
  | start n =>
    have hne : ¬ (some (start n).str).getD [] = [] := by simp [str]
    refine ⟨_, 0, ?_, start_toNat n, rfl⟩
    rw [splitprogParseRangeArg, if_neg hne, Option.getD_some, str,
      parseRange_first n.digits_digit, foldl_fieldStep]
    rfl
  | upTo m =>
    have hne : ¬ (some (upTo m).str).getD [] = [] := by simp [str]
    refine ⟨0, _, ?_, rfl, m.toNat⟩
    have hsecond := parseRange_second m.digits_digit [] 0 0
    rw [List.append_nil, foldl_fieldStep] at hsecond
    rw [splitprogParseRangeArg, if_neg hne, Option.getD_some, str]
    exact hsecond
  | single n =>
    have hne : ¬ (some (single n).str).getD [] = [] := by simpa [str] using n.digits_ne
    refine ⟨_, _, ?_, start_toNat n, n.toNat⟩
    have hfirst := parseRange_first n.digits_digit [] 0 0
    rw [List.append_nil, foldl_fieldStep] at hfirst
    rw [splitprogParseRangeArg, if_neg hne, Option.getD_some, str]
    exact hfirst

end

/-! ## The last part of a path -/

/-- The text after the last slash. -/
def afterLastSlash (path : List UInt8) : List UInt8 :=
  (path.reverse.takeWhile (· ≠ 0x2F)).reverse

section
variable {path iter u v : List UInt8} {c : UInt8}

theorem notSlash {c : UInt8} {v : List UInt8} (hv : 0x2F ∉ v) (hc : c ∈ v.reverse) :
    decide (c ≠ 0x2F) = true := by
  refine decide_eq_true ?_
  rintro rfl
  exact hv (List.mem_reverse.1 hc)

theorem afterLastSlash_of_notMem (h : 0x2F ∉ path) : afterLastSlash path = path := by
  have hrun := takeWhile_run (r := []) (fun c => notSlash (c := c) h) (by simp)
  rw [List.append_nil] at hrun
  rw [afterLastSlash, hrun, List.reverse_reverse]

theorem afterLastSlash_split (h : 0x2F ∉ v) (u : List UInt8) :
    afterLastSlash (u ++ 0x2F :: v) = v := by
  have hrev : (u ++ 0x2F :: v).reverse = v.reverse ++ 0x2F :: u.reverse := by simp
  have hrun := takeWhile_run (r := 0x2F :: u.reverse) (fun c => notSlash (c := c) h) (by simp)
  rw [afterLastSlash, hrev, hrun, List.reverse_reverse]

/-- The last slash of a path. -/
theorem exists_last_slash (h : 0x2F ∈ path) : ∃ u v, path = u ++ 0x2F :: v ∧ 0x2F ∉ v := by
  obtain ⟨v, u, hrev, hv⟩ := List.eq_append_cons_of_mem (List.mem_reverse.2 h)
  refine ⟨u.reverse, v.reverse, ?_, fun hmem => hv (List.mem_reverse.1 hmem)⟩
  rw [← List.reverse_reverse path, hrev]
  simp

theorem slash_notMem_afterLastSlash (path : List UInt8) : 0x2F ∉ afterLastSlash path := by
  by_cases h : 0x2F ∈ path
  · obtain ⟨u, v, rfl, hv⟩ := exists_last_slash h
    rwa [afterLastSlash_split hv]
  · rwa [afterLastSlash_of_notMem h]

/-- The loop goes to the last slash. -/
theorem lazyBasenameLoop_eq (iter basename : List UInt8) :
    lazyBasenameLoop iter basename = if 0x2F ∈ iter then afterLastSlash iter else basename := by
  induction iter generalizing basename with
  | nil => rfl
  | cons c iter ih =>
    rw [lazyBasenameLoop, ih]
    by_cases hmem : 0x2F ∈ iter
    · obtain ⟨u, v, rfl, hv⟩ := exists_last_slash hmem
      rw [if_pos hmem, if_pos (List.mem_cons_of_mem c hmem), afterLastSlash_split hv,
        ← List.cons_append, afterLastSlash_split hv]
    · rw [if_neg hmem]
      by_cases hc : c = 0x2F
      · rw [if_pos hc, hc, if_pos List.mem_cons_self]
        exact (afterLastSlash_split hmem []).symm
      · have hno : 0x2F ∉ c :: iter := by
          rw [List.mem_cons, not_or]
          exact ⟨fun heq => hc heq.symm, hmem⟩
        rw [if_neg hc, if_neg hno]

/-- **The text after the last slash**; for an empty string, nothing is returned. -/
theorem lazyBasename_eq (path : List UInt8) :
    lazyBasename (some path) = if path = [] then none else some (afterLastSlash path) := by
  have hloop : lazyBasenameLoop path path = afterLastSlash path := by
    rw [lazyBasenameLoop_eq]
    by_cases hmem : 0x2F ∈ path
    · rw [if_pos hmem]
    · rw [if_neg hmem, afterLastSlash_of_notMem hmem]
  have hhead : (afterLastSlash path).head? ≠ some 0x2F := fun h =>
    slash_notMem_afterLastSlash path (List.mem_of_head? h)
  rw [lazyBasename, Option.getD_some, hloop]
  by_cases hnil : path = []
  · rw [if_pos hnil, if_pos hnil]
    rfl
  · rw [if_neg hnil, if_neg hnil]
    exact if_pos hhead

end

/-! ## Printing -/

/-- Arguments with quotes, and a separator between them. -/
def quoteJoin (argSep quoteSeq : List UInt8) : List (List UInt8) → List UInt8
  | [] => []
  | arg :: args => quoteSeq ++ arg ++ quoteSeq ++
    args.flatMap fun arg => argSep ++ (quoteSeq ++ arg ++ quoteSeq)

/-- What is to be printed for some arguments: with `-b`, the text after the last slash
    instead of the first one; and one newline unless nothing is printed or no newline is
    wanted. -/
def SplitprogGlobals.printed (g : SplitprogGlobals) (args : List (List UInt8)) : List UInt8 :=
  quoteJoin g.argSep (g.quoteArg.getD [])
      (if g.wantProgBasename then args.modifyHead afterLastSlash else args) ++
    if args ≠ [] ∧ ¬ g.noNewline then [0x0A] else []

/-- **The arguments of a range are printed.** -/
def PrintsRange (g : SplitprogGlobals) (range : FieldRange) (argv : List (List UInt8)) : Prop :=
  ∃ begin max, splitprogParseRangeArg (some range.str) = (0, begin, max) ∧
    mainPrintCmdlineArgv { g with argBegin := begin, argMax := max } argv =
      some (g.printed (range.selected argv))

section
variable {argSep quoteSeq : List UInt8} {argv : List (List UInt8)} {g : SplitprogGlobals}

/-- The first argument of a part of the array. -/
theorem drop_take_succ {n k : ℕ} (h : k < argv.length) :
    (argv.drop k).take (n + 1) = argv[k] :: (argv.drop (k + 1)).take n := by
  rw [List.drop_eq_getElem_cons h, List.take_succ_cons]

/-- The last loop prints a part of the array. -/
theorem printArgs_rest (argSep quoteSeq : List UInt8) {n k : ℕ} (h : k + n ≤ argv.length) :
    printArgs argSep quoteSeq argv n k false =
      some (((argv.drop k).take n).flatMap fun arg => argSep ++ (quoteSeq ++ arg ++ quoteSeq)) := by
  induction n generalizing k with
  | zero => simp [printArgs]
  | succ n ih =>
    have hk : k < argv.length := by omega
    rw [printArgs, ih (show k + 1 + n ≤ argv.length by omega), drop_take_succ hk,
      List.getElem?_eq_getElem hk]
    simp [mainPrintCmdlineArgItem]

theorem printArgs_eq {n k : ℕ} (h : k + n ≤ argv.length) :
    printArgs argSep quoteSeq argv n k true =
      some (quoteJoin argSep quoteSeq ((argv.drop k).take n)) := by
  cases n with
  | zero => simp [printArgs, quoteJoin]
  | succ n =>
    have hk : k < argv.length := by omega
    rw [printArgs, printArgs_rest _ _ (show k + 1 + n ≤ argv.length by omega), drop_take_succ hk,
      List.getElem?_eq_getElem hk]
    simp [mainPrintCmdlineArgItem, quoteJoin]

/-- The end of the part of the array that is printed. -/
def FieldRange.stop (range : FieldRange) (argv : List (List UInt8)) : ℕ :=
  if range.last > 0 ∧ range.last < argv.length then range.last else argv.length

theorem FieldRange.stop_le (range : FieldRange) (argv : List (List UInt8)) :
    range.stop argv ≤ argv.length := by
  rw [FieldRange.stop]
  split_ifs with h
  · exact Nat.le_of_lt h.2
  · exact le_rfl

theorem FieldRange.take_stop (range : FieldRange) (argv : List (List UInt8)) :
    (if range.last = 0 then argv else argv.take range.last) = argv.take (range.stop argv) := by
  rw [FieldRange.stop]
  by_cases hzero : range.last = 0
  · simp [hzero]
  · by_cases hlt : range.last < argv.length
    · rw [if_neg hzero, if_pos ⟨Nat.pos_of_ne_zero hzero, hlt⟩]
    · rw [if_neg hzero, if_neg (fun h => hlt h.2), List.take_length,
        List.take_of_length_le (Nat.le_of_not_lt hlt)]

/-- The selected arguments are a part of the array. -/
theorem FieldRange.selected_eq (range : FieldRange) (argv : List (List UInt8)) :
    range.selected argv =
      (argv.drop (range.first - 1)).take (range.stop argv - (range.first - 1)) := by
  rw [FieldRange.selected, FieldRange.take_stop, List.drop_take]

theorem FieldRange.selected_ne_nil {range : FieldRange} :
    range.selected argv ≠ [] ↔ range.first - 1 < range.stop argv := by
  have hstop := range.stop_le argv
  rw [← List.length_pos_iff, range.selected_eq, List.length_take, List.length_drop]
  omega

/-- The first selected argument. -/
theorem FieldRange.selected_cons {range : FieldRange} (h : range.first - 1 < range.stop argv) :
    ∃ arg, argv[range.first - 1]? = some arg ∧ range.selected argv = arg ::
      (argv.drop (range.first - 1 + 1)).take (range.stop argv - (range.first - 1 + 1)) := by
  have hk : range.first - 1 < argv.length := Nat.lt_of_lt_of_le h (range.stop_le argv)
  have hlen : range.stop argv - (range.first - 1) =
      range.stop argv - (range.first - 1 + 1) + 1 := by omega
  refine ⟨argv[range.first - 1], List.getElem?_eq_getElem hk, ?_⟩
  rw [range.selected_eq, hlen, drop_take_succ hk]

theorem iterMax_eq {range : FieldRange} {max : SizeT} (hmax : max.toNat = range.last)
    (argv : List (List UInt8)) :
    (if max > 0 ∧ max.toNat < argv.length then max.toNat else argv.length) = range.stop argv := by
  have hpos : max > 0 ↔ max.toNat > 0 := BitVec.lt_def
  simp only [hpos, hmax, FieldRange.stop]

/-- What is printed without `-b`, or if nothing is selected. -/
theorem print_plain {range : FieldRange} {begin max : SizeT}
    (hbegin : begin.toNat = range.first - 1) (hmax : max.toNat = range.last)
    (h : ¬ (g.wantProgBasename = true ∧ range.first - 1 < range.stop argv)) :
    mainPrintCmdlineArgv { g with argBegin := begin, argMax := max } argv =
      some (g.printed (range.selected argv)) := by
  have hshown : (if g.wantProgBasename then (range.selected argv).modifyHead afterLastSlash
      else range.selected argv) = range.selected argv := by
    by_cases hwant : g.wantProgBasename = true
    · have hnil : range.selected argv = [] := by
        by_contra hne
        exact h ⟨hwant, FieldRange.selected_ne_nil.1 hne⟩
      rw [hnil]
      exact ite_self []
    · exact if_neg hwant
  have hprint : printArgs g.argSep (g.quoteArg.getD []) argv
      (range.stop argv - (range.first - 1)) (range.first - 1) true =
        some (quoteJoin g.argSep (g.quoteArg.getD []) (range.selected argv)) := by
    by_cases hlt : range.first - 1 < range.stop argv
    · have hle := range.stop_le argv
      rw [range.selected_eq]
      exact printArgs_eq (by omega)
    · have hnil : range.selected argv = [] := not_not.1 (mt FieldRange.selected_ne_nil.1 hlt)
      have hzero : range.stop argv - (range.first - 1) = 0 := by omega
      rw [hzero, hnil]
      rfl
  simp only [mainPrintCmdlineArgv, hbegin, iterMax_eq hmax, if_neg h, hprint,
    SplitprogGlobals.printed, hshown, FieldRange.selected_ne_nil]
  rfl

/-- What is printed with `-b`. -/
theorem print_basename {range : FieldRange} {begin max : SizeT} {arg : List UInt8}
    (hbegin : begin.toNat = range.first - 1) (hmax : max.toNat = range.last)
    (hwant : g.wantProgBasename = true) (hhead : (range.selected argv).head? = some arg) :
    mainPrintCmdlineArgv { g with argBegin := begin, argMax := max } argv =
      if arg = [] then none else some (g.printed (range.selected argv)) := by
  have hne : range.selected argv ≠ [] := by
    intro hnil
    rw [hnil] at hhead
    cases hhead
  have hlt := FieldRange.selected_ne_nil.1 hne
  have hle := range.stop_le argv
  obtain ⟨arg', hget, hcons⟩ := FieldRange.selected_cons hlt
  rw [hcons] at hhead
  cases hhead
  have hrest := printArgs_rest g.argSep (g.quoteArg.getD [])
    (show range.first - 1 + 1 + (range.stop argv - (range.first - 1 + 1)) ≤ argv.length by omega)
  simp only [mainPrintCmdlineArgv, hbegin, iterMax_eq hmax, if_pos (And.intro hwant hlt), hget,
    hrest, lazyBasename_eq]
  by_cases harg : arg = []
  · rw [if_pos harg, if_pos harg]
    rfl
  · rw [if_neg harg, if_neg harg, SplitprogGlobals.printed, if_pos hwant, hcons]
    simp [mainPrintCmdlineArgItem, quoteJoin]
    cases g.noNewline <;> rfl

/-- **When the arguments of a range are printed.** -/
theorem printsRange_iff (g : SplitprogGlobals) (range : FieldRange) (argv : List (List UInt8)) :
    PrintsRange g range argv ↔
      ¬ (g.wantProgBasename = true ∧ (range.selected argv).head? = some []) := by
  obtain ⟨begin, max, hparse, hbegin, hmax⟩ := range.parse
  have hprints : PrintsRange g range argv ↔
      mainPrintCmdlineArgv { g with argBegin := begin, argMax := max } argv =
        some (g.printed (range.selected argv)) := by
    constructor
    · rintro ⟨begin', max', hparse', hrun⟩
      rw [hparse] at hparse'
      cases hparse'
      exact hrun
    · exact fun hrun => ⟨begin, max, hparse, hrun⟩
  rw [hprints]
  by_cases hwant : g.wantProgBasename = true
  · cases hhead : (range.selected argv).head? with
    | none =>
      have hnil : ¬ (range.first - 1 < range.stop argv) := fun h =>
        FieldRange.selected_ne_nil.2 h (List.head?_eq_none_iff.1 hhead)
      exact iff_of_true (print_plain hbegin hmax fun h => hnil h.2) (by simp)
    | some arg =>
      rw [print_basename hbegin hmax hwant hhead]
      by_cases harg : arg = []
      · simp [harg, hwant]
      · simp [harg]
  · exact iff_of_true (print_plain hbegin hmax fun h => hwant h.1) fun h => hwant h.1

/-- With `-b -f 1`, an empty first argument is printed through a null pointer. -/
theorem empty_basename :
    ¬ PrintsRange ⟨false, [0x0A], none, 0, 0, true⟩
      (.single ⟨[0x31], by simp, by simp [isDigit], by decide⟩) [[]] := by
  rintro ⟨begin, max, hparse, hrun⟩
  have heq : splitprogParseRangeArg (some [0x31]) = (0, 0, 1) := by rfl
  cases heq.symm.trans hparse
  cases hrun

end

end Fischstaebchen
