/-
  The front end of zram tmpfs mounts (`app/ztmpfs/main.c`).

  The program reads options with `getopt` and collects the mount options in a
  dynstr; the type of the disk comes from `-t` or from the name of the program.

  * `handleOpt_ensures`, `optionsLoop_ensures`: what the program knows after an
    option, and after all of them (`ZtmpfsState.After`).
  * `ztmpfsMain_ensures`: the call that it makes.
  * `documentedCall_iff`: the call is the documented one unless the program is
    called `zdisk` without a slash in its name.
-/
import Fischstaebchen.Lib.CountLoop
import Fischstaebchen.Lib.Getopt
import Fischstaebchen.Strutil.JoinAlloc
import Fischstaebchen.Sys
import Fischstaebchen.Zram.Tmpfs

namespace Fischstaebchen

open Lib
open Lib.Getopt (Opt Cursor Found)

/-! ## The program -/

inductive ProgMode
  | undefined
  | ztmpfs
  | zdisk
  deriving DecidableEq

/-- `name_to_prog_mode`. -/
def nameToProgMode (name : CStr) : ProgMode :=
  if strIsEmpty (some name) then .undefined
  else if name = "zdisk".toList then .zdisk
  else if name = "ztmpfs".toList then .ztmpfs
  else .undefined

/-- `strrchr(s, c)`: the part of `s` that starts at the last `c`. -/
def strrchrFrom : CStr → Char → Option CStr
  | [], _ => none
  | x :: s, c =>
    match strrchrFrom s c with
    | some found => some found
    | none => if x = c then some (x :: s) else none

/-- `get_prog_mode`. -/
def getProgMode (prog : CStr) : ProgMode :=
  match strrchrFrom prog '/' with
  | none => .ztmpfs
  | some name => nameToProgMode ((strStartswith name.tail "mount.".toList).getD name.tail)

/-- The arguments of a program: strings that fit into memory. -/
structure ArgVector where
  prog : CStr
  args : List CStr
  bytes : ∀ w ∈ args, ∀ c ∈ w, c ≠ '\x00' ∧ c.toNat < 256
  fits : (args.map fun w => w.length + 1).sum < 2 ^ 61

/-- The variables of `main`; `prog_mode` is -1 as long as it is not known. -/
structure ZtmpfsState where
  optsDynstr : DynstrData
  progMode : Option ProgMode
  size : Option CStr
  modeStr : Option CStr
  fakeMode : Bool
  quietMode : Bool

/-- A string, or NULL if it is empty. -/
def nonEmpty (str : CStr) : Option CStr := if strIsEmpty (some str) then none else some str

/-- The `switch` over the options: the loop goes on, or `main` returns. -/
def handleOpt (st : ZtmpfsState) : Opt Char → Alloc (Lib.Flow ZtmpfsState ℤ)
  | .arg c optarg =>
    if c = 't' then
      if nameToProgMode optarg = .undefined then pure (.leave exUsage)
      else pure (.next { st with progMode := some (nameToProgMode optarg) })
    else if c = 'S' then pure (.next { st with size := nonEmpty optarg })
    else if c = 'o' then
      if strIsEmpty (some optarg) then pure (.next st)
      else do
        let r ← dynstrDataCjoinAppend st.optsDynstr 0x2C (toBytes optarg)
        if r.1 ≠ 0 then pure (.leave exSoftware) else pure (.next { st with optsDynstr := r.2 })
    else if c = 'm' then pure (.next { st with modeStr := nonEmpty optarg })
    else pure (.leave exUsage)
  | .flag c =>
    if c = 'h' then pure (.leave exitSuccess)
    else if c = 'f' then pure (.next { st with fakeMode := true })
    else if c = 'q' then pure (.next { st with quietMode := true })
    else pure (.leave exUsage)
  | .bad _ => pure (.leave exUsage)

/-- `short_options`. -/
def shortOptions : List Char := "t:o:S:m:hfq".toList

/-- The loop over the options: the variables and the operands. -/
def optionsLoop : ℕ → Cursor Char → ZtmpfsState →
    Alloc (Lib.Flow (ZtmpfsState × List CStr) ℤ)
  | 0, _, _ => defined none
  | fuel + 1, s, st =>
    match Lib.Getopt.getopt ':' '-' shortOptions s with
    | .operands operands => pure (.next (st, operands))
    | .opt o s => do
      match ← handleOpt st o with
      | .leave code => pure (.leave code)
      | .next st => optionsLoop fuel s st

/-- A call of `zram_tmpfs`. -/
structure ZramTmpfsCall where
  name : Option CStr
  mp : CStr
  flags : Flags
  opts : Option CStr
  sizeSpec : Option CStr
  sysMemsizeM : ℕ
  defaultMode : UInt32

/-- How `main` ends: with an exit code, or with a call. -/
inductive ZtmpfsEnd
  | exit (code : ℤ)
  | call (c : ZramTmpfsCall)

/-- The mode option. -/
def appendMode (modeStr : Option CStr) (optsDynstr : DynstrData) : Alloc (ℤ × DynstrData) :=
  match modeStr with
  | none => pure (0, optsDynstr)
  | some modeStr => do
    let r ← dynstrDataCjoinAppend optsDynstr 0x2C (toBytes "mode=".toList)
    if r.1 ≠ 0 then pure (-1, r.2) else dynstrDataAppendStrSimple r.2 (toBytes modeStr)

/-- `opts_str`, or an exit code. -/
def takeOpts (optsDynstr : DynstrData) : Alloc (Lib.Flow (Option CStr) ℤ) :=
  if optsDynstr.currentSize ≠ 0 then do
    let r ← dynstrDataAppendNull optsDynstr
    if r.1 ≠ 0 then pure (.leave exSoftware)
    else
      let str ← defined ((dynstrDataUnref r.2).1.bind cstring)
      pure (.next (some (ofBytes str)))
  else pure (.next none)

/-- The type of the disk. -/
def progModeOf (prog : CStr) (st : ZtmpfsState) : ProgMode :=
  match st.progMode with
  | some mode => mode
  | none => if getProgMode prog = .undefined then .ztmpfs else getProgMode prog

/-- `main` with a name and a mountpoint.  Nothing is mounted in fake mode. -/
def ztmpfsMount (prog : CStr) (st : ZtmpfsState) (name : Option CStr) (mp : CStr) :
    Alloc ZtmpfsEnd :=
  if strIsEmpty (some mp) then pure (.exit exUsage)
  else do
    let r ← appendMode st.modeStr st.optsDynstr
    if r.1 ≠ 0 then pure (.exit exSoftware)
    else
      match ← takeOpts r.2 with
      | .leave code => pure (.exit code)
      | .next opts =>
        if st.fakeMode then pure (.exit exitSuccess)
        else
          pure (.call ⟨name, mp, 0#64, opts, st.size, 0,
            if progModeOf prog st = .zdisk then rwxRxRx else srwxRwxRwx⟩)

/-- `main`. -/
def ztmpfsMain (argv : ArgVector) : Alloc ZtmpfsEnd := do
  let r ← dynstrDataInit 80
  if r.1 ≠ 0 then pure (.exit exSoftware)
  else
    let s : Cursor Char := ⟨[], argv.args⟩
    match ← optionsLoop (s.size + 1) s ⟨r.2, none, none, none, false, false⟩ with
    | .leave code => pure (.exit code)
    | .next (st, [mp]) => ztmpfsMount argv.prog st none mp
    | .next (st, [name, mp]) => ztmpfsMount argv.prog st (some name) mp
    | .next _ => pure (.exit exUsage)

/-! ## The documented call -/

/-- The arguments of an option, in order. -/
def optArgs (c : Char) (opts : List (Opt Char)) : List CStr :=
  opts.filterMap fun o =>
    match o with
    | .arg d optarg => if d = c then some optarg else none
    | _ => none

/-- The argument of the last such option, unless it is empty. -/
def lastNonEmpty (c : Char) (opts : List (Opt Char)) : Option CStr :=
  (optArgs c opts).getLast?.bind nonEmpty

/-- The mount options: those of all `-o`, and the mode. -/
def optWords (opts : List (Opt Char)) : List CStr := (optArgs 'o' opts).filter (· ≠ [])

def modeWords (opts : List (Opt Char)) : List CStr :=
  (lastNonEmpty 'm' opts).toList.map ("mode=".toList ++ ·)

def mountOptWords (opts : List (Opt Char)) : List CStr := optWords opts ++ modeWords opts

/-- The options that `getopt` finds. -/
def optsOf (argv : ArgVector) : List (Opt Char) :=
  (Lib.Getopt.parse ':' '-' shortOptions ⟨[], argv.args⟩).1

/-- The name of a program after its last slash. -/
def progBasename (prog : CStr) : CStr := prog.rtakeWhile (· != '/')

/-- `${name#mount.}` -/
def withoutMount (name : CStr) : CStr := (strStartswith name "mount.".toList).getD name

/-- The type that is asked for, or that the name of the program stands for. -/
def documentedType (argv : ArgVector) : CStr :=
  (optArgs 't' (optsOf argv)).getLast?.getD (withoutMount (progBasename argv.prog))

/-- The call has the documented options, size and mode. -/
structure DocumentedCall (argv : ArgVector) (c : ZramTmpfsCall) : Prop where
  opts : c.opts = nonEmpty ([','].intercalate (mountOptWords (optsOf argv)))
  sizeSpec : c.sizeSpec = lastNonEmpty 'S' (optsOf argv)
  defaultMode : c.defaultMode = if documentedType argv = "zdisk".toList then rwxRxRx else srwxRwxRwx

/-! ## Options -/

section
variable {st : ZtmpfsState} {pre opts : List (Opt Char)} {o : Opt Char} {c d : Char}
  {optarg : CStr} {ws : List CStr}

/-- The words with commas between them. -/
def commaJoin (ws : List CStr) : CStr := [','].intercalate ws

theorem commaJoin_concat (hws : ∀ w ∈ ws, w ≠ []) (s : CStr) :
    toBytes (commaJoin (ws ++ [s])) =
      if toBytes (commaJoin ws) = [] then toBytes s
      else toBytes (commaJoin ws) ++ [0x2C] ++ toBytes s := by
  have hnil : toBytes (commaJoin ws) = [] ↔ ws = [] :=
    toBytes_eq_nil.trans (intercalate_eq_nil_iff hws)
  by_cases hempty : ws = []
  · rw [if_pos (hnil.2 hempty), hempty, commaJoin, List.nil_append, List.intercalate_singleton]
  · rw [if_neg (mt hnil.1 hempty), commaJoin, intercalate_append ',' hempty (List.cons_ne_nil s []),
      List.intercalate_singleton, toBytes_append, List.append_assoc]
    rfl

/-- A longer last word. -/
theorem commaJoin_append (ws : List CStr) (s t : CStr) :
    commaJoin (ws ++ [s ++ t]) = commaJoin (ws ++ [s]) ++ t := by
  rw [commaJoin, commaJoin, intercalate_concat, intercalate_concat, List.append_assoc]

/-- The size of some words with a separator each. -/
def wordsSize (ws : List CStr) : ℕ := (ws.map fun w => w.length + 1).sum

theorem wordsSize_append (ws ws' : List CStr) :
    wordsSize (ws ++ ws') = wordsSize ws + wordsSize ws' := by
  rw [wordsSize, List.map_append, List.sum_append]
  rfl

theorem length_commaJoin_le (ws : List CStr) : (commaJoin ws).length ≤ wordsSize ws := by
  have hflat : ws.flatten.length + ws.length = wordsSize ws := by
    induction ws with
    | nil => rfl
    | cons w ws ih =>
      rw [wordsSize, List.map_cons, List.sum_cons, ← wordsSize, ← ih, List.flatten_cons,
        List.length_append, List.length_cons]
      omega
  rw [commaJoin, length_intercalate, List.length_singleton, Nat.mul_one]
  omega

theorem optArgs_append (c : Char) (opts opts' : List (Opt Char)) :
    optArgs c (opts ++ opts') = optArgs c opts ++ optArgs c opts' := List.filterMap_append

theorem optArgs_arg (c d : Char) (optarg : CStr) :
    optArgs c [.arg d optarg] = if d = c then [optarg] else [] := by
  rw [optArgs, List.filterMap_cons]
  dsimp only
  by_cases hd : d = c
  · rw [if_pos hd, if_pos hd]
    rfl
  · rw [if_neg hd, if_neg hd]
    rfl

theorem optWords_ne_nil : ∀ w ∈ optWords opts, w ≠ [] := by
  intro w hw
  simpa using (List.mem_filter.1 hw).2

/-- The arguments are part of the options. -/
theorem optArgs_weight (opts : List (Opt Char)) :
    wordsSize (optArgs 'o' opts) + wordsSize (optArgs 'm' opts) ≤ (opts.map Opt.weight).sum := by
  induction opts with
  | nil => exact le_rfl
  | cons o opts ih =>
    have hcons (c : Char) : optArgs c (o :: opts) = optArgs c [o] ++ optArgs c opts :=
      optArgs_append c [o] opts
    have hone : wordsSize (optArgs 'o' [o]) + wordsSize (optArgs 'm' [o]) ≤ o.weight := by
      cases o with
      | flag c => exact Nat.zero_le _
      | bad c => exact Nat.zero_le _
      | arg c optarg =>
        rw [optArgs_arg, optArgs_arg]
        by_cases ho : c = 'o'
        · subst ho
          simp [wordsSize, Opt.weight]
        · by_cases hm : c = 'm'
          · subst hm
            simp [wordsSize, Opt.weight]
          · simp [wordsSize, ho, hm]
    rw [hcons, hcons, wordsSize_append, wordsSize_append, List.map_cons, List.sum_cons]
    omega

theorem wordsSize_optWords_le (opts : List (Opt Char)) :
    wordsSize (optWords opts) ≤ wordsSize (optArgs 'o' opts) :=
  (List.filter_sublist.map _).sum_le_sum fun _ _ => Nat.zero_le _

/-- What `main` knows after some options. -/
structure ZtmpfsState.After (st : ZtmpfsState) (pre : List (Opt Char)) : Prop where
  opts : st.optsDynstr.Holds (toBytes (commaJoin (optWords pre)))
  progMode : st.progMode = (optArgs 't' pre).getLast?.map nameToProgMode
  size : st.size = lastNonEmpty 'S' pre
  modeStr : st.modeStr = lastNonEmpty 'm' pre

/-- The loop is left, or goes on with what holds after the options `pre`. -/
def GoesOn (pre : List (Opt Char)) (r : Lib.Flow ZtmpfsState ℤ) : Prop :=
  (∃ code, r = .leave code) ∨ ∃ st, r = .next st ∧ st.After pre

theorem ensures_leave (code : ℤ) : Ensures True (pure (.leave code)) (GoesOn pre) :=
  Ensures.pure (.inl ⟨code, rfl⟩)

theorem ensures_next (h : st.After pre) : Ensures True (pure (.next st)) (GoesOn pre) :=
  Ensures.pure (.inr ⟨st, rfl, h⟩)

theorem optArgs_concat_self (c : Char) (pre : List (Opt Char)) (optarg : CStr) :
    optArgs c (pre ++ [.arg c optarg]) = optArgs c pre ++ [optarg] := by
  rw [optArgs_append, optArgs_arg, if_pos rfl]

/-! What holds after an option that is not for it. -/

theorem ZtmpfsState.After.opts_concat (h : st.After pre) (ho : optArgs 'o' [o] = []) :
    st.optsDynstr.Holds (toBytes (commaJoin (optWords (pre ++ [o])))) := by
  rw [optWords, optArgs_append, ho, List.append_nil]
  exact h.opts

theorem ZtmpfsState.After.progMode_concat (h : st.After pre) (ho : optArgs 't' [o] = []) :
    st.progMode = (optArgs 't' (pre ++ [o])).getLast?.map nameToProgMode := by
  rw [optArgs_append, ho, List.append_nil]
  exact h.progMode

theorem ZtmpfsState.After.size_concat (h : st.After pre) (ho : optArgs 'S' [o] = []) :
    st.size = lastNonEmpty 'S' (pre ++ [o]) := by
  rw [lastNonEmpty, optArgs_append, ho, List.append_nil]
  exact h.size

theorem ZtmpfsState.After.modeStr_concat (h : st.After pre) (ho : optArgs 'm' [o] = []) :
    st.modeStr = lastNonEmpty 'm' (pre ++ [o]) := by
  rw [lastNonEmpty, optArgs_append, ho, List.append_nil]
  exact h.modeStr

theorem lastNonEmpty_concat (c : Char) (pre : List (Opt Char)) (optarg : CStr) :
    lastNonEmpty c (pre ++ [.arg c optarg]) = nonEmpty optarg := by
  rw [lastNonEmpty, optArgs_concat_self, List.getLast?_concat]
  rfl

theorem length_toBytes (s : CStr) : (toBytes s).length = s.length := List.length_map _

theorem optWords_fit (h : (opts.map Opt.weight).sum < 2 ^ 61) :
    (toBytes (commaJoin (optWords opts))).length < sizeMax / 4 := by
  have hjoin := length_commaJoin_le (optWords opts)
  have hwords := wordsSize_optWords_le opts
  have hweight := optArgs_weight opts
  have hmax : sizeMax / 4 = 2 ^ 62 - 1 := rfl
  rw [length_toBytes]
  omega

/-- **A mount option** is joined to those before. -/
theorem handleOpt_mount (h : st.After pre) (hempty : optarg ≠ [])
    (hroom : ((pre ++ [Opt.arg 'o' optarg]).map Opt.weight).sum < 2 ^ 61) :
    Ensures True (dynstrDataCjoinAppend st.optsDynstr 0x2C (toBytes optarg))
      (Outcome True fun d =>
        d.Holds (toBytes (commaJoin (optWords (pre ++ [.arg 'o' optarg]))))) := by
  have hwords : optWords (pre ++ [.arg 'o' optarg]) = optWords pre ++ [optarg] := by
    rw [optWords, optArgs_concat_self, List.filter_append]
    simp [optWords, hempty]
  have hfits := optWords_fit hroom
  rw [hwords, commaJoin_concat optWords_ne_nil] at hfits ⊢
  exact dynstrDataCjoinAppend_ensures h.opts hfits

/-- **An option** changes what it is for. -/
theorem handleOpt_ensures (h : st.After pre)
    (hroom : ((pre ++ [o]).map Opt.weight).sum < 2 ^ 61) :
    Ensures True (handleOpt st o) (GoesOn (pre ++ [o])) := by
  unfold handleOpt
  cases o with
  | bad c => exact ensures_leave _
  | flag c =>
    dsimp only
    split_ifs
    · exact ensures_leave _
    · exact ensures_next ⟨h.opts_concat rfl, h.progMode_concat rfl, h.size_concat rfl,
        h.modeStr_concat rfl⟩
    · exact ensures_next ⟨h.opts_concat rfl, h.progMode_concat rfl, h.size_concat rfl,
        h.modeStr_concat rfl⟩
    · exact ensures_leave _
  | arg c optarg =>
    dsimp only
    split_ifs with ht hundefined hS ho hempty hm
    · exact ensures_leave _
    · subst ht
      refine ensures_next ⟨h.opts_concat rfl, ?_, h.size_concat rfl, h.modeStr_concat rfl⟩
      rw [optArgs_concat_self, List.getLast?_concat]
      rfl
    · subst hS
      exact ensures_next ⟨h.opts_concat rfl, h.progMode_concat rfl,
        (lastNonEmpty_concat 'S' pre optarg).symm, h.modeStr_concat rfl⟩
    · subst ho
      obtain rfl : optarg = [] := by simpa [strIsEmpty] using hempty
      refine ensures_next ⟨?_, h.progMode_concat rfl, h.size_concat rfl, h.modeStr_concat rfl⟩
      rw [optWords, optArgs_concat_self, List.filter_append]
      simpa [optWords] using h.opts
    · subst ho
      have hne : optarg ≠ [] := by simpa [strIsEmpty] using hempty
      refine Outcome.bind (handleOpt_mount h hne hroom) (fun d hd => ?_) fun _ => ensures_leave _
      exact ensures_next ⟨hd, h.progMode_concat rfl, h.size_concat rfl, h.modeStr_concat rfl⟩
    · subst hm
      exact ensures_next ⟨h.opts_concat rfl, h.progMode_concat rfl, h.size_concat rfl,
        (lastNonEmpty_concat 'm' pre optarg).symm⟩
    · exact ensures_leave _

/-- The options up to the operands. -/
def ParseEnds (opts : List (Opt Char)) (operands : List CStr)
    (r : Lib.Flow (ZtmpfsState × List CStr) ℤ) : Prop :=
  (∃ code, r = .leave code) ∨ ∃ st, r = .next (st, operands) ∧ st.After opts

/-- **All options**, by induction on the calls of `getopt`. -/
theorem optionsLoop_ensures : ∀ {fuel : ℕ} {s : Cursor Char} {st : ZtmpfsState}
    {pre : List (Opt Char)}, s.size < fuel → st.After pre →
      ((pre ++ (Lib.Getopt.parse ':' '-' shortOptions s).1).map Opt.weight).sum < 2 ^ 61 →
      Ensures True (optionsLoop fuel s st)
        (ParseEnds (pre ++ (Lib.Getopt.parse ':' '-' shortOptions s).1)
          (Lib.Getopt.parse ':' '-' shortOptions s).2)
  | 0, s, _, _, hfuel, _, _ => absurd hfuel (Nat.not_lt_zero _)
  | fuel + 1, s, st, pre, hfuel, h, hroom => by
    rw [optionsLoop]
    rcases Lib.Getopt.getopt_cases ':' '-' shortOptions s with
      ⟨o, s', hget, hreads⟩ | ⟨ops, hget, hparse⟩
    · rw [hget]
      rw [hreads.parse, ← List.singleton_append, ← List.append_assoc] at hroom ⊢
      have hsize := hreads.size
      have hweight := o.one_le_weight
      have hfirst : ((pre ++ [o]).map Opt.weight).sum < 2 ^ 61 := by
        rw [List.map_append, List.sum_append] at hroom
        omega
      refine Ensures.bind (handleOpt_ensures h hfirst) fun r hr => ?_
      rcases hr with ⟨code, rfl⟩ | ⟨st', rfl, h'⟩
      · exact Ensures.pure (.inl ⟨code, rfl⟩)
      · exact optionsLoop_ensures (by omega) h' hroom
    · rw [hget]
      rw [hparse, List.append_nil]
      exact Ensures.pure (.inr ⟨st, rfl, h⟩)

/-! ## The call -/

theorem mem_optArgs {w : CStr} (h : w ∈ optArgs c opts) : ∃ o ∈ opts, o.optarg = w := by
  obtain ⟨o, ho, hw⟩ := List.mem_filterMap.1 h
  cases o with
  | flag d => cases hw
  | bad d => cases hw
  | arg d optarg =>
    dsimp only at hw
    split_ifs at hw
    cases hw
    exact ⟨_, ho, rfl⟩

theorem mem_of_lastNonEmpty {w : CStr} (h : lastNonEmpty c opts = some w) :
    w ∈ optArgs c opts ∧ w ≠ [] := by
  obtain ⟨v, hv, hw⟩ := Option.bind_eq_some_iff.1 h
  rw [nonEmpty] at hw
  split_ifs at hw with hempty
  cases hw
  exact ⟨List.mem_of_getLast? hv, by simpa [strIsEmpty] using hempty⟩

theorem mountOptWords_fit (h : (opts.map Opt.weight).sum < 2 ^ 61) :
    (toBytes (commaJoin (mountOptWords opts))).length + 1 < sizeMax / 4 := by
  have hjoin := length_commaJoin_le (mountOptWords opts)
  have hwords := wordsSize_optWords_le opts
  have hweight := optArgs_weight opts
  have hmax : sizeMax / 4 = 2 ^ 62 - 1 := rfl
  have hmode : wordsSize (modeWords opts) ≤ wordsSize (optArgs 'm' opts) + 5 := by
    rw [modeWords]
    cases hlast : lastNonEmpty 'm' opts with
    | none => exact Nat.zero_le _
    | some mode =>
      have hle : mode.length + 1 ≤ wordsSize (optArgs 'm' opts) :=
        List.single_le_sum (fun _ _ => Nat.zero_le _) _
          (List.mem_map_of_mem (mem_of_lastNonEmpty hlast).1)
      have hname : "mode=".toList.length = 5 := rfl
      simp only [wordsSize, Option.toList_some, List.map_cons, List.map_nil, List.sum_cons,
        List.sum_nil, List.length_append] at hle ⊢
      omega
  have hsplit : wordsSize (mountOptWords opts) = _ := wordsSize_append _ _
  rw [length_toBytes]
  omega

/-- **The mode** comes last. -/
theorem appendMode_ensures (h : st.After opts) (hroom : (opts.map Opt.weight).sum < 2 ^ 61) :
    Ensures True (appendMode st.modeStr st.optsDynstr)
      (Outcome True fun d => d.Holds (toBytes (commaJoin (mountOptWords opts)))) := by
  have hfits := mountOptWords_fit hroom
  rw [h.modeStr]
  rw [mountOptWords, modeWords] at hfits ⊢
  cases hlast : lastNonEmpty 'm' opts with
  | none =>
    rw [Option.toList_none, List.map_nil, List.append_nil]
    exact Ensures.pure (.inl ⟨rfl, h.opts⟩)
  | some mode =>
    rw [hlast, Option.toList_some, List.map_singleton, commaJoin_append, toBytes_append,
      List.length_append] at hfits
    rw [Option.toList_some, List.map_singleton, commaJoin_append, toBytes_append]
    have hname :
        (toBytes (commaJoin (optWords opts ++ ["mode=".toList]))).length < sizeMax / 4 := by
      omega
    rw [commaJoin_concat optWords_ne_nil] at hname
    refine Outcome.bind (dynstrDataCjoinAppend_ensures h.opts hname) (fun d hd => ?_)
      fun hr => ensures_freed hr
    rw [← commaJoin_concat optWords_ne_nil] at hd
    exact dynstrDataAppendStrSimple_ensures hd (by omega)

/-- The option string, which is NULL if there are no options. -/
theorem takeOpts_ensures {d : DynstrData} (hbytes : ∀ w ∈ ws, ∀ c ∈ w, c ≠ '\x00' ∧ c.toNat < 256)
    (hfits : (toBytes (commaJoin ws)).length + 1 < sizeMax / 4)
    (h : d.Holds (toBytes (commaJoin ws))) :
    Ensures True (takeOpts d) fun r =>
      (∃ code, r = .leave code) ∨ r = .next (nonEmpty (commaJoin ws)) := by
  have hchars : ∀ c ∈ commaJoin ws, c ≠ '\x00' ∧ c.toNat < 256 := by
    intro c hc
    rcases mem_intercalate hc with rfl | ⟨w, hw, hc⟩
    · decide
    · exact hbytes w hw c hc
  rw [takeOpts, h.length]
  by_cases hnil : commaJoin ws = []
  · rw [hnil]
    exact Ensures.pure (.inr rfl)
  · have hsome : nonEmpty (commaJoin ws) = some (commaJoin ws) := by
      rw [nonEmpty, if_neg]
      simpa [strIsEmpty] using hnil
    rw [if_pos (by simpa [toBytes] using hnil), hsome]
    refine Outcome.bind (dynstrDataAppendNull_ensures h hfits) ?_
      fun _ => Ensures.pure (.inl ⟨_, rfl⟩)
    rintro d ⟨hd, cells, hcells, hload⟩
    have hcontents := hd.contents
    rw [DynstrData.contents, hcells, Option.getD_some, hd.length] at hcontents
    rw [hd.length] at hload
    have hstr := unref_cstring hcells hcontents hload (nul_notMem_toBytes hchars)
    refine Ensures.bind (ensures_defined hstr rfl) fun str heq => Ensures.pure (.inr ?_)
    subst heq
    rw [ofBytes_toBytes fun c hc => (hchars c hc).2]

/-- The call that is made, with the type that `main` derives. -/
def CallOf (argv : ArgVector) (opts : List (Opt Char)) (r : ZtmpfsEnd) : Prop :=
  ∀ call, r = .call call →
    call.opts = nonEmpty (commaJoin (mountOptWords opts)) ∧
      call.sizeSpec = lastNonEmpty 'S' opts ∧
      call.defaultMode =
        if ((optArgs 't' opts).getLast?.map nameToProgMode).getD (getProgMode argv.prog) = .zdisk
        then rwxRxRx else srwxRwxRwx

theorem ensures_exit {argv : ArgVector} (code : ℤ) :
    Ensures True (pure (.exit code)) (CallOf argv opts) :=
  Ensures.pure nofun

theorem progModeOf_zdisk (h : st.After opts) (prog : CStr) :
    progModeOf prog st = .zdisk ↔
      ((optArgs 't' opts).getLast?.map nameToProgMode).getD (getProgMode prog) = .zdisk := by
  rw [progModeOf, h.progMode]
  cases (optArgs 't' opts).getLast?.map nameToProgMode with
  | some mode => rfl
  | none =>
    dsimp only
    split_ifs with hundefined
    · simp [hundefined]
    · rfl

/-- **`main` with its operands.** -/
theorem ztmpfsMount_ensures {argv : ArgVector} (h : st.After opts)
    (hbytes : ∀ w ∈ mountOptWords opts, ∀ c ∈ w, c ≠ '\x00' ∧ c.toNat < 256)
    (hroom : (opts.map Opt.weight).sum < 2 ^ 61) (name : Option CStr) (mp : CStr) :
    Ensures True (ztmpfsMount argv.prog st name mp) (CallOf argv opts) := by
  rw [ztmpfsMount]
  by_cases hmp : strIsEmpty (some mp) = true
  · rw [if_pos hmp]
    exact ensures_exit _
  rw [if_neg hmp]
  refine Outcome.bind (appendMode_ensures h hroom) (fun d hd => ?_) fun _ => ensures_exit _
  refine Ensures.bind (takeOpts_ensures hbytes (mountOptWords_fit hroom) hd)
    fun r hr => ?_
  rcases hr with ⟨code, rfl⟩ | rfl
  · exact ensures_exit _
  dsimp only
  split_ifs with hfake hzdisk
  · exact ensures_exit _
  · refine Ensures.pure ?_
    rintro _ ⟨⟩
    exact ⟨rfl, h.size, (if_pos ((progModeOf_zdisk h argv.prog).1 hzdisk)).symm⟩
  · refine Ensures.pure ?_
    rintro _ ⟨⟩
    exact ⟨rfl, h.size, (if_neg (mt (progModeOf_zdisk h argv.prog).2 hzdisk)).symm⟩

/-- The mount options consist of chars of the arguments. -/
theorem mountOptWords_bytes (argv : ArgVector) :
    ∀ w ∈ mountOptWords (optsOf argv), ∀ c ∈ w, c ≠ '\x00' ∧ c.toNat < 256 := by
  have hopts : ∀ c, ∀ w ∈ optArgs c (optsOf argv), ∀ x ∈ w, x ≠ '\x00' ∧ x.toNat < 256 := by
    intro c w hw x hx
    obtain ⟨o, ho, rfl⟩ := mem_optArgs hw
    have hsub := Lib.Getopt.optarg_parse_subset ':' '-' shortOptions ⟨[], argv.args⟩ o ho hx
    rw [Cursor.chars, List.nil_append, List.mem_flatten] at hsub
    obtain ⟨arg, harg, hx⟩ := hsub
    exact argv.bytes arg harg x hx
  intro w hw c hc
  rcases List.mem_append.1 hw with hw | hw
  · exact hopts 'o' w (List.mem_of_mem_filter hw) c hc
  · obtain ⟨mode, hmode, rfl⟩ := List.mem_map.1 hw
    rcases List.mem_append.1 hc with hc | hc
    · have hname : ("mode=".toList.all fun c => c ≠ '\x00' ∧ c.toNat < 256) = true := rfl
      simpa using List.all_eq_true.1 hname c hc
    · exact hopts 'm' mode (mem_of_lastNonEmpty (Option.mem_toList.1 hmode)).1 c hc

/-- **`main`** is defined, and what it calls is what the options say. -/
theorem ztmpfsMain_ensures (argv : ArgVector) :
    Ensures True (ztmpfsMain argv) (CallOf argv (optsOf argv)) := by
  have hweight : ((optsOf argv).map Opt.weight).sum < 2 ^ 61 := by
    refine (Lib.Getopt.weight_parse_le ':' '-' shortOptions ⟨[], argv.args⟩).trans_lt ?_
    rw [Cursor.size, List.length_nil, Nat.zero_add]
    exact argv.fits
  refine Outcome.bind dynstrDataInit_ensures ?_ fun _ => ensures_exit _
  rintro d ⟨hd, -⟩
  have hstart : ZtmpfsState.After ⟨d, none, none, none, false, false⟩ [] := ⟨hd, rfl, rfl, rfl⟩
  refine Ensures.bind (optionsLoop_ensures (Nat.lt_succ_self _) hstart hweight) fun r hr => ?_
  rcases hr with ⟨code, rfl⟩ | ⟨st, rfl, h⟩
  · exact ensures_exit _
  have hmount (name : Option CStr) (mp : CStr) :
      Ensures True (ztmpfsMount argv.prog st name mp) (CallOf argv (optsOf argv)) :=
    ztmpfsMount_ensures h (mountOptWords_bytes argv) hweight name mp
  rcases (Lib.Getopt.parse ':' '-' shortOptions ⟨[], argv.args⟩).2 with
    _ | ⟨name, _ | ⟨mp, _ | ⟨_, _⟩⟩⟩
  · exact ensures_exit _
  · exact hmount none name
  · exact hmount (some name) mp
  · exact ensures_exit _

/-! ## The type of the disk -/

theorem nameToProgMode_zdisk_iff {name : CStr} :
    nameToProgMode name = .zdisk ↔ name = "zdisk".toList := by
  rw [nameToProgMode]
  constructor
  · intro h
    split_ifs at h with hempty hzdisk
    exact hzdisk
  · rintro rfl
    rfl

theorem rtakeWhile_cons_of_mem {s : CStr} (h : c ∈ s) (d : Char) :
    (d :: s).rtakeWhile (· != c) = s.rtakeWhile (· != c) := by
  have hlen : (s.reverse.takeWhile (· != c)).length ≠ s.reverse.length := by
    intro heq
    have hself := (List.takeWhile_prefix (l := s.reverse) (· != c)).eq_of_length heq
    have hall := List.takeWhile_eq_self_iff.1 hself c (List.mem_reverse.2 h)
    simp at hall
  rw [List.rtakeWhile, List.rtakeWhile, List.reverse_cons, List.takeWhile_append, if_neg hlen]

theorem rtakeWhile_cons_self {s : CStr} (h : c ∉ s) : (c :: s).rtakeWhile (· != c) = s := by
  have hall : ∀ x ∈ s.reverse, (x != c) = true := by
    intro x hx
    simpa using ne_of_mem_of_not_mem (List.mem_reverse.1 hx) h
  rw [List.rtakeWhile, List.reverse_cons, List.takeWhile_append_of_pos hall]
  simp

/-- What `strrchr` finds. -/
theorem strrchrFrom_eq (s : CStr) (c : Char) :
    strrchrFrom s c = if c ∈ s then some (c :: s.rtakeWhile (· != c)) else none := by
  induction s with
  | nil => rfl
  | cons d s ih =>
    rw [strrchrFrom, ih]
    by_cases hs : c ∈ s
    · rw [if_pos hs, if_pos (List.mem_cons_of_mem d hs), rtakeWhile_cons_of_mem hs]
    · rw [if_neg hs]
      by_cases hd : d = c
      · subst hd
        rw [if_pos List.mem_cons_self, rtakeWhile_cons_self hs]
        exact if_pos rfl
      · have hmem : c ∉ d :: s := by simp [Ne.symm hd, hs]
        rw [if_neg hmem]
        exact if_neg hd

theorem getProgMode_zdisk_iff {prog : CStr} : getProgMode prog = .zdisk ↔
    '/' ∈ prog ∧ withoutMount (progBasename prog) = "zdisk".toList := by
  rw [getProgMode, strrchrFrom_eq]
  by_cases h : '/' ∈ prog
  · rw [if_pos h, and_iff_right h]
    exact nameToProgMode_zdisk_iff
  · rw [if_neg h]
    exact iff_of_false (by simp) fun hand => h hand.1

/-- Without a slash, the whole name is the basename. -/
theorem progBasename_of_no_slash {prog : CStr} (h : '/' ∉ prog) : progBasename prog = prog := by
  rw [progBasename, List.rtakeWhile_eq_self_iff]
  intro c hc
  simpa using ne_of_mem_of_not_mem hc h

/-- The type that `main` derives, and the documented one. -/
theorem documentedType_iff (argv : ArgVector) :
    ((((optArgs 't' (optsOf argv)).getLast?.map nameToProgMode).getD (getProgMode argv.prog) =
        .zdisk) ↔ documentedType argv = "zdisk".toList) ↔
      optArgs 't' (optsOf argv) ≠ [] ∨ '/' ∈ argv.prog ∨
        withoutMount argv.prog ≠ "zdisk".toList := by
  rw [documentedType]
  cases hlast : (optArgs 't' (optsOf argv)).getLast? with
  | some name =>
    have hne : optArgs 't' (optsOf argv) ≠ [] := by
      intro hnil
      rw [hnil] at hlast
      cases hlast
    exact iff_of_true nameToProgMode_zdisk_iff (.inl hne)
  | none =>
    rw [Option.map_none, Option.getD_none, Option.getD_none, getProgMode_zdisk_iff,
      or_iff_right (not_not.2 (List.getLast?_eq_none_iff.1 hlast))]
    by_cases hslash : '/' ∈ argv.prog
    · exact iff_of_true (and_iff_right hslash) (.inl hslash)
    · rw [progBasename_of_no_slash hslash]
      simp [hslash]

/-- **The call is the documented one** exactly if a type is given, or the program
    is called by a path, or by a name that does not stand for a zdisk. -/
theorem documentedCall_iff (argv : ArgVector) (a a' : Allocator) (c : ZramTmpfsCall)
    (hcall : (ztmpfsMain argv).run a = some (.call c, a')) :
    DocumentedCall argv c ↔
      optArgs 't' (optsOf argv) ≠ [] ∨ '/' ∈ argv.prog ∨
        withoutMount argv.prog ≠ "zdisk".toList := by
  obtain ⟨r, b, hrun, -, hr⟩ := ztmpfsMain_ensures argv a (admits_any a)
  rw [hcall] at hrun
  cases hrun
  obtain ⟨hopts, hsize, hmode⟩ := hr c rfl
  rw [← documentedType_iff]
  have hmodes : rwxRxRx ≠ srwxRwxRwx := by decide
  constructor
  · rintro ⟨-, -, hmode'⟩
    rw [hmode] at hmode'
    split_ifs at hmode' with hcode hdoc hdoc
    · exact iff_of_true hcode hdoc
    · exact absurd hmode' hmodes
    · exact absurd hmode'.symm hmodes
    · exact iff_of_false hcode hdoc
  · intro hiff
    refine ⟨hopts, hsize, ?_⟩
    rw [hmode]
    exact if_congr hiff rfl rfl

/-- `<prog> -o ro -m 700 /m`. -/
def mountArgv (prog : CStr) : ArgVector where
  prog := prog
  args := ["-o".toList, "ro".toList, "-m".toList, "700".toList, "/m".toList]
  bytes := by simp
  fits := by simp

/-- A mount helper that is called by its path. -/
theorem documentedCall_path :
    DocumentedCall (mountArgv "/sbin/mount.zdisk".toList)
      ⟨none, "/m".toList, 0#64, some "ro,mode=700".toList, none, 0, rwxRxRx⟩ :=
  (documentedCall_iff _ (fun _ => true) (fun _ => true) _ rfl).2 (.inr (.inl (by decide)))

/-- The program is found in the search path. -/
theorem not_documentedCall_name : ∃ a' call,
    (ztmpfsMain (mountArgv "zdisk".toList)).run (fun _ => true) = some (.call call, a') ∧
      ¬ DocumentedCall (mountArgv "zdisk".toList) call := by
  refine ⟨_, ⟨none, "/m".toList, 0#64, some "ro,mode=700".toList, none, 0, srwxRwxRwx⟩, rfl,
    fun h => ?_⟩
  have hmode := h.defaultMode
  revert hmode
  decide

end

end Fischstaebchen
