/-
  The parser of the kernel command line (`base/hooks/parse-cmdline`).

  Each word of the command line is offered to the registered parsers.  No word is
  a pattern that matches file names, so an unquoted expansion is only split.

  * `forParsers_spec`: the parsers that a word is offered to.
  * `dispatchesInOrder_iff`: a word with an empty key is not skipped but stops the
    loop from going on.
-/
import Fischstaebchen.Lib.Fields
import Fischstaebchen.Strutil.Compare

namespace Fischstaebchen

open Lib.Shell (fields fieldsAt joined)

/-- The variables of `do_parse_cmdline` that a parser can read and change. -/
structure ParseVars where
  key : CStr
  value : CStr
  /-- `have_value` is `y`; `SHFALSE` is `n`. -/
  haveValue : Bool
  valueComponents : CStr
  doshift : ℤ

/-- `parse_<name> "$@"`: whether the word is accepted; `none` if the function does
    not return, because it exits. -/
abbrev CmdlineParser (σ : Type) := List CStr → ParseVars → σ → Option (Bool × ParseVars × σ)

/-- A word, with the words after it, is offered to the parser of an index. -/
structure Offer where
  args : List CStr
  parser : ℕ
  accepted : Bool
  deriving DecidableEq

/-- What `do_parse_cmdline` has done so far. -/
structure CmdlineState (σ : Type) where
  vars : ParseVars
  state : σ
  offers : List Offer

/-- How the script ends. -/
inductive ParseEnd (σ : Type)
  | done (st : CmdlineState σ)
  | exited

/-! ## The functions -/

/-- `split_str`. -/
def splitStr (ifs : Char) (s : CStr) : CStr := joined (fieldsAt ifs s)

/-- `check_is_keepval`. -/
def checkIsKeepval (s : CStr) : Bool :=
  s = [] || s = "none".toList || s = "keep".toList || s = "disable".toList || s = "_".toList

/-- `${1%%=*}`. -/
def keyOf (word : CStr) : CStr := word.takeWhile (· != '=')

/-- `${1#*=}`. -/
def valueOf (word : CStr) : CStr := if '=' ∈ word then (word.dropWhile (· != '=')).drop 1 else word

section
variable {σ : Type}

/-- The loop over the value components in `parse_remux_key`. -/
def remuxValues (parse : List CStr → σ → Option (Bool × σ)) (arg : CStr) :
    List CStr → σ → Option (Bool × σ)
  | [], s => some (true, s)
  | val :: vals, s =>
    match parse [arg ++ '=' :: val] s with
    | some (true, s) => remuxValues parse arg vals s
    | r => r

/-- `parse_remux_key`, for the parser function `__parse_<name>`. -/
def parseRemuxKey (name : CStr) (parse : List CStr → σ → Option (Bool × σ)) (vars : ParseVars)
    (s : σ) : Option (Bool × σ) :=
  if vars.key = name then parse (fields vars.valueComponents) s
  else
    match strStartswith vars.key (name ++ ['_']) with
    | some (c :: arg) =>
      if vars.haveValue then remuxValues parse (c :: arg) (fields vars.valueComponents) s
      else parse [c :: arg] s
    | _ => some (false, s)

/-- The `case` statement of `do_parse_cmdline`. -/
def setKeyValue (word : CStr) (vars : ParseVars) : ParseVars :=
  if '=' ∈ word then { vars with key := keyOf word, value := valueOf word, haveValue := true }
  else { vars with key := word, value := [], haveValue := false }

/-- The loop over the parsers, from the index `k` on. -/
def forParsers (args : List CStr) : ℕ → List (CmdlineParser σ) → CmdlineState σ →
    Option (CmdlineState σ)
  | _, [], st => some st
  | k, parse :: parsers, st =>
    match parse args { st.vars with doshift := 1 } st.state with
    | none => none
    | some (accepted, vars, state) =>
      let st := ⟨vars, state, st.offers ++ [⟨args, k, accepted⟩]⟩
      if accepted then some st else forParsers args (k + 1) parsers st

/-- `do_parse_cmdline`; `none` if the fuel does not suffice. -/
def doParseCmdline (parsers : List (CmdlineParser σ)) :
    ℕ → List CStr → CmdlineState σ → Option (ParseEnd σ)
  | 0, _, _ => none
  | _ + 1, [], st => some (.done st)
  | fuel + 1, word :: words, st =>
    let vars := setKeyValue word st.vars
    -- `continue`, without a shift
    if vars.key = [] then doParseCmdline parsers fuel (word :: words) { st with vars }
    else
      let vars := { vars with valueComponents := splitStr ',' vars.value }
      match forParsers (word :: words) 0 parsers { st with vars } with
      | none => some .exited
      | some st =>
        if st.vars.doshift < 0 then some (.done st)
        else if st.vars.doshift > 0 then
          if st.vars.doshift.toNat ≤ (word :: words).length then
            doParseCmdline parsers fuel ((word :: words).drop st.vars.doshift.toNat) st
          else some .exited
        else doParseCmdline parsers fuel (word :: words) st

/-- The script after the parsers have been registered. -/
def parseCmdline (parsers : List (CmdlineParser σ)) (fuel : ℕ) (words : List CStr)
    (st : CmdlineState σ) : Option (ParseEnd σ) :=
  if parsers.isEmpty then some (.done st) else doParseCmdline parsers fuel words st

end

/-- The variables of `parse_storage_layers`. -/
structure StorageLayers where
  useBcache : Bool
  useMdadm : Bool
  useLvm : Bool

/-- `parse_storage_layers` (`parse-cmdline.d/20-storage_layers.sh`), which accepts no
    word. -/
def parseStorageLayers : CmdlineParser StorageLayers := fun _ vars s =>
  let s :=
    if vars.key = "dobcache".toList then { s with useBcache := true }
    else if vars.key = "nobcache".toList then { s with useBcache := false }
    else if vars.key = "dolvm".toList then { s with useLvm := true }
    else if vars.key = "nolvm".toList then { s with useLvm := false }
    else if vars.key = "domdadm".toList then { s with useMdadm := true }
    else if vars.key = "nomdadm".toList then { s with useMdadm := false }
    else s
  some (false, vars, s)

/-! ## Dispatching -/

/-- The parser returns and leaves `doshift` at its default. -/
def LeavesDoshift {σ : Type} (parse : CmdlineParser σ) : Prop :=
  ∀ args vars s, vars.doshift = 1 →
    ∃ accepted vars' s', parse args vars s = some (accepted, vars', s') ∧ vars'.doshift = 1

/-- The words with a key, each with the words after it. -/
def keyedWords : List CStr → List (List CStr)
  | [] => []
  | word :: words =>
    if keyOf word = [] then keyedWords words else (word :: words) :: keyedWords words

/-- The offers of a word that `n` parsers from the index `k` on reject. -/
def rejections (args : List CStr) (k n : ℕ) : List Offer :=
  (List.range' k n).map fun i => ⟨args, i, false⟩

/-- A word is offered to the `n` parsers from the index `k` on until one of them
    accepts it. -/
def OfferedFrom (k n : ℕ) (args : List CStr) (offers : List Offer) : Prop :=
  offers = rejections args k n ∨
    ∃ m < n, offers = rejections args k m ++ [⟨args, k + m, true⟩]

/-- The words with a key are offered one after the other, each to the `n` parsers
    in the order of their registration. -/
def OfferedInOrder (n : ℕ) (words : List CStr) (offers : List Offer) : Prop :=
  ∃ blocks, offers = blocks.flatten ∧ List.Forall₂ (OfferedFrom 0 n) (keyedWords words) blocks

/-- The script comes to its end, and offers the words in order. -/
def DispatchesInOrder {σ : Type} (parsers : List (CmdlineParser σ)) (words : List CStr)
    (vars : ParseVars) (s : σ) : Prop :=
  ∃ fuel st, parseCmdline parsers fuel words ⟨vars, s, []⟩ = some (.done st) ∧
    OfferedInOrder parsers.length words st.offers

theorem leavesDoshift_parseStorageLayers : LeavesDoshift parseStorageLayers :=
  fun _ vars _ hdoshift => ⟨false, vars, _, rfl, hdoshift⟩

theorem key_setKeyValue (word : CStr) (vars : ParseVars) :
    (setKeyValue word vars).key = keyOf word := by
  rw [setKeyValue]
  split_ifs with h
  · rfl
  · refine (List.takeWhile_eq_self_iff.2 fun c hc => ?_).symm
    have hne : c ≠ '=' := fun he => h (he ▸ hc)
    simpa using hne

theorem offeredFrom_cons_rejected {k n : ℕ} {args : List CStr} {offers : List Offer}
    (h : OfferedFrom (k + 1) n args offers) :
    OfferedFrom k (n + 1) args (⟨args, k, false⟩ :: offers) := by
  have hcons : ∀ m, (⟨args, k, false⟩ : Offer) :: rejections args (k + 1) m =
      rejections args k (m + 1) := by
    intro m
    rw [rejections, rejections, List.range'_succ, List.map_cons]
  rcases h with rfl | ⟨m, hm, rfl⟩
  · exact .inl (hcons n)
  · refine .inr ⟨m + 1, by omega, ?_⟩
    rw [← hcons, List.cons_append]
    congr 4
    omega

section
variable {σ : Type} {parsers : List (CmdlineParser σ)}

/-- **The loop over the parsers** offers the word until a parser accepts it. -/
theorem forParsers_spec (args : List CStr) :
    ∀ (parsers : List (CmdlineParser σ)) (k : ℕ) (st : CmdlineState σ),
      (∀ parse ∈ parsers, LeavesDoshift parse) → (parsers = [] → st.vars.doshift = 1) →
      ∃ st' block, forParsers args k parsers st = some st' ∧ st'.vars.doshift = 1 ∧
        st'.offers = st.offers ++ block ∧ OfferedFrom k parsers.length args block
  | [], k, st, _, hdoshift =>
    ⟨st, [], rfl, hdoshift rfl, by simp, .inl rfl⟩
  | parse :: parsers, k, st, hparsers, _ => by
    obtain ⟨accepted, vars, s, hr, hdoshift⟩ :=
      hparsers parse (by simp) args { st.vars with doshift := 1 } st.state rfl
    rw [forParsers, hr]
    dsimp only
    cases accepted with
    | true => exact ⟨_, _, rfl, hdoshift, rfl, .inr ⟨0, by simp, rfl⟩⟩
    | false =>
      obtain ⟨st', block, hr', hdoshift', hoffers, hblock⟩ :=
        forParsers_spec args parsers (k + 1) ⟨vars, s, st.offers ++ [⟨args, k, false⟩]⟩
          (fun p hp => hparsers p (by simp [hp])) (fun _ => hdoshift)
      refine ⟨st', ⟨args, k, false⟩ :: block, hr', hdoshift', ?_, ?_⟩
      · rw [hoffers, List.append_assoc, List.singleton_append]
      · exact offeredFrom_cons_rejected hblock

/-- A word with a key is handled, and the loop goes on with the next one. -/
theorem doParseCmdline_keyed (hne : parsers ≠ []) (hparsers : ∀ parse ∈ parsers, LeavesDoshift parse)
    {word : CStr} (hkey : keyOf word ≠ []) (words : List CStr) (st : CmdlineState σ) :
    ∃ st' block, (∀ fuel, doParseCmdline parsers (fuel + 1) (word :: words) st =
        doParseCmdline parsers fuel words st') ∧
      st'.offers = st.offers ++ block ∧ OfferedFrom 0 parsers.length (word :: words) block := by
  have hkey' : (setKeyValue word st.vars).key ≠ [] := by rwa [key_setKeyValue]
  obtain ⟨st', block, hr, hdoshift, hoffers, hblock⟩ := forParsers_spec (word :: words) parsers 0
    { st with vars := { setKeyValue word st.vars with
      valueComponents := splitStr ',' (setKeyValue word st.vars).value } }
    hparsers (fun h => absurd h hne)
  refine ⟨st', block, fun fuel => ?_, hoffers, hblock⟩
  rw [doParseCmdline]
  dsimp only
  rw [if_neg hkey', hr]
  dsimp only
  rw [hdoshift, if_neg (by simp), if_pos (by simp), if_pos (by simp)]
  rfl

/-- **A word with an empty key** is never left behind. -/
theorem doParseCmdline_unkeyed (hne : parsers ≠ [])
    (hparsers : ∀ parse ∈ parsers, LeavesDoshift parse) :
    ∀ (fuel : ℕ) (words : List CStr) (st : CmdlineState σ), (∃ word ∈ words, keyOf word = []) →
      doParseCmdline parsers fuel words st = none
  | 0, _, _, _ => rfl
  | _ + 1, [], _, h => by simp at h
  | fuel + 1, word :: words, st, h => by
    by_cases hkey : keyOf word = []
    · have hkey' : (setKeyValue word st.vars).key = [] := by rwa [key_setKeyValue]
      rw [doParseCmdline]
      dsimp only
      rw [if_pos hkey']
      exact doParseCmdline_unkeyed hne hparsers fuel (word :: words) _ h
    · obtain ⟨st', -, hr, -, -⟩ := doParseCmdline_keyed hne hparsers hkey words st
      rw [hr]
      obtain ⟨word', hmem, hkey'⟩ := h
      rcases List.mem_cons.1 hmem with rfl | hmem
      · exact absurd hkey' hkey
      · exact doParseCmdline_unkeyed hne hparsers fuel words st' ⟨word', hmem, hkey'⟩

/-- **Words with keys** are all handled. -/
theorem doParseCmdline_allKeyed (hne : parsers ≠ [])
    (hparsers : ∀ parse ∈ parsers, LeavesDoshift parse) :
    ∀ (words : List CStr) (st : CmdlineState σ), (∀ word ∈ words, keyOf word ≠ []) →
      ∃ fuel st' offers, doParseCmdline parsers fuel words st = some (.done st') ∧
        st'.offers = st.offers ++ offers ∧ OfferedInOrder parsers.length words offers
  | [], st, _ => ⟨1, st, [], rfl, by simp, [], rfl, .nil⟩
  | word :: words, st, h => by
    have hkey : keyOf word ≠ [] := h word (by simp)
    obtain ⟨st₁, block, hstep, hoffers, hblock⟩ := doParseCmdline_keyed hne hparsers hkey words st
    obtain ⟨fuel, st', rest, hr, hoffers', blocks, hrest, hblocks⟩ :=
      doParseCmdline_allKeyed hne hparsers words st₁ fun w hw => h w (by simp [hw])
    refine ⟨fuel + 1, st', block ++ rest, (hstep fuel).trans hr, ?_, block :: blocks, ?_, ?_⟩
    · rw [hoffers', hoffers, List.append_assoc]
    · rw [hrest, List.flatten_cons]
    · rw [keyedWords, if_neg hkey]
      exact .cons hblock hblocks

theorem parseCmdline_of_ne (hne : parsers ≠ []) (fuel : ℕ) (words : List CStr)
    (st : CmdlineState σ) :
    parseCmdline parsers fuel words st = doParseCmdline parsers fuel words st := by
  rw [parseCmdline, if_neg]
  simpa using hne

end

/-- Without parsers there is nothing to offer. -/
theorem offeredInOrder_zero (words : List CStr) : OfferedInOrder 0 words [] := by
  refine ⟨(keyedWords words).map fun _ => [], by simp, ?_⟩
  induction keyedWords words with
  | nil => exact .nil
  | cons args words ih => exact .cons (.inl rfl) ih

/-- **The command line is handled in order** unless a word has an empty key. -/
theorem dispatchesInOrder_iff {σ : Type} {parsers : List (CmdlineParser σ)}
    (hparsers : ∀ parse ∈ parsers, LeavesDoshift parse) (words : List CStr) (vars : ParseVars)
    (s : σ) : DispatchesInOrder parsers words vars s ↔
      parsers = [] ∨ ∀ word ∈ words, keyOf word ≠ [] := by
  by_cases hne : parsers = []
  · subst hne
    refine iff_of_true ⟨0, _, rfl, offeredInOrder_zero words⟩ (.inl rfl)
  · rw [or_iff_right hne]
    constructor
    · rintro ⟨fuel, st, hr, -⟩ word hword hkey
      rw [parseCmdline_of_ne hne, doParseCmdline_unkeyed hne hparsers fuel words _
        ⟨word, hword, hkey⟩] at hr
      cases hr
    · intro h
      obtain ⟨fuel, st, offers, hr, hoffers, horder⟩ :=
        doParseCmdline_allKeyed hne hparsers words ⟨vars, s, []⟩ h
      refine ⟨fuel, st, (parseCmdline_of_ne hne _ _ _).trans hr, ?_⟩
      rw [hoffers]
      exact horder

theorem dispatchesInOrder_storageLayers : DispatchesInOrder [parseStorageLayers]
    ["quiet".toList, "nolvm".toList] ⟨[], [], false, [], 1⟩ ⟨true, true, true⟩ := by
  have hparsers : ∀ parse ∈ [parseStorageLayers], LeavesDoshift parse := by
    intro parse hparse
    rw [List.mem_singleton.1 hparse]
    exact leavesDoshift_parseStorageLayers
  exact (dispatchesInOrder_iff hparsers _ _ _).2 (.inr (by decide))

/-- A word that starts with `=` keeps the loop from going on to `nolvm`. -/
theorem dispatchesInOrder_emptyKey : LeavesDoshift parseStorageLayers ∧
    ¬ DispatchesInOrder [parseStorageLayers] ["=quiet".toList, "nolvm".toList]
      ⟨[], [], false, [], 1⟩ ⟨true, true, true⟩ := by
  refine ⟨leavesDoshift_parseStorageLayers, ?_⟩
  rintro ⟨fuel, st, hr, -⟩
  rw [parseCmdline_of_ne (by simp), doParseCmdline_unkeyed (by simp) ?_ fuel _ _
    ⟨_, List.mem_cons_self, rfl⟩] at hr
  · cases hr
  · intro parse hparse
    rw [List.mem_singleton.1 hparse]
    exact leavesDoshift_parseStorageLayers

end Fischstaebchen
