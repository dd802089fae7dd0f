/-
  The argument splitter (`common/strutil/argsplit.c`).

  `argsplit_argv_do` splits every argument into a key and values and hands
  them to a callback one after the other; the callback steers the traversal
  with its return value and the flow control cell.

  * `argsplitArgvDo` is the code: two nested loops over one flow control cell.
  * `argScript` lists the calls for one argument that is not cut short;
    `argsplitArgvDo_eq` shows that the code runs these scripts
    (`Lib.runScripts`).
  * `argsplitArgvDo_trace`: hence the calls that the code makes follow the
    callback protocol.
  * `argsplitDynarrayDo_preserves`, `argsplitDynarrayDo_append`,
    `argsplitDynarrayDo_register`: invariants of the callback data, the data after
    a prefix of the arguments, and the parts of it that the last argument decides.
-/
import Fischstaebchen.Lib.Script
import Fischstaebchen.Strutil.Split

namespace Fischstaebchen

variable {σ : Type*}

/-- The flow control cell (`ARGSPLIT_*`). -/
inductive Flow where
  | keepGoing
  | nextArg
  | stopParse
  deriving DecidableEq

/-- `struct argsplit_data`; a NULL `value` or `argv` is `none`. -/
structure ArgsplitData where
  str : CStr
  key : CStr
  value : Option CStr
  nargs : ℕ
  argv : Option (List CStr)
  argno : ℕ
  endOfArg : ℤ

/-- `argsplit_callback`: reads the data and the flow control cell and returns
    the return value, the cell and the callback data after the call. -/
abbrev ArgsplitCallback (σ : Type*) := ArgsplitData → Flow → σ → ℤ × Flow × σ

/-- The `for` loop of `_argsplit_process_arg` over the fields from `iter` on. -/
def argLoop (cb : ArgsplitCallback σ) (asplit : ArgsplitData) (argArr : List CStr) :
    List CStr → ℕ → ℤ × Flow × σ → ℤ × Flow × σ
  | [], _, st => st
  | value :: rest, iter, (ret, flow, s) =>
    if ret = 0 ∧ flow = .keepGoing then
      argLoop cb asplit argArr rest (iter + 1) (cb
        { asplit with
          value := some value
          nargs := argArr.length - iter
          argv := some (argArr.drop iter)
          argno := iter } flow s)
    else (ret, flow, s)

/-- The data of the last call of `_argsplit_process_arg`. -/
def ArgsplitData.atEnd (asplit : ArgsplitData) : ArgsplitData :=
  { asplit with value := none, nargs := 0, argv := none, argno := 0, endOfArg := 1 }

/-- The last call of `_argsplit_process_arg`, unless the argument was cut short. -/
def endCall (cb : ArgsplitCallback σ) (asplit : ArgsplitData) : ℤ × Flow × σ → ℤ × Flow × σ
  | (ret, flow, s) =>
    if ret = 0 ∧ flow = .keepGoing then cb asplit.atEnd flow s else (ret, flow, s)

/-- `_argsplit_process_arg`: the callback calls for one argument. -/
def argsplitProcessArg (cb : ArgsplitCallback σ) (argStr : CStr) (argArr : List CStr) (s : σ) :
    ℤ × Flow × σ :=
  let asplit : ArgsplitData :=
    { str := argStr, key := argArr.headD [], value := none, nargs := argArr.length,
      argv := some argArr, argno := 0, endOfArg := -1 }
  let st := cb asplit .keepGoing s
  let asplit := { asplit with endOfArg := 0 }
  let st := endCall cb asplit (argLoop cb asplit argArr (argArr.drop 1) 1 st)
  (st.1, if st.2.1 = .nextArg then .keepGoing else st.2.1, st.2.2)

/-- The loop of `argsplit_argv_do` over the arguments. -/
def argvLoop (cb : ArgsplitCallback σ) (keyValueDelim valueDelims : Option CStr) :
    List (Option CStr) → ℤ × Flow × σ → ℤ × Flow × σ
  | [], st => st
  | arg :: argv, (ret, flow, s) =>
    if flow = .keepGoing ∧ ret = 0 then
      match arg with
      | none => argvLoop cb keyValueDelim valueDelims argv (ret, flow, s)
      | some str =>
        let r := strSplit [] (some str) keyValueDelim valueDelims (-1)
        if r.ret < 0 then argvLoop cb keyValueDelim valueDelims argv (-1, flow, s)
        else if r.ret > 0 then
          argvLoop cb keyValueDelim valueDelims argv (argsplitProcessArg cb str r.darr s)
        else argvLoop cb keyValueDelim valueDelims argv (ret, flow, s)
    else (ret, flow, s)

/-- `argsplit_argv_do`: the return value and the callback data at the end. -/
def argsplitArgvDo (cb : ArgsplitCallback σ) (argv : List (Option CStr))
    (keyValueDelim valueDelims : Option CStr) (s : σ) : ℤ × σ :=
  let r := argvLoop cb keyValueDelim valueDelims argv (0, .keepGoing, s)
  (r.1, r.2.2)

/-- `argsplit_dynarray_do`: the items of a dynarray are not NULL. -/
def argsplitDynarrayDo (cb : ArgsplitCallback σ) (darr : List CStr)
    (keyValueDelim valueDelims : Option CStr) (s : σ) : ℤ × σ :=
  argsplitArgvDo cb (darr.map some) keyValueDelim valueDelims s

/-! ## The calls of an argument as a script -/

/-- What a return value and the flow control cell tell the traversal. -/
def answer (ret : ℤ) (flow : Flow) : Lib.Answer ℤ :=
  if ret ≠ 0 then .stop ret
  else match flow with
    | .keepGoing => .keep
    | .nextArg => .skip
    | .stopParse => .stop 0

/-- A callback as an answering machine; the cell is reset before each call. -/
def answering (cb : ArgsplitCallback σ) (d : ArgsplitData) (s : σ) : Lib.Answer ℤ × σ :=
  let r := cb d .keepGoing s
  (answer r.1 r.2.1, r.2.2)

/-- The call for the field number `i` of an argument, where `rest` are the
    fields from this one on. -/
def fieldCall (str key : CStr) (i : ℕ) (rest : List CStr) : ArgsplitData :=
  { str, key, value := rest.head?, nargs := rest.length, argv := some rest, argno := i,
    endOfArg := 0 }

/-- The calls for the fields number `i`, `i + 1`, .. -/
def fieldCalls (str key : CStr) : ℕ → List CStr → List ArgsplitData
  | _, [] => []
  | i, v :: rest => fieldCall str key i (v :: rest) :: fieldCalls str key (i + 1) rest

/-- **All calls for an argument** with the given fields: one `begin` call, one
    call for each field after the key, one `end` call.  There are none for an
    argument without fields. -/
def argScript (str : CStr) : List CStr → List ArgsplitData
  | [] => []
  | key :: values =>
    { str, key, value := none, nargs := values.length + 1, argv := some (key :: values),
      argno := 0, endOfArg := -1 } ::
    (fieldCalls str key 1 values ++
      [{ str, key, value := none, nargs := 0, argv := none, argno := 0, endOfArg := 1 }])

/-- The fields into which `str_split` splits an argument. -/
def argFields (keyValueDelim valueDelims : Option CStr) (str : CStr) : List CStr :=
  (strSplit [] (some str) keyValueDelim valueDelims (-1)).darr

/-- The scripts of the non-NULL arguments, in order. -/
def argScripts (keyValueDelim valueDelims : Option CStr) (argv : List (Option CStr)) :
    List (List ArgsplitData) :=
  (argv.filterMap id).map fun str => argScript str (argFields keyValueDelim valueDelims str)

/-- A pair of delimiters that `str_split` accepts: a one-char initial
    delimiter, or none and some subsequent ones. -/
def ValidDelims (keyValueDelim valueDelims : Option CStr) : Prop :=
  (∃ d, keyValueDelim = some [d]) ∨ (keyValueDelim = none ∧ ∃ ds, valueDelims = some ds)

theorem ValidDelims.checks {kv vd : Option CStr} (h : ValidDelims kv vd) (str : CStr) :
    strSplitSanityChecks (some str) kv vd (-1) = 0 := by
  rcases h with ⟨d, rfl⟩ | ⟨rfl, ds, rfl⟩ <;> simp [strSplitSanityChecks]

theorem argFields_eq {kv vd : Option CStr} (h : ValidDelims kv vd) (str : CStr) :
    argFields kv vd str = splitFields kv vd str := by
  simp [argFields, strSplit_fields [] str (h.checks str)]

/-! ## The code runs the scripts -/

/-- The return value, flow control cell and callback data `st` are those after
    the (possibly stopped) run `r`. -/
def Stands (st : ℤ × Flow × σ) (r : Option ℤ × σ) : Prop :=
  st.2.2 = r.2 ∧
    match r.1 with
    | none => st.1 = 0 ∧ st.2.1 ≠ .stopParse
    | some x => st.1 = x ∧ (x = 0 → st.2.1 = .stopParse)

theorem stands_resume_nil (f : ArgsplitData → σ → Lib.Answer ℤ × σ) (ret : ℤ) (flow : Flow)
    (s : σ) :
    Stands (ret, flow, s) (Lib.resume f (answer ret flow, s) []) := by
  by_cases h : ret = 0
  · cases flow <;> simp [answer, h, Stands, Lib.resume, Lib.runScript]
  · simp [answer, h, Stands, Lib.resume]

/-- After a call that ends the argument, neither loop makes another one. -/
theorem stands_of_cut {ret : ℤ} {flow : Flow} (h : ¬ (ret = 0 ∧ flow = .keepGoing))
    (f : ArgsplitData → σ → Lib.Answer ℤ × σ) (s : σ) (es : List ArgsplitData) :
    Stands (ret, flow, s) (Lib.resume f (answer ret flow, s) es) := by
  by_cases hr : ret = 0
  · cases flow with
    | keepGoing => exact absurd ⟨hr, rfl⟩ h
    | nextArg | stopParse => simp [answer, hr, Stands, Lib.resume]
  · simp [answer, hr, Stands, Lib.resume]

section
variable (cb : ArgsplitCallback σ)

theorem endCall_stands (asplit : ArgsplitData) (ret : ℤ) (flow : Flow) (s : σ) :
    Stands (endCall cb asplit (ret, flow, s))
      (Lib.resume (answering cb) (answer ret flow, s) [asplit.atEnd]) := by
  by_cases h : ret = 0 ∧ flow = .keepGoing
  · obtain ⟨rfl, rfl⟩ := h
    simp only [endCall, and_self, if_true]
    rw [show answer 0 .keepGoing = .keep from rfl, Lib.resume, Lib.runScript_cons]
    exact stands_resume_nil _ _ _ _
  · simp only [endCall, if_neg h]
    exact stands_of_cut h _ _ _

/-- The value calls and the end call, after a call that returned `ret` and
    left `flow` in the cell. -/
theorem argLoop_stands {asplit : ArgsplitData} (he : asplit.endOfArg = 0) {argArr : List CStr} :
    ∀ (rest : List CStr) (iter : ℕ) (ret : ℤ) (flow : Flow) (s : σ), rest = argArr.drop iter →
      Stands (endCall cb asplit (argLoop cb asplit argArr rest iter (ret, flow, s)))
        (Lib.resume (answering cb) (answer ret flow, s)
          (fieldCalls asplit.str asplit.key iter rest ++ [asplit.atEnd]))
  | [], _, ret, flow, s, _ => endCall_stands cb asplit ret flow s
  | v :: rest, iter, ret, flow, s, hrest => by
    by_cases h : ret = 0 ∧ flow = .keepGoing
    · obtain ⟨rfl, rfl⟩ := h
      have hlen : argArr.length - iter = (v :: rest).length := by rw [hrest, List.length_drop]
      have htail : rest = argArr.drop (iter + 1) := by rw [← List.drop_drop, ← hrest]; rfl
      have hcall : ({ asplit with
          value := some v, nargs := argArr.length - iter, argv := some (argArr.drop iter),
          argno := iter } : ArgsplitData) = fieldCall asplit.str asplit.key iter (v :: rest) := by
        rw [← hrest, hlen]; simp [fieldCall, he]
      simp only [argLoop, and_self, if_true, fieldCalls, List.cons_append]
      rw [show answer 0 .keepGoing = .keep from rfl, Lib.resume, Lib.runScript_cons, hcall]
      exact argLoop_stands he rest (iter + 1) _ _ _ htail
    · simp only [argLoop, if_neg h, endCall]
      exact stands_of_cut h _ _ _

/-- Setting the flow control cell back after `ARGSPLIT_NEXT_ARG`. -/
theorem Stands.reset {st : ℤ × Flow × σ} {r : Option ℤ × σ} (h : Stands st r) :
    Stands (st.1, if st.2.1 = .nextArg then .keepGoing else st.2.1, st.2.2) r := by
  obtain ⟨hs, h⟩ := h
  refine ⟨hs, ?_⟩
  cases hr : r.1 with
  | none => rw [hr] at h; exact ⟨h.1, by split_ifs <;> simp_all⟩
  | some x => rw [hr] at h; exact ⟨h.1, fun hx => by simp [h.2 hx]⟩

/-- **The calls for one argument** are those of its script. -/
theorem argsplitProcessArg_stands (str key : CStr) (values : List CStr) (s : σ) :
    Stands (argsplitProcessArg cb str (key :: values) s)
      (Lib.runScript (answering cb) (argScript str (key :: values)) s) := by
  rw [argScript, Lib.runScript_cons]
  exact (argLoop_stands cb rfl values 1 _ _ _ rfl).reset

/-- The flow control cell is reset between arguments, unless parsing stops. -/
theorem argsplitProcessArg_flow (str : CStr) (argArr : List CStr) (s : σ) :
    (argsplitProcessArg cb str argArr s).2.1 ≠ .nextArg := by
  simp only [argsplitProcessArg]
  split_ifs with h
  · simp
  · exact h

theorem argvLoop_cut {kv vd : Option CStr} {ret : ℤ} {flow : Flow}
    (h : ¬ (flow = .keepGoing ∧ ret = 0)) (argv : List (Option CStr)) (s : σ) :
    argvLoop cb kv vd argv (ret, flow, s) = (ret, flow, s) := by
  cases argv with
  | nil => rfl
  | cons a argv => cases a <;> simp only [argvLoop, if_neg h]

/-- The loop over the arguments runs their scripts. -/
theorem argvLoop_stands {kv vd : Option CStr} (hv : ValidDelims kv vd) :
    ∀ (argv : List (Option CStr)) (s : σ),
      Stands (argvLoop cb kv vd argv (0, .keepGoing, s))
        (Lib.runScripts (answering cb) (argScripts kv vd argv) s)
  | [], s => ⟨rfl, rfl, by simp [argvLoop]⟩
  | none :: argv, s => by
    simp only [argvLoop, and_self, if_true]
    exact argvLoop_stands hv argv s
  | some str :: argv, s => by
    have hs : argScripts kv vd (some str :: argv) =
        argScript str (splitFields kv vd str) :: argScripts kv vd argv := by
      rw [← argFields_eq hv]; rfl
    simp only [argvLoop, and_self, if_true, strSplit_fields [] str (hv.checks str), hs,
      List.nil_append]
    cases hf : splitFields kv vd str with
    | nil => exact argvLoop_stands hv argv s
    | cons key values =>
      have hst := argsplitProcessArg_stands cb str key values s
      have hfl := argsplitProcessArg_flow cb str (key :: values) s
      have hpos : (0 : ℤ) < (key :: values).length := by rw [List.length_cons]; omega
      rw [if_neg hpos.le.not_gt, if_pos hpos]
      rcases hp : argsplitProcessArg cb str (key :: values) s with ⟨ret, flow, s'⟩
      rcases hr : Lib.runScript (answering cb) (argScript str (key :: values)) s with ⟨o, s''⟩
      rw [hp, hr] at hst
      rw [hp] at hfl
      obtain ⟨rfl, hst⟩ := hst
      cases o with
      | none =>
        obtain ⟨rfl, hstop⟩ := hst
        have hk : flow = .keepGoing := by
          cases flow with
          | keepGoing => rfl
          | nextArg => exact absurd rfl hfl
          | stopParse => exact absurd rfl hstop
        simp only [Lib.runScripts, hr, hk]
        exact argvLoop_stands hv argv s'
      | some x =>
        obtain ⟨rfl, hx⟩ := hst
        have hcut : ¬ (flow = .keepGoing ∧ ret = 0) := by
          rintro ⟨rfl, h0⟩; exact absurd (hx h0) (by simp)
        rw [argvLoop_cut cb hcut]
        simp only [Lib.runScripts, hr]
        exact ⟨rfl, rfl, hx⟩

/-- **The argument splitter runs the scripts of the arguments**: it ends in the
    same callback data, and returns the value with which it was stopped, or 0. -/
theorem argsplitArgvDo_eq {kv vd : Option CStr} (hv : ValidDelims kv vd)
    (argv : List (Option CStr)) (s : σ) :
    argsplitArgvDo cb argv kv vd s =
      ((Lib.runScripts (answering cb) (argScripts kv vd argv) s).1.getD 0,
        (Lib.runScripts (answering cb) (argScripts kv vd argv) s).2) := by
  obtain ⟨hs, h⟩ := argvLoop_stands cb hv argv s
  refine Prod.ext ?_ hs
  simp only [argsplitArgvDo]
  cases hr : (Lib.runScripts (answering cb) (argScripts kv vd argv) s).1 with
  | none => rw [hr] at h; exact h.1
  | some x => rw [hr] at h; exact h.1

end

/-! ## The callback protocol -/

/-- A callback invocation: the data, the return value and the flow control cell
    after it. -/
structure ArgsplitCall where
  data : ArgsplitData
  ret : ℤ
  flow : Flow

/-- The callback `cb`, recording its invocations. -/
def recording (cb : ArgsplitCallback σ) : ArgsplitCallback (σ × List ArgsplitCall) :=
  fun d flow s =>
    let r := cb d flow s.1
    (r.1, r.2.1, r.2.2, s.2 ++ [⟨d, r.1, r.2.1⟩])

/-- The invocation as an event with its answer. -/
def ArgsplitCall.event (c : ArgsplitCall) : ArgsplitData × Lib.Answer ℤ :=
  (c.data, answer c.ret c.flow)

/-- **The callback protocol of `argsplit_argv_do`**: the invocations are those
    of the scripts of the arguments, in order, cut short by the answers of the
    callback as `Lib.ScriptsTrace` says; the result is the non-zero return
    value with which the callback stopped the traversal, else 0. -/
theorem argsplitArgvDo_trace (cb : ArgsplitCallback σ) {kv vd : Option CStr}
    (hv : ValidDelims kv vd) (argv : List (Option CStr)) (s : σ) :
    ∃ (calls : List ArgsplitCall) (result : Option ℤ),
      argsplitArgvDo (recording cb) argv kv vd (s, []) =
        (result.getD 0, (argsplitArgvDo cb argv kv vd s).2, calls) ∧
      (argsplitArgvDo cb argv kv vd s).1 = result.getD 0 ∧
      Lib.ScriptsTrace (argScripts kv vd argv) (calls.map ArgsplitCall.event) result := by
  -- recording changes neither the answers nor the callback data
  have hmap := Lib.runScripts_map (g := answering cb) (f := answering (recording cb)) Prod.fst
    (fun _ _ => rfl) (argScripts kv vd argv) (s, [])
  have hlog : ∀ e (s : σ × List ArgsplitCall),
      (answering (recording cb) e s).2.2.map ArgsplitCall.event =
        s.2.map ArgsplitCall.event ++ [(e, (answering (recording cb) e s).1)] := fun _ _ => by
    simp [answering, recording, ArgsplitCall.event]
  obtain ⟨t, ht, htr⟩ := Lib.runScripts_log (fun s : σ × _ => s.2.map ArgsplitCall.event)
    hlog (argScripts kv vd argv) (s, [])
  simp only [List.map_nil, List.nil_append] at ht
  rw [argsplitArgvDo_eq _ hv, argsplitArgvDo_eq _ hv, hmap]
  exact ⟨_, _, rfl, rfl, ht ▸ htr⟩

/-- A callback that counts its calls and cuts every argument short at its first
    value. -/
def countFirstValues : ArgsplitCallback ℕ := fun d _ n =>
  (0, if d.endOfArg = 0 then .nextArg else .keepGoing, n + 1)

/-- The protocol on a command line with a NULL entry. -/
theorem argsplitArgvDo_trace_quiet_root :
    ∃ (calls : List ArgsplitCall) (result : Option ℤ),
      argsplitArgvDo (recording countFirstValues)
          [some "quiet".toList, none, some "root=/dev/sda,ro".toList] (some "=".toList)
          (some ",".toList) (0, []) =
        (result.getD 0,
          (argsplitArgvDo countFirstValues
            [some "quiet".toList, none, some "root=/dev/sda,ro".toList] (some "=".toList)
            (some ",".toList) 0).2, calls) ∧
      (argsplitArgvDo countFirstValues
        [some "quiet".toList, none, some "root=/dev/sda,ro".toList] (some "=".toList)
        (some ",".toList) 0).1 = result.getD 0 ∧
      Lib.ScriptsTrace (argScripts (some "=".toList) (some ",".toList)
        [some "quiet".toList, none, some "root=/dev/sda,ro".toList])
        (calls.map ArgsplitCall.event) result :=
  argsplitArgvDo_trace _ (Or.inl ⟨'=', rfl⟩) _ _

/-! ## Callbacks that do not stop the traversal -/

theorem mem_fieldCalls {str key : CStr} : ∀ {values : List CStr} {i : ℕ} {d : ArgsplitData},
    d ∈ fieldCalls str key i values → d.key = key ∧ d.endOfArg = 0
  | [], _, _, h => absurd h List.not_mem_nil
  | _ :: _, _, d, h => by
    rcases List.mem_cons.1 h with rfl | h
    · exact ⟨rfl, rfl⟩
    · exact mem_fieldCalls h

/-- All calls for an argument pass its key. -/
theorem argScript_key {str : CStr} {fields : List CStr} {d : ArgsplitData}
    (h : d ∈ argScript str fields) : fields.head? = some d.key := by
  cases fields with
  | nil => exact absurd h List.not_mem_nil
  | cons key values =>
    simp only [argScript, List.mem_cons, List.mem_append, List.not_mem_nil, or_false] at h
    rcases h with rfl | h | rfl
    · rfl
    · rw [(mem_fieldCalls h).1]; rfl
    · rfl

/-- Only the first call for an argument is a `begin` call. -/
theorem argScript_tail {str : CStr} {fields : List CStr} {d : ArgsplitData}
    (h : d ∈ (argScript str fields).tail) : 0 ≤ d.endOfArg := by
  cases fields with
  | nil => exact absurd h List.not_mem_nil
  | cons key values =>
    simp only [argScript, List.tail_cons, List.mem_append, List.mem_singleton] at h
    rcases h with h | rfl
    · exact (mem_fieldCalls h).2.ge
    · exact zero_le_one

theorem argScripts_some (kv vd : Option CStr) (darr : List CStr) :
    argScripts kv vd (darr.map some) = darr.map fun str => argScript str (argFields kv vd str) := by
  simp [argScripts, List.filterMap_map]

theorem argScripts_append (kv vd : Option CStr) (argv argv' : List (Option CStr)) :
    argScripts kv vd (argv ++ argv') = argScripts kv vd argv ++ argScripts kv vd argv' := by
  simp [argScripts]

/-- **A property that every call preserves** is preserved by the traversal. -/
theorem argsplitDynarrayDo_preserves {cb : ArgsplitCallback σ} {I : σ → Prop}
    (h : ∀ arg s, I s → I (cb arg .keepGoing s).2.2) {kv vd : Option CStr}
    (hv : ValidDelims kv vd) (darr : List CStr) {s : σ} (hs : I s) :
    I (argsplitDynarrayDo cb darr kv vd s).2 := by
  rw [argsplitDynarrayDo, argsplitArgvDo_eq cb hv]
  exact Lib.runScripts_preserves (f := answering cb) _ (fun _ _ arg _ s hs => h arg s hs) s hs

/-- A callback that stops the traversal with errors only stops no traversal that
    returns 0. -/
theorem argsplitDynarrayDo_unstopped {cb : ArgsplitCallback σ}
    (hflow : ∀ arg s, (cb arg .keepGoing s).2.1 ≠ .stopParse) {kv vd : Option CStr}
    (hv : ValidDelims kv vd) {darr : List CStr} {s : σ}
    (h0 : (argsplitDynarrayDo cb darr kv vd s).1 = 0) :
    (Lib.runScripts (answering cb) (argScripts kv vd (darr.map some)) s).1 = none := by
  have hstop : ∀ arg s r, (answering cb arg s).1 = .stop r → r ≠ 0 := by
    intro arg s r hr
    have hf := hflow arg s
    simp only [answering, answer] at hr
    split_ifs at hr with hret
    · cases hr; exact hret
    · split at hr <;> simp_all
  rw [argsplitDynarrayDo, argsplitArgvDo_eq cb hv] at h0
  cases hr : (Lib.runScripts (answering cb) (argScripts kv vd (darr.map some)) s).1 with
  | none => rfl
  | some r => exact absurd (by simpa [hr] using h0) (Lib.runScripts_stopped hstop hr)

/-- **Reading some arguments first**: a traversal that returns 0 is one of a
    prefix that returns 0, continued with the other arguments. -/
theorem argsplitDynarrayDo_append {cb : ArgsplitCallback σ}
    (hflow : ∀ arg s, (cb arg .keepGoing s).2.1 ≠ .stopParse) {kv vd : Option CStr}
    (hv : ValidDelims kv vd) {pre post : List CStr} {s : σ}
    (h0 : (argsplitDynarrayDo cb (pre ++ post) kv vd s).1 = 0) :
    (argsplitDynarrayDo cb pre kv vd s).1 = 0 ∧
      argsplitDynarrayDo cb (pre ++ post) kv vd s =
        argsplitDynarrayDo cb post kv vd (argsplitDynarrayDo cb pre kv vd s).2 := by
  have hrun := argsplitDynarrayDo_unstopped hflow hv h0
  simp only [argsplitDynarrayDo, argsplitArgvDo_eq cb hv]
  rw [List.map_append, argScripts_append, Lib.runScripts_append] at hrun ⊢
  rcases hpre : Lib.runScripts (answering cb) (argScripts kv vd (pre.map some)) s with ⟨_ | r, s'⟩
  · exact ⟨rfl, rfl⟩
  · rw [hpre] at hrun
    cases hrun

/-- Each argument of a traversal that returns 0 is read without an error. -/
theorem argsplitDynarrayDo_mem {cb : ArgsplitCallback σ}
    (hflow : ∀ arg s, (cb arg .keepGoing s).2.1 ≠ .stopParse) {kv vd : Option CStr}
    (hv : ValidDelims kv vd) {darr : List CStr} {s : σ}
    (h0 : (argsplitDynarrayDo cb darr kv vd s).1 = 0) {str : CStr} (hstr : str ∈ darr) :
    ∃ s', (argsplitDynarrayDo cb [str] kv vd s').1 = 0 := by
  obtain ⟨pre, post, rfl⟩ := List.append_of_mem hstr
  obtain ⟨-, hrest⟩ := argsplitDynarrayDo_append hflow hv h0
  rw [hrest, ← List.singleton_append] at h0
  exact ⟨_, (argsplitDynarrayDo_append hflow hv h0).1⟩

/-- **A part of the callback data that the `begin` calls decide** holds the last
    decision at the end, if the callback stops the traversal with errors only
    and there was none. -/
theorem argsplitDynarrayDo_register {δ : Type*} {cb : ArgsplitCallback σ} {π : σ → δ}
    {d : ArgsplitData → Option δ}
    (hflow : ∀ arg s, (cb arg .keepGoing s).2.1 ≠ .stopParse)
    (hd : ∀ arg s, π (cb arg .keepGoing s).2.2 = (d arg).getD (π s))
    {kv vd : Option CStr} (hv : ValidDelims kv vd)
    (htail : ∀ str, ∀ arg ∈ (argScript str (argFields kv vd str)).tail,
      d arg = none ∨ d arg = (argScript str (argFields kv vd str)).head?.bind d)
    {darr : List CStr} {s : σ} (h0 : (argsplitDynarrayDo cb darr kv vd s).1 = 0) :
    π (argsplitDynarrayDo cb darr kv vd s).2 =
      (Lib.lastDecision (fun str => (argScript str (argFields kv vd str)).head?.bind d) darr).getD
        (π s) := by
  have hnone := argsplitDynarrayDo_unstopped hflow hv h0
  rw [argsplitDynarrayDo, argsplitArgvDo_eq cb hv]
  rw [argScripts_some] at hnone ⊢
  rw [Lib.runScripts_register (f := answering cb) (d := d) (fun arg s => hd arg s) ?_ hnone,
    Lib.lastDecision_map]
  · rfl
  · intro es hes arg harg
    obtain ⟨str, -, rfl⟩ := List.mem_map.1 hes
    exact htail str arg harg

/-- Updates by the values of an argument. -/
theorem foldl_fieldCalls {χ : Type*} {u : ArgsplitData → χ → χ} {v : χ → CStr → χ}
    {str key : CStr} (h : ∀ i value rest x, u (fieldCall str key i (value :: rest)) x = v x value) :
    ∀ (values : List CStr) (i : ℕ) (x : χ),
      (fieldCalls str key i values).foldl (fun x arg => u arg x) x = values.foldl v x
  | [], _, _ => rfl
  | value :: values, i, x => by
    rw [fieldCalls, List.foldl_cons, List.foldl_cons, h]
    exact foldl_fieldCalls h values (i + 1) (v x value)

/-- **A part of the callback data that every call updates**, after a traversal
    that returns 0. -/
theorem argsplitDynarrayDo_updates {χ : Type*} {cb : ArgsplitCallback σ} {π : σ → χ}
    {u : ArgsplitData → χ → χ} (hflow : ∀ arg s, (cb arg .keepGoing s).2.1 ≠ .stopParse)
    (hu : ∀ arg s, π (cb arg .keepGoing s).2.2 = u arg (π s))
    {kv vd : Option CStr} (hv : ValidDelims kv vd)
    (hskip : ∀ str, (∀ arg ∈ argScript str (argFields kv vd str), ∀ x, u arg x = x) ∨
      ∀ arg ∈ argScript str (argFields kv vd str), ∀ s, (cb arg .keepGoing s).2.1 ≠ .nextArg)
    {darr : List CStr} {s : σ} (h0 : (argsplitDynarrayDo cb darr kv vd s).1 = 0) :
    π (argsplitDynarrayDo cb darr kv vd s).2 =
      darr.foldl (fun x str => (argScript str (argFields kv vd str)).foldl (fun x arg => u arg x) x)
        (π s) := by
  have hnone := argsplitDynarrayDo_unstopped hflow hv h0
  rw [argsplitDynarrayDo, argsplitArgvDo_eq cb hv]
  rw [argScripts_some] at hnone ⊢
  refine (Lib.runScripts_updates (f := answering cb) (π := π) (u := u) hu ?_ hnone).trans
    List.foldl_map
  intro es hes
  obtain ⟨str, -, rfl⟩ := List.mem_map.1 hes
  refine (hskip str).imp_right fun hkeep arg harg s hans => ?_
  have hne := hkeep arg harg s
  simp only [answering, answer] at hans
  split_ifs at hans
  revert hans
  cases hflow' : (cb arg .keepGoing s).2.1 with
  | keepGoing => exact fun hans => nomatch hans
  | nextArg => exact absurd hflow' hne
  | stopParse => exact fun hans => nomatch hans

end Fischstaebchen
