/-
  The env files (`shellfunc/base/08-print.sh`, `35-envfile.sh`, and `add_env`,
  `add_env_var` of `base/functions/base/15-initramfs_envfile.sh`).

  A hook adds variables to a file, and all later hooks source it.  The values are
  printed between double quotes as they are.

  * `runCalls_eq`: what is in the file after some calls.
  * `envfile_roundTrips`: sourcing it gives each variable its last value, if all
    values can stand between double quotes.
-/
import Fischstaebchen.Lib.Source
import Fischstaebchen.Strutil.Compare

namespace Fischstaebchen

open Lib.Shell (Event assignedValue isName readsLiterally sourceFile)

/-! ## Adding variables -/

/-- `print_vassign`. -/
def printVassign (key val : CStr) : CStr := key ++ '=' :: '"' :: val ++ ['"', '\n']

/-- `__envfile_add`: the file with another variable; `none` if the shell exits. -/
def envfileAdd (file key val : CStr) : Option CStr :=
  if key = [] then none else some (file ++ printVassign key val)

section
variable (debug : Bool) (envFile : CStr)

/-- The variables as `envfile_add_var` sees them: its local variables `env_file` and
    `val` hide the variables of these names. -/
def hiddenBy (val : Option CStr) (vars : CStr → Option CStr) (name : CStr) : Option CStr :=
  if name = "env_file".toList then some envFile
  else if name = "val".toList then val
  else vars name

/-- The loop of `envfile_add_var`; with `__debug__`, its body is a subshell. -/
def envfileAddVarLoop (vars : CStr → Option CStr) :
    List CStr → Option CStr → CStr → Option CStr
  | [], _, file => some file
  | name :: names, val, file =>
    if name = [] then envfileAddVarLoop vars names val file
    else
      -- `eval "val=\"\${${1}?}\""`
      match hiddenBy envFile val vars name with
      | none => none
      | some v =>
        match envfileAdd file name v with
        | none => none
        | some file => envfileAddVarLoop vars names (if debug then val else some v) file

/-- `envfile_add_var`; a local variable starts with the value that it hides. -/
def envfileAddVar (file : CStr) (vars : CStr → Option CStr) (names : List CStr) : Option CStr :=
  envfileAddVarLoop debug envFile vars names (vars "val".toList) file

/-- The calls that add variables, with the variables of the shell at that time. -/
inductive EnvCall
  | addEnv (key val : CStr)
  | addEnvVar (vars : CStr → Option CStr) (names : List CStr)

def EnvCall.run (file : CStr) : EnvCall → Option CStr
  | .addEnv key val => envfileAdd file key val
  | .addEnvVar vars names => envfileAddVar debug envFile file vars names

/-- The file after some calls. -/
def runCalls (calls : List EnvCall) : Option CStr := calls.foldlM (EnvCall.run debug envFile) []

end

/-! ## The round trip -/

/-- The values that a call is to add. -/
def EnvCall.added : EnvCall → List (CStr × CStr)
  | .addEnv key val => [(key, val)]
  | .addEnvVar vars names =>
    (names.filter fun name => !name.isEmpty).filterMap fun name => (vars name).map fun v => (name, v)

/-- The last value added for a variable. -/
def lastAdded (calls : List EnvCall) (name : CStr) : Option CStr :=
  ((calls.flatMap EnvCall.added).filterMap fun a =>
    if a.1 = name then some a.2 else none).getLast?

/-- **The round trip**: sourcing the file succeeds, executes nothing but assignments,
    and gives each variable the last value added for it. -/
def RoundTrips (debug : Bool) (envFile : CStr) (calls : List EnvCall) : Prop :=
  ∀ file, runCalls debug envFile calls = some file →
    ∃ events, sourceFile file = some events ∧
      (∀ event ∈ events, ∃ name v, event = .assign name v) ∧
      ∀ name, assignedValue events name = lastAdded calls name

/-- The names are names of variables; empty names are ignored. -/
def EnvCall.Named : EnvCall → Prop
  | .addEnv key _ => isName key = true
  | .addEnvVar _ names => ∀ name ∈ names, name = [] ∨ isName name = true

/-- No variable is hidden by the local variables of `envfile_add_var`; the first name
    may be `val`. -/
def Unhidden (debug : Bool) (names : List CStr) : Prop :=
  "env_file".toList ∉ names ∧
    (debug = false → "val".toList ∉ (names.filter fun name => !name.isEmpty).tail)

/-- The values can stand between double quotes. -/
def EnvCall.Literal (debug : Bool) : EnvCall → Prop
  | .addEnv _ val => readsLiterally val = true
  | .addEnvVar vars names => Unhidden debug names ∧
      ∀ name ∈ names, name ≠ [] → ∀ v ∈ vars name, readsLiterally v = true

/-! ## The file -/

/-- The lines for some variables. -/
def vassigns (assigns : List (CStr × CStr)) : CStr :=
  assigns.flatMap fun a => printVassign a.1 a.2

theorem vassigns_cons (a : CStr × CStr) (assigns : List (CStr × CStr)) :
    vassigns (a :: assigns) = printVassign a.1 a.2 ++ vassigns assigns := List.flatMap_cons

theorem envfileAdd_eq_some {file key val file' : CStr}
    (h : envfileAdd file key val = some file') : file' = file ++ printVassign key val := by
  rw [envfileAdd] at h
  split_ifs at h
  exact (Option.some.inj h).symm

section
variable {debug : Bool} {envFile : CStr} {vars : CStr → Option CStr}

/-- **The loop of `envfile_add_var`** adds the values of the variables, if the local
    variable `val` still has its first value when it is to be added. -/
theorem envfileAddVarLoop_eq {names : List CStr} {val : Option CStr} {file file' : CStr}
    (hnames : Unhidden debug names) (hval : "val".toList ∈ names → val = vars "val".toList)
    (h : envfileAddVarLoop debug envFile vars names val file = some file') :
    file' = file ++ vassigns (EnvCall.addEnvVar vars names).added := by
  induction names generalizing val file with
  | nil =>
    rw [← Option.some.inj h]
    simp [EnvCall.added, vassigns]
  | cons name names ih =>
    obtain ⟨hfile, htail⟩ := hnames
    rw [List.mem_cons, not_or] at hfile
    rw [envfileAddVarLoop] at h
    by_cases hname : name = []
    · rw [if_pos hname] at h
      have hskip : (EnvCall.addEnvVar vars (name :: names)).added =
          (EnvCall.addEnvVar vars names).added := by
        simp [EnvCall.added, hname]
      have htail' : Unhidden debug names := by
        refine ⟨hfile.2, fun hd => ?_⟩
        have := htail hd
        simpa [hname] using this
      rw [hskip]
      exact ih htail' (fun hmem => hval (List.mem_cons_of_mem _ hmem)) h
    · rw [if_neg hname] at h
      -- the variable is not hidden, or hidden by its own value
      have hvar : hiddenBy envFile val vars name = vars name := by
        rw [hiddenBy, if_neg (Ne.symm hfile.1)]
        split_ifs with hv
        · rw [hv]
          exact hval (by simp [hv])
        · rfl
      rw [hvar] at h
      cases hv : vars name with
      | none => rw [hv] at h; cases h
      | some v =>
        rw [hv] at h
        dsimp only at h
        cases hadd : envfileAdd file name v with
        | none => rw [hadd] at h; cases h
        | some mid =>
          rw [hadd] at h
          have htail' : debug = false → "val".toList ∉ names := by
            intro hd hmem
            refine htail hd ?_
            rw [List.filter_cons_of_pos (by simpa using hname), List.tail_cons]
            exact List.mem_filter.2 ⟨hmem, rfl⟩
          have hadded : (EnvCall.addEnvVar vars (name :: names)).added =
              (name, v) :: (EnvCall.addEnvVar vars names).added := by
            simp [EnvCall.added, hname, hv]
          have hrest := ih ⟨hfile.2, fun hd hmem => htail' hd
            (List.mem_of_mem_filter (List.mem_of_mem_tail hmem))⟩ (fun hmem => ?_) h
          · rw [hrest, envfileAdd_eq_some hadd, hadded, vassigns_cons, List.append_assoc]
          · cases debug with
            | true => exact hval (List.mem_cons_of_mem _ hmem)
            | false => exact absurd hmem (htail' rfl)

/-- What a call adds to the file. -/
theorem EnvCall.run_eq {file file' : CStr} {call : EnvCall} (hcall : call.Literal debug)
    (h : call.run debug envFile file = some file') : file' = file ++ vassigns call.added := by
  cases call with
  | addEnv key val =>
    rw [envfileAdd_eq_some h, EnvCall.added, vassigns_cons]
    simp [vassigns]
  | addEnvVar vars names =>
    exact envfileAddVarLoop_eq hcall.1 (fun _ => rfl) h

/-- **The file after some calls** has a line for each value that was added. -/
theorem runCalls_eq {calls : List EnvCall} (hcalls : ∀ call ∈ calls, call.Literal debug)
    {file : CStr} (h : runCalls debug envFile calls = some file) :
    file = vassigns (calls.flatMap EnvCall.added) := by
  have hrun : ∀ (start : CStr), calls.foldlM (EnvCall.run debug envFile) start = some file →
      file = start ++ vassigns (calls.flatMap EnvCall.added) := by
    clear h
    induction calls with
    | nil =>
      intro start h
      rw [← Option.some.inj h]
      simp [vassigns]
    | cons call calls ih =>
      intro start h
      rw [List.foldlM_cons] at h
      obtain ⟨mid, hmid, hrest⟩ := Option.bind_eq_some_iff.1 h
      rw [ih (fun c hc => hcalls c (by simp [hc])) mid hrest,
        EnvCall.run_eq (hcalls call (by simp)) hmid]
      simp [vassigns]
  exact hrun [] h

end

theorem mem_added {call : EnvCall} {debug : Bool} (hnamed : call.Named)
    (hliteral : call.Literal debug) {a : CStr × CStr} (ha : a ∈ call.added) :
    isName a.1 = true ∧ readsLiterally a.2 = true := by
  cases call with
  | addEnv key val =>
    rw [List.mem_singleton.1 ha]
    exact ⟨hnamed, hliteral⟩
  | addEnvVar vars names =>
    obtain ⟨name, hname, hv⟩ := List.mem_filterMap.1 ha
    obtain ⟨v, hv', rfl⟩ := Option.map_eq_some_iff.1 hv
    obtain ⟨hname, hne⟩ := List.mem_filter.1 hname
    have hne : name ≠ [] := by simpa using hne
    exact ⟨(hnamed name hname).resolve_left hne, hliteral.2 name hname hne v hv'⟩

/-- The values that the assignments give. -/
theorem assignedValue_assigns (assigns : List (CStr × CStr)) (name : CStr) :
    assignedValue (assigns.map fun a => .assign a.1 a.2) name =
      (assigns.filterMap fun a => if a.1 = name then some a.2 else none).getLast? := by
  rw [assignedValue, List.filterMap_map]
  rfl

/-- **The env file can be sourced**: in every run whose values can stand between double
    quotes, the file gives each variable its last value, and nothing else happens. -/
theorem envfile_roundTrips (debug : Bool) (envFile : CStr) (calls : List EnvCall)
    (hnamed : ∀ call ∈ calls, call.Named) (hliteral : ∀ call ∈ calls, call.Literal debug) :
    RoundTrips debug envFile calls := by
  intro file hfile
  have hassigns : ∀ a ∈ calls.flatMap EnvCall.added,
      isName a.1 = true ∧ readsLiterally a.2 = true := by
    intro a ha
    obtain ⟨call, hcall, ha⟩ := List.mem_flatMap.1 ha
    exact mem_added (hnamed call hcall) (hliteral call hcall) ha
  refine ⟨_, ?_, ?_, assignedValue_assigns (calls.flatMap EnvCall.added)⟩
  · rw [runCalls_eq hliteral hfile]
    exact Lib.Shell.sourceFile_assignments _ hassigns
  · intro event hevent
    obtain ⟨a, -, rfl⟩ := List.mem_map.1 hevent
    exact ⟨a.1, a.2, rfl⟩

/-- A quote, a backslash and a blank that stand for themselves. -/
theorem envfile_roundTrips_backslash : RoundTrips false "/env".toList
    [.addEnv "A".toList "it's a\\b".toList, .addEnvVar (fun _ => some []) ["B".toList, []]] := by
  refine envfile_roundTrips _ _ _ ?_ ?_
  · intro call hcall
    rcases List.mem_pair.1 hcall with rfl | rfl
    · exact rfl
    · show ∀ name ∈ ["B".toList, []], name = [] ∨ isName name = true
      decide
  · intro call hcall
    rcases List.mem_pair.1 hcall with rfl | rfl
    · exact rfl
    · refine ⟨⟨by simp, fun _ => by simp⟩, fun _ _ _ v hv => ?_⟩
      rw [← Option.some.inj hv]
      rfl

/-- **A double quote in a value** swallows the record after it. -/
theorem envfile_not_roundTrips_quote : ¬ RoundTrips false "/env".toList
    [.addEnv "A".toList "x\"".toList, .addEnv "B".toList "y\"".toList] := by
  intro h
  obtain ⟨events, hevents, -, hvalues⟩ := h _ rfl
  have hsource : sourceFile "A=\"x\"\"\nB=\"y\"\"\n".toList =
      some [.assign "A".toList "x\nB=y".toList] := by decide
  obtain rfl : [.assign "A".toList "x\nB=y".toList] = events := Option.some.inj (hsource.symm.trans hevents)
  have hB := hvalues "B".toList
  revert hB
  decide

end Fischstaebchen
