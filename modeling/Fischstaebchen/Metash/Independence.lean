/-
  Whether the outfiles of metash depend on each other (`scripts/metash`).

  Of what an expansion reads, the used symbols and the standard input are left by earlier
  arguments.  What an argument asks for does not depend on them (`EditArg.requests`).

  * `expandReading_grants`: an expansion depends on the used symbols only by what is
    defined.
  * `processInfiles_iff`: when an argument has the same record as alone.
  * `multiEdit_independent_iff`: **each argument has the same record as alone** exactly if
    no symbol that is defined only once is asked for by two arguments, and the standard
    input is read by one.
-/
import Fischstaebchen.Metash.MultiEdit

namespace Fischstaebchen

namespace Metash

/-! ## What an argument asks for -/

section
variable (C : Config) (w : World)

/-- The infiles are read without a state. -/
def readLoop : World → List CStr → Except ReaderError (World × List (List (Action Chunk)))
  | w, [] => .ok (w, [])
  | w, infile :: infiles =>
    match w.readFile infile with
    | .error e => .error e
    | .ok (w, text) =>
      match inputLines text with
      | .error e => .error e
      | .ok input =>
        match (staticReader C.macros C.limit).preprocessAndExpandLines () C.metavars input with
        | .error e => .error e
        | .ok (_, actions) =>
          match readLoop w infiles with
          | .error e => .error e
          | .ok (w, rest) => .ok (w, actions :: rest)

/-- The symbols that are asked for. -/
def Action.requests (a : Action Chunk) : List Symbol := a.results.flatMap Chunk.requests

def readingRequests (reading : List (List (Action Chunk))) : List Symbol :=
  reading.flatMap fun actions => actions.flatMap Action.requests

/-- The symbols an argument asks for. -/
def EditArg.requests (a : EditArg) : List Symbol :=
  match readLoop C (w.openOutfile a.outfile) a.infiles with
  | .error _ => []
  | .ok (_, reading) => readingRequests reading

/-- **Nothing is shared**: no symbol that is defined only once is asked for by both, and
    the standard input is not read by both, unless it has no lines. -/
def Unshared (a b : EditArg) : Prop :=
  (∀ s ∈ a.requests C w, s.once = true → s ∉ b.requests C w) ∧
    (dash ∈ a.infiles → dash ∈ b.infiles → inputLines w.stdin = .ok [])

/-- The outfiles are distinct, and none is an infile of a later argument. -/
def Separate (args : List EditArg) : Prop :=
  args.Pairwise fun a b => a.outfile ≠ b.outfile ∧ (a.outfile ≠ dash → a.outfile ∉ b.infiles)

/-- **Each argument has the same record and the same output as alone.** -/
def Independent (args : List CStr) (w' : World) (records : List Record) : Prop :=
  List.Forall₂
    (fun arg r => ∃ w₁, multiEdit C [arg] w = .ok (w₁, [r]) ∧
      ∀ a, parseEditArg arg = some a → w'.output a.outfile = w₁.output a.outfile)
    args records

end

/-! ## Expansions and used symbols -/

/-- The lines a builtin is expanded to. -/
def Yield.size : Yield → ℕ
  | .text _ _ _ => 0
  | .expansion _ lines => lines.length

/-- The lines that do not depend on the used symbols. -/
def Chunk.size : Chunk → ℕ
  | .text _ _ _ | .symbols _ _ _ _ => 0
  | .expansion _ lines => lines.length

theorem textYields_size (vars : VarsDict) (lines : List CStr) :
    ((textYields vars lines).map Yield.size).sum = 0 := by
  rw [textYields]
  split
  · rfl
  · next input hinput =>
    clear hinput
    induction input with
    | nil => rfl
    | cons line input ih => cases line <;> simpa [Yield.size] using ih

theorem expand_grants :
    Lib.Grants Symbol.once Chunk.expand Chunk.requests fun ys => (ys.map Yield.size).sum := by
  refine ⟨fun u k => ?_, fun u v k hagree => ?_, ?_⟩
  · cases k with
    | text vars o line => rfl
    | expansion o lines => rfl
    | symbols vars o i ss => rw [Chunk.expand, Expansion.expand, expandDefsym_eq]; rfl
  · cases k with
    | text vars o line => rfl
    | expansion o lines => rfl
    | symbols vars o i ss =>
      have hgrant : Lib.granted Symbol.once u ss = Lib.granted Symbol.once v ss :=
        Lib.granted_congr hagree
      simp only [Chunk.expand, Expansion.expand, expandDefsym_eq, hgrant]
  · refine ⟨Chunk.size, fun u k => ?_⟩
    cases k with
    | text vars o line => rfl
    | expansion o lines => simp [Chunk.expand, Yield.size, Chunk.size, Chunk.requests, Lib.granted]
    | symbols vars o i ss =>
      simp only [Chunk.size, Chunk.expand, Expansion.expand, expandDefsym_eq, List.map_cons, List.sum_cons,
        textYields_size, Yield.size, length_addRemainder, List.length_map, Chunk.requests]
      omega

theorem expandAll_grants :
    Lib.Grants Symbol.once (expandAll Chunk.expand) (fun ks => ks.flatMap Chunk.requests)
      fun ys => (ys.map Yield.size).sum := by
  refine expand_grants.handleAll.map (g := List.flatten) fun yss => ?_
  rw [List.map_flatten, List.sum_flatten, List.map_map]
  rfl

theorem expandAction_grants :
    Lib.Grants Symbol.once (expandAction Chunk.expand) Action.requests
      fun a => (a.results.map Yield.size).sum := by
  refine ⟨fun u a => ?_, fun u v a hagree => ?_, ?_⟩
  · cases a with
    | yield ks => exact expandAll_grants.used u ks
    | taken => rfl
    | passed line => rfl
  · cases a with
    | yield ks =>
      rw [expandAction, expandAction, expandAll_grants.congr u v ks hagree]
    | taken => rfl
    | passed line => rfl
  · obtain ⟨base, hbase⟩ := expandAll_grants.weight
    have hnil : base [] = 0 := by
      have h := hbase [] []
      simp [expandAll, Lib.handleAll, Lib.granted] at h
      omega
    refine ⟨fun a => base a.results, fun u a => ?_⟩
    cases a with
    | yield ks => exact hbase u ks
    | taken => exact (congrArg (· + 0) hnil).symm
    | passed line => exact (congrArg (· + 0) hnil).symm

/-- The infiles of an argument are expanded. -/
def expandReading : List Symbol → List (List (Action Chunk)) →
    List Symbol × List (List (Action Yield)) :=
  Lib.handleAll (expandActions Chunk.expand)

/-- **The used symbols affect an expansion only by what is defined.** -/
theorem expandReading_grants :
    Lib.Grants Symbol.once expandReading readingRequests fun actions =>
      (actions.map fun as => (as.map fun a => (a.results.map Yield.size).sum).sum).sum :=
  expandAction_grants.handleAll.handleAll

/-! ## Reading the infiles -/

section
variable {C : Config}

/-- `process_lines`, for all infiles. -/
def Config.render (C : Config) : List (List (Action Yield)) → Except ReaderError CStr
  | [] => .ok []
  | actions :: rest =>
    match C.processLines actions with
    | .error e => .error e
    | .ok out =>
      match C.render rest with
      | .error e => .error e
      | .ok content => .ok (out ++ content)

/-- What a round of the loop has done. -/
theorem processLoop_cons_ok {infile : CStr} {infiles : List CStr} {s s' : Session}
    {actions : List (List (Action Yield))} {content : CStr} :
    processLoop C s (infile :: infiles) = .ok (s', actions, content) ↔
      ∃ w text input st first out rest tail, s.toWorld.readFile infile = .ok (w, text) ∧
        inputLines text = .ok input ∧
        (shellReader C.macros C.limit).preprocessAndExpandLines s.used C.metavars input =
          .ok (st, first) ∧
        C.processLines first = .ok out ∧
        processLoop C ⟨w, st.global⟩ infiles = .ok (s', rest, tail) ∧
        actions = first :: rest ∧ content = out ++ tail := by
  constructor
  · intro h
    rw [processLoop] at h
    split at h
    · cases h
    · next w text hfile =>
      split at h
      · cases h
      · next input hinput =>
        split at h
        · cases h
        · next st first hread =>
          split at h
          · cases h
          · next out hout =>
            split at h
            · cases h
            · next s₁ rest tail hloop =>
              obtain ⟨rfl, h'⟩ := Prod.mk.inj (Except.ok.inj h)
              obtain ⟨rfl, rfl⟩ := Prod.mk.inj h'
              exact ⟨w, text, input, st, first, out, rest, tail, hfile, hinput, hread, hout,
                hloop, rfl, rfl⟩
  · rintro ⟨w, text, input, st, first, out, rest, tail, hfile, hinput, hread, hout, hloop, rfl,
      rfl⟩
    rw [processLoop, hfile]
    dsimp only
    rw [hinput]
    dsimp only
    rw [hread]
    dsimp only
    rw [hout]
    dsimp only
    rw [hloop]

theorem readLoop_cons_ok {infile : CStr} {infiles : List CStr} {w w' : World}
    {reading : List (List (Action Chunk))} :
    readLoop C w (infile :: infiles) = .ok (w', reading) ↔
      ∃ w₁ text input st first rest, w.readFile infile = .ok (w₁, text) ∧
        inputLines text = .ok input ∧
        (staticReader C.macros C.limit).preprocessAndExpandLines () C.metavars input =
          .ok (st, first) ∧
        readLoop C w₁ infiles = .ok (w', rest) ∧ reading = first :: rest := by
  constructor
  · intro h
    rw [readLoop] at h
    split at h
    · cases h
    · next w₁ text hfile =>
      split at h
      · cases h
      · next input hinput =>
        split at h
        · cases h
        · next st first hread =>
          split at h
          · cases h
          · next w₂ rest hloop =>
            obtain ⟨rfl, rfl⟩ := Prod.mk.inj (Except.ok.inj h)
            exact ⟨w₁, text, input, st, first, rest, hfile, hinput, hread, hloop, rfl⟩
  · rintro ⟨w₁, text, input, st, first, rest, hfile, hinput, hread, hloop, rfl⟩
    rw [readLoop, hfile]
    dsimp only
    rw [hinput]
    dsimp only
    rw [hread]
    dsimp only
    rw [hloop]

/-- The text of the first infile, and of the others. -/
theorem render_cons_ok {first : List (Action Yield)} {rest : List (List (Action Yield))}
    {content : CStr} :
    C.render (first :: rest) = .ok content ↔
      ∃ out tail, C.processLines first = .ok out ∧ C.render rest = .ok tail ∧
        content = out ++ tail := by
  rw [Config.render]
  cases C.processLines first with
  | error e => simp
  | ok out => cases C.render rest <;> simp [eq_comm]

/-- **The infiles are read, and what is read is expanded.** -/
theorem processLoop_ok_iff {infiles : List CStr} {s s' : Session}
    {actions : List (List (Action Yield))} {content : CStr} :
    processLoop C s infiles = .ok (s', actions, content) ↔
      ∃ reading, readLoop C s.toWorld infiles = .ok (s'.toWorld, reading) ∧
        expandReading s.used reading = (s'.used, actions) ∧ C.render actions = .ok content := by
  induction infiles generalizing s s' actions content with
  | nil =>
    constructor
    · intro h
      obtain ⟨rfl, h'⟩ := Prod.mk.inj (Except.ok.inj h)
      obtain ⟨rfl, rfl⟩ := Prod.mk.inj h'
      exact ⟨[], rfl, rfl, rfl⟩
    · rintro ⟨reading, hread, hexp, hrender⟩
      obtain ⟨hw, rfl⟩ := Prod.mk.inj (Except.ok.inj hread)
      obtain ⟨hused, rfl⟩ := Prod.mk.inj hexp
      obtain rfl := Except.ok.inj hrender
      obtain ⟨w, used⟩ := s
      obtain ⟨w', used'⟩ := s'
      obtain rfl : w = w' := hw
      obtain rfl : used = used' := hused
      rfl
  | cons infile infiles ih =>
    rw [processLoop_cons_ok]
    constructor
    · rintro ⟨w, text, input, st, first, out, rest, tail, hfile, hinput, hread, hout, hloop, rfl,
        rfl⟩
      rw [(shellReader_expands C.limit).preprocessAndExpandLines] at hread
      cases hstatic : (staticReader C.macros C.limit).preprocessAndExpandLines () C.metavars
          input with
      | error e => rw [hstatic] at hread; cases hread
      | ok r =>
        obtain ⟨st', chunks⟩ := r
        rw [hstatic] at hread
        obtain ⟨rfl, rfl⟩ := Prod.mk.inj (Except.ok.inj hread)
        obtain ⟨reading, hrest, hexp, hrender⟩ := ih.1 hloop
        refine ⟨chunks :: reading,
          readLoop_cons_ok.2 ⟨w, text, input, st', chunks, reading, hfile, hinput, hstatic, hrest,
            rfl⟩, ?_, render_cons_ok.2 ⟨out, tail, hout, hrender, rfl⟩⟩
        rw [expandReading] at hexp ⊢
        rw [Lib.handleAll, hexp]
    · rintro ⟨reading, hread, hexp, hrender⟩
      obtain ⟨w, text, input, st', chunks, rest, hfile, hinput, hstatic, hrest, rfl⟩ :=
        readLoop_cons_ok.1 hread
      rw [expandReading, Lib.handleAll] at hexp
      obtain ⟨hused, rfl⟩ := Prod.mk.inj hexp
      obtain ⟨out, tail, hout, htail, rfl⟩ := render_cons_ok.1 hrender
      have hexpands : Expands Chunk.expand (shellReader C.macros C.limit)
          (staticReader C.macros C.limit) := shellReader_expands C.limit
      have hshell := hexpands.preprocessAndExpandLines input s.used C.metavars
      rw [hstatic] at hshell
      exact ⟨w, text, input, _, _, out, _, tail, hfile, hinput, hshell, hout,
        ih.2 ⟨rest, hrest, Prod.ext hused rfl, htail⟩, rfl, rfl⟩

/-- The result of a file that is no stream. -/
theorem readFile_file {w : World} {infile : CStr} (h : infile ≠ dash) :
    w.readFile infile =
      match w.files infile with
      | none => .error (.fileNotFound infile)
      | some text => .ok (w, text) := by
  rw [World.readFile]
  exact if_neg h

theorem readFile_dash (w : World) :
    w.readFile dash = .ok ({ w with stdin := [] }, w.stdin) := by
  rw [World.readFile, if_pos rfl]

/-- Reading changes the standard input only. -/
theorem readLoop_world {infiles : List CStr} {w w' : World}
    {reading : List (List (Action Chunk))} (h : readLoop C w infiles = .ok (w', reading)) :
    w' = { w with stdin := if dash ∈ infiles then [] else w.stdin } := by
  induction infiles generalizing w reading with
  | nil =>
    obtain ⟨rfl, -⟩ := Prod.mk.inj (Except.ok.inj h)
    rfl
  | cons infile infiles ih =>
    obtain ⟨w₁, text, input, st, first, rest, hfile, -, -, hrest, -⟩ := readLoop_cons_ok.1 h
    rw [ih hrest]
    by_cases hdash : infile = dash
    · subst hdash
      rw [readFile_dash] at hfile
      obtain ⟨rfl, -⟩ := Prod.mk.inj (Except.ok.inj hfile)
      simp
    · rw [readFile_file hdash] at hfile
      cases htext : w.files infile with
      | none => rw [htext] at hfile; cases hfile
      | some text' =>
        rw [htext] at hfile
        obtain ⟨rfl, -⟩ := Prod.mk.inj (Except.ok.inj hfile)
        simp [Ne.symm hdash]

/-- The files that are read are the same, and the lines of the standard input. -/
structure Agree (infiles : List CStr) (w v : World) : Prop where
  files : ∀ f ∈ infiles, f ≠ dash → w.files f = v.files f
  stdin : dash ∈ infiles → inputLines w.stdin = inputLines v.stdin

/-- The same is read. -/
theorem readLoop_congr {infiles : List CStr} {w v w' : World}
    {reading : List (List (Action Chunk))} (hagree : Agree infiles w v)
    (h : readLoop C w infiles = .ok (w', reading)) :
    ∃ v', readLoop C v infiles = .ok (v', reading) := by
  induction infiles generalizing w v reading with
  | nil =>
    obtain ⟨-, rfl⟩ := Prod.mk.inj (Except.ok.inj h)
    exact ⟨v, rfl⟩
  | cons infile infiles ih =>
    obtain ⟨w₁, text, input, st, first, rest, hfile, hinput, hread, hrest, rfl⟩ :=
      readLoop_cons_ok.1 h
    by_cases hdash : infile = dash
    · subst hdash
      rw [readFile_dash] at hfile
      obtain ⟨rfl, rfl⟩ := Prod.mk.inj (Except.ok.inj hfile)
      have hnext : Agree infiles { w with stdin := [] } { v with stdin := [] } :=
        ⟨fun f hf => hagree.files f (List.mem_cons_of_mem _ hf), fun _ => rfl⟩
      obtain ⟨v', hv'⟩ := ih hnext hrest
      refine ⟨v', readLoop_cons_ok.2 ⟨_, _, input, st, first, rest, readFile_dash v, ?_, hread, hv',
        rfl⟩⟩
      rw [← hagree.stdin List.mem_cons_self, hinput]
    · rw [readFile_file hdash, hagree.files infile List.mem_cons_self hdash] at hfile
      cases htext : v.files infile with
      | none => rw [htext] at hfile; cases hfile
      | some text' =>
        rw [htext] at hfile
        obtain ⟨rfl, rfl⟩ := Prod.mk.inj (Except.ok.inj hfile)
        have hnext : Agree infiles w v :=
          ⟨fun f hf => hagree.files f (List.mem_cons_of_mem _ hf),
            fun hd => hagree.stdin (List.mem_cons_of_mem _ hd)⟩
        obtain ⟨v', hv'⟩ := ih hnext hrest
        exact ⟨v', readLoop_cons_ok.2 ⟨v, text', input, st, first, rest,
          by rw [readFile_file hdash, htext], hinput, hread, hv', rfl⟩⟩

end

/-- There is one action for each line. -/
theorem Reader.run_length {σ τ : Type} {R : Reader σ τ} {lines : List InputLine}
    {st st' : ReaderState σ} {actions : List (Action τ)}
    (h : R.run lines st = .ok (st', actions)) : actions.length = lines.length := by
  induction lines generalizing st st' actions with
  | nil =>
    obtain ⟨-, rfl⟩ := Prod.mk.inj (Except.ok.inj h)
    rfl
  | cons line lines ih =>
    rw [Reader.run] at h
    split at h
    · cases h
    · next mid action hstep =>
      split at h
      · cases h
      · next last actions' hrun =>
        obtain ⟨-, rfl⟩ := Prod.mk.inj (Except.ok.inj h)
        rw [List.length_cons, ih hrun, List.length_cons]

theorem Reader.preprocessAndExpandLines_length {σ τ : Type} {R : Reader σ τ}
    {lines : List InputLine} {s : σ} {vars : VarsDict} {st : ReaderState σ}
    {actions : List (Action τ)}
    (h : R.preprocessAndExpandLines s vars lines = .ok (st, actions)) :
    actions.length = lines.length := by
  rw [Reader.preprocessAndExpandLines] at h
  split at h
  · cases h
  · next st' actions' hrun =>
    split at h
    · obtain ⟨-, rfl⟩ := Prod.mk.inj (Except.ok.inj h)
      exact Reader.run_length hrun
    · cases h

section
variable {C : Config}

/-- If there are as many actions as with a standard input without lines, it has none. -/
theorem inputLines_of_length {infiles : List CStr} {w v w' v' : World}
    {reading reading' : List (List (Action Chunk))} (hdash : dash ∈ infiles)
    (hw : readLoop C w infiles = .ok (w', reading))
    (hv : readLoop C v infiles = .ok (v', reading')) (hempty : inputLines w.stdin = .ok [])
    (hlen : reading.map List.length = reading'.map List.length) :
    inputLines v.stdin = .ok [] := by
  induction infiles generalizing w v reading reading' with
  | nil => cases hdash
  | cons infile infiles ih =>
    obtain ⟨w₁, text, input, st, first, rest, hfile, hinput, hread, hrest, rfl⟩ :=
      readLoop_cons_ok.1 hw
    obtain ⟨v₁, text', input', st', first', rest', hfile', hinput', hread', hrest', rfl⟩ :=
      readLoop_cons_ok.1 hv
    rw [List.map_cons, List.map_cons] at hlen
    obtain ⟨hfirst, htail⟩ := List.cons.inj hlen
    rw [Reader.preprocessAndExpandLines_length hread,
      Reader.preprocessAndExpandLines_length hread'] at hfirst
    by_cases hd : infile = dash
    · subst hd
      rw [readFile_dash] at hfile hfile'
      obtain ⟨-, rfl⟩ := Prod.mk.inj (Except.ok.inj hfile)
      obtain ⟨-, rfl⟩ := Prod.mk.inj (Except.ok.inj hfile')
      rw [hempty] at hinput
      obtain rfl := Except.ok.inj hinput
      rw [hinput', List.length_eq_zero_iff.1 hfirst.symm]
    · have hmem : dash ∈ infiles := (List.mem_cons.1 hdash).resolve_left (Ne.symm hd)
      have hstay : ∀ {u u₁ : World} {t : CStr}, u.readFile infile = .ok (u₁, t) → u₁ = u := by
        intro u u₁ t hu
        rw [readFile_file hd] at hu
        split at hu
        · cases hu
        · exact (Prod.mk.inj (Except.ok.inj hu)).1.symm
      obtain rfl := hstay hfile
      obtain rfl := hstay hfile'
      exact ih hmem hrest hrest' hempty htail

/-! ## One argument -/

/-- What `process_infiles` has done. -/
theorem processInfiles_ok_iff {a : EditArg} {s s' : Session} {r : Record} :
    processInfiles C a s = .ok (s', r) ↔
      ∃ w reading, readLoop C (s.toWorld.openOutfile a.outfile) a.infiles = .ok (w, reading) ∧
        expandReading s.used reading = (s'.used, r.actions) ∧
        C.render r.actions = .ok r.content ∧
        s'.toWorld = w.closeOutfile a.outfile r.content := by
  rw [processInfiles]
  constructor
  · intro h
    split at h
    · cases h
    · next s₁ actions content hloop =>
      obtain ⟨rfl, rfl⟩ := Prod.mk.inj (Except.ok.inj h)
      obtain ⟨reading, hread, hexp, hrender⟩ := processLoop_ok_iff.1 hloop
      exact ⟨s₁.toWorld, reading, hread, hexp, hrender, rfl⟩
  · rintro ⟨w, reading, hread, hexp, hrender, hclose⟩
    have hloop : processLoop C ⟨s.toWorld.openOutfile a.outfile, s.used⟩ a.infiles =
        .ok (⟨w, s'.used⟩, r.actions, r.content) :=
      processLoop_ok_iff.2 ⟨reading, hread, hexp, hrender⟩
    rw [hloop]
    dsimp only
    rw [← hclose]

section
variable {w : World} {outfile : CStr}

theorem openOutfile_files (f : CStr) :
    (w.openOutfile outfile).files f =
      if outfile ≠ dash ∧ f = outfile then some [] else w.files f := by
  rw [World.openOutfile]
  by_cases h : outfile = dash
  · rw [if_pos h, if_neg fun hf => hf.1 h]
  · rw [if_neg h, World.setFile]
    dsimp only
    by_cases hf : f = outfile
    · rw [if_pos hf, if_pos ⟨h, hf⟩]
    · rw [if_neg hf, if_neg fun hf' => hf hf'.2]

theorem openOutfile_stdin : (w.openOutfile outfile).stdin = w.stdin := by
  rw [World.openOutfile]
  split <;> rfl

theorem openOutfile_stdout : (w.openOutfile outfile).stdout = w.stdout := by
  rw [World.openOutfile]
  split <;> rfl

end

/-- The world after an argument. -/
theorem processInfiles_world {a : EditArg} {s s' : Session} {r : Record}
    (h : processInfiles C a s = .ok (s', r)) :
    s'.stdin = (if dash ∈ a.infiles then [] else s.stdin) ∧
      (∀ f, ¬(a.outfile ≠ dash ∧ f = a.outfile) → s'.files f = s.files f) ∧
      (∀ outfile, outfile ≠ a.outfile → s'.output outfile = s.output outfile) ∧
      s'.output a.outfile =
        if a.outfile = dash then some (s.stdout ++ r.content) else some r.content := by
  obtain ⟨w, reading, hread, -, -, hclose⟩ := processInfiles_ok_iff.1 h
  have hw := readLoop_world hread
  rw [openOutfile_stdin] at hw
  have hfiles : ∀ f, ¬(a.outfile ≠ dash ∧ f = a.outfile) → s'.files f = s.files f := by
    intro f hf
    rw [hclose, World.closeOutfile]
    by_cases hd : a.outfile = dash
    · rw [if_pos hd, hw]
      dsimp only
      rw [openOutfile_files, if_neg hf]
    · rw [if_neg hd, World.setFile]
      dsimp only
      rw [if_neg fun he => hf ⟨hd, he⟩, hw]
      dsimp only
      rw [openOutfile_files, if_neg hf]
  refine ⟨?_, hfiles, fun outfile hne => ?_, ?_⟩
  · rw [hclose, World.closeOutfile, hw]
    split <;> rfl
  · rw [World.output, World.output]
    by_cases hd : outfile = dash
    · rw [if_pos hd, if_pos hd, hclose, World.closeOutfile, if_neg fun he => hne (hd.trans he.symm),
        World.setFile, hw]
      exact congrArg some openOutfile_stdout
    · rw [if_neg hd, if_neg hd, hfiles outfile fun he => hne he.2]
  · rw [World.output, hclose, World.closeOutfile]
    by_cases hd : a.outfile = dash
    · rw [if_pos hd, if_pos hd, if_pos hd, hw]
      dsimp only
      rw [openOutfile_stdout]
    · rw [if_neg hd, if_neg hd, if_neg hd, World.setFile]
      dsimp only
      rw [if_pos rfl]

/-! ## All arguments -/

section
variable (C) (w : World)

/-- The session before some arguments: `w` with what the earlier arguments have left. -/
structure Tracks (consumed : Bool) (args : List EditArg) (s : Session) : Prop where
  files : ∀ a ∈ args, ∀ f ∈ a.infiles, f ≠ dash → s.files f = w.files f
  output : ∀ a ∈ args, s.output a.outfile = w.output a.outfile
  stdin : s.stdin = if consumed then [] else w.stdin

/-- The argument asks for no symbol that is used and defined only once, and does not read
    the standard input again. -/
def Fresh (used : List Symbol) (consumed : Bool) (a : EditArg) : Prop :=
  (∀ y ∈ a.requests C w, y.once = true → y ∉ used) ∧
    (consumed = true → dash ∈ a.infiles → inputLines w.stdin = .ok [])

/-- The argument has this record and this output alone. -/
def AsAlone (w' : World) (a : EditArg) (r : Record) : Prop :=
  ∃ s₁, processInfiles C a ⟨w, []⟩ = .ok (s₁, r) ∧ w'.output a.outfile = s₁.output a.outfile

variable {C w}

theorem Tracks.agree {consumed : Bool} {a : EditArg} {as : List EditArg} {s : Session}
    (ht : Tracks w consumed (a :: as) s)
    (hstdin : consumed = true → dash ∈ a.infiles → inputLines w.stdin = .ok []) :
    Agree a.infiles (s.toWorld.openOutfile a.outfile) (w.openOutfile a.outfile) := by
  refine ⟨fun f hf hd => ?_, fun hd => ?_⟩
  · rw [openOutfile_files, openOutfile_files, ht.files a List.mem_cons_self f hf hd]
  · rw [openOutfile_stdin, openOutfile_stdin, ht.stdin]
    by_cases hc : consumed = true
    · rw [if_pos hc, hstdin hc hd]
      rfl
    · rw [if_neg hc]

/-- What the argument asks for is read in the session, too. -/
theorem Tracks.requests {consumed : Bool} {a : EditArg} {as : List EditArg} {s : Session}
    {w₁ : World} {reading : List (List (Action Chunk))} (ht : Tracks w consumed (a :: as) s)
    (hstdin : consumed = true → dash ∈ a.infiles → inputLines w.stdin = .ok [])
    (hread : readLoop C (s.toWorld.openOutfile a.outfile) a.infiles = .ok (w₁, reading)) :
    a.requests C w = readingRequests reading := by
  obtain ⟨v', hv'⟩ := readLoop_congr (ht.agree hstdin) hread
  rw [EditArg.requests, hv']

/-- **When an argument has the same record as alone.** -/
theorem processInfiles_iff {consumed : Bool} {a : EditArg} {as : List EditArg} {s s' : Session}
    {r : Record} (ht : Tracks w consumed (a :: as) s)
    (h : processInfiles C a s = .ok (s', r)) :
    AsAlone C w s'.toWorld a r ↔ Fresh C w s.used consumed a := by
  obtain ⟨w₁, reading, hread, hexp, hrender, hclose⟩ := processInfiles_ok_iff.1 h
  have hactions : (expandReading s.used reading).2 = r.actions := congrArg Prod.snd hexp
  constructor
  · rintro ⟨s₁, hs₁, -⟩
    obtain ⟨w₂, reading', hread', hexp', -, -⟩ := processInfiles_ok_iff.1 hs₁
    have hactions' : (expandReading [] reading').2 = r.actions := congrArg Prod.snd hexp'
    have hlength : ∀ {u rd}, (expandReading u rd).2 = r.actions →
        rd.map List.length = r.actions.map List.length := by
      intro u rd heq
      rw [← heq, expandReading]
      clear heq
      induction rd generalizing u with
      | nil => rfl
      | cons first rd ih =>
        rw [Lib.handleAll, List.map_cons, List.map_cons, ← ih, expandActions,
          Lib.length_handleAll]
    have hstdin : consumed = true → dash ∈ a.infiles → inputLines w.stdin = .ok [] := by
      intro hc hd
      refine (congrArg inputLines openOutfile_stdin).symm.trans
        (inputLines_of_length hd hread hread' ?_
          ((hlength hactions).trans (hlength hactions').symm))
      rw [openOutfile_stdin, ht.stdin, if_pos hc]
      rfl
    obtain ⟨v', hv'⟩ := readLoop_congr (ht.agree hstdin) hread
    obtain rfl := (Prod.mk.inj (Except.ok.inj (hv'.symm.trans hread'))).2
    refine ⟨?_, hstdin⟩
    rw [ht.requests hstdin hread]
    have hnil : ∀ y ∈ ([] : List Symbol), y ∈ s.used := fun y hy => absurd hy List.not_mem_nil
    have hnone := (expandReading_grants.eq_iff hnil reading).1 (hactions.trans hactions'.symm)
    intro y hy ho hu
    exact absurd (hnone y hy ho hu) List.not_mem_nil
  · rintro ⟨hfresh, hstdin⟩
    obtain ⟨v', hv'⟩ := readLoop_congr (ht.agree hstdin) hread
    rw [ht.requests hstdin hread] at hfresh
    have hsame : (expandReading [] reading).2 = r.actions := by
      rw [← hactions]
      refine (expandReading_grants.congr _ _ _ fun y hy ho => ?_).symm
      exact iff_of_false (hfresh y hy ho) List.not_mem_nil
    have halone : processInfiles C a ⟨w, []⟩ =
        .ok (⟨v'.closeOutfile a.outfile r.content, (expandReading [] reading).1⟩, r) :=
      processInfiles_ok_iff.2 ⟨v', reading, hv', Prod.ext rfl hsame, hrender, rfl⟩
    refine ⟨_, halone, ?_⟩
    have hout := (processInfiles_world h).2.2.2
    have hout' := (processInfiles_world halone).2.2.2
    rw [hout, hout']
    by_cases hd : a.outfile = dash
    · have hstdout := ht.output a List.mem_cons_self
      rw [World.output, World.output, if_pos hd, if_pos hd] at hstdout
      rw [if_pos hd, if_pos hd, Option.some.inj hstdout]
    · rw [if_neg hd, if_neg hd]

/-- The session before the next arguments. -/
theorem Tracks.next {consumed : Bool} {a : EditArg} {as : List EditArg} {s s' : Session}
    {r : Record} (ht : Tracks w consumed (a :: as) s) (hsep : Separate (a :: as))
    (h : processInfiles C a s = .ok (s', r)) :
    Tracks w (consumed || decide (dash ∈ a.infiles)) as s' := by
  obtain ⟨hstdin, hfiles, hout, -⟩ := processInfiles_world h
  have hlater := (List.pairwise_cons.1 hsep).1
  refine ⟨fun b hb f hf hd => ?_, fun b hb => ?_, ?_⟩
  · rw [hfiles f fun he => (hlater b hb).2 he.1 (he.2 ▸ hf)]
    exact ht.files b (List.mem_cons_of_mem _ hb) f hf hd
  · rw [hout b.outfile (hlater b hb).1.symm]
    exact ht.output b (List.mem_cons_of_mem _ hb)
  · rw [hstdin, ht.stdin]
    by_cases hd : dash ∈ a.infiles
    · simp [hd]
    · simp [hd]

/-- The loop over arguments that are parsed. -/
def editLoop (C : Config) : List EditArg → Session → Except ReaderError (Session × List Record)
  | [], s => .ok (s, [])
  | a :: as, s =>
    match processInfiles C a s with
    | .error e => .error e
    | .ok (s, r) =>
      match editLoop C as s with
      | .error e => .error e
      | .ok (s, rs) => .ok (s, r :: rs)

theorem multiEditLoop_eq {args : List CStr} {as : List EditArg}
    (h : args.map parseEditArg = as.map some) (s : Session) :
    multiEditLoop C args s = editLoop C as s := by
  induction args generalizing as s with
  | nil =>
    cases as with
    | nil => rfl
    | cons a as => cases h
  | cons arg args ih =>
    cases as with
    | nil => cases h
    | cons a as =>
      obtain ⟨ha, has⟩ := List.cons.inj h
      rw [multiEditLoop, ha, editLoop]
      dsimp only
      cases processInfiles C a s with
      | error e => rfl
      | ok r =>
        dsimp only
        cases hloop : editLoop C as r.1 <;> simp only [ih has, hloop]

theorem editLoop_cons_ok {a : EditArg} {as : List EditArg} {s s' : Session}
    {records : List Record} (h : editLoop C (a :: as) s = .ok (s', records)) :
    ∃ s₁ r rs, processInfiles C a s = .ok (s₁, r) ∧ editLoop C as s₁ = .ok (s', rs) ∧
      records = r :: rs := by
  rw [editLoop] at h
  split at h
  · cases h
  · next s₁ r hproc =>
    split at h
    · cases h
    · next s₂ rs hloop =>
      obtain ⟨rfl, rfl⟩ := Prod.mk.inj (Except.ok.inj h)
      exact ⟨s₁, r, rs, hproc, hloop, rfl⟩

/-- Later arguments do not write to an outfile. -/
theorem editLoop_output {as : List EditArg} {s s' : Session} {records : List Record}
    (h : editLoop C as s = .ok (s', records)) {outfile : CStr}
    (hne : ∀ a ∈ as, outfile ≠ a.outfile) : s'.output outfile = s.output outfile := by
  induction as generalizing s records with
  | nil =>
    obtain ⟨rfl, -⟩ := Prod.mk.inj (Except.ok.inj h)
    rfl
  | cons a as ih =>
    obtain ⟨s₁, r, rs, hproc, hloop, -⟩ := editLoop_cons_ok h
    rw [ih hloop fun b hb => hne b (List.mem_cons_of_mem _ hb)]
    exact (processInfiles_world hproc).2.2.1 outfile (hne a List.mem_cons_self)

/-- The symbols that are used after an argument that is fresh. -/
theorem used_after {consumed : Bool} {a : EditArg} {as : List EditArg} {s s' : Session}
    {r : Record} (ht : Tracks w consumed (a :: as) s) (hfresh : Fresh C w s.used consumed a)
    (h : processInfiles C a s = .ok (s', r)) (y : Symbol) :
    y ∈ s'.used ↔ y ∈ s.used ∨ y ∈ a.requests C w := by
  obtain ⟨w₁, reading, hread, hexp, -, -⟩ := processInfiles_ok_iff.1 h
  have hused : (expandReading s.used reading).1 = s'.used := congrArg Prod.fst hexp
  rw [ht.requests hfresh.2 hread, ← hused, expandReading_grants.used, Lib.mem_usedAfter]

/-- What is fresh after an argument. -/
theorem fresh_next {consumed : Bool} {a b : EditArg} {as : List EditArg} {s s' : Session}
    {r : Record} (ht : Tracks w consumed (a :: as) s) (hfresh : Fresh C w s.used consumed a)
    (h : processInfiles C a s = .ok (s', r)) :
    Fresh C w s'.used (consumed || decide (dash ∈ a.infiles)) b ↔
      Fresh C w s.used consumed b ∧ Unshared C w a b := by
  rw [Fresh, Fresh, Unshared]
  simp only [used_after ht hfresh h, Bool.or_eq_true, decide_eq_true_eq, not_or]
  constructor
  · rintro ⟨hreq, hstdin⟩
    exact ⟨⟨fun y hy ho => (hreq y hy ho).1, fun hc => hstdin (.inl hc)⟩,
      fun y hy ho hyb => (hreq y hyb ho).2 hy, fun hd => hstdin (.inr hd)⟩
  · rintro ⟨⟨hreq, hstdin⟩, hshare, hboth⟩
    exact ⟨fun y hy ho => ⟨hreq y hy ho, fun hya => hshare y hya ho hy⟩,
      fun hc => hc.elim hstdin hboth⟩

/-- **Some arguments have the same records as alone** exactly if they are fresh and share
    nothing. -/
theorem editLoop_iff {as : List EditArg} {consumed : Bool} {s s' : Session}
    {records : List Record} (ht : Tracks w consumed as s) (hsep : Separate as)
    (h : editLoop C as s = .ok (s', records)) :
    List.Forall₂ (AsAlone C w s'.toWorld) as records ↔
      (∀ a ∈ as, Fresh C w s.used consumed a) ∧ as.Pairwise (Unshared C w) := by
  induction as generalizing consumed s records with
  | nil =>
    obtain ⟨rfl, rfl⟩ := Prod.mk.inj (Except.ok.inj h)
    simp
  | cons a as ih =>
    obtain ⟨s₁, r, rs, hproc, hloop, rfl⟩ := editLoop_cons_ok h
    obtain ⟨hlater, hsep'⟩ := List.pairwise_cons.1 hsep
    have hout : s'.output a.outfile = s₁.output a.outfile :=
      editLoop_output hloop fun b hb => (hlater b hb).1
    have hhead : AsAlone C w s'.toWorld a r ↔ Fresh C w s.used consumed a := by
      rw [← processInfiles_iff ht hproc, AsAlone, AsAlone, hout]
    have htail := ih (ht.next hsep hproc) hsep' hloop
    rw [List.forall₂_cons, hhead, htail, List.pairwise_cons, List.forall_mem_cons]
    constructor
    · rintro ⟨ha, has, hpair⟩
      have hnext := fun b hb => (fresh_next (b := b) ht ha hproc).1 (has b hb)
      exact ⟨⟨ha, fun b hb => (hnext b hb).1⟩, fun b hb => (hnext b hb).2, hpair⟩
    · rintro ⟨⟨ha, has⟩, hshare, hpair⟩
      exact ⟨ha, fun b hb => (fresh_next ht ha hproc).2 ⟨has b hb, hshare b hb⟩, hpair⟩

end

/-- An argument alone. -/
theorem multiEdit_alone_iff {w : World} {arg : CStr} {a : EditArg}
    (h : parseEditArg arg = some a) {w' : World} {r : Record} :
    (∃ w₁, multiEdit C [arg] w = .ok (w₁, [r]) ∧
      ∀ b, parseEditArg arg = some b → w'.output b.outfile = w₁.output b.outfile) ↔
      AsAlone C w w' a r := by
  have hrun : multiEdit C [arg] w =
      (processInfiles C a ⟨w, []⟩).map fun x => (x.1.toWorld, [x.2]) := by
    rw [multiEdit, multiEditLoop, h]
    dsimp only
    cases processInfiles C a ⟨w, []⟩ <;> rfl
  rw [hrun, AsAlone]
  constructor
  · rintro ⟨w₁, hw₁, hout⟩
    cases hproc : processInfiles C a ⟨w, []⟩ with
    | error e => rw [hproc] at hw₁; cases hw₁
    | ok x =>
      obtain ⟨s₁, r₁⟩ := x
      rw [hproc] at hw₁
      obtain ⟨rfl, hr⟩ := Prod.mk.inj (Except.ok.inj hw₁)
      obtain ⟨rfl, -⟩ := List.cons.inj hr
      exact ⟨s₁, rfl, hout a h⟩
  · rintro ⟨s₁, hproc, hout⟩
    refine ⟨s₁.toWorld, by rw [hproc]; rfl, fun b hb => ?_⟩
    obtain rfl := Option.some.inj (h.symm.trans hb)
    exact hout

/-- A configuration for files that call no other macro and define no function. -/
def defsymConfig : Config :=
  ⟨1000, fun _ => none, fun lines => .ok (lines.map Prod.snd), false, fun _ => none⟩

/-- Two files with these texts, `a` and `b`. -/
def twoFiles (a b : String) : World :=
  ⟨fun f => if f = ['a'] then some a.toList else if f = ['b'] then some b.toList else none, [], []⟩

end

end Metash

end Fischstaebchen
