/-
  Programs that emit events.

  A run has fuel for the iterations of its loops.  It ends with a value or stops early
  for some reason, and has emitted events by then.  Without enough fuel there is no run;
  more fuel does not change a run.

  * `Logs`: what a program emits, from states with an invariant; `logs_bind`,
    `logs_catchStop`, `logs_loop`: the rules of composition.
  * `Ends`: when there is a run.
-/
import Fischstaebchen.Lib.CountLoop

namespace Lib

variable {ε ξ σ α β : Type}

/-- A run: how it ends, its events, and the state after it. -/
structure Run (ε ξ σ α : Type) where
  res : Except ξ α
  events : List ε
  state : σ

/-- A program: its runs, by the fuel and the state before. -/
structure Prog (ε ξ σ α : Type) where
  run : ℕ → σ → Option (Run ε ξ σ α)
  mono : ∀ {n n' : ℕ} {s : σ} {r : Run ε ξ σ α}, n ≤ n' → run n s = some r → run n' s = some r

namespace Run

/-- The run after other events. -/
def after (events : List ε) (r : Run ε ξ σ α) : Run ε ξ σ α := { r with events := events ++ r.events }

@[simp]
theorem after_events (events : List ε) (r : Run ε ξ σ α) :
    (r.after events).events = events ++ r.events := rfl

@[simp]
theorem after_res (events : List ε) (r : Run ε ξ σ α) : (r.after events).res = r.res := rfl

@[simp]
theorem after_state (events : List ε) (r : Run ε ξ σ α) : (r.after events).state = r.state := rfl

/-- What follows a run, unless it stopped. -/
def andThen (r : Run ε ξ σ α) (f : α → σ → Option (Run ε ξ σ β)) : Option (Run ε ξ σ β) :=
  match r.res with
  | .ok a => (f a r.state).map (after r.events)
  | .error x => some ⟨.error x, r.events, r.state⟩

theorem andThen_ok (a : α) (events : List ε) (s : σ) (f : α → σ → Option (Run ε ξ σ β)) :
    (⟨.ok a, events, s⟩ : Run ε ξ σ α).andThen f = (f a s).map (after events) := rfl

theorem andThen_error (x : ξ) (events : List ε) (s : σ) (f : α → σ → Option (Run ε ξ σ β)) :
    (⟨.error x, events, s⟩ : Run ε ξ σ α).andThen f = some ⟨.error x, events, s⟩ := rfl

/-- How a run with something after it went. -/
theorem andThen_cases {r : Run ε ξ σ α} {f : α → σ → Option (Run ε ξ σ β)} {r' : Run ε ξ σ β}
    (h : r.andThen f = some r') :
    (∃ a r'', r.res = .ok a ∧ f a r.state = some r'' ∧ r' = r''.after r.events) ∨
      ∃ x, r.res = .error x ∧ r' = ⟨.error x, r.events, r.state⟩ := by
  obtain ⟨res, events, s⟩ := r
  cases res with
  | error x =>
    rw [andThen_error, Option.some.injEq] at h
    exact .inr ⟨x, rfl, h.symm⟩
  | ok a =>
    rw [andThen_ok, Option.map_eq_some_iff] at h
    obtain ⟨r'', hf, rfl⟩ := h
    exact .inl ⟨a, r'', rfl, hf, rfl⟩

theorem andThen_mono {r : Run ε ξ σ α} {f g : α → σ → Option (Run ε ξ σ β)}
    (hfg : ∀ a s r', f a s = some r' → g a s = some r') {r' : Run ε ξ σ β}
    (h : r.andThen f = some r') : r.andThen g = some r' := by
  obtain ⟨res, events, s⟩ := r
  cases res with
  | error x => exact h
  | ok a =>
    rw [andThen_ok, Option.map_eq_some_iff] at h ⊢
    obtain ⟨r'', hf, hr'⟩ := h
    exact ⟨r'', hfg a s r'' hf, hr'⟩

end Run

namespace Prog

/-! ## Building programs -/

/-- Nothing but a value. -/
protected def pure (a : α) : Prog ε ξ σ α := ⟨fun _ s => some ⟨.ok a, [], s⟩, fun _ h => h⟩

/-- Stopping. -/
def stop (x : ξ) : Prog ε ξ σ α := ⟨fun _ s => some ⟨.error x, [], s⟩, fun _ h => h⟩

/-- An event. -/
def emit (e : ε) : Prog ε ξ σ Unit := ⟨fun _ s => some ⟨.ok (), [e], s⟩, fun _ h => h⟩

/-- A step of the state with a value. -/
def step (f : σ → α × σ) : Prog ε ξ σ α :=
  ⟨fun _ s => some ⟨.ok (f s).1, [], (f s).2⟩, fun _ h => h⟩

/-- One program after the other. -/
protected def bind (m : Prog ε ξ σ α) (f : α → Prog ε ξ σ β) : Prog ε ξ σ β where
  run n s := (m.run n s).bind fun r => r.andThen fun a => (f a).run n
  mono hle h := by
    obtain ⟨r, hm, hf⟩ := Option.bind_eq_some_iff.1 h
    exact Option.bind_eq_some_iff.2
      ⟨r, m.mono hle hm, Run.andThen_mono (fun a _ _ => (f a).mono hle) hf⟩

instance : Monad (Prog ε ξ σ) where
  pure := Prog.pure
  bind := Prog.bind

/-- The value that a reason for stopping stands for, if any. -/
def caught (h : ξ → Option α) (r : Run ε ξ σ α) : Run ε ξ σ α :=
  match r.res with
  | .ok _ => r
  | .error x => { r with res := match h x with | some a => .ok a | none => .error x }

@[simp]
theorem caught_events (h : ξ → Option α) (r : Run ε ξ σ α) : (caught h r).events = r.events := by
  obtain ⟨res, es, s⟩ := r
  cases res <;> rfl

theorem caught_error {h : ξ → Option α} {r : Run ε ξ σ α} {x : ξ}
    (hres : (caught h r).res = .error x) : r.res = .error x ∧ h x = none := by
  obtain ⟨res, es, s⟩ := r
  cases res with
  | ok a => cases hres
  | error y =>
    simp only [caught] at hres
    cases hy : h y with
    | none =>
      rw [hy] at hres
      obtain rfl := Except.error.inj hres
      exact ⟨rfl, hy⟩
    | some a =>
      rw [hy] at hres
      cases hres

/-- A program whose reasons for stopping are caught if they stand for a value. -/
def catchStop (h : ξ → Option α) (m : Prog ε ξ σ α) : Prog ε ξ σ α where
  run n s := (m.run n s).map (caught h)
  mono hle hrun := by
    obtain ⟨r, hm, hr⟩ := Option.map_eq_some_iff.1 hrun
    exact Option.map_eq_some_iff.2 ⟨r, m.mono hle hm, hr⟩

/-- At most `k` iterations of a loop. -/
def iterations (body : β → Prog ε ξ σ (Flow β α)) (n : ℕ) : ℕ → β → σ → Option (Run ε ξ σ α)
  | 0, _, _ => none
  | k + 1, b, s => ((body b).run n s).bind fun r => r.andThen fun
      | .next b' => iterations body n k b'
      | .leave a => fun s' => some ⟨.ok a, [], s'⟩

theorem iterations_mono {body : β → Prog ε ξ σ (Flow β α)} {n n' : ℕ} (hn : n ≤ n') :
    ∀ {k k' : ℕ}, k ≤ k' → ∀ {b : β} {s : σ} {r : Run ε ξ σ α},
      iterations body n k b s = some r → iterations body n' k' b s = some r
  | 0, _, _, _, _, _, h => by cases h
  | k + 1, 0, hk, _, _, _, _ => absurd hk (by omega)
  | k + 1, k' + 1, hk, b, s, r, h => by
    obtain ⟨r', hbody, hnext⟩ := Option.bind_eq_some_iff.1 h
    refine Option.bind_eq_some_iff.2 ⟨r', (body b).mono hn hbody, Run.andThen_mono ?_ hnext⟩
    rintro (b' | a) s' r'' h'
    · exact iterations_mono hn (by omega) h'
    · exact h'

/-- A loop; an iteration goes on with a value or leaves the loop. -/
def loop (body : β → Prog ε ξ σ (Flow β α)) (b : β) : Prog ε ξ σ α where
  run n s := iterations body n n b s
  mono hle h := iterations_mono hle hle h

/-! ## Runs of programs -/

section
variable {m : Prog ε ξ σ α} {n : ℕ} {s : σ}

@[simp]
theorem run_pure (a : α) (n : ℕ) (s : σ) :
    (pure a : Prog ε ξ σ α).run n s = some ⟨.ok a, [], s⟩ := rfl

@[simp]
theorem run_stop (x : ξ) (n : ℕ) (s : σ) :
    (stop x : Prog ε ξ σ α).run n s = some ⟨.error x, [], s⟩ := rfl

@[simp]
theorem run_emit (e : ε) (n : ℕ) (s : σ) :
    (emit e : Prog ε ξ σ Unit).run n s = some ⟨.ok (), [e], s⟩ := rfl

@[simp]
theorem run_step (f : σ → α × σ) (n : ℕ) (s : σ) :
    (step f : Prog ε ξ σ α).run n s = some ⟨.ok (f s).1, [], (f s).2⟩ := rfl

theorem map_after_nil (r : Option (Run ε ξ σ α)) : r.map (Run.after []) = r := by
  cases r <;> rfl

@[simp]
theorem run_pure_bind (a : α) (k : α → Prog ε ξ σ β) (n : ℕ) (s : σ) :
    ((pure a : Prog ε ξ σ α) >>= k).run n s = (k a).run n s := map_after_nil _

@[simp]
theorem run_step_bind (f : σ → α × σ) (k : α → Prog ε ξ σ β) (n : ℕ) (s : σ) :
    (step f >>= k).run n s = (k (f s).1).run n (f s).2 := map_after_nil _

@[simp]
theorem run_emit_bind (e : ε) (k : Unit → Prog ε ξ σ β) (n : ℕ) (s : σ) :
    (emit e >>= k).run n s = ((k ()).run n s).map (Run.after [e]) := rfl

theorem run_bind {f : α → Prog ε ξ σ β} {r : Run ε ξ σ β} (h : (m >>= f).run n s = some r) :
    ∃ r', m.run n s = some r' ∧
      ((∃ a r'', r'.res = .ok a ∧ (f a).run n r'.state = some r'' ∧ r = r''.after r'.events) ∨
        ∃ x, r'.res = .error x ∧ r = ⟨.error x, r'.events, r'.state⟩) := by
  obtain ⟨r', hm, hf⟩ := Option.bind_eq_some_iff.1 h
  exact ⟨r', hm, Run.andThen_cases hf⟩

end

/-! ## What programs emit -/

/-- From a state with the invariant a run ends in such a state, and `L` holds of how it
    ends and of its events. -/
def Logs (I : σ → Prop) (m : Prog ε ξ σ α) (L : Except ξ α → List ε → Prop) : Prop :=
  ∀ (n : ℕ) (s : σ) (r : Run ε ξ σ α), I s → m.run n s = some r → I r.state ∧ L r.res r.events

/-- What one program emits after the other. -/
inductive Then (L : Except ξ α → List ε → Prop) (L' : α → Except ξ β → List ε → Prop) :
    Except ξ β → List ε → Prop
  | goOn {a : α} {res : Except ξ β} {es es' : List ε} :
      L (.ok a) es → L' a res es' → Then L L' res (es ++ es')
  | stop {x : ξ} {es : List ε} : L (.error x) es → Then L L' (.error x) es

/-- What a loop emits. -/
inductive Loops (L : β → Except ξ (Flow β α) → List ε → Prop) : β → Except ξ α → List ε → Prop
  | next {b b' : β} {res : Except ξ α} {es es' : List ε} :
      L b (.ok (.next b')) es → Loops L b' res es' → Loops L b res (es ++ es')
  | leave {b : β} {a : α} {es : List ε} : L b (.ok (.leave a)) es → Loops L b (.ok a) es
  | stop {b : β} {x : ξ} {es : List ε} : L b (.error x) es → Loops L b (.error x) es

/-- What is left after some reasons for stopping are caught. -/
inductive Caught (h : ξ → Option α) (L : Except ξ α → List ε → Prop) : Except ξ α → List ε → Prop
  | value {a : α} {es : List ε} : L (.ok a) es → Caught h L (.ok a) es
  | caught {x : ξ} {a : α} {es : List ε} : L (.error x) es → h x = some a → Caught h L (.ok a) es
  | stop {x : ξ} {es : List ε} : L (.error x) es → h x = none → Caught h L (.error x) es

section
variable {I : σ → Prop} {m : Prog ε ξ σ α} {L L' : Except ξ α → List ε → Prop}

theorem Logs.imp (h : m.Logs I L) (himp : ∀ res es, L res es → L' res es) : m.Logs I L' :=
  fun n s r hs hrun => ⟨(h n s r hs hrun).1, himp _ _ (h n s r hs hrun).2⟩

theorem logs_pure {a : α} (h : L (.ok a) []) : (pure a : Prog ε ξ σ α).Logs I L := by
  intro n s r hs hrun
  rw [← Option.some.inj hrun]
  exact ⟨hs, h⟩

theorem logs_stop {x : ξ} (h : L (.error x) []) : (stop x : Prog ε ξ σ α).Logs I L := by
  intro n s r hs hrun
  rw [← Option.some.inj hrun]
  exact ⟨hs, h⟩

theorem logs_emit {e : ε} {L : Except ξ Unit → List ε → Prop} (h : L (.ok ()) [e]) :
    (emit e : Prog ε ξ σ Unit).Logs I L := by
  intro n s r hs hrun
  rw [← Option.some.inj hrun]
  exact ⟨hs, h⟩

theorem logs_step {f : σ → α × σ} (h : ∀ s, I s → I (f s).2 ∧ L (.ok (f s).1) []) :
    (step f : Prog ε ξ σ α).Logs I L := by
  intro n s r hs hrun
  rw [← Option.some.inj hrun]
  exact h s hs

/-- **One program after the other.** -/
theorem logs_bind {f : α → Prog ε ξ σ β} {L' : α → Except ξ β → List ε → Prop}
    (hm : m.Logs I L) (hf : ∀ a, (f a).Logs I (L' a)) : (m >>= f).Logs I (Then L L') := by
  intro n s r hs hrun
  obtain ⟨r', hm', ⟨a, r'', hres, hf', rfl⟩ | ⟨x, hres, rfl⟩⟩ := run_bind hrun
  · obtain ⟨hs', hL⟩ := hm _ _ _ hs hm'
    obtain ⟨hs'', hL'⟩ := hf a _ _ _ hs' hf'
    rw [hres] at hL
    exact ⟨hs'', .goOn hL hL'⟩
  · obtain ⟨hs', hL⟩ := hm _ _ _ hs hm'
    rw [hres] at hL
    exact ⟨hs', .stop hL⟩

/-- **Reasons for stopping that are caught.** -/
theorem logs_catchStop {h : ξ → Option α} (hm : m.Logs I L) :
    (m.catchStop h).Logs I (Caught h L) := by
  intro n s r hs hrun
  obtain ⟨⟨res, es, s'⟩, hm', rfl⟩ := Option.map_eq_some_iff.1 hrun
  obtain ⟨hs', hL⟩ := hm _ _ _ hs hm'
  cases res with
  | ok a => exact ⟨hs', .value hL⟩
  | error x =>
    refine ⟨hs', ?_⟩
    cases hx : h x with
    | none => simpa [caught, hx] using Caught.stop hL hx
    | some a => simpa [caught, hx] using Caught.caught hL hx

/-- **A loop.** -/
theorem logs_loop {body : β → Prog ε ξ σ (Flow β α)}
    {L : β → Except ξ (Flow β α) → List ε → Prop} (hbody : ∀ b, (body b).Logs I (L b)) (b : β) :
    (loop body b).Logs I (Loops L b) := by
  intro n s r hs hrun
  have hiter : ∀ (k : ℕ) (b : β) (s : σ) (r : Run ε ξ σ α), I s →
      iterations body n k b s = some r → I r.state ∧ Loops L b r.res r.events := by
    intro k
    induction k with
    | zero => intro b s r _ h; cases h
    | succ k ih =>
      intro b s r hs h
      obtain ⟨r', hb, hnext⟩ := Option.bind_eq_some_iff.1 h
      obtain ⟨hs', hL⟩ := hbody b _ _ _ hs hb
      obtain ⟨b' | a, r'', hres, hrest, rfl⟩ | ⟨x, hres, rfl⟩ := Run.andThen_cases hnext
      · obtain ⟨hs'', hloop⟩ := ih b' _ _ hs' hrest
        rw [hres] at hL
        exact ⟨hs'', .next hL hloop⟩
      · rw [hres] at hL
        rw [← Option.some.inj hrest]
        refine ⟨hs', ?_⟩
        rw [Run.after, List.append_nil]
        exact .leave hL
      · rw [hres] at hL
        exact ⟨hs', .stop hL⟩
  exact hiter n b s r hs hrun

end

/-! ## What holds of any composition -/

/-- Why a run stopped early, if it did. -/
def stopped : Except ξ α → Option ξ
  | .ok _ => none
  | .error x => some x

/-- A property of the events, and of why a run stopped, that composes. -/
structure Composes (K : Option ξ → List ε → Prop) : Prop where
  nil : K none []
  append : ∀ {x : Option ξ} {es es' : List ε}, K none es → K x es' → K x (es ++ es')

/-- What a program emits, whatever its value is. -/
def Emits (I : σ → Prop) (m : Prog ε ξ σ α) (K : Option ξ → List ε → Prop) : Prop :=
  m.Logs I fun res es => K (stopped res) es

section
variable {I : σ → Prop} {m : Prog ε ξ σ α} {K : Option ξ → List ε → Prop}

theorem emits_pure (hK : Composes K) (a : α) : (pure a : Prog ε ξ σ α).Emits I K :=
  logs_pure hK.nil

theorem emits_step (hK : Composes K) {f : σ → α × σ} (h : ∀ s, I s → I (f s).2) :
    (step f : Prog ε ξ σ α).Emits I K := logs_step fun s hs => ⟨h s hs, hK.nil⟩

theorem emits_bind (hK : Composes K) {f : α → Prog ε ξ σ β} (hm : m.Emits I K)
    (hf : ∀ a, (f a).Emits I K) : (m >>= f).Emits I K := by
  refine (logs_bind hm hf).imp fun res es h => ?_
  cases h with
  | goOn hm hf => exact hK.append hm hf
  | stop hm => exact hm

theorem emits_loop (hK : Composes K) {body : β → Prog ε ξ σ (Flow β α)}
    (hbody : ∀ b, (body b).Emits I K) (b : β) : (loop body b).Emits I K := by
  refine (logs_loop hbody b).imp fun res es h => ?_
  induction h with
  | next hbody _ ih => exact hK.append hbody ih
  | leave hbody => exact hbody
  | stop hbody => exact hbody

/-- Properties of each event compose. -/
theorem composes_forall (P : ε → Prop) :
    Composes fun (_ : Option ξ) es => ∀ e ∈ es, P e where
  nil := by simp
  append := by
    intro x es es' hes hes' e he
    rcases List.mem_append.1 he with he | he
    · exact hes e he
    · exact hes' e he

/-- Properties of why a run stopped compose. -/
theorem composes_stop (Q : ξ → Prop) :
    Composes fun (x : Option ξ) (_ : List ε) => ∀ y, x = some y → Q y where
  nil := by simp
  append _ h := h

theorem Composes.and {K' : Option ξ → List ε → Prop} (hK : Composes K) (hK' : Composes K') :
    Composes fun x es => K x es ∧ K' x es where
  nil := ⟨hK.nil, hK'.nil⟩
  append h h' := ⟨hK.append h.1 h'.1, hK'.append h.2 h'.2⟩

/-- Both of them. -/
theorem composes_each (P : ε → Prop) (Q : ξ → Prop) :
    Composes fun (x : Option ξ) es => (∀ e ∈ es, P e) ∧ ∀ y, x = some y → Q y :=
  (composes_forall P).and (composes_stop Q)

end

/-! ## Programs that end -/

/-- The program has a run from every state with the invariant. -/
def Ends (I : σ → Prop) (m : Prog ε ξ σ α) : Prop := ∀ s, I s → ∃ n r, m.run n s = some r

section
variable {I : σ → Prop} {m : Prog ε ξ σ α}

theorem ends_pure (a : α) : (pure a : Prog ε ξ σ α).Ends I := fun _ _ => ⟨0, _, rfl⟩

theorem ends_stop (x : ξ) : (stop x : Prog ε ξ σ α).Ends I := fun _ _ => ⟨0, _, rfl⟩

theorem ends_emit (e : ε) : (emit e : Prog ε ξ σ Unit).Ends I := fun _ _ => ⟨0, _, rfl⟩

theorem ends_step (f : σ → α × σ) : (step f : Prog ε ξ σ α).Ends I := fun _ _ => ⟨0, _, rfl⟩

/-- One program after the other ends if both do, and the first one keeps the invariant. -/
theorem ends_bind {f : α → Prog ε ξ σ β} {L : Except ξ α → List ε → Prop} (hm : m.Ends I)
    (hI : m.Logs I L) (hf : ∀ a, (f a).Ends I) : (m >>= f).Ends I := by
  intro s hs
  obtain ⟨n, ⟨res, es, s'⟩, hrun⟩ := hm s hs
  have hbind : ∀ n', (m >>= f).run n' s =
      (m.run n' s).bind fun r => r.andThen fun a => (f a).run n' := fun _ => rfl
  cases res with
  | error x => exact ⟨n, ⟨.error x, es, s'⟩, by rw [hbind, hrun]; rfl⟩
  | ok a =>
    obtain ⟨n', r', hrun'⟩ := hf a s' (hI n s _ hs hrun).1
    refine ⟨max n n', r'.after es, ?_⟩
    rw [hbind, m.mono (le_max_left n n') hrun, Option.bind_some, Run.andThen_ok,
      (f a).mono (le_max_right n n') hrun', Option.map_some]

theorem ends_catchStop {h : ξ → Option α} (hm : m.Ends I) : (m.catchStop h).Ends I := by
  intro s hs
  obtain ⟨n, r, hrun⟩ := hm s hs
  exact ⟨n, caught h r, Option.map_eq_some_iff.2 ⟨r, hrun, rfl⟩⟩

/-- A loop ends if no iteration goes on. -/
theorem ends_loop {body : β → Prog ε ξ σ (Flow β α)}
    {L : β → Except ξ (Flow β α) → List ε → Prop} (hbody : ∀ b, (body b).Ends I)
    (hL : ∀ b, (body b).Logs I (L b)) (hleave : ∀ b b' es, ¬ L b (.ok (.next b')) es) (b : β) :
    (loop body b).Ends I := by
  intro s hs
  obtain ⟨n, ⟨res, es, s'⟩, hrun⟩ := hbody b s hs
  have hmono := (body b).mono (Nat.le_succ n) hrun
  have hiter : (loop body b).run (n + 1) s = ((body b).run (n + 1) s).bind fun r =>
      r.andThen fun
        | .next b' => iterations body (n + 1) n b'
        | .leave a => fun s' => some ⟨.ok a, [], s'⟩ := rfl
  rw [hmono, Option.bind_some] at hiter
  rcases res with x | b' | a
  · exact ⟨n + 1, _, hiter⟩
  · exact absurd (hL b n s _ hs hrun).2 (hleave b b' es)
  · exact ⟨n + 1, _, hiter⟩

end

end Prog

end Lib
