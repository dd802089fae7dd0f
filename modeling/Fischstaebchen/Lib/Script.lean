/-
  Running scripts of events through a callback.

  A callback answers each event with `keep` (go on), `skip` (leave out the
  rest of the script) or `stop r` (leave out everything, with result `r`),
  and updates its own state.

  * `runScript`, `runScripts`: one script, and several scripts in order.
  * `ScriptTrace`, `ScriptsTrace`: which sequences of events and answers such
    a run can show; `runScripts_log`: every run shows one.
  * `runScripts_preserves`: invariants of runs; `runScripts_eq_foldl`: a run
    that is never stopped runs every script.
  * `runScripts_register`: a part of the state that the first event of a script
    decides or leaves alone holds the last decision at the end; `foldl_register`
    is the same for a fold.
-/
import Mathlib.Tactic

namespace Lib

variable {ε σ ρ : Type*}

/-- The answer to an event. -/
inductive Answer (ρ : Type*) where
  | keep
  | skip
  | stop (r : ρ)

/-- Run one script; `some r` if it was stopped with `r`. -/
def runScript (f : ε → σ → Answer ρ × σ) : List ε → σ → Option ρ × σ
  | [], s => (none, s)
  | e :: es, s =>
    match f e s with
    | (.keep, s') => runScript f es s'
    | (.skip, s') => (none, s')
    | (.stop r, s') => (some r, s')

/-- Run the rest of a script after the answer to an event. -/
def resume (f : ε → σ → Answer ρ × σ) : Answer ρ × σ → List ε → Option ρ × σ
  | (.keep, s), es => runScript f es s
  | (.skip, s), _ => (none, s)
  | (.stop r, s), _ => (some r, s)

theorem runScript_cons (f : ε → σ → Answer ρ × σ) (e : ε) (es : List ε) (s : σ) :
    runScript f (e :: es) s = resume f (f e s) es := by
  rw [runScript]; rcases f e s with ⟨_ | _ | _, _⟩ <;> rfl

/-- Run several scripts until one is stopped. -/
def runScripts (f : ε → σ → Answer ρ × σ) : List (List ε) → σ → Option ρ × σ
  | [], s => (none, s)
  | es :: ess, s =>
    match runScript f es s with
    | (none, s') => runScripts f ess s'
    | (some r, s') => (some r, s')

/-! ## Traces -/

/-- The events and answers of a run of one script: its events in order, up to
    its end or the first answer other than `keep`. -/
inductive ScriptTrace : List ε → List (ε × Answer ρ) → Option ρ → Prop
  | nil : ScriptTrace [] [] none
  | keep {e es t o} : ScriptTrace es t o → ScriptTrace (e :: es) ((e, .keep) :: t) o
  | skip {e es} : ScriptTrace (e :: es) [(e, .skip)] none
  | stop {e es r} : ScriptTrace (e :: es) [(e, .stop r)] (some r)

/-- The events and answers of a run of several scripts: those of the scripts
    one after the other, up to the first script that is stopped. -/
inductive ScriptsTrace : List (List ε) → List (ε × Answer ρ) → Option ρ → Prop
  | nil : ScriptsTrace [] [] none
  | next {es ess t ts o} : ScriptTrace es t none → ScriptsTrace ess ts o →
      ScriptsTrace (es :: ess) (t ++ ts) o
  | stop {es ess t r} : ScriptTrace es t (some r) → ScriptsTrace (es :: ess) t (some r)

section
variable {f : ε → σ → Answer ρ × σ}

theorem runScript_log (log : σ → List (ε × Answer ρ))
    (hlog : ∀ e s, log (f e s).2 = log s ++ [(e, (f e s).1)]) :
    ∀ (es : List ε) (s : σ), ∃ t, log (runScript f es s).2 = log s ++ t ∧
      ScriptTrace es t (runScript f es s).1
  | [], s => ⟨[], by simp [runScript], .nil⟩
  | e :: es, s => by
    have he := hlog e s
    rcases hf : f e s with ⟨a, s'⟩
    rw [hf] at he
    cases a with
    | keep =>
      obtain ⟨t, ht, htr⟩ := runScript_log log hlog es s'
      simp only [runScript, hf]
      exact ⟨(e, .keep) :: t, by rw [ht, he]; simp, .keep htr⟩
    | skip => simp only [runScript, hf]; exact ⟨_, he, .skip⟩
    | stop r => simp only [runScript, hf]; exact ⟨_, he, .stop⟩

/-- **Every run shows a trace**: if every event appends itself and its answer
    to a log, the entries of a run are one. -/
theorem runScripts_log (log : σ → List (ε × Answer ρ))
    (hlog : ∀ e s, log (f e s).2 = log s ++ [(e, (f e s).1)]) :
    ∀ (ess : List (List ε)) (s : σ), ∃ t, log (runScripts f ess s).2 = log s ++ t ∧
      ScriptsTrace ess t (runScripts f ess s).1
  | [], s => ⟨[], by simp [runScripts], .nil⟩
  | es :: ess, s => by
    obtain ⟨t, ht, htr⟩ := runScript_log log hlog es s
    rcases hr : runScript f es s with ⟨o, s'⟩
    rw [hr] at ht htr
    cases o with
    | none =>
      obtain ⟨ts, hts, htrs⟩ := runScripts_log log hlog ess s'
      simp only [runScripts, hr]
      exact ⟨t ++ ts, by rw [hts, ht, List.append_assoc], .next htr htrs⟩
    | some r => simp only [runScripts, hr]; exact ⟨t, ht, .stop htr⟩

/-- Runs of two callbacks that give the same answers, one of which sees only a
    part of the state of the other. -/
theorem runScripts_map {τ : Type*} {g : ε → τ → Answer ρ × τ} (π : σ → τ)
    (hπ : ∀ e s, g e (π s) = ((f e s).1, π (f e s).2)) : ∀ (ess : List (List ε)) (s : σ),
    runScripts g ess (π s) = ((runScripts f ess s).1, π (runScripts f ess s).2)
  | [], _ => rfl
  | es :: ess, s => by
    have hscript : ∀ (es : List ε) (s : σ),
        runScript g es (π s) = ((runScript f es s).1, π (runScript f es s).2) := by
      intro es
      induction es with
      | nil => intro s; rfl
      | cons e es ih =>
        intro s
        rw [runScript_cons, runScript_cons, hπ]
        rcases f e s with ⟨_ | _ | _, s'⟩
        · exact ih s'
        · rfl
        · rfl
    rw [runScripts, runScripts, hscript]
    rcases runScript f es s with ⟨_ | _, s'⟩
    · exact runScripts_map π hπ ess s'
    · rfl

end

/-! ## Invariants -/

section
variable {f : ε → σ → Answer ρ × σ}

theorem runScript_preserves {I : σ → Prop} : ∀ es : List ε,
    (∀ e ∈ es, ∀ s, I s → I (f e s).2) → ∀ s, I s → I (runScript f es s).2
  | [], _, _, hs => hs
  | e :: es, h, s, hs => by
    have he := h e (by simp) s hs
    have ih := runScript_preserves es fun e' he' => h e' (by simp [he'])
    rcases hf : f e s with ⟨a, s'⟩
    rw [hf] at he
    cases a with
    | keep => simp only [runScript, hf]; exact ih s' he
    | skip | stop => simpa only [runScript, hf] using he

/-- **A property that every event preserves is preserved by the run.** -/
theorem runScripts_preserves {I : σ → Prop} : ∀ ess : List (List ε),
    (∀ es ∈ ess, ∀ e ∈ es, ∀ s, I s → I (f e s).2) → ∀ s, I s → I (runScripts f ess s).2
  | [], _, _, hs => hs
  | es :: ess, h, s, hs => by
    have he := runScript_preserves es (h es (by simp)) s hs
    have ih := runScripts_preserves ess fun es' he' => h es' (by simp [he'])
    rcases hr : runScript f es s with ⟨o, s'⟩
    rw [hr] at he
    cases o with
    | none => simp only [runScripts, hr]; exact ih s' he
    | some r => simpa only [runScripts, hr] using he

/-- A run that is not stopped is the fold of the runs of all its scripts. -/
theorem runScripts_eq_foldl : ∀ {ess : List (List ε)} {s : σ},
    (runScripts f ess s).1 = none →
      (runScripts f ess s).2 = ess.foldl (fun s es => (runScript f es s).2) s
  | [], _, _ => rfl
  | es :: ess, s, h => by
    rcases hr : runScript f es s with ⟨o, s'⟩
    cases o with
    | none =>
      simp only [runScripts, hr, List.foldl_cons] at h ⊢
      exact runScripts_eq_foldl h
    | some r => simp [runScripts, hr] at h

/-- The scripts of one list and then, unless the run was stopped, those of
    another one. -/
theorem runScripts_append (ess' : List (List ε)) : ∀ (ess : List (List ε)) (s : σ),
    runScripts f (ess ++ ess') s =
      match runScripts f ess s with
      | (none, s') => runScripts f ess' s'
      | (some r, s') => (some r, s')
  | [], _ => rfl
  | es :: ess, s => by
    rw [List.cons_append, runScripts, runScripts]
    rcases runScript f es s with ⟨_ | r, s'⟩
    · exact runScripts_append ess' ess s'
    · rfl

/-- The result of a stopped run is one that a callback stopped with. -/
theorem runScripts_stopped {P : ρ → Prop} (h : ∀ e s r, (f e s).1 = .stop r → P r) :
    ∀ {ess : List (List ε)} {s : σ} {r : ρ}, (runScripts f ess s).1 = some r → P r := by
  have hscript : ∀ (es : List ε) (s : σ) (r : ρ), (runScript f es s).1 = some r → P r := by
    intro es
    induction es with
    | nil => intro s r hr; simp [runScript] at hr
    | cons e es ih =>
      intro s r hr
      have he := h e s
      rw [runScript_cons] at hr
      rcases hf : f e s with ⟨_ | _ | x, s'⟩ <;> rw [hf] at hr he
      · exact ih s' r hr
      · cases hr
      · obtain rfl : x = r := Option.some.inj hr
        exact he x rfl
  intro ess
  induction ess with
  | nil => intro s r hr; simp [runScripts] at hr
  | cons es ess ih =>
    intro s r hr
    have hes := hscript es s
    rw [runScripts] at hr
    rcases hrun : runScript f es s with ⟨_ | x, s'⟩ <;> rw [hrun] at hr hes
    · exact ih hr
    · obtain rfl : x = r := Option.some.inj hr
      exact hes x rfl

end

/-! ## Registers -/

/-- The last decision in a list, some of whose elements decide. -/
def lastDecision {α δ : Type*} (d : α → Option δ) (l : List α) : Option δ :=
  (l.filterMap d).getLast?

theorem lastDecision_cons {α δ : Type*} (d : α → Option δ) (a : α) (l : List α) :
    lastDecision d (a :: l) = (lastDecision d l).or (d a) := by
  unfold lastDecision
  cases ha : d a with
  | none => simp [ha]
  | some x =>
    rw [List.filterMap_cons_some ha, List.getLast?_cons]
    cases (l.filterMap d).getLast? <;> rfl

theorem lastDecision_map {α β δ : Type*} (d : β → Option δ) (g : α → β) (l : List α) :
    lastDecision d (l.map g) = lastDecision (d ∘ g) l := by
  rw [lastDecision, List.filterMap_map]; rfl

/-- The last decision is one of the decisions. -/
theorem exists_of_lastDecision {α δ : Type*} {d : α → Option δ} {l : List α} {x : δ}
    (h : lastDecision d l = some x) : ∃ a ∈ l, d a = some x :=
  List.mem_filterMap.1 (List.mem_of_getLast? h)

/-- There is a last decision unless nothing decides. -/
theorem lastDecision_eq_none {α δ : Type*} {d : α → Option δ} {l : List α} :
    lastDecision d l = none ↔ ∀ a ∈ l, d a = none := by
  rw [lastDecision, List.getLast?_eq_none_iff, List.filterMap_eq_nil_iff]

/-- A decision that is translated afterwards. -/
theorem lastDecision_comp {α δ γ : Type*} (d : α → Option δ) (t : δ → γ) (l : List α) :
    lastDecision (fun a => (d a).map t) l = (lastDecision d l).map t := by
  induction l with
  | nil => rfl
  | cons a l ih =>
    rw [lastDecision_cons, lastDecision_cons, ih]
    cases lastDecision d l <;> rfl

/-- Elements that decide nothing do not matter. -/
theorem lastDecision_filter {α δ : Type*} {d : α → Option δ} {p : α → Bool} {l : List α}
    (h : ∀ a ∈ l, p a = false → d a = none) : lastDecision d (l.filter p) = lastDecision d l := by
  induction l with
  | nil => rfl
  | cons a l ih =>
    have hl := ih fun b hb => h b (List.mem_cons_of_mem _ hb)
    rw [lastDecision_cons, List.filter_cons]
    cases hp : p a with
    | true => rw [if_pos rfl, lastDecision_cons, hl]
    | false => rw [if_neg Bool.false_ne_true, hl, h a List.mem_cons_self hp, Option.or_none]

/-- **A register after a fold** whose steps set it or leave it alone. -/
theorem foldl_register {α δ : Type*} {f : σ → α → σ} {π : σ → δ} {d : α → Option δ}
    (h : ∀ s a, π (f s a) = (d a).getD (π s)) (l : List α) (s : σ) :
    π (l.foldl f s) = (lastDecision d l).getD (π s) := by
  induction l generalizing s with
  | nil => rfl
  | cons a l ih =>
    rw [List.foldl_cons, ih, h, lastDecision_cons]
    cases lastDecision d l <;> rfl

section
variable {f : ε → σ → Answer ρ × σ} {δ : Type*} {π : σ → δ} {d : ε → Option δ}

/-- A register that each event sets or leaves alone, over a script whose later
    events do not disagree with the first one. -/
theorem runScript_register (h : ∀ e s, π (f e s).2 = (d e).getD (π s)) {es : List ε}
    (htail : ∀ e ∈ es.tail, d e = none ∨ d e = es.head?.bind d) (s : σ) :
    π (runScript f es s).2 = (es.head?.bind d).getD (π s) := by
  cases es with
  | nil => rfl
  | cons e es =>
    simp only [List.tail_cons, List.head?_cons, Option.bind_some] at htail ⊢
    have he := h e s
    rw [runScript_cons]
    rcases hf : f e s with ⟨_ | _ | _, s'⟩ <;> rw [hf] at he
    · refine runScript_preserves (I := fun s' => π s' = (d e).getD (π s)) es
        (fun e' he' s' hs => ?_) s' he
      rcases htail e' he' with hd | hd
      · rw [h, hd, hs]; rfl
      · rw [h, hd, hs]; cases d e <;> rfl
    · exact he
    · exact he

/-- **A register holds the last decision**, after a run that is not stopped. -/
theorem runScripts_register (h : ∀ e s, π (f e s).2 = (d e).getD (π s)) {ess : List (List ε)}
    (htail : ∀ es ∈ ess, ∀ e ∈ es.tail, d e = none ∨ d e = es.head?.bind d) {s : σ}
    (hrun : (runScripts f ess s).1 = none) :
    π (runScripts f ess s).2 = (lastDecision (fun es => es.head?.bind d) ess).getD (π s) := by
  rw [runScripts_eq_foldl hrun]
  clear hrun
  induction ess generalizing s with
  | nil => rfl
  | cons es ess ih =>
    rw [List.foldl_cons, ih fun es' he' => htail es' (by simp [he']),
      runScript_register h (htail es (by simp)), lastDecision_cons]
    cases lastDecision (fun es => es.head?.bind d) ess <;> rfl

end

/-! ## Updates -/

section
variable {f : ε → σ → Answer ρ × σ} {χ : Type*} {π : σ → χ} {u : ε → χ → χ}

/-- A part of the state that each event updates, over a script that is not left
    early unless its events do nothing. -/
theorem runScript_updates (h : ∀ e s, π (f e s).2 = u e (π s)) {es : List ε}
    (hes : (∀ e ∈ es, ∀ x, u e x = x) ∨ ∀ e ∈ es, ∀ s, (f e s).1 ≠ .skip) {s : σ}
    (hrun : (runScript f es s).1 = none) :
    π (runScript f es s).2 = es.foldl (fun x e => u e x) (π s) := by
  induction es generalizing s with
  | nil => rfl
  | cons e es ih =>
    have hes' : (∀ e ∈ es, ∀ x, u e x = x) ∨ ∀ e ∈ es, ∀ s, (f e s).1 ≠ .skip :=
      hes.imp (fun hid e he => hid e (List.mem_cons_of_mem _ he))
        fun hkeep e he => hkeep e (List.mem_cons_of_mem _ he)
    have he := h e s
    rw [runScript_cons] at hrun ⊢
    rw [List.foldl_cons, ← he]
    rcases hf : f e s with ⟨_ | _ | _, s'⟩ <;> rw [hf] at hrun
    · exact ih hes' hrun
    · rcases hes with hid | hkeep
      · -- the script is left, but the rest of it does nothing
        have hrest : ∀ (l : List ε), (∀ e ∈ l, ∀ x, u e x = x) → ∀ x,
            l.foldl (fun x e => u e x) x = x := by
          intro l hl x
          induction l with
          | nil => rfl
          | cons e l ihl =>
            rw [List.foldl_cons, hl e List.mem_cons_self]
            exact ihl fun e' he' => hl e' (List.mem_cons_of_mem _ he')
        exact (hrest es (fun e' he' => hid e' (List.mem_cons_of_mem _ he')) _).symm
      · exact absurd (by rw [hf]) (hkeep e List.mem_cons_self s)
    · cases hrun

/-- **A part of the state that each event updates**, after a run that is not
    stopped. -/
theorem runScripts_updates (h : ∀ e s, π (f e s).2 = u e (π s)) {ess : List (List ε)}
    (hess : ∀ es ∈ ess, (∀ e ∈ es, ∀ x, u e x = x) ∨ ∀ e ∈ es, ∀ s, (f e s).1 ≠ .skip) {s : σ}
    (hrun : (runScripts f ess s).1 = none) :
    π (runScripts f ess s).2 = ess.foldl (fun x es => es.foldl (fun x e => u e x) x) (π s) := by
  induction ess generalizing s with
  | nil => rfl
  | cons es ess ih =>
    rw [runScripts] at hrun ⊢
    rcases hr : runScript f es s with ⟨_ | _, s'⟩ <;> rw [hr] at hrun
    · have hes := runScript_updates h (hess es List.mem_cons_self) (s := s) (by rw [hr])
      rw [hr] at hes
      rw [List.foldl_cons, ← hes]
      exact ih (fun es' he' => hess es' (List.mem_cons_of_mem _ he')) hrun
    · cases hrun

end

end Lib
