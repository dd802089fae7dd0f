/-
  Files that load each other, each of them at most once.

  A file is a list of items: an item loads another file if a condition holds, or is an
  action.  Both depend on a state, and actions and missing files may end the whole run.

  * `load_run`: the files that are loaded are new, reachable, and closed under what they
    load in any case; the actions are those of the loaded files, and what a file does after
    it has loaded another one comes after what that one does, unless it loads it back.
  * `load_ends`: loading ends, even if the files load each other in a circle.
  * `load_passes`: it passes if no reachable file is missing and no action fails.
  * `mem_loaded_iff`: without conditions, the loaded files are exactly the reachable ones.
-/
import Mathlib.Tactic

namespace Lib

namespace LoadOnce

variable {κ ι σ : Type}

/-- An item of a file. -/
inductive Item (κ ι σ : Type)
  | load (cond : σ → Bool) (key : κ)
  | act (action : ι)

/-- The loaded files, in order, and the state. -/
structure State (κ σ : Type) where
  loaded : List κ
  sys : σ
  deriving DecidableEq

/-- Files, if they exist, and what actions do; an action without a result ends the run. -/
structure Files (κ ι σ : Type) where
  body : κ → Option (List (Item κ ι σ))
  act : ι → σ → Option σ

/-- The result of a run: `none` inside says that it has been ended. -/
abbrev Result (κ σ : Type) := Option (Option (State κ σ))

/-! ## Loading -/

section
variable (F : Files κ ι σ)

/-- What follows, unless the run has been ended. -/
def andThen (r : Result κ σ) (f : State κ σ → Result κ σ) : Result κ σ :=
  r.bind fun o => o.elim (some none) f

/-- The items of a file, given how a file is loaded. -/
def runItems (call : κ → State κ σ → Result κ σ) : List (Item κ ι σ) → State κ σ → Result κ σ
  | [], st => some (some st)
  | .act a :: its, st =>
    andThen (some ((F.act a st.sys).map fun sys => { st with sys })) (runItems call its)
  | .load cond key :: its, st =>
    andThen (if cond st.sys then call key st else some (some st)) (runItems call its)

variable [DecidableEq κ]

/-- Loads a file unless it has been loaded; the number bounds the depth. -/
def load : ℕ → κ → State κ σ → Result κ σ
  | 0, _, _ => none
  | n + 1, key, st =>
    if key ∈ st.loaded then some (some st)
    else (F.body key).elim (some none) fun its =>
      runItems F (load n) its { st with loaded := st.loaded ++ [key] }

end

/-! ## What files load -/

/-- The file that an item loads. -/
def Item.target : Item κ ι σ → Option κ
  | load _ key => some key
  | act _ => none

/-- The file that an item loads in any case. -/
def Item.Always (item : Item κ ι σ) (key : κ) : Prop :=
  ∃ cond, item = .load cond key ∧ ∀ s, cond s = true

/-- The action of an item. -/
def Item.action : Item κ ι σ → Option ι
  | load _ _ => none
  | act a => some a

section
variable (F : Files κ ι σ)

/-- The items of a file. -/
def items (key : κ) : List (Item κ ι σ) := (F.body key).getD []

/-- The actions of a file, with the file. -/
def actions (key : κ) : List (κ × ι) := ((items F key).filterMap Item.action).map (key, ·)

/-- A file loads another one, maybe under a condition. -/
def Loads (key key' : κ) : Prop := ∃ item ∈ items F key, item.target = some key'

/-- A file loads another one, maybe through others. -/
abbrev Reaches : κ → κ → Prop := Relation.ReflTransGen (Loads F)

/-- A file loads another one in any case, and has not done an action before. -/
def LoadsBefore (key key' : κ) (a : ι) : Prop :=
  ∃ its₁ item its₂, items F key = its₁ ++ item :: its₂ ∧ item.Always key' ∧ .act a ∉ its₁

/-- The actions of a file that come after it has loaded another one come after the actions of
    that one. -/
def Ordered (acts : List (κ × ι)) (key key' : κ) (a : ι) : Prop :=
  acts.Pairwise fun x y => ¬ (x = (key, a) ∧ y.1 = key')

/-- What a run does: `new` are the files that it loads, all of them from `start`, and `acts`
    are its actions, which are those of the new files or of the one that is being loaded. -/
structure Run (start own : κ → Prop) (st : State κ σ) (new : List κ) (acts : List (κ × ι))
    (st' : State κ σ) : Prop where
  loaded : st'.loaded = st.loaded ++ new
  nodup : st'.loaded.Nodup
  exist : ∀ key ∈ new, F.body key ≠ none
  reached : ∀ key ∈ new, ∃ root, start root ∧ Reaches F root key
  closed : ∀ key ∈ new, ∀ item ∈ items F key, ∀ key', item.Always key' → key' ∈ st'.loaded
  files : ∀ x ∈ acts, x.1 ∈ new ∨ own x.1
  ordered : ∀ key ∈ new, ∀ key' ∈ new, ∀ a, LoadsBefore F key key' a → ¬ Reaches F key' key →
    Ordered acts key key' a
  done : acts.foldlM (fun s x => F.act x.2 s) st.sys = some st'.sys

end

section
variable {F : Files κ ι σ} {start start' own own' : κ → Prop} {st st' st'' : State κ σ}
  {new new' : List κ} {acts acts' : List (κ × ι)} {r : Result κ σ}
  {f : State κ σ → Result κ σ}

theorem andThen_eq (h : andThen r f = some (some st')) :
    ∃ st, r = some (some st) ∧ f st = some (some st') := by
  obtain ⟨o, rfl, ho⟩ := Option.bind_eq_some_iff.1 h
  cases o with
  | none => cases ho
  | some st => exact ⟨st, rfl, ho⟩

/-- Without the action, or without actions of the other file, there is no order to keep. -/
theorem ordered_of_absent {key key' : κ} {a : ι}
    (h : (∀ x ∈ acts, x ≠ (key, a)) ∨ ∀ x ∈ acts, x.1 ≠ key') : Ordered acts key key' a := by
  refine List.Pairwise.imp_of_mem (fun {x y} hx hy _ hxy => ?_) (List.pairwise_of_forall
    (fun _ _ => trivial : ∀ _ _, True))
  rcases h with h | h
  · exact h x hx hxy.1
  · exact h y hy hxy.2

theorem Ordered.append {key key' : κ} {a : ι} (h : Ordered acts key key' a)
    (h' : Ordered acts' key key' a)
    (hcross : (∀ x ∈ acts, x ≠ (key, a)) ∨ ∀ y ∈ acts', y.1 ≠ key') :
    Ordered (acts ++ acts') key key' a := by
  refine List.pairwise_append.2 ⟨h, h', fun x hx y hy hxy => ?_⟩
  rcases hcross with hcross | hcross
  · exact hcross x hx hxy.1
  · exact hcross y hy hxy.2

/-! ## Runs -/

theorem Run.refl (hnodup : st.loaded.Nodup) : Run F start own st [] [] st where
  loaded := (List.append_nil _).symm
  nodup := hnodup
  exist := by simp
  reached := by simp
  closed := by simp
  files := by simp
  ordered := by simp
  done := rfl

theorem Run.mono (h : Run F start own st new acts st') (hstart : ∀ key, start key → start' key)
    (hown : ∀ key, own key → own' key) : Run F start' own' st new acts st' where
  loaded := h.loaded
  nodup := h.nodup
  exist := h.exist
  reached key hkey := by
    obtain ⟨root, hroot, hreach⟩ := h.reached key hkey
    exact ⟨root, hstart root hroot, hreach⟩
  closed := h.closed
  files x hx := (h.files x hx).imp_right (hown x.1)
  ordered := h.ordered
  done := h.done

/-- What has been loaded before is not new. -/
theorem Run.new_of_mem (h : Run F start own st new acts st') {key : κ} (hkey : key ∈ st.loaded) :
    key ∉ new := by
  have hnodup := h.nodup
  rw [h.loaded] at hnodup
  exact fun hnew => (List.nodup_append.1 hnodup).2.2 key hkey key hnew rfl

theorem Run.mem_of_mem (h : Run F start own st new acts st') {key : κ} (hkey : key ∈ st.loaded) :
    key ∈ st'.loaded := by
  rw [h.loaded]
  exact List.mem_append_left _ hkey

theorem Run.mem_of_new (h : Run F start own st new acts st') {key : κ} (hkey : key ∈ new) :
    key ∈ st'.loaded := by
  rw [h.loaded]
  exact List.mem_append_right _ hkey

/-- One run after the other. -/
theorem Run.trans (hown : ∀ key, own key → key ∈ st.loaded)
    (h : Run F start own st new acts st') (h' : Run F start own st' new' acts' st'') :
    Run F start own st (new ++ new') (acts ++ acts') st'' where
  loaded := by rw [h'.loaded, h.loaded, List.append_assoc]
  nodup := h'.nodup
  exist key hkey := (List.mem_append.1 hkey).elim (h.exist key) (h'.exist key)
  reached key hkey := (List.mem_append.1 hkey).elim (h.reached key) (h'.reached key)
  closed key hkey item hitem key' halways := by
    rcases List.mem_append.1 hkey with hkey | hkey
    · exact h'.mem_of_mem (h.closed key hkey item hitem key' halways)
    · exact h'.closed key hkey item hitem key' halways
  files x hx := by
    rcases List.mem_append.1 hx with hx | hx
    · exact (h.files x hx).imp_left (List.mem_append_left _)
    · exact (h'.files x hx).imp_left (List.mem_append_right _)
  ordered := by
    -- neither part has actions of the files that the other one loads
    have hleft : ∀ key ∈ new', ∀ x ∈ acts, x.1 ≠ key := by
      rintro key hkey x hx rfl
      refine h'.new_of_mem ?_ hkey
      exact (h.files x hx).elim h.mem_of_new fun ho => h.mem_of_mem (hown _ ho)
    have hright : ∀ key ∈ new, ∀ x ∈ acts', x.1 ≠ key := by
      rintro key hkey x hx rfl
      rcases h'.files x hx with hnew | ho
      · exact h'.new_of_mem (h.mem_of_new hkey) hnew
      · exact h.new_of_mem (hown _ ho) hkey
    intro key hkey key' hkey' a hbefore hback
    rcases List.mem_append.1 hkey with hkey | hkey
    · have habsent : ∀ x ∈ acts', x ≠ (key, a) := fun x hx hxa => hright key hkey x hx (by rw [hxa])
      rcases List.mem_append.1 hkey' with hkey' | hkey'
      · exact (h.ordered key hkey key' hkey' a hbefore hback).append (ordered_of_absent
          (.inl habsent)) (.inr (hright key' hkey'))
      · -- the other file has been loaded by now
        obtain ⟨its₁, item, its₂, hits, halways, -⟩ := hbefore
        have hitem : item ∈ items F key := by
          rw [hits]
          exact List.mem_append_right _ List.mem_cons_self
        exact absurd hkey' (h'.new_of_mem (h.closed key hkey item hitem key' halways))
    · have habsent : ∀ x ∈ acts, x ≠ (key, a) := fun x hx hxa => hleft key hkey x hx (by rw [hxa])
      refine (ordered_of_absent (.inl habsent)).append ?_ (.inl habsent)
      rcases List.mem_append.1 hkey' with hkey' | hkey'
      · exact ordered_of_absent (.inr (hright key' hkey'))
      · exact h'.ordered key hkey key' hkey' a hbefore hback
  done := by
    rw [List.foldlM_append, h.done]
    exact h'.done

/-! ## The items of a file -/

/-- What the load of a file has to do. -/
def LoadsWell (F : Files κ ι σ) (call : κ → State κ σ → Result κ σ) : Prop :=
  ∀ {key : κ} {st st' : State κ σ}, st.loaded.Nodup → call key st = some (some st') →
    ∃ new acts, Run F (· = key) (fun _ => False) st new acts st' ∧ key ∈ st'.loaded ∧
      acts.Perm (new.flatMap (actions F))

/-- What one item does in the file `key`. -/
structure ItemRun (F : Files κ ι σ) (key : κ) (item : Item κ ι σ) (st : State κ σ) (new : List κ)
    (acts : List (κ × ι)) (st' : State κ σ) : Prop where
  run : Run F (fun key' => item.target = some key') (· = key) st new acts st'
  always : ∀ key', item.Always key' → key' ∈ st'.loaded
  perm : acts.Perm (item.action.toList.map (key, ·) ++ new.flatMap (actions F))
  own : ∀ a, (key, a) ∈ acts → item = .act a

theorem itemRun_of_andThen {call : κ → State κ σ → Result κ σ} (hcall : LoadsWell F call)
    {key : κ} {item : Item κ ι σ} {its : List (Item κ ι σ)} (hnodup : st.loaded.Nodup)
    (hkey : key ∈ st.loaded) (h : runItems F call (item :: its) st = some (some st')) :
    ∃ st₁ new acts, ItemRun F key item st new acts st₁ ∧
      runItems F call its st₁ = some (some st') := by
  cases item with
  | act a =>
    obtain ⟨st₁, hact, hits⟩ := andThen_eq h
    obtain ⟨sys, hsys, rfl⟩ := Option.map_eq_some_iff.1 (Option.some.inj hact)
    refine ⟨{ st with sys }, [], [(key, a)], ⟨⟨(List.append_nil _).symm, hnodup, by simp, by simp,
      by simp, by simp, by simp, ?_⟩, ?_, .refl _, by simp⟩, hits⟩
    · show (F.act a st.sys).bind some = some sys
      rw [hsys]
      rfl
    · rintro key' ⟨cond, hcond, -⟩
      cases hcond
  | load cond key' =>
    obtain ⟨st₁, hload, hits⟩ := andThen_eq h
    split_ifs at hload with hcond
    · obtain ⟨new, acts, hrun, hmem, hperm⟩ := hcall hnodup hload
      refine ⟨st₁, new, acts, ⟨hrun.mono ?_ fun _ => False.elim, ?_, hperm, ?_⟩, hits⟩
      · rintro key'' rfl
        rfl
      · rintro key'' ⟨cond', hcond', -⟩
        cases hcond'
        exact hmem
      · intro a ha
        exact absurd ((hrun.files _ ha).resolve_right id) (hrun.new_of_mem hkey)
    · obtain rfl := Option.some.inj (Option.some.inj hload)
      refine ⟨st, [], [], ⟨.refl hnodup, ?_, .refl _, by simp⟩, hits⟩
      rintro key'' ⟨cond', hcond', hall⟩
      cases hcond'
      exact absurd (hall st.sys) hcond

/-- **The items of a file.** -/
theorem runItems_run {call : κ → State κ σ → Result κ σ} (hcall : LoadsWell F call) {key : κ}
    {its : List (Item κ ι σ)} (hnodup : st.loaded.Nodup) (hkey : key ∈ st.loaded)
    (h : runItems F call its st = some (some st')) :
    ∃ new acts,
      Run F (fun key' => ∃ item ∈ its, item.target = some key') (· = key) st new acts st' ∧
      (∀ item ∈ its, ∀ key', item.Always key' → key' ∈ st'.loaded) ∧
      acts.Perm ((its.filterMap Item.action).map (key, ·) ++ new.flatMap (actions F)) ∧
      ∀ its₁ item its₂ key' a, its = its₁ ++ item :: its₂ → item.Always key' →
        .act a ∉ its₁ → key' ≠ key → Ordered acts key key' a := by
  induction its generalizing st with
  | nil =>
    obtain rfl := Option.some.inj (Option.some.inj h)
    exact ⟨[], [], .refl hnodup, by simp, .refl _, by simp⟩
  | cons item its ih =>
    obtain ⟨st₁, new₁, acts₁, hitem, hits⟩ := itemRun_of_andThen hcall hnodup hkey h
    obtain ⟨new, acts, hrun, halways, hperm, hordered⟩ :=
      ih hitem.run.nodup (hitem.run.mem_of_mem hkey) hits
    have hrun' : Run F (fun key' => ∃ item' ∈ item :: its, item'.target = some key') (· = key)
        st (new₁ ++ new) (acts₁ ++ acts) st' := by
      refine Run.trans (fun key' hkey' => hkey' ▸ hkey) (hitem.run.mono (fun key' hkey' => ?_)
        fun _ => id) (hrun.mono (fun key' hkey' => ?_) fun _ => id)
      · exact ⟨item, List.mem_cons_self, hkey'⟩
      · obtain ⟨item', hitem', htarget⟩ := hkey'
        exact ⟨item', List.mem_cons_of_mem _ hitem', htarget⟩
    refine ⟨new₁ ++ new, acts₁ ++ acts, hrun', ?_, ?_, ?_⟩
    · intro item' hitem' key' halways'
      rcases List.mem_cons.1 hitem' with rfl | hitem'
      · exact hrun.mem_of_mem (hitem.always key' halways')
      · exact halways item' hitem' key' halways'
    · have hcons : ((item :: its).filterMap Item.action).map (key, ·) =
          item.action.toList.map (key, ·) ++ (its.filterMap Item.action).map (key, ·) := by
        cases item <;> rfl
      rw [hcons, List.flatMap_append]
      refine (hitem.perm.append hperm).trans ?_
      rw [List.append_assoc, List.append_assoc]
      refine List.Perm.append_left _ ?_
      rw [← List.append_assoc, ← List.append_assoc]
      exact List.perm_append_comm.append_right _
    · intro its₁ item' its₂ key' a hsplit halways' ha hne
      cases its₁ with
      | nil =>
        -- the other file has been loaded by now
        obtain ⟨rfl, rfl⟩ := List.cons.inj hsplit
        have hown : ∀ x ∈ acts₁, x ≠ (key, a) := by
          rintro x hx rfl
          obtain ⟨cond, hcond, -⟩ := halways'
          cases (hitem.own a hx).symm.trans hcond
        refine (ordered_of_absent (.inl hown)).append (ordered_of_absent (.inr ?_)) (.inl hown)
        intro y hy hykey
        have hmem : y.1 ∈ st₁.loaded := hykey ▸ hitem.always key' halways'
        exact (hrun.files y hy).elim (hrun.new_of_mem hmem) fun ho => hne (hykey.symm.trans ho)
      | cons item'' its₁ =>
        obtain ⟨rfl, hits'⟩ := List.cons.inj hsplit
        have hown : ∀ x ∈ acts₁, x ≠ (key, a) := by
          rintro x hx rfl
          exact ha (hitem.own a hx ▸ List.mem_cons_self)
        exact (ordered_of_absent (.inl hown)).append (hordered its₁ item' its₂ key' a hits'
          halways' (fun h => ha (List.mem_cons_of_mem _ h)) hne) (.inl hown)

/-- **Loading a file.** -/
theorem load_run [DecidableEq κ] (n : ℕ) : LoadsWell F (load F n) := by
  induction n with
  | zero =>
    intro key st st' _ h
    cases h
  | succ n ih =>
    intro key st st' hnodup h
    unfold load at h
    split_ifs at h with hmem
    · obtain rfl := Option.some.inj (Option.some.inj h)
      exact ⟨[], [], .refl hnodup, hmem, .refl _⟩
    · cases hbody : F.body key with
      | none =>
        rw [hbody] at h
        cases h
      | some its =>
        rw [hbody] at h
        have hnodup' : (st.loaded ++ [key]).Nodup := by
          refine List.nodup_append.2 ⟨hnodup, List.nodup_singleton _, ?_⟩
          intro a ha b hb hab
          rw [hab, List.mem_singleton.1 hb] at ha
          exact hmem ha
        have hkey : key ∈ st.loaded ++ [key] := List.mem_append_right _ List.mem_cons_self
        obtain ⟨new, acts, hrun, halways, hperm, hordered⟩ := runItems_run ih hnodup' hkey h
        have hits : items F key = its := by rw [items, hbody]; rfl
        have hloads : ∀ key' ∈ new, Reaches F key key' := by
          intro key' hkey'
          obtain ⟨root, ⟨item, hitem, htarget⟩, hreach⟩ := hrun.reached key' hkey'
          exact hreach.head ⟨item, hits ▸ hitem, htarget⟩
        refine ⟨key :: new, acts, ⟨?_, hrun.nodup, ?_, ?_, ?_, ?_, ?_, hrun.done⟩,
          hrun.mem_of_mem hkey, ?_⟩
        · rw [hrun.loaded, List.append_assoc]
          rfl
        · intro key' hkey'
          rcases List.mem_cons.1 hkey' with rfl | hkey'
          · rw [hbody]
            exact Option.some_ne_none _
          · exact hrun.exist key' hkey'
        · intro key' hkey'
          refine ⟨key, rfl, ?_⟩
          rcases List.mem_cons.1 hkey' with rfl | hkey'
          · exact .refl
          · exact hloads key' hkey'
        · intro key' hkey' item hitem key'' halways'
          rcases List.mem_cons.1 hkey' with rfl | hkey'
          · exact halways item (hits ▸ hitem) key'' halways'
          · exact hrun.closed key' hkey' item hitem key'' halways'
        · intro x hx
          refine .inl ?_
          rcases hrun.files x hx with hnew | hown
          · exact List.mem_cons_of_mem _ hnew
          · exact hown ▸ List.mem_cons_self
        · intro key' hkey' key'' hkey'' a hbefore hback
          rcases List.mem_cons.1 hkey'' with rfl | hkey''
          · -- the file itself loads all the others
            rcases List.mem_cons.1 hkey' with rfl | hkey'
            · exact absurd .refl hback
            · exact absurd (hloads key' hkey') hback
          · rcases List.mem_cons.1 hkey' with rfl | hkey'
            · obtain ⟨its₁, item, its₂, hsplit, halways', ha⟩ := hbefore
              refine hordered its₁ item its₂ key'' a (hits ▸ hsplit) halways' ha ?_
              rintro rfl
              exact hback .refl
            · exact hrun.ordered key' hkey' key'' hkey'' a hbefore hback
        · rw [List.flatMap_cons, actions, hits]
          exact hperm

/-! ## Ending -/

theorem andThen_ne_none (hr : r ≠ none) (hf : ∀ st, r = some (some st) → f st ≠ none) :
    andThen r f ≠ none := by
  cases r with
  | none => exact absurd rfl hr
  | some o =>
    cases o with
    | none => exact Option.some_ne_none _
    | some st => exact hf st rfl

section
variable [DecidableEq κ]

/-- The files that have not been loaded. -/
def unloaded (keys : Finset κ) (loaded : List κ) : Finset κ := keys.filter (· ∉ loaded)

theorem unloaded_mono (keys : Finset κ) {loaded loaded' : List κ} (h : loaded ⊆ loaded') :
    (unloaded keys loaded').card ≤ (unloaded keys loaded).card :=
  Finset.card_le_card (Finset.monotone_filter_right _ fun _ _ hkey hmem => hkey (h hmem))

theorem runItems_ends {call : κ → State κ σ → Result κ σ} (hcall : LoadsWell F call)
    {keys : Finset κ} {n : ℕ} (hends : ∀ {key : κ} {st : State κ σ}, st.loaded.Nodup →
      (unloaded keys st.loaded).card < n → call key st ≠ none)
    {its : List (Item κ ι σ)} (hnodup : st.loaded.Nodup)
    (hcard : (unloaded keys st.loaded).card < n) : runItems F call its st ≠ none := by
  induction its generalizing st with
  | nil => exact Option.some_ne_none _
  | cons item its ih =>
    cases item with
    | act a =>
      refine andThen_ne_none (Option.some_ne_none _) fun st₁ hst₁ => ?_
      obtain ⟨sys, -, rfl⟩ := Option.map_eq_some_iff.1 (Option.some.inj hst₁)
      exact ih hnodup hcard
    | load cond key =>
      refine andThen_ne_none ?_ fun st₁ hst₁ => ?_
      · split_ifs
        · exact hends hnodup hcard
        · exact Option.some_ne_none _
      · split_ifs at hst₁
        · obtain ⟨new, acts, hrun, -, -⟩ := hcall hnodup hst₁
          exact ih hrun.nodup
            ((unloaded_mono keys fun _ => hrun.mem_of_mem).trans_lt hcard)
        · obtain rfl := Option.some.inj (Option.some.inj hst₁)
          exact ih hnodup hcard

/-- **Loading ends**: it is not deeper than there are files. -/
theorem load_ends {keys : Finset κ} (hkeys : ∀ key, F.body key ≠ none → key ∈ keys) (n : ℕ) :
    ∀ {key : κ} {st : State κ σ}, st.loaded.Nodup → (unloaded keys st.loaded).card < n →
      load F n key st ≠ none := by
  induction n with
  | zero =>
    intro key st _ hcard
    exact absurd hcard (Nat.not_lt_zero _)
  | succ n ih =>
    intro key st hnodup hcard
    unfold load
    split_ifs with hmem
    · exact Option.some_ne_none _
    · cases hbody : F.body key with
      | none => exact Option.some_ne_none _
      | some its =>
        have hkey : key ∈ keys := hkeys key (by simp [hbody])
        refine runItems_ends (load_run n) ih ?_ ?_
        · refine List.nodup_append.2 ⟨hnodup, List.nodup_singleton _, ?_⟩
          intro a ha b hb hab
          rw [hab, List.mem_singleton.1 hb] at ha
          exact hmem ha
        · refine Nat.lt_of_lt_of_le (Finset.card_lt_card ?_) (Nat.le_of_lt_succ hcard)
          refine (Finset.ssubset_iff_of_subset ?_).2 ⟨key, Finset.mem_filter.2 ⟨hkey, hmem⟩, ?_⟩
          · exact Finset.monotone_filter_right _ fun _ _ hother hin =>
              hother (List.mem_append_left _ hin)
          · exact fun hin => (Finset.mem_filter.1 hin).2
              (List.mem_append_right _ List.mem_cons_self)

/-- **Loading passes** if no file is missing and no action fails. -/
theorem load_passes (hact : ∀ a s, F.act a s ≠ none) (n : ℕ) :
    ∀ {key : κ} {st : State κ σ}, (∀ key', Reaches F key key' → F.body key' ≠ none) →
      load F n key st ≠ some none := by
  have hthen : ∀ {r : Result κ σ} {f : State κ σ → Result κ σ}, r ≠ some none →
      (∀ st, f st ≠ some none) → andThen r f ≠ some none := by
    intro r f hr hf
    cases r with
    | none => exact Option.some_ne_none _ |>.symm
    | some o =>
      cases o with
      | none => exact absurd rfl hr
      | some st => exact hf st
  induction n with
  | zero =>
    intro key st _
    exact (Option.some_ne_none _).symm
  | succ n ih =>
    intro key st hexist
    unfold load
    split_ifs with hmem
    · simp
    · cases hbody : F.body key with
      | none => exact absurd hbody (hexist key .refl)
      | some its =>
        have hits : items F key = its := by rw [items, hbody]; rfl
        have hsub : its ⊆ items F key := hits ▸ fun _ => id
        show runItems F (load F n) its _ ≠ some none
        generalize ({ st with loaded := st.loaded ++ [key] } : State κ σ) = st
        clear hbody hits hmem
        induction its generalizing st with
        | nil => simp [runItems]
        | cons item its ih' =>
          obtain ⟨hitem, hrest⟩ := List.cons_subset.1 hsub
          cases item with
          | act a =>
            refine hthen ?_ fun st => ih' hrest st
            cases hres : F.act a st.sys with
            | none => exact absurd hres (hact a st.sys)
            | some sys => simp
          | load cond key' =>
            refine hthen ?_ fun st => ih' hrest st
            split_ifs
            · exact ih fun key'' hreach => hexist key'' (hreach.head ⟨_, hitem, rfl⟩)
            · simp

/-- Without conditions, all reachable files are loaded, and no others. -/
theorem mem_loaded_iff {n : ℕ} {key : κ} {s : σ}
    (hall : ∀ key', Reaches F key key' → ∀ item ∈ items F key', ∀ key'',
      item.target = some key'' → item.Always key'')
    (h : load F n key ⟨[], s⟩ = some (some st')) (key' : κ) :
    key' ∈ st'.loaded ↔ Reaches F key key' := by
  obtain ⟨new, acts, hrun, hkey, -⟩ := load_run n List.nodup_nil h
  have hnew : st'.loaded = new := hrun.loaded
  constructor
  · intro hkey'
    obtain ⟨root, rfl, hreach⟩ := hrun.reached key' (hnew ▸ hkey')
    exact hreach
  · intro hreach
    induction hreach with
    | refl => exact hkey
    | @tail b c hb hc ih =>
      obtain ⟨item, hitem, htarget⟩ := hc
      exact hrun.closed b (hnew ▸ ih) item hitem c (hall b hb item hitem c htarget)

end

end

end LoadOnce

end Lib
