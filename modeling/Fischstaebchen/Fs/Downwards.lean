/-
  Walking down a path (`common/fs/fspath.c`).

  `fspath_downwards_do` cuts a copy of the path at each slash in turn, calls a
  function for the prefix and restores the slash.

  * `downwardsLoop_step`: one iteration cuts and restores the string.
  * `downwardsLoop_eq`: the loop calls the function for each proper prefix and
    leaves the buffer as it was.
  * `fspathDownwardsDo_run`: the whole walk, for any two functions.
-/
import Fischstaebchen.Fs.Fspath

namespace Fischstaebchen

open Lib

variable {σ : Type}

/-- `fspath_callback_function` with its data: reads a path and its basename. -/
abbrev FspathCallback (σ : Type) := List UInt8 → List UInt8 → σ → ℤ × σ

/-- A call with a buffer and a position in it; NULL is not called. -/
def callAt (callback : Option (FspathCallback σ)) (buf : Block UInt8) (basename : ℕ) (s : σ) :
    Option (ℤ × σ) :=
  match callback with
  | none => some (0, s)
  | some callback => do
    let fspath ← cstring buf
    let basename ← cstring (buf.drop basename)
    pure (callback fspath basename s)

/-- The second loop of `fspath_downwards_do`: the return code, the position of
    the basename and the callback data at its end, and the buffer. -/
def downwardsLoop (parentCallback : Option (FspathCallback σ)) :
    ℕ → Block UInt8 → ℕ → ℤ → σ → Option (ℤ × ℕ × Block UInt8 × σ)
  | 0, _, _, _, _ => none
  | fuel + 1, buf, basename, retcode, s => do
    let str ← cstring (buf.drop basename)
    match str.idxOf? delimiter with
    | none => some (retcode, basename, buf, s)
    | some off =>
      if retcode = 0 then
        let pBufDelim := basename + off
        let buf ← buf.store pBufDelim 0
        let r ← callAt parentCallback buf basename s
        let buf ← buf.store pBufDelim delimiter
        downwardsLoop parentCallback fuel buf (pBufDelim + 1) r.1 r.2
      else some (retcode, basename, buf, s)

/-- `fspath_downwards_do` after the path was stripped. -/
def walkStripped (parentCallback fspathCallback : Option (FspathCallback σ)) (buf : Block UInt8)
    (s : σ) : Option (ℤ × σ) := do
  let first ← buf.load 0
  let start := if first = delimiter then 1 else 0
  let r ← downwardsLoop parentCallback buf.length buf start 0 s
  if r.1 = 0 then callAt fspathCallback r.2.2.1 r.2.1 r.2.2.2 else pure (r.1, r.2.2.2)

/-- `fspath_downwards_do`. -/
def fspathDownwardsDo (path : Option (List UInt8))
    (parentCallback fspathCallback : Option (FspathCallback σ)) (s : σ) : Alloc (ℤ × σ) :=
  if path = none ∨ path = some [] then pure (0, s)
  else do
    let buf ← fspathStrip path
    match buf with
    | none => pure (-1, s)
    | some buf => defined (walkStripped parentCallback fspathCallback buf s)

/-! ## The calls -/

/-- A call that is to be made. -/
structure PathCall (σ : Type) where
  callback : Option (FspathCallback σ)
  fspath : List UInt8
  basename : List UInt8

/-- Makes a call. -/
def PathCall.run (call : PathCall σ) (s : σ) : ℤ × σ :=
  match call.callback with
  | none => (0, s)
  | some callback => callback call.fspath call.basename s

/-- Makes calls, up to the first one that does not return 0. -/
def runPathCalls : List (PathCall σ) → σ → ℤ × σ
  | [], s => (0, s)
  | call :: calls, s => if (call.run s).1 = 0 then runPathCalls calls (call.run s).2 else call.run s

/-- The call for a path with the given components. -/
def prefixCall (callback : Option (FspathCallback σ)) (abs : Bool) (ws : List (List UInt8)) :
    PathCall σ :=
  ⟨callback, joinPath delimiter abs ws, ws.getLast?.getD []⟩

/-- The proper non-empty prefixes of a list, from the shortest to the longest. -/
def properPrefixes (ws : List (List UInt8)) : List (List (List UInt8)) := ws.inits.tail.dropLast

/-- **The calls of a walk**: the parent callback for each proper prefix of the
    path, then the other one for the whole path. -/
def walkCalls (parentCallback fspathCallback : Option (FspathCallback σ)) (path : List UInt8) :
    List (PathCall σ) :=
  (properPrefixes (components delimiter path)).map
      (prefixCall parentCallback (isAbs delimiter path)) ++
    [prefixCall fspathCallback (isAbs delimiter path) (components delimiter path)]

theorem properPrefixes_cons_cons (w v : List UInt8) (ws : List (List UInt8)) :
    properPrefixes (w :: v :: ws) = [w] :: (properPrefixes (v :: ws)).map (w :: ·) := by
  have hne : ws.inits ≠ [] := by cases ws <;> simp
  simp only [properPrefixes, List.inits_cons, List.tail_cons, List.map_cons]
  rw [List.dropLast_cons_of_ne_nil (by simpa using hne), List.map_dropLast]

@[simp] theorem runPathCalls_singleton (call : PathCall σ) (s : σ) :
    runPathCalls [call] s = call.run s := by
  rw [runPathCalls, runPathCalls]
  split_ifs with h
  · rw [← h]
  · rfl

theorem runPathCalls_append (calls calls' : List (PathCall σ)) (s : σ) :
    runPathCalls (calls ++ calls') s =
      if (runPathCalls calls s).1 = 0 then runPathCalls calls' (runPathCalls calls s).2
      else runPathCalls calls s := by
  induction calls generalizing s with
  | nil => rfl
  | cons call calls ih =>
    rw [List.cons_append, runPathCalls, runPathCalls]
    split_ifs with h
    · rw [ih, if_pos (by assumption)]
    · rw [ih, if_neg (by assumption)]
    · rfl

/-! ## The loop -/

section
variable (parent : Option (FspathCallback σ)) {buf : Block UInt8} {u v : List UInt8}

/-- The rest of a string. -/
theorem cstring_drop (h : cstring buf = some (u ++ v)) : cstring (buf.drop u.length) = some v := by
  obtain ⟨rest, rfl, hnul⟩ := exists_of_cstring h
  rw [List.map_append, List.append_assoc, List.drop_append_of_le_length (by simp),
    List.drop_eq_nil_of_le (by simp), List.nil_append]
  exact cstring_terminated (fun hv => hnul (List.mem_append_right _ hv)) rest

theorem idxOf?_delimiter {w : List UInt8} (hw : delimiter ∉ w) (t : List UInt8) :
    (w ++ delimiter :: t).idxOf? delimiter = some w.length := by
  induction w with
  | nil => simp [List.idxOf?_cons]
  | cons c w ih =>
    obtain ⟨hc, hw⟩ := not_or.1 (mt List.mem_cons.2 hw)
    rw [List.cons_append, List.idxOf?_cons, ih hw, if_neg (by simpa using Ne.symm hc)]
    rfl

/-- A call with a prefix that was cut off. -/
theorem callAt_eq {fspath basename : List UInt8} {pos : ℕ} (hpath : cstring buf = some fspath)
    (hbase : cstring (buf.drop pos) = some basename) (s : σ) :
    callAt parent buf pos s = some (PathCall.run ⟨parent, fspath, basename⟩ s) := by
  cases parent with
  | none => rfl
  | some callback => rw [callAt, hpath, hbase]; rfl

/-- The loop does nothing after a call that failed. -/
theorem downwardsLoop_failed {str : List UInt8} {pos : ℕ} (hstr : cstring (buf.drop pos) = some str)
    {retcode : ℤ} (hret : retcode ≠ 0) (fuel : ℕ) (s : σ) :
    downwardsLoop parent (fuel + 1) buf pos retcode s = some (retcode, pos, buf, s) := by
  rw [downwardsLoop, hstr, Option.bind_eq_bind, Option.bind_some]
  cases str.idxOf? delimiter with
  | none => rfl
  | some off => exact if_neg hret

/-- **One iteration**: the string is cut behind its first component, the function is
    called with this component, and the string is restored. -/
theorem downwardsLoop_step {w t : List UInt8} (hw : delimiter ∉ w)
    (hbuf : cstring buf = some (u ++ (w ++ delimiter :: t))) (fuel : ℕ) (s : σ) :
    downwardsLoop parent (fuel + 1) buf u.length 0 s =
      downwardsLoop parent fuel buf (u ++ w ++ [delimiter]).length
        (PathCall.run ⟨parent, u ++ w, w⟩ s).1 (PathCall.run ⟨parent, u ++ w, w⟩ s).2 := by
  have hstr := cstring_drop hbuf
  rw [← List.append_assoc] at hbuf
  obtain ⟨buf', hstore, hcut, -, hrestore⟩ := cutString hbuf
  have hcall := callAt_eq parent hcut (cstring_drop hcut) s
  have hlength : (u ++ w ++ [delimiter]).length = u.length + w.length + 1 := by
    simp [Nat.add_assoc]
  rw [List.length_append] at hstore hrestore
  rw [downwardsLoop, hstr, Option.bind_eq_bind, Option.bind_some, idxOf?_delimiter hw, hlength]
  simp only [if_true, Option.bind_eq_bind, hstore, Option.bind_some, hcall, hrestore]

/-- **The loop** calls the function for each proper prefix and restores the
    buffer. -/
theorem downwardsLoop_eq {abs : Bool} : ∀ (fuel : ℕ) (pre rest : List (List UInt8))
    {u : List UInt8}, rest ≠ [] → rest.length ≤ fuel → AreNames delimiter rest →
    cstring buf = some (u ++ [delimiter].intercalate rest) →
    (∀ ws, ws ≠ [] → u ++ [delimiter].intercalate ws = joinPath delimiter abs (pre ++ ws)) →
    ∀ s : σ,
      ∃ pos, downwardsLoop parent fuel buf u.length 0 s = some
          ((runPathCalls ((properPrefixes rest).map fun ps => prefixCall parent abs (pre ++ ps)) s).1,
            pos, buf,
            (runPathCalls ((properPrefixes rest).map fun ps => prefixCall parent abs (pre ++ ps)) s).2) ∧
        ((runPathCalls ((properPrefixes rest).map fun ps => prefixCall parent abs (pre ++ ps)) s).1 = 0 →
          cstring (buf.drop pos) = some (rest.getLast?.getD []))
  | _, _, [], _, hne, _, _, _, _, _ => absurd rfl hne
  | 0, _, _ :: _, _, _, hfuel, _, _, _, _ => absurd hfuel (Nat.not_succ_le_zero _)
  | fuel + 1, pre, [w], u, _, _, hnames, hbuf, _, s => by
    have hw := (hnames w List.mem_cons_self).2
    rw [List.intercalate_singleton] at hbuf
    have hstr := cstring_drop hbuf
    refine ⟨u.length, ?_, fun _ => hstr⟩
    rw [downwardsLoop, hstr, Option.bind_eq_bind, Option.bind_some, List.idxOf?_eq_none_iff.2 hw]
    rfl
  | fuel + 1, pre, w :: v :: rest, u, _, hfuel, hnames, hbuf, hpre, s => by
    have hw := (hnames w List.mem_cons_self).2
    have hjoin : [delimiter].intercalate (w :: v :: rest) =
        w ++ delimiter :: [delimiter].intercalate (v :: rest) := by
      rw [List.intercalate_cons_cons, List.append_assoc]
      rfl
    rw [hjoin] at hbuf
    have hcall : (⟨parent, u ++ w, w⟩ : PathCall σ) = prefixCall parent abs (pre ++ [w]) := by
      rw [prefixCall, List.getLast?_concat, ← hpre [w] (List.cons_ne_nil _ _),
        List.intercalate_singleton]
      rfl
    have hrest : cstring buf =
        some ((u ++ w ++ [delimiter]) ++ [delimiter].intercalate (v :: rest)) := by
      rw [hbuf]
      simp
    have hcalls :
        (properPrefixes (w :: v :: rest)).map (fun ps => prefixCall parent abs (pre ++ ps)) =
          prefixCall parent abs (pre ++ [w]) ::
            (properPrefixes (v :: rest)).map fun ps => prefixCall parent abs ((pre ++ [w]) ++ ps) := by
      rw [properPrefixes_cons_cons, List.map_cons, List.map_map]
      simp [Function.comp_def]
    rw [downwardsLoop_step parent hw hbuf, hcall, hcalls, runPathCalls]
    by_cases hret : ((prefixCall parent abs (pre ++ [w])).run s).1 = 0
    · rw [if_pos hret, hret]
      refine downwardsLoop_eq fuel (pre ++ [w]) (v :: rest) (List.cons_ne_nil _ _)
        (Nat.le_of_succ_le_succ hfuel) hnames.tail hrest (fun ws hws => ?_) _
      rw [List.append_assoc pre, List.singleton_append, ← hpre (w :: ws) (List.cons_ne_nil _ _),
        List.intercalate_cons_of_ne_nil hws]
      simp
    · rw [if_neg hret]
      refine ⟨(u ++ w ++ [delimiter]).length, ?_, fun h => absurd h hret⟩
      obtain ⟨n, rfl⟩ : ∃ n, fuel = n + 1 := Nat.exists_eq_succ_of_ne_zero (by
        rw [List.length_cons, List.length_cons] at hfuel
        omega)
      exact downwardsLoop_failed parent (cstring_drop hrest) hret n _

theorem load_zero {c : UInt8} {cs : List UInt8} (h : cstring buf = some (c :: cs)) :
    buf.load 0 = some c := by
  obtain ⟨rest, rfl, -⟩ := exists_of_cstring h
  rfl

/-- **The walk** over a stripped path. -/
theorem walkStripped_eq (final : Option (FspathCallback σ)) {p : List UInt8} (hne : p ≠ [])
    (hlen : buf.length = p.length + 1) (h : cstring buf = some (normalPath delimiter p)) (s : σ) :
    walkStripped parent final buf s = some (runPathCalls (walkCalls parent final p) s) := by
  have hnames : AreNames delimiter (components delimiter p) := areNames_components p
  have hnormal : normalPath delimiter p =
      (if isAbs delimiter p then [delimiter] else []) ++
        [delimiter].intercalate (components delimiter p) := rfl
  -- where the first component begins
  have hstart : ∀ pos : ℕ, pos = (if isAbs delimiter p then [delimiter] else []).length →
      walkStripped parent final buf s =
        (downwardsLoop parent buf.length buf pos 0 s).bind fun r =>
          if r.1 = 0 then callAt final r.2.2.1 r.2.1 r.2.2.2 else some (r.1, r.2.2.2) := by
    rintro pos rfl
    obtain ⟨c, cs, hc⟩ := List.exists_cons_of_ne_nil (mt (normalPath_eq_nil p).1 hne)
    have habs : isAbs delimiter p = decide (c = delimiter) := by
      rw [← isAbs_normalPath p, hc]
      simp [isAbs]
    rw [hc] at h
    rw [walkStripped, load_zero h, Option.bind_eq_bind, Option.bind_some, habs]
    by_cases hdelim : c = delimiter
    · simp [hdelim]
    · simp [hdelim]
  rw [hstart _ rfl, walkCalls, runPathCalls_append]
  by_cases hws : components delimiter p = []
  · -- the root directory has no components
    have habs : isAbs delimiter p = true := by
      by_contra habs
      rw [hws, Bool.eq_false_of_not_eq_true habs] at hnormal
      exact hne ((normalPath_eq_nil p).1 hnormal)
    rw [hws, habs] at hnormal ⊢
    have hroot : cstring buf = some ([delimiter] ++ []) := hnormal ▸ h
    have hrest := cstring_drop hroot
    rw [hlen, downwardsLoop, if_pos rfl, hrest, Option.bind_eq_bind, Option.bind_some]
    have hfinal := callAt_eq final hroot hrest s
    show callAt final buf 1 s = some (runPathCalls [prefixCall final true []] s)
    rw [runPathCalls_singleton]
    exact hfinal
  · have hfuel : (components delimiter p).length ≤ buf.length := by
      rw [hlen]
      exact (length_components_le p).trans (Nat.le_succ _)
    obtain ⟨pos, hloop, hpos⟩ := downwardsLoop_eq parent buf.length [] (components delimiter p) hws
      hfuel hnames (hnormal ▸ h) (fun ws _ => rfl) s
    rw [hloop, Option.bind_some]
    dsimp only [List.nil_append] at hpos ⊢
    split_ifs with hret
    · rw [callAt_eq final h (hpos hret), runPathCalls_singleton]
      rfl
    · rfl

/-- **Walking down a path.** -/
theorem fspathDownwardsDo_run (final : Option (FspathCallback σ)) {p : List UInt8} (hne : p ≠ [])
    (hnul : 0 ∉ p) {a : Allocator} (ha : a 0 = true) (s : σ) :
    (fspathDownwardsDo (some p) parent final s).run a =
      some (runPathCalls (walkCalls parent final p) s, fun n => a (n + 1)) := by
  obtain ⟨buf, hstrip, hlen, hstr⟩ := fspathStrip_granted hne hnul ha
  rw [fspathDownwardsDo, if_neg (by simpa using hne), StateT.run_bind, hstrip]
  show (defined (walkStripped parent final buf s)).run _ = _
  rw [walkStripped_eq parent final hne hlen hstr]
  rfl

end

end Fischstaebchen
