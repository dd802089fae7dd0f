/-
  Reading `/proc/<pid>/cmdline` and `/proc/<pid>/environ`
  (`common/fs/process_info.c`).

  The fields are collected in a dynstr, which is moved to the dynarray at each
  NUL and allocated again by the next char; whether it is allocated at the end
  tells whether there is one more field.

  * `Decoded`: what was read so far, as fields, the chars after the last NUL and
    whether the dynstr is allocated (`bufLoop_ensures`, `procReadLoop_ensures`).
  * `procReadEnvironOrCmdlineFromFd_iff`: the fields are appended, and one more for chars without
    a NUL, if and only if the file is not empty.
-/
import Fischstaebchen.Fs.Fileio

namespace Fischstaebchen

open Lib

/-! ## `_proc_read_environ_or_cmdline_from_fd` -/

/-- The dynarray, as the list of strings that it refines
    (`DynarrayState.RefinesList`), and the dynstr. -/
structure ProcFields where
  darr : List (Block UInt8)
  dynstr : DynstrData

/-- `dynarray_append_strnodup`; a refused request destroys the dynarray. -/
def ProcFields.append (st : ProcFields) (str : Block UInt8) : Alloc (ℤ × ProcFields) := do
  let granted ← request
  pure (if granted then (0, { st with darr := st.darr ++ [str] }) else (-1, { st with darr := [] }))

/-- `dynarray_append_dynstr_unref` (`common/data_types/str_dynarray.c`). -/
def dynarrayAppendDynstrUnref (st : ProcFields) : Alloc (ℤ × ProcFields) := do
  let r ← dynstrDataAppendNull st.dynstr
  if r.1 ≠ 0 then pure (-1, { st with dynstr := r.2 })
  else
    let (strData, dynstr) := dynstrDataUnref r.2
    match strData with
    | none => pure (-1, { st with dynstr })
    | some strData => do
      let r ← ({ st with dynstr } : ProcFields).append strData
      pure (if r.1 ≠ 0 then (-1, r.2) else (0, r.2))

/-- One char of the buffer. -/
def bufChar (st : ProcFields) (chr : UInt8) : Alloc (ℤ × ProcFields) :=
  if chr = 0 then dynarrayAppendDynstrUnref st
  else do
    let r ← dynstrDataAppendChar st.dynstr chr
    pure (r.1, { st with dynstr := r.2 })

/-- The loop over a buffer; a failure returns at once. -/
def bufLoop : List UInt8 → ProcFields → Alloc (ℤ × ProcFields)
  | [], st => pure (0, st)
  | chr :: buf, st => do
    let r ← bufChar st chr
    if r.1 ≠ 0 then pure (-1, r.2) else bufLoop buf r.2

/-- The read loop: the last `nbuf`, or none if a field could not be appended. -/
def procReadLoop : Reads → ProcFields → Alloc (Option ℤ × ProcFields)
  | [], st | some [] :: _, st => pure (some 0, st)
  | none :: _, st => pure (some (-1), st)
  | some buf :: reads, st => do
    let r ← bufLoop buf st
    if r.1 ≠ 0 then pure (none, r.2) else procReadLoop reads r.2

/-- `_proc_read_environ_or_cmdline_from_fd`, with a `p_darr` that is not NULL:
    the return code and the strings of the dynarray. -/
def procReadEnvironOrCmdlineFromFd (fd : Reads) (darr : List (Block UInt8)) :
    Alloc (ℤ × List (Block UInt8)) := do
  let r ← dynstrDataInit 0
  if r.1 ≠ 0 then pure (-1, darr)
  else
    let r ← procReadLoop fd ⟨darr, r.2⟩
    match r.1 with
    | none => pure (-1, r.2.darr)
    | some nbuf =>
      if nbuf < 0 then pure (-1, r.2.darr)
      else if r.2.dynstr.data ≠ none then do
        let r ← dynarrayAppendDynstrUnref r.2
        pure (if r.1 ≠ 0 then (-1, r.2.darr) else (0, r.2.darr))
      else pure (0, r.2.darr)

/-! ## What was read so far -/

/-- After reading `s`, the dynarray has got the terminated fields, and the dynstr
    holds the chars of the next one.  Without any, it is allocated only before
    the first field. -/
structure Decoded (darr : List (Block UInt8)) (s : List UInt8) (st : ProcFields)
    (fields : List (List UInt8)) (cur : List UInt8) : Prop where
  content : s = terminated 0 fields ++ cur
  noNul : ∀ w ∈ fields, 0 ∉ w
  noNulCur : 0 ∉ cur
  strs : ∃ strs, st.darr = darr ++ strs ∧ strs.map cstring = fields.map some
  holds : st.dynstr.Holds cur
  data : st.dynstr.data = none ↔ fields ≠ [] ∧ cur = []

section
variable {darr : List (Block UInt8)} {s : List UInt8} {st : ProcFields}
  {fields : List (List UInt8)} {cur : List UInt8}

theorem Decoded.length_le (h : Decoded darr s st fields cur) : cur.length ≤ s.length := by
  rw [h.content, List.length_append]
  exact Nat.le_add_left _ _

/-- A field is terminated and moved to the dynarray. -/
theorem dynarrayAppendDynstrUnref_ensures (hholds : st.dynstr.Holds cur) (hcur : 0 ∉ cur)
    (hsize : cur.length + 1 < sizeMax / 4) :
    Ensures False (dynarrayAppendDynstrUnref st) fun r => r.1 = 0 ∧ r.2.dynstr = .freed ∧
      ∃ str, r.2.darr = st.darr ++ [str] ∧ cstring str = some cur := by
  refine Outcome.bind (dynstrDataAppendNull_ensures hholds hsize)
    (fun d ⟨h, cells, hcells, hnul⟩ => ?_) False.elim
  obtain ⟨cells', hd, htake, -, -⟩ := h.data (by rw [hcells]; exact Option.some_ne_none _)
  obtain rfl : cells' = cells := by
    rw [hd] at hcells
    exact Option.some.inj hcells
  rw [h.length] at hnul
  rw [if_neg fun h => h rfl, hd]
  refine Ensures.bind (P := fun r => r = (0, ⟨st.darr ++ [cells'], .freed⟩))
    (ensures_request_bind (Ensures.pure rfl) False.elim) fun r hr => ?_
  · subst hr
    exact Ensures.pure ⟨rfl, rfl, cells', rfl, cstring_eq htake hnul hcur⟩

/-- **One char** keeps what was decoded. -/
theorem bufChar_ensures (h : Decoded darr s st fields cur) {chr : UInt8}
    (hsize : s.length + 1 < sizeMax / 4) :
    Ensures False (bufChar st chr) fun r => r.1 = 0 ∧
      ∃ fields cur, Decoded darr (s ++ [chr]) r.2 fields cur := by
  have hlen := h.length_le
  unfold bufChar
  by_cases hchr : chr = 0
  · subst hchr
    rw [if_pos rfl]
    refine (dynarrayAppendDynstrUnref_ensures h.holds h.noNulCur (by omega)).mono fun r hr => ?_
    obtain ⟨hret, hfreed, str, hdarr, hstr⟩ := hr
    obtain ⟨strs, hstrs, hmap⟩ := h.strs
    refine ⟨hret, fields ++ [cur], [], ⟨?_, ?_, List.not_mem_nil, ?_, ?_, ?_⟩⟩
    · rw [h.content, terminated_append, terminated_cons, terminated_nil, List.append_nil,
        List.append_assoc]
    · intro w hw
      rcases List.mem_append.1 hw with hw | hw
      · exact h.noNul w hw
      · rw [List.mem_singleton.1 hw]
        exact h.noNulCur
    · refine ⟨strs ++ [str], by rw [hdarr, hstrs, List.append_assoc], ?_⟩
      rw [List.map_append, List.map_append, hmap, List.map_singleton, List.map_singleton, hstr]
    · rw [hfreed]
      exact holds_freed
    · rw [hfreed]
      exact iff_of_true rfl ⟨List.append_ne_nil_of_right_ne_nil _ (List.cons_ne_nil _ _), rfl⟩
  · rw [if_neg hchr]
    refine Outcome.bind (dynstrDataAppendChar_ensures h.holds (by omega)) (fun d hd => ?_)
      False.elim
    refine Ensures.pure ⟨rfl, fields, cur ++ [chr], ⟨?_, h.noNul, ?_, h.strs, hd, ?_⟩⟩
    · rw [h.content, List.append_assoc]
    · rw [List.mem_append, List.mem_singleton, not_or]
      exact ⟨h.noNulCur, fun h0 => hchr h0.symm⟩
    · exact iff_of_false
        (hd.data_ne_none_of_ne_nil (List.append_ne_nil_of_right_ne_nil _ (List.cons_ne_nil _ _)))
        fun hand => List.append_ne_nil_of_right_ne_nil _ (List.cons_ne_nil _ _) hand.2

/-- A buffer. -/
theorem bufLoop_ensures {buf : List UInt8} (h : Decoded darr s st fields cur)
    (hsize : s.length + buf.length < sizeMax / 4) :
    Ensures False (bufLoop buf st) fun r => r.1 = 0 ∧
      ∃ fields cur, Decoded darr (s ++ buf) r.2 fields cur := by
  induction buf generalizing s st fields cur with
  | nil =>
    rw [List.append_nil]
    exact Ensures.pure ⟨rfl, fields, cur, h⟩
  | cons chr buf ih =>
    rw [List.length_cons] at hsize
    refine Ensures.bind (bufChar_ensures h (by omega)) fun r ⟨hret, fields', cur', h'⟩ => ?_
    have hcons : s ++ chr :: buf = s ++ [chr] ++ buf := by rw [List.append_assoc]; rfl
    rw [if_neg fun hne => hne hret, hcons]
    exact ih h' (by rw [List.length_append, List.length_singleton]; omega)

/-- **The whole file**, however it is split. -/
theorem procReadLoop_ensures {chunks : List (List UInt8)} (hchunks : ∀ c ∈ chunks, c ≠ [])
    (h : Decoded darr s st fields cur) (hsize : s.length + chunks.flatten.length < sizeMax / 4) :
    Ensures False (procReadLoop (chunks.map some) st) fun r => r.1 = some 0 ∧
      ∃ fields cur, Decoded darr (s ++ chunks.flatten) r.2 fields cur := by
  induction chunks generalizing s st fields cur with
  | nil =>
    rw [List.flatten_nil, List.append_nil]
    exact Ensures.pure ⟨rfl, fields, cur, h⟩
  | cons buf chunks ih =>
    obtain ⟨chr, rest, hbuf⟩ := List.exists_cons_of_ne_nil (hchunks buf List.mem_cons_self)
    rw [List.flatten_cons, List.length_append] at hsize
    have hloop : procReadLoop ((buf :: chunks).map some) st =
        (bufLoop buf st >>= fun r =>
          if r.1 ≠ 0 then pure (none, r.2) else procReadLoop (chunks.map some) r.2) := by
      rw [List.map_cons, hbuf, procReadLoop]
      exact List.cons_ne_nil _ _
    rw [hloop, List.flatten_cons, ← List.append_assoc]
    refine Ensures.bind (bufLoop_ensures h (by omega)) fun r ⟨hret, fields', cur', h'⟩ => ?_
    rw [if_neg fun hne => hne hret]
    exact ih (fun c hc => hchunks c (List.mem_cons_of_mem _ hc)) h'
      (by rw [List.length_append]; omega)

end

/-! ## Decoding -/

/-- The strings appended by `_proc_read_environ_or_cmdline_from_fd`, as C strings. -/
def DecodesTo (chunks : List (List UInt8)) (darr : List (Block UInt8))
    (fields : List (List UInt8)) : Prop :=
  ∃ strs a', (procReadEnvironOrCmdlineFromFd (chunks.map some) darr).run grantAll =
    some ((0, darr ++ strs), a') ∧ strs.map cstring = fields.map some

/-- What is appended if every request is granted and no read fails: the fields,
    and one more unless the dynstr was moved to the dynarray at the very end. -/
theorem procReadEnvironOrCmdlineFromFd_ensures {chunks strs : List (List UInt8)} {suffix : List UInt8}
    (hchunks : ∀ c ∈ chunks, c ≠ []) (hcontent : chunks.flatten = terminated 0 strs ++ suffix)
    (hstrs : ∀ s ∈ strs, 0 ∉ s) (hsuffix : 0 ∉ suffix)
    (hsize : chunks.flatten.length + 1 < sizeMax / 4) (darr : List (Block UInt8)) :
    Ensures False (procReadEnvironOrCmdlineFromFd (chunks.map some) darr) fun r => r.1 = 0 ∧
      ∃ new, r.2 = darr ++ new ∧ new.map cstring =
        (strs ++ if strs ≠ [] ∧ suffix = [] then [] else [suffix]).map some := by
  refine Outcome.bind dynstrDataInit_ensures (fun d ⟨hd, hdata⟩ => ?_) False.elim
  have hinit : Decoded darr [] ⟨darr, d⟩ [] [] :=
    ⟨rfl, nofun, List.not_mem_nil, ⟨[], (List.append_nil _).symm, rfl⟩, hd,
      iff_of_false hdata fun h => h.1 rfl⟩
  rw [if_neg fun h => h rfl]
  refine Ensures.bind (procReadLoop_ensures hchunks hinit (by rw [List.length_nil]; omega))
    fun r ⟨hret, fields, cur, h⟩ => ?_
  obtain ⟨ret, st⟩ := r
  obtain rfl : ret = some 0 := hret
  dsimp only at h ⊢
  rw [List.nil_append] at h
  obtain ⟨rfl, rfl⟩ := terminated_append_inj hstrs h.noNul hsuffix h.noNulCur
    (hcontent.symm.trans h.content)
  obtain ⟨new, hnew, hmap⟩ := h.strs
  rw [if_neg (lt_irrefl 0)]
  by_cases hnone : st.dynstr.data = none
  · have hend := h.data.1 hnone
    rw [if_neg fun hne => hne hnone]
    refine Ensures.pure ⟨rfl, new, hnew, ?_⟩
    rw [if_pos hend, List.append_nil, hmap]
  · have hend := h.data.not.1 hnone
    have hlen := h.length_le
    rw [if_pos hnone]
    refine Ensures.bind (dynarrayAppendDynstrUnref_ensures h.holds h.noNulCur (by omega))
      fun r ⟨hret, _, str, hdarr, hstr⟩ => ?_
    rw [if_neg fun hne => hne hret]
    refine Ensures.pure ⟨rfl, new ++ [str], by rw [hdarr, hnew, List.append_assoc], ?_⟩
    rw [if_neg hend, List.map_append, List.map_append, hmap, List.map_singleton,
      List.map_singleton, hstr]

/-- **Decoding** fields that each end with a NUL, and chars after the last NUL if
    there are any, appends exactly these if and only if the file is not empty. -/
theorem procReadEnvironOrCmdlineFromFd_iff {chunks strs : List (List UInt8)} {suffix : List UInt8}
    (hchunks : ∀ c ∈ chunks, c ≠ []) (hcontent : chunks.flatten = terminated 0 strs ++ suffix)
    (hstrs : ∀ s ∈ strs, 0 ∉ s) (hsuffix : 0 ∉ suffix)
    (hsize : chunks.flatten.length + 1 < sizeMax / 4) (darr : List (Block UInt8)) :
    DecodesTo chunks darr (strs ++ if suffix = [] then [] else [suffix]) ↔
      ¬ (strs = [] ∧ suffix = []) := by
  obtain ⟨⟨ret, out⟩, a', hrun, -, hret, new, hout, hnew⟩ :=
    procReadEnvironOrCmdlineFromFd_ensures hchunks hcontent hstrs hsuffix hsize darr _
      (.inr fun _ => rfl)
  obtain rfl : ret = 0 := hret
  obtain rfl : out = darr ++ new := hout
  constructor
  · rintro ⟨new', a'', hrun', hnew'⟩ ⟨rfl, rfl⟩
    unfold grantAll at hrun'
    rw [hrun] at hrun'
    obtain rfl : new = new' := by
      have := (Prod.mk.inj (Prod.mk.inj (Option.some.inj hrun')).1).2
      exact List.append_cancel_left this
    rw [hnew'] at hnew
    cases hnew
  · intro hne
    refine ⟨new, a', hrun, ?_⟩
    rw [hnew]
    by_cases hsuf : suffix = []
    · rw [if_pos hsuf, if_pos ⟨fun hnil => hne ⟨hnil, hsuf⟩, hsuf⟩]
    · rw [if_neg hsuf, if_neg fun h => hsuf h.2]

/-- Two arguments, the second one empty, that arrive in two pieces. -/
theorem procReadEnvironOrCmdlineFromFd_iff_two :
    DecodesTo [[0x6C], [0x73, 0x00, 0x00]] [] [[0x6C, 0x73], []] := by
  have hchunks : ∀ c ∈ [[0x6C], [0x73, 0x00, 0x00]], c ≠ ([] : List UInt8) := by simp
  have hcontent : [[0x6C], [0x73, 0x00, 0x00]].flatten =
      terminated 0 [[0x6C, 0x73], []] ++ ([] : List UInt8) := rfl
  have hstrs : ∀ s ∈ [[0x6C, 0x73], ([] : List UInt8)], 0 ∉ s := by simp
  exact (procReadEnvironOrCmdlineFromFd_iff hchunks hcontent hstrs List.not_mem_nil (by decide) []).2
    fun h => absurd h.1 (List.cons_ne_nil _ _)

/-- An empty file, such as the `cmdline` of a kernel thread, yields an empty
    argument. -/
theorem procReadEnvironOrCmdlineFromFd_empty :
    ¬ DecodesTo [] [] [] ∧ DecodesTo [] [] [[]] := by
  have hrun : (procReadEnvironOrCmdlineFromFd [] []).run grantAll =
      some ((0, [[some 0, none]]), grantAll) := rfl
  refine ⟨?_, [[some 0, none]], grantAll, hrun, rfl⟩
  rintro ⟨strs, a', hrun', hstrs⟩
  obtain rfl : strs = [] := List.map_eq_nil_iff.1 hstrs
  have := hrun.symm.trans hrun'
  cases this

end Fischstaebchen
