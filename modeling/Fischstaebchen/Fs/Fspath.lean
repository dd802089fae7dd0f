/-
  File system paths (`common/fs/fspath.c`).

  `fspath_strip` copies a path without superfluous slashes into a new buffer;
  the other functions cut such a copy at its slashes.

  * `stripLoop_eq`: the copy loop stays within the buffer and leaves out what
    `trimmed` does.
  * `fspathStrip_granted`: hence the copy is the normal form of the path.
  * `fspathStrip_normalForm`: what this means for the string.
-/
import Fischstaebchen.DataTypes.Dynstr
import Fischstaebchen.Lib.Path

namespace Fischstaebchen

open Lib

/-- `DELIMITER`. -/
def delimiter : UInt8 := 0x2F

/-! ## Stripping a path -/

/-- The `while` loop of `fspath_strip`, on the rest of the path and the position
    of `p_buf`. -/
def stripLoop : ℕ → List UInt8 → Block UInt8 → ℕ → Option (Block UInt8 × ℕ)
  | 0, _, _, _ => none
  | _ + 1, [], buf, pBuf => some (buf, pBuf)
  | fuel + 1, c :: pathIter, buf, pBuf =>
    if c = delimiter then
      -- do { p_path_iter++; } while ( *p_path_iter == DELIMITER )
      let pathIter := pathIter.dropWhile (· == delimiter)
      if pathIter ≠ [] then do
        let buf ← buf.store pBuf delimiter
        stripLoop fuel pathIter buf (pBuf + 1)
      else stripLoop fuel pathIter buf pBuf
    else do
      let buf ← buf.store pBuf c
      stripLoop fuel pathIter buf (pBuf + 1)

/-- What `fspath_strip` writes to its buffer. -/
def stripInto (path : List UInt8) (buf : Block UInt8) : Option (Block UInt8) := do
  let r ← stripLoop (path.length + 1) path buf 0
  let buf ← r.1.store r.2 0
  let first ← buf.load 0
  if first = 0 ∧ path.head? = some delimiter then
    -- restore "/"
    let buf ← buf.store 0 delimiter
    buf.store 1 0
  else some buf

/-- `fspath_strip`: NULL, or the buffer at the pointer that is returned. -/
def fspathStrip (path : Option (List UInt8)) : Alloc (Option (Block UInt8)) :=
  match path with
  | none | some [] => pure none
  | some path => do
    let granted ← request
    if granted then
      let buf ← defined (stripInto path (Block.fresh (path.length + 1)))
      pure (some buf)
    else pure none

/-- **The copy loop** stays within the buffer. -/
theorem stripLoop_eq : ∀ (fuel : ℕ) {p l : List UInt8} (buf : Block UInt8), p.length < fuel →
    buf.take l.length = l.map some → l.length + p.length < buf.length →
    ∃ buf', stripLoop fuel p buf l.length = some (buf', (l ++ trimmed delimiter p).length) ∧
      buf'.length = buf.length ∧
      buf'.take (l ++ trimmed delimiter p).length = (l ++ trimmed delimiter p).map some
  | 0, _, _, _, hfuel, _, _ => absurd hfuel (Nat.not_lt_zero _)
  | _ + 1, [], l, buf, _, htake, _ => by
    have hl : l ++ trimmed delimiter [] = l := List.append_nil l
    exact ⟨buf, by rw [hl]; rfl, rfl, by rw [hl]; exact htake⟩
  | fuel + 1, c :: p, l, buf, hfuel, htake, hroom => by
    rw [List.length_cons] at hfuel hroom
    have hin : l.length < buf.length := by omega
    -- writing a character and copying the rest of the path
    have hwrite : ∀ (x : UInt8) (q : List UInt8), q.length ≤ p.length →
        ∃ buf', (buf.store l.length x).bind (fun buf => stripLoop fuel q buf (l.length + 1)) =
            some (buf', (l ++ x :: trimmed delimiter q).length) ∧ buf'.length = buf.length ∧
          buf'.take (l ++ x :: trimmed delimiter q).length =
            (l ++ x :: trimmed delimiter q).map some := by
      intro x q hq
      have hlen : (l ++ [x]).length = l.length + 1 := by simp
      obtain ⟨buf₁, hstore, hlen₁, htake₁⟩ := Block.store_next htake hin x
      obtain ⟨buf', hrun, hlength, htake'⟩ := stripLoop_eq fuel (p := q) (l := l ++ [x]) buf₁
        (by omega) (by rw [hlen]; exact htake₁) (by omega)
      rw [List.append_assoc, List.singleton_append] at hrun htake'
      rw [hlen] at hrun
      exact ⟨buf', by rw [hstore]; exact hrun, hlength.trans hlen₁, htake'⟩
    rw [stripLoop]
    by_cases hc : c = delimiter
    · subst hc
      have hdrop := (List.dropWhile_sublist (l := p) (· == delimiter)).length_le
      rw [if_pos rfl, trimmed_cons_sep]
      by_cases hend : p.dropWhile (· == delimiter) = []
      · have hnil := stripLoop_eq fuel (p := []) (l := l) buf
          (by rw [List.length_nil]; omega) htake (by rw [List.length_nil]; omega)
        rw [if_neg (by rw [hend]; exact fun h => h rfl), if_pos hend, hend]
        exact hnil
      · rw [if_pos hend, if_neg hend]
        exact hwrite delimiter _ hdrop
    · rw [if_neg hc, trimmed_cons_word p hc]
      exact hwrite c p le_rfl

/-- A string that is terminated. -/
theorem cstring_of_take {buf : Block UInt8} {l : List UInt8}
    (htake : buf.take (l.length + 1) = (l ++ [0]).map some) (hl : 0 ∉ l) : cstring buf = some l := by
  have hlen : l.length + 1 = (l ++ [0]).length := by simp
  have hload : buf.load l.length = (l ++ [0])[l.length]? :=
    Block.load_of_take htake (Nat.lt_succ_self _)
  rw [hlen] at htake
  refine cstring_eq (Block.take_of_append htake) ?_ hl
  rw [hload]
  simp

/-- The root path is restored. -/
theorem restoreRoot_eq (buf : Block UInt8) (hlen : 2 ≤ buf.length) :
    ∃ buf', ((buf.store 0 delimiter).bind fun buf => buf.store 1 0) = some buf' ∧
      buf'.length = buf.length ∧ cstring buf' = some [delimiter] := by
  obtain ⟨buf₁, hstore₁, hlen₁, htake₁⟩ :=
    Block.store_next (b := buf) (l := []) rfl (by rw [List.length_nil]; omega) delimiter
  obtain ⟨buf₂, hstore₂, hlen₂, htake₂⟩ :=
    Block.store_next (b := buf₁) (l := [delimiter]) htake₁ (by rw [List.length_singleton]; omega)
      (0 : UInt8)
  refine ⟨buf₂, ?_, by omega, cstring_of_take (l := [delimiter]) htake₂ (by decide)⟩
  have hstore : buf.store 0 delimiter = some buf₁ := hstore₁
  rw [hstore]
  exact hstore₂

/-- What is written to the buffer is the normal form. -/
theorem stripInto_eq {p : List UInt8} (hne : p ≠ []) (hnul : 0 ∉ p) (buf : Block UInt8)
    (hlen : buf.length = p.length + 1) :
    ∃ buf', stripInto p buf = some buf' ∧ buf'.length = p.length + 1 ∧
      cstring buf' = some (normalPath delimiter p) := by
  have hsub : (trimmed delimiter p).Sublist p := trimmed_sublist p
  have hle := hsub.length_le
  have hnulTrimmed : (0 : UInt8) ∉ trimmed delimiter p := fun h => hnul (hsub.subset h)
  have hpos := List.length_pos_iff.2 hne
  obtain ⟨buf₁, hrun, hlen₁, htake₁⟩ := stripLoop_eq (p.length + 1) (p := p) (l := []) buf
    (Nat.lt_succ_self _) rfl (by rw [List.length_nil]; omega)
  rw [List.nil_append] at hrun htake₁
  obtain ⟨buf₂, hstore, hlen₂, htake₂⟩ := Block.store_next htake₁ (by omega) (0 : UInt8)
  have hfirst : buf₂.load 0 = (trimmed delimiter p ++ [0])[0]? :=
    Block.load_of_take htake₂ (Nat.zero_lt_succ _)
  have hrun' : stripLoop (p.length + 1) p buf 0 = some (buf₁, (trimmed delimiter p).length) := hrun
  rw [stripInto, hrun']
  simp only [Option.bind_eq_bind, Option.bind_some, hstore, hfirst]
  rw [normalPath_of_trimmed]
  cases htrim : trimmed delimiter p with
  | nil =>
    rw [List.nil_append, List.getElem?_cons_zero, Option.bind_some]
    by_cases habs : p.head? = some delimiter
    · obtain ⟨buf₃, hrestore, hlen₃, hstr⟩ := restoreRoot_eq buf₂ (by omega)
      rw [if_pos ⟨rfl, habs⟩, if_pos ⟨rfl, decide_eq_true habs⟩]
      exact ⟨buf₃, hrestore, by omega, hstr⟩
    · obtain ⟨c, cs, rfl⟩ := List.exists_cons_of_ne_nil hne
      have hc : c ≠ delimiter := fun hc => habs (by rw [hc]; rfl)
      rw [trimmed_cons_word cs hc] at htrim
      cases htrim
  | cons c cs =>
    have hc : c ≠ 0 := fun hc => hnulTrimmed (by rw [htrim, hc]; exact List.mem_cons_self)
    rw [List.cons_append, List.getElem?_cons_zero, Option.bind_some, if_neg fun h => hc h.1,
      if_neg fun h => List.cons_ne_nil _ _ h.1, ← htrim]
    exact ⟨buf₂, rfl, by omega, cstring_of_take htake₂ hnulTrimmed⟩

theorem fspathStrip_of_ne_nil {p : List UInt8} (hne : p ≠ []) :
    fspathStrip (some p) = request >>= fun granted =>
      if granted then
        defined (stripInto p (Block.fresh (p.length + 1))) >>= fun buf => pure (some buf)
      else pure none := by
  obtain ⟨c, cs, rfl⟩ := List.exists_cons_of_ne_nil hne
  rfl

/-- **The copy is the normal form**, in a buffer that is as long as the path. -/
theorem fspathStrip_granted {p : List UInt8} (hne : p ≠ []) (hnul : 0 ∉ p) {a : Allocator}
    (ha : a 0 = true) :
    ∃ buf, (fspathStrip (some p)).run a = some (some buf, fun n => a (n + 1)) ∧
      buf.length = p.length + 1 ∧ cstring buf = some (normalPath delimiter p) := by
  obtain ⟨buf, hinto, hlen, hstr⟩ := stripInto_eq hne hnul (Block.fresh (p.length + 1))
    Block.length_fresh
  refine ⟨buf, ?_, hlen, hstr⟩
  rw [fspathStrip_of_ne_nil hne, run_request_bind, ha, if_pos rfl, hinto]
  rfl

theorem fspathStrip_refused {p : List UInt8} (hne : p ≠ []) {a : Allocator} (ha : a 0 = false) :
    (fspathStrip (some p)).run a = some (none, fun n => a (n + 1)) := by
  rw [fspathStrip_of_ne_nil hne, run_request_bind, ha]
  rfl

/-- `q` is `p` in normal form. -/
structure StrippedFrom (p q : List UInt8) : Prop where
  isAbs : isAbs delimiter q = isAbs delimiter p
  components : components delimiter q = components delimiter p
  noRepeat : ¬ [delimiter, delimiter] <:+: q
  noTrailing : q.getLast? = some delimiter → q = [delimiter]
  length : q.length ≤ p.length

theorem strippedFrom_normalPath (p : List UInt8) : StrippedFrom p (normalPath delimiter p) where
  isAbs := isAbs_normalPath p
  components := components_normalPath p
  noRepeat := (isNormal_normalPath p).noRepeat
  noTrailing := (isNormal_normalPath p).noTrailing
  length := length_normalPath_le p

theorem not_mem_normalPath {p : List UInt8} (hnul : 0 ∉ p) : 0 ∉ normalPath delimiter p :=
  fun h => hnul ((normalPath_sublist p).subset h)

/-- **Path normal form**: the run stays within a buffer with one byte more than
    the path has, the string is the path in normal form, and stripping it again
    does not change it. -/
theorem fspathStrip_normalForm {p : List UInt8} (hne : p ≠ []) (hnul : 0 ∉ p) {a : Allocator}
    (ha : a 0 = true) :
    ∃ buf q a', (fspathStrip (some p)).run a = some (some buf, a') ∧
      buf.length = p.length + 1 ∧ cstring buf = some q ∧ StrippedFrom p q ∧
      ∀ b : Allocator, b 0 = true →
        ∃ buf' b', (fspathStrip (some q)).run b = some (some buf', b') ∧ cstring buf' = some q := by
  obtain ⟨buf, hrun, hlen, hstr⟩ := fspathStrip_granted hne hnul ha
  refine ⟨buf, normalPath delimiter p, _, hrun, hlen, hstr, strippedFrom_normalPath p,
    fun b hb => ?_⟩
  have hne' : normalPath delimiter p ≠ [] := mt (normalPath_eq_nil p).1 hne
  obtain ⟨buf', hrun', -, hstr'⟩ := fspathStrip_granted hne' (not_mem_normalPath hnul) hb
  rw [normalPath_idem] at hstr'
  exact ⟨buf', _, hrun', hstr'⟩

/-- `//a//b/`. -/
theorem fspathStrip_normalForm_slashes :
    ∃ buf q a', (fspathStrip (some [0x2F, 0x2F, 0x61, 0x2F, 0x2F, 0x62, 0x2F])).run
          (fun _ => true) = some (some buf, a') ∧
      buf.length = 8 ∧ cstring buf = some q ∧
      StrippedFrom [0x2F, 0x2F, 0x61, 0x2F, 0x2F, 0x62, 0x2F] q ∧
      ∀ b : Allocator, b 0 = true →
        ∃ buf' b', (fspathStrip (some q)).run b = some (some buf', b') ∧ cstring buf' = some q :=
  fspathStrip_normalForm (by simp) (by simp) rfl

/-! ## Strings in a buffer -/

/-- A string and what follows it in its buffer. -/
theorem exists_of_cstring {l : List UInt8} : ∀ {buf : Block UInt8}, cstring buf = some l →
    ∃ rest, buf = l.map some ++ some 0 :: rest ∧ 0 ∉ l
  | [], h => nomatch h
  | none :: _, h => nomatch h
  | some chr :: cells, h => by
    rw [cstring] at h
    split_ifs at h with hchr
    · cases h
      rw [hchr]
      exact ⟨cells, rfl, List.not_mem_nil⟩
    · obtain ⟨l', hl', rfl⟩ := Option.map_eq_some_iff.1 h
      obtain ⟨rest, rfl, hnul⟩ := exists_of_cstring hl'
      refine ⟨rest, rfl, fun hmem => ?_⟩
      rcases List.mem_cons.1 hmem with heq | hmem
      · exact hchr heq.symm
      · exact hnul hmem

theorem cstring_terminated {l : List UInt8} (hl : 0 ∉ l) (rest : Block UInt8) :
    cstring (l.map some ++ some 0 :: rest) = some l := by
  rw [cstring_append hl, cstring, if_pos rfl, Option.map_some, List.append_nil]

/-- **Cutting a string** at a character, which is then restored. -/
theorem cutString {u v : List UInt8} {c : UInt8} {buf : Block UInt8}
    (h : cstring buf = some (u ++ c :: v)) :
    ∃ buf', buf.store u.length 0 = some buf' ∧ cstring buf' = some u ∧
      cstring (buf'.drop (u.length + 1)) = some v ∧ buf'.store u.length c = some buf := by
  obtain ⟨rest, rfl, hnul⟩ := exists_of_cstring h
  rw [List.mem_append, not_or] at hnul
  have hv : (0 : UInt8) ∉ v := fun hv => hnul.2 (List.mem_cons_of_mem _ hv)
  have hset : ∀ x : UInt8, Block.store
      (u.map some ++ some x :: (v.map some ++ some 0 :: rest)) u.length = fun y =>
        some (u.map some ++ some y :: (v.map some ++ some 0 :: rest)) := by
    intro x
    funext y
    rw [Block.store_eq_some (by simp), List.set_append_right _ _ (by simp)]
    simp
  have hbuf : (u ++ c :: v).map some ++ some 0 :: rest =
      u.map some ++ some c :: (v.map some ++ some 0 :: rest) := by simp
  rw [hbuf]
  refine ⟨u.map some ++ some 0 :: (v.map some ++ some 0 :: rest), ?_, ?_, ?_, ?_⟩
  · rw [hset]
  · exact cstring_terminated hnul.1 _
  · rw [List.drop_append]
    simp only [List.length_map, Nat.add_sub_cancel_left, List.drop_succ_cons, List.drop_zero]
    rw [List.drop_eq_nil_of_le (by simp), List.nil_append]
    exact cstring_terminated hv rest
  · rw [hset]

/-! ## Dirname and basename -/

/-- A `const char*` of `struct fspath_info`: NULL, a string literal, or a
    position in the buffer. -/
inductive PathPtr where
  | null
  | literal (str : List UInt8)
  | inBuf (pos : ℕ)

/-- `struct fspath_info`. -/
structure FspathInfo where
  path : Option (Block UInt8)
  basename : PathPtr
  dirname : PathPtr

/-- The string at a pointer. -/
def FspathInfo.deref (info : FspathInfo) : PathPtr → Option (List UInt8)
  | .null => none
  | .literal str => some str
  | .inBuf pos => info.path.bind fun buf => cstring (buf.drop pos)

/-- `strrchr ( s, c )`, as the position of the last `c`. -/
def strrchr : List UInt8 → UInt8 → Option ℕ
  | [], _ => none
  | x :: s, c =>
    match strrchr s c with
    | some pos => some (pos + 1)
    | none => if x = c then some 0 else none

/-- `"."`. -/
def dot : List UInt8 := [0x2E]

/-- The part of `fspath_get_dirname_basename` after the path was stripped. -/
def splitStripped (buf : Block UInt8) : Option FspathInfo := do
  let str ← cstring buf
  match strrchr str delimiter with
  | none => pure ⟨some buf, .inBuf 0, .literal dot⟩
  | some 0 => pure ⟨some buf, .inBuf 0, .inBuf 0⟩
  | some pSplit =>
    let buf ← buf.store pSplit 0
    pure ⟨some buf, .inBuf (pSplit + 1), .inBuf 0⟩

/-- `fspath_get_dirname_basename`. -/
def fspathGetDirnameBasename (path : Option (List UInt8)) : Alloc (ℤ × FspathInfo) := do
  let buf ← fspathStrip path
  match buf with
  | none =>
    if path = none then pure (-1, ⟨none, .null, .null⟩)
    else pure (0, ⟨none, .literal [], .literal dot⟩)
  | some buf =>
    let info ← defined (splitStripped buf)
    pure (0, info)

theorem strrchr_eq_none {s : List UInt8} {c : UInt8} (h : c ∉ s) : strrchr s c = none := by
  induction s with
  | nil => rfl
  | cons x s ih =>
    obtain ⟨hx, hs⟩ := not_or.1 (mt List.mem_cons.2 h)
    rw [strrchr, ih hs]
    exact if_neg fun h => hx h.symm

theorem strrchr_append {v : List UInt8} {c : UInt8} (h : c ∉ v) (u : List UInt8) :
    strrchr (u ++ c :: v) c = some u.length := by
  induction u with
  | nil =>
    rw [List.nil_append, strrchr, strrchr_eq_none h]
    exact if_pos rfl
  | cons x u ih => rw [List.cons_append, strrchr, ih, List.length_cons]

/-- The parent directory of a path. -/
def parentPath (p : List UInt8) : List UInt8 :=
  if isAbs delimiter p = false ∧ (components delimiter p).length ≤ 1 then dot
  else joinPath delimiter (isAbs delimiter p) (components delimiter p).dropLast

/-- Dirname and basename joined again. -/
def rejoin (q dirname basename : List UInt8) : List UInt8 :=
  if dirname = dot ∧ delimiter ∉ q then basename
  else if dirname = [delimiter] then if q = [delimiter] then [delimiter] else delimiter :: basename
  else dirname ++ delimiter :: basename

/-- A correct dirname and basename of a path. -/
structure SplitsPath (p dirname basename : List UInt8) : Prop where
  noSlash : delimiter ∉ basename ∨ normalPath delimiter p = [delimiter]
  rejoins : rejoin (normalPath delimiter p) dirname basename = normalPath delimiter p
  parent : dirname = parentPath p

/-- `fspath_get_dirname_basename` splits a path, if it can allocate. -/
def Splits (p : List UInt8) (a : Allocator) : Prop :=
  ∃ info dirname basename a', (fspathGetDirnameBasename (some p)).run a = some ((0, info), a') ∧
    info.deref info.dirname = some dirname ∧ info.deref info.basename = some basename ∧
    SplitsPath p dirname basename

/-- A single component of an absolute path. -/
def BelowRoot (p : List UInt8) : Prop :=
  isAbs delimiter p = true ∧ (components delimiter p).length = 1

section
variable {buf : Block UInt8} {q u v : List UInt8}

/-- Without a slash, there is no dirname. -/
theorem splitStripped_noSlash (h : cstring buf = some q) (hslash : delimiter ∉ q) :
    splitStripped buf = some ⟨some buf, .inBuf 0, .literal dot⟩ := by
  rw [splitStripped, h, Option.bind_eq_bind, Option.bind_some, strrchr_eq_none hslash]
  rfl

/-- With a slash at the beginning only, dirname and basename are the whole path. -/
theorem splitStripped_first (h : cstring buf = some (delimiter :: v)) (hv : delimiter ∉ v) :
    splitStripped buf = some ⟨some buf, .inBuf 0, .inBuf 0⟩ := by
  have hpos : strrchr (delimiter :: v) delimiter = some 0 := strrchr_append hv []
  rw [splitStripped, h, Option.bind_eq_bind, Option.bind_some, hpos]
  rfl

/-- At a later slash, the path is cut. -/
theorem splitStripped_later (h : cstring buf = some (u ++ delimiter :: v)) (hu : u ≠ [])
    (hv : delimiter ∉ v) :
    ∃ buf', splitStripped buf = some ⟨some buf', .inBuf (u.length + 1), .inBuf 0⟩ ∧
      cstring buf' = some u ∧ cstring (buf'.drop (u.length + 1)) = some v := by
  obtain ⟨buf', hstore, hdir, hbase, -⟩ := cutString h
  obtain ⟨c, u, rfl⟩ := List.exists_cons_of_ne_nil hu
  refine ⟨buf', ?_, hdir, hbase⟩
  rw [splitStripped, h, Option.bind_eq_bind, Option.bind_some, strrchr_append hv]
  rw [List.length_cons] at hstore ⊢
  show (buf.store (u.length + 1) 0).bind _ = _
  rw [hstore]
  rfl

end

/-- The run, if the path can be stripped. -/
theorem getDirnameBasename_run {p : List UInt8} {a a' : Allocator} {buf : Block UInt8}
    {info : FspathInfo} (hrun : (fspathStrip (some p)).run a = some (some buf, a'))
    (hsplit : splitStripped buf = some info) :
    (fspathGetDirnameBasename (some p)).run a = some ((0, info), a') := by
  rw [fspathGetDirnameBasename, StateT.run_bind, hrun]
  show ((defined (splitStripped buf) >>= fun info => pure (0, info)) : Alloc _).run a' = _
  rw [hsplit]
  rfl

/-- There is nothing to choose about what is split off. -/
theorem splits_iff {p : List UInt8} {a a' : Allocator} {info : FspathInfo}
    {dirname basename : List UInt8}
    (hrun : (fspathGetDirnameBasename (some p)).run a = some ((0, info), a'))
    (hdir : info.deref info.dirname = some dirname)
    (hbase : info.deref info.basename = some basename) :
    Splits p a ↔ SplitsPath p dirname basename := by
  constructor
  · rintro ⟨info', dirname', basename', b, hrun', hdir', hbase', hsplits⟩
    rw [hrun] at hrun'
    cases hrun'
    rw [hdir] at hdir'
    rw [hbase] at hbase'
    cases hdir'
    cases hbase'
    exact hsplits
  · exact fun hsplits => ⟨info, dirname, basename, a', hrun, hdir, hbase, hsplits⟩

/-- **When a path is split correctly**: unless it is a file in the root directory. -/
theorem splits_iff_not_belowRoot {p : List UInt8} (hne : p ≠ []) (hnul : 0 ∉ p) {a : Allocator}
    (ha : a 0 = true) : Splits p a ↔ ¬ BelowRoot p := by
  obtain ⟨buf, hstrip, -, hstr⟩ := fspathStrip_granted hne hnul ha
  have hnames : AreNames delimiter (components delimiter p) := areNames_components p
  have hnormal : normalPath delimiter p =
      joinPath delimiter (isAbs delimiter p) (components delimiter p) := rfl
  unfold BelowRoot
  rcases List.eq_nil_or_concat (components delimiter p) with hws | ⟨ws, w, hws⟩
  · -- the root directory
    have habs : isAbs delimiter p = true := by
      by_contra habs
      have hnil : normalPath delimiter p = [] := by
        rw [hnormal, hws, Bool.eq_false_of_not_eq_true habs]
        rfl
      exact hne ((normalPath_eq_nil p).1 hnil)
    have hroot : normalPath delimiter p = [delimiter] := by rw [hnormal, hws, habs]; rfl
    rw [hroot] at hstr
    have hsplit := splitStripped_first hstr List.not_mem_nil
    refine iff_of_true ((splits_iff (getDirnameBasename_run hstrip hsplit) hstr hstr).2 ?_) ?_
    · refine ⟨Or.inr hroot, ?_, ?_⟩
      · rw [hroot]
        rfl
      · rw [parentPath, hws, habs]
        rfl
    · rw [hws]
      exact fun h => absurd h.2 (by simp)
  · rw [List.concat_eq_append] at hws
    rw [hws] at hnames hnormal
    obtain ⟨hwne, hw⟩ := hnames w (by simp)
    by_cases hws' : ws = []
    · rw [hws', List.nil_append, joinPath_singleton] at hnormal
      rw [hws', List.nil_append] at hws
      cases habs : isAbs delimiter p with
      | false =>
        rw [habs, if_neg Bool.false_ne_true, List.nil_append] at hnormal
        rw [hnormal] at hstr
        have hsplit := splitStripped_noSlash hstr hw
        refine iff_of_true ((splits_iff (getDirnameBasename_run hstrip hsplit) rfl hstr).2 ?_)
          fun h => Bool.false_ne_true h.1
        refine ⟨Or.inl hw, ?_, ?_⟩
        · rw [hnormal, rejoin, if_pos ⟨rfl, hw⟩]
        · rw [parentPath, habs, hws]
          rfl
      | true =>
        -- a single slash, at the beginning
        rw [habs, if_pos rfl, List.singleton_append] at hnormal
        rw [hnormal] at hstr
        have hsplit := splitStripped_first hstr hw
        refine iff_of_false (fun h => ?_) fun h => h ⟨rfl, by rw [hws]; rfl⟩
        obtain ⟨hnoSlash, -, -⟩ :=
          (splits_iff (getDirnameBasename_run hstrip hsplit) hstr hstr).1 h
        rcases hnoSlash with hnoSlash | hroot
        · exact hnoSlash List.mem_cons_self
        · rw [hnormal] at hroot
          exact hwne (List.cons.inj hroot).2
    · rw [joinPath_concat hws'] at hnormal
      rw [hnormal] at hstr
      have hne' : joinPath delimiter (isAbs delimiter p) ws ≠ [] :=
        fun h => hws' ((joinPath_eq_nil hnames.append_left).1 h).2
      have hlen : 1 < (components delimiter p).length := by
        have hpos := List.length_pos_iff.2 hws'
        rw [hws, List.length_append, List.length_singleton]
        omega
      obtain ⟨buf', hsplit, hdir, hbase⟩ := splitStripped_later hstr hne' hw
      refine iff_of_true ((splits_iff (getDirnameBasename_run hstrip hsplit) hdir hbase).2 ?_)
        fun h => by omega
      refine ⟨Or.inl hw, ?_, ?_⟩
      · rw [hnormal, rejoin, if_neg fun h => h.2 (by simp), if_neg fun h => ?_]
        -- the dirname is not the root, as it has components
        have hroot : joinPath delimiter (isAbs delimiter p) ws = joinPath delimiter true [] := h
        exact hws' (joinPath_inj hnames.append_left (fun _ hw => absurd hw List.not_mem_nil) hroot).2
      · rw [parentPath, if_neg fun h => by omega, hws, List.dropLast_concat]

/-- `usr//bin/`. -/
theorem splits_iff_usr_bin :
    Splits [0x75, 0x73, 0x72, 0x2F, 0x2F, 0x62, 0x69, 0x6E, 0x2F] (fun _ => true) ↔
      ¬ BelowRoot [0x75, 0x73, 0x72, 0x2F, 0x2F, 0x62, 0x69, 0x6E, 0x2F] :=
  splits_iff_not_belowRoot (by simp) (by simp) rfl

/-- `/init` is its own dirname and basename. -/
theorem not_splits_init : ¬ Splits [0x2F, 0x69, 0x6E, 0x69, 0x74] fun _ => true := by
  rintro ⟨info, dirname, basename, a', hrun, -, hbase, hnoSlash, -, -⟩
  have hinfo : (fspathGetDirnameBasename (some [0x2F, 0x69, 0x6E, 0x69, 0x74])).run (fun _ => true) =
      some ((0, ⟨some ([0x2F, 0x69, 0x6E, 0x69, 0x74, 0].map some), .inBuf 0, .inBuf 0⟩),
        fun _ => true) := rfl
  rw [hinfo] at hrun
  cases hrun
  have hbasename : some [0x2F, 0x69, 0x6E, 0x69, 0x74] = some basename := hbase
  cases hbasename
  revert hnoSlash
  decide

end Fischstaebchen
