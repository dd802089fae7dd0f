/-
  Installing phase-out hooks (`overlay/src/phaseout/functions/phaseout/15-install.sh`).

  A hook is installed by a link in the hook directory.  `_phaseout_install_local__inner`
  installs the scripts of a directory, and of those below it if it is told to.  Two of its
  variables are not local, so that the call for a directory changes the place where the next
  one is looked for.

  * `installInner_flat`: what is installed without the directories below.
  * `phaseoutInstallLocal_recursive`: with them, installing works only if each directory has
    at most one directory in it.
-/
import Fischstaebchen.Lib.Glob
import Fischstaebchen.Lib.Path
import Fischstaebchen.Overlay.Phaseout

namespace Fischstaebchen

open Lib Lib.Shell

namespace Phaseout

/-! ## Sources -/

/-- `"${d}/${n}"`. -/
def sub (d n : List Char) : List Char := d ++ '/' :: n

/-- A name in a directory that the shell lists. -/
def IsListed (n : List Char) : Prop := n ≠ [] ∧ n.head? ≠ some '.' ∧ '/' ∉ n

/-- The files below `src_root`; `names` are the names in a directory, in the order of the
    shell, without those that start with a dot. -/
structure HookSources where
  isFile : List Char → Bool
  isDir : List Char → Bool
  names : List Char → List (List Char)
  listed : ∀ d, ∀ n ∈ names d, IsListed n
  complete : ∀ d n, IsListed n → isFile (sub d n) = true ∨ isDir (sub d n) = true → n ∈ names d

/-- The extension of scripts. -/
def dotSh : List Char := ".sh".toList

/-- A link in the hook directory: its name, without the extension, and the file. -/
structure Install where
  name : List Char
  file : List Char
  deriving DecidableEq

/-- `sed -r -e 's=[/]+=-=g'`. -/
def dashed (s : List Char) : List Char :=
  (squeezed '/' s).map fun c => if c = '/' then '-' else c

/-- `_phaseout_install_local__doins`. -/
def phaseoutInstallLocalDoins (srcFile dstNameIn : List Char) : Install :=
  ⟨dashed dstNameIn, srcFile⟩

/-! ## Installing -/

/-- The variables of `_phaseout_install_local__inner` that are not local, and the links so
    far. -/
structure InstallState where
  srcName : List Char
  dstName : List Char
  links : List Install
  deriving DecidableEq

/-- The result of a call: `none` inside says that the shell exits. -/
abbrev InstallResult := Option (Option InstallState)

/-- What follows, unless the shell exits. -/
def InstallResult.andThen (r : InstallResult) (f : InstallState → InstallResult) : InstallResult :=
  r.bind fun o => o.elim (some none) f

section
variable (S : HookSources)

/-- The loop over `"${hookd}/"*.sh`. -/
def scriptsOf (hookd dst : List Char) : List Install :=
  ((S.names hookd).filter fun n => dotSh <:+ n && S.isFile (sub hookd n)).map fun n =>
    phaseoutInstallLocalDoins (sub hookd n) (sub dst (withoutSuffix dotSh n))

/-- The links that are made for a name, without the directories below. -/
def flatLinks (src dst : List Char) : List Install :=
  (if S.isFile (src ++ dotSh) then [phaseoutInstallLocalDoins (src ++ dotSh) dst] else []) ++
    if S.isDir src then scriptsOf S src dst else []

/-- The directories in a directory. -/
def subdirs (d : List Char) : List (List Char) :=
  if S.isDir d then (S.names d).filter fun n => S.isDir (sub d n) else []

/-- The loop over `"${hookd}/"*`, for the directories. -/
def installSubdirs (call : List Char → List Char → InstallState → InstallResult) :
    List (List Char) → InstallState → InstallResult
  | [], st => some (some st)
  | n :: ns, st =>
    (call (sub st.srcName n) (sub st.dstName n) st).andThen (installSubdirs call ns)

/-- `_phaseout_install_local__inner`; the number bounds the depth. -/
def phaseoutInstallLocalInner (recursive : Bool) :
    ℕ → List Char → List Char → InstallState → InstallResult
  | 0, _, _, _ => none
  | n + 1, src, dst, st =>
    -- `autodie` does not let `EX_USAGE` pass
    if src = [] ∨ src = ['/'] ∨ dst = [] then some none
    else if flatLinks S src dst = [] ∧ (recursive = false ∨ subdirs S src = []) then some none
    else
      let st := ⟨src, dst, st.links ++ flatLinks S src dst⟩
      if recursive then
        installSubdirs (phaseoutInstallLocalInner recursive n) (subdirs S src) st
      else some (some st)

/-- The arguments of `_phaseout_install_local` after the options. -/
def phaseoutInstallLocal (recursive : Bool) (fuel : ℕ) :
    List (List Char) → InstallState → InstallResult
  | [], st => some (some st)
  | name :: names, st =>
    (phaseoutInstallLocalInner S recursive fuel name name st).andThen
      (phaseoutInstallLocal recursive fuel names)

/-- `_phaseout_install_local_as`, for a name below `src_root`. -/
def phaseoutInstallLocalAs (srcName dstName : List Char) (st : InstallState) :
    Option InstallState :=
  if srcName = [] ∨ dstName = [] then none
  else if S.isFile srcName then
    some { st with links := st.links ++ [phaseoutInstallLocalDoins srcName dstName] }
  else none

end

/-! ## Directories below -/

/-- The names of directories, each of them the only directory in the one before. -/
inductive Chain (S : HookSources) : List Char → List (List Char) → Prop
  | leaf {d : List Char} : subdirs S d = [] → Chain S d []
  | step {d n : List Char} {ns : List (List Char)} :
      subdirs S d = [n] → Chain S (sub d n) ns → Chain S d (n :: ns)

/-- The last directory. -/
def lastDir (d : List Char) (ns : List (List Char)) : List Char := ns.foldl sub d

/-- The links that are made for all the directories. -/
def chainLinks (S : HookSources) : List Char → List Char → List (List Char) → List Install
  | src, dst, [] => flatLinks S src dst
  | src, dst, n :: ns => flatLinks S src dst ++ chainLinks S (sub src n) (sub dst n) ns

/-- No script has the name of a directory. -/
def NoTwins (S : HookSources) : Prop :=
  ∀ d d' n, n ∈ subdirs S d → S.isFile (sub d' n ++ dotSh) = false

section
variable {S : HookSources} {recursive : Bool} {n : ℕ} {src dst name : List Char}
  {names ns : List (List Char)} {st st' : InstallState}

theorem InstallResult.andThen_eq {r : InstallResult} {f : InstallState → InstallResult}
    (h : r.andThen f = some (some st')) :
    ∃ st, r = some (some st) ∧ f st = some (some st') := by
  obtain ⟨o, rfl, ho⟩ := Option.bind_eq_some_iff.1 h
  cases o with
  | none => cases ho
  | some st => exact ⟨st, rfl, ho⟩

theorem mem_subdirs {d n : List Char} :
    n ∈ subdirs S d ↔ S.isDir d = true ∧ n ∈ S.names d ∧ S.isDir (sub d n) = true := by
  unfold subdirs
  split_ifs with hdir
  · simp [hdir]
  · simp [hdir]

/-- What a call does that returns. -/
theorem inner_eq (h : phaseoutInstallLocalInner S recursive n src dst st = some (some st')) :
    ∃ m, n = m + 1 ∧ (flatLinks S src dst ≠ [] ∨ recursive = true ∧ subdirs S src ≠ []) ∧
      (if recursive then installSubdirs (phaseoutInstallLocalInner S recursive m) (subdirs S src)
          ⟨src, dst, st.links ++ flatLinks S src dst⟩
        else some (some ⟨src, dst, st.links ++ flatLinks S src dst⟩)) = some (some st') := by
  cases n with
  | zero => cases h
  | succ m =>
    unfold phaseoutInstallLocalInner at h
    split_ifs at h with hbad hnone hrec
    · cases h
    · cases h
    · refine ⟨m, rfl, ?_, by rw [if_pos hrec]; exact h⟩
      by_contra hno
      refine hnone ⟨by_contra fun hne => hno (.inl hne), .inr (by_contra fun hne => ?_)⟩
      exact hno (.inr ⟨hrec, hne⟩)
    · refine ⟨m, rfl, ?_, by rw [if_neg hrec]; exact h⟩
      by_contra hno
      exact hnone ⟨by_contra fun hne => hno (.inl hne), .inl (by simpa using hrec)⟩

/-- **Without the directories below**, the scripts of the name are installed. -/
theorem installInner_flat
    (h : phaseoutInstallLocalInner S false n src dst st = some (some st')) :
    flatLinks S src dst ≠ [] ∧ st'.links = st.links ++ flatLinks S src dst := by
  obtain ⟨m, -, hne, heq⟩ := inner_eq h
  rw [if_neg Bool.false_ne_true] at heq
  obtain rfl := Option.some.inj (Option.some.inj heq)
  exact ⟨hne.resolve_right fun h => Bool.false_ne_true h.1, rfl⟩

theorem Chain.lastDir_leaf (h : Chain S src ns) : subdirs S (lastDir src ns) = [] := by
  induction h with
  | leaf hleaf => exact hleaf
  | step _ _ ih => exact ih

theorem Chain.lastDir_isDir (h : Chain S src ns) (hdir : S.isDir src = true) :
    S.isDir (lastDir src ns) = true := by
  induction h with
  | leaf _ => exact hdir
  | @step d n ns hsub _ ih =>
    exact ih (mem_subdirs.1 (hsub ▸ List.mem_singleton_self n : n ∈ subdirs S d)).2.2

/-- A name that is looked for in a directory without directories is not found. -/
theorem inner_of_leaf (htwins : NoTwins S) {d e : List Char} (hname : name ∈ subdirs S d)
    (hdir : S.isDir e = true) (hleaf : subdirs S e = []) :
    phaseoutInstallLocalInner S recursive n (sub e name) dst st ≠ some (some st') := by
  intro h
  have hnotdir : S.isDir (sub e name) = false := by
    by_contra hsub
    have hsub : S.isDir (sub e name) = true := by simpa using hsub
    have hmem := S.complete e name (S.listed d name (mem_subdirs.1 hname).2.1) (.inr hsub)
    exact List.ne_nil_of_mem (mem_subdirs.2 ⟨hdir, hmem, hsub⟩) hleaf
  obtain ⟨m, -, hne, -⟩ := inner_eq h
  rcases hne with hne | ⟨-, hne⟩
  · refine hne ?_
    rw [flatLinks, htwins d e name hname, hnotdir]
    rfl
  · refine hne ?_
    rw [subdirs, hnotdir]
    rfl

/-- **A recursive call that returns** has found a single directory in each one. -/
theorem inner_recursive (htwins : NoTwins S) :
    ∀ {n : ℕ} {src dst : List Char} {st st' : InstallState},
      phaseoutInstallLocalInner S true n src dst st = some (some st') →
      ∃ ns, Chain S src ns ∧ flatLinks S (lastDir src ns) (lastDir dst ns) ≠ [] ∧
        st' = ⟨lastDir src ns, lastDir dst ns, st.links ++ chainLinks S src dst ns⟩ := by
  intro n
  induction n with
  | zero =>
    intro src dst st st' h
    cases h
  | succ n ih =>
    intro src dst st st' h
    obtain ⟨m, hm, hne, heq⟩ := inner_eq h
    obtain rfl := Nat.succ.inj hm
    rw [if_pos rfl] at heq
    cases hsub : subdirs S src with
    | nil =>
      rw [hsub] at heq
      obtain rfl := Option.some.inj (Option.some.inj heq)
      exact ⟨[], .leaf hsub, hne.resolve_right fun h => h.2 hsub, rfl⟩
    | cons name names =>
      rw [hsub] at heq
      obtain ⟨st₁, hcall, hrest⟩ := InstallResult.andThen_eq heq
      obtain ⟨ns, hchain, hlast, rfl⟩ := ih hcall
      have hname : name ∈ subdirs S src := hsub ▸ List.mem_cons_self
      cases names with
      | nil =>
        obtain rfl := Option.some.inj (Option.some.inj hrest)
        refine ⟨name :: ns, .step hsub hchain, hlast, ?_⟩
        rw [chainLinks, ← List.append_assoc]
        rfl
      | cons other names =>
        -- the other directory is looked for below the last one
        obtain ⟨st₂, hcall', -⟩ := InstallResult.andThen_eq hrest
        have hother : other ∈ subdirs S src := hsub ▸ List.mem_cons_of_mem _ List.mem_cons_self
        exact absurd hcall' (inner_of_leaf htwins hother
          (hchain.lastDir_isDir (mem_subdirs.1 hname).2.2) hchain.lastDir_leaf)

theorem sub_ne (d n : List Char) (hd : d ≠ []) : sub d n ≠ [] ∧ sub d n ≠ ['/'] := by
  cases d with
  | nil => exact absurd rfl hd
  | cons c d => simp [sub]

/-- A call for a chain of directories returns, if the last one has scripts. -/
theorem inner_of_chain (h : Chain S src ns) : ∀ {n : ℕ} {dst : List Char} (st : InstallState),
    ns.length < n → src ≠ [] → src ≠ ['/'] → dst ≠ [] →
      flatLinks S (lastDir src ns) (lastDir dst ns) ≠ [] →
        ∃ st', phaseoutInstallLocalInner S true n src dst st = some (some st') := by
  induction h with
  | @leaf d hleaf =>
    intro n dst st hlt hsrc hroot hdst hlast
    obtain ⟨n, rfl⟩ := Nat.exists_eq_succ_of_ne_zero (Nat.ne_of_gt hlt)
    have hflat : flatLinks S d dst ≠ [] := hlast
    refine ⟨⟨d, dst, st.links ++ flatLinks S d dst⟩, ?_⟩
    unfold phaseoutInstallLocalInner
    rw [if_neg (by simp [hsrc, hroot, hdst]), if_neg (fun h => hflat h.1), hleaf]
    rfl
  | @step d name ns hsub hchain ih =>
    intro n dst st hlt hsrc hroot hdst hlast
    obtain ⟨n, rfl⟩ := Nat.exists_eq_succ_of_ne_zero (Nat.ne_of_gt (Nat.zero_lt_of_lt hlt))
    obtain ⟨hne, hne'⟩ := sub_ne d name hsrc
    obtain ⟨st', hcall⟩ := ih ⟨d, dst, st.links ++ flatLinks S d dst⟩ (Nat.lt_of_succ_lt_succ hlt)
      hne hne' (sub_ne dst name hdst).1 hlast
    refine ⟨st', ?_⟩
    unfold phaseoutInstallLocalInner
    rw [if_neg (by simp [hsrc, hroot, hdst]), if_neg (by simp [hsub])]
    show installSubdirs (phaseoutInstallLocalInner S true n) (subdirs S d)
      ⟨d, dst, st.links ++ flatLinks S d dst⟩ = some (some st')
    rw [hsub, installSubdirs, hcall]
    rfl

theorem length_sub (d n : List Char) : (sub d n).length = d.length + n.length + 1 := by
  simp [sub]
  omega

/-- A chain is not longer than the path of its last directory. -/
theorem Chain.length_le (h : Chain S src ns) : src.length + ns.length ≤ (lastDir src ns).length := by
  induction h with
  | leaf _ => exact le_rfl
  | @step d n ns _ _ ih =>
    rw [length_sub] at ih
    show d.length + (ns.length + 1) ≤ (lastDir (sub d n) ns).length
    omega

/-! ## Ending -/

theorem installSubdirs_ne_none {call : List Char → List Char → InstallState → InstallResult}
    (hcall : ∀ name ∈ names, ∀ st : InstallState, src.length ≤ st.srcName.length →
      call (sub st.srcName name) (sub st.dstName name) st ≠ none ∧
        ∀ st', call (sub st.srcName name) (sub st.dstName name) st = some (some st') →
          src.length ≤ st'.srcName.length) (hst : src.length ≤ st.srcName.length) :
    installSubdirs call names st ≠ none ∧
      ∀ st', installSubdirs call names st = some (some st') →
        src.length ≤ st'.srcName.length := by
  induction names generalizing st with
  | nil =>
    refine ⟨Option.some_ne_none _, fun st' h => ?_⟩
    obtain rfl := Option.some.inj (Option.some.inj h)
    exact hst
  | cons name names ih =>
    obtain ⟨hends, hgrows⟩ := hcall name List.mem_cons_self st hst
    have hrest := fun st₁ => @ih st₁ fun other hother =>
      hcall other (List.mem_cons_of_mem _ hother)
    constructor
    · unfold installSubdirs
      intro hnone
      cases hres : call (sub st.srcName name) (sub st.dstName name) st with
      | none => exact hends hres
      | some o =>
        rw [hres] at hnone
        cases o with
        | none => cases hnone
        | some st₁ => exact (hrest st₁ (hgrows st₁ hres)).1 hnone
    · intro st' h
      obtain ⟨st₁, hres, h⟩ := InstallResult.andThen_eq h
      exact (hrest st₁ (hgrows st₁ hres)).2 st' h

/-- **A call ends**, wherever the directories are looked for. -/
theorem inner_ends {B : ℕ} (hB : ∀ d, S.isDir d = true → d.length ≤ B) :
    ∀ {n : ℕ} {src dst : List Char} {st : InstallState}, 1 ≤ n → B < n + src.length →
      phaseoutInstallLocalInner S recursive n src dst st ≠ none ∧
        ∀ st', phaseoutInstallLocalInner S recursive n src dst st = some (some st') →
          src.length ≤ st'.srcName.length := by
  intro n
  induction n with
  | zero =>
    intro src dst st hn
    exact absurd hn (by simp)
  | succ n ih =>
    intro src dst st _ hlt
    have hloop : installSubdirs (phaseoutInstallLocalInner S recursive n) (subdirs S src)
          ⟨src, dst, st.links ++ flatLinks S src dst⟩ ≠ none ∧
        ∀ st', installSubdirs (phaseoutInstallLocalInner S recursive n) (subdirs S src)
          ⟨src, dst, st.links ++ flatLinks S src dst⟩ = some (some st') →
            src.length ≤ st'.srcName.length := by
      refine installSubdirs_ne_none (fun name hname st₁ hst₁ => ?_) le_rfl
      have hlen : (sub src name).length ≤ B := hB _ (mem_subdirs.1 hname).2.2
      rw [length_sub] at hlen
      obtain ⟨hends, hgrows⟩ := @ih (sub st₁.srcName name) (sub st₁.dstName name) st₁
        (by omega) (by rw [length_sub]; omega)
      refine ⟨hends, fun st' h => ?_⟩
      have hle := hgrows st' h
      rw [length_sub] at hle
      omega
    unfold phaseoutInstallLocalInner
    split_ifs with hbad hnone hrec
    · exact ⟨Option.some_ne_none _, fun st' h => by cases h⟩
    · exact ⟨Option.some_ne_none _, fun st' h => by cases h⟩
    · exact hloop
    · refine ⟨Option.some_ne_none _, fun st' h => ?_⟩
      obtain rfl := Option.some.inj (Option.some.inj h)
      exact le_rfl

/-- A name whose directory has at most one directory in it, and so on, and scripts in the
    last one. -/
def Straight (S : HookSources) (name : List Char) : Prop :=
  name ≠ [] ∧ name ≠ ['/'] ∧
    ∃ ns, Chain S name ns ∧ flatLinks S (lastDir name ns) (lastDir name ns) ≠ []

theorem inner_straight (htwins : NoTwins S) {B : ℕ} (hB : ∀ d, S.isDir d = true → d.length ≤ B)
    (st : InstallState) :
    (∃ st', phaseoutInstallLocalInner S true (B + 1) name name st = some (some st')) ↔
      Straight S name := by
  constructor
  · rintro ⟨st', h⟩
    obtain ⟨ns, hchain, hlast, -⟩ := inner_recursive htwins h
    have hbad : ¬ (name = [] ∨ name = ['/'] ∨ name = []) := by
      intro hbad
      rw [phaseoutInstallLocalInner, if_pos hbad] at h
      cases h
    exact ⟨fun h => hbad (.inl h), fun h => hbad (.inr (.inl h)), ns, hchain, hlast⟩
  · rintro ⟨hne, hroot, ns, hchain, hlast⟩
    refine inner_of_chain hchain st ?_ hne hroot hne hlast
    cases hchain with
    | leaf _ => exact Nat.succ_pos B
    | @step d n ns hsub hchain =>
      have hdir := (mem_subdirs.1 (hsub ▸ List.mem_singleton_self n : n ∈ subdirs S name)).2.2
      have hlen := hB _ (hchain.lastDir_isDir hdir)
      have hle := hchain.length_le
      rw [length_sub] at hle
      show ns.length + 1 < B + 1
      omega

/-- **A recursive install** passes if and only if, for each name, each directory has at most
    one directory in it and the last one has scripts; otherwise the shell exits. -/
theorem phaseoutInstallLocal_recursive (htwins : NoTwins S) {B : ℕ}
    (hB : ∀ d, S.isDir d = true → d.length ≤ B) (names : List (List Char)) (st : InstallState) :
    ∃ o, phaseoutInstallLocal S true (B + 1) names st = some o ∧
      (o ≠ none ↔ ∀ name ∈ names, Straight S name) := by
  induction names generalizing st with
  | nil => exact ⟨some st, rfl, by simp⟩
  | cons name names ih =>
    have hends := (@inner_ends S true B hB (B + 1) name name st (Nat.succ_pos B) (by omega)).1
    obtain ⟨o, ho⟩ := Option.ne_none_iff_exists'.1 hends
    have hiff := @inner_straight S name htwins B hB st
    rw [ho] at hiff
    unfold phaseoutInstallLocal
    rw [ho]
    cases o with
    | none =>
      refine ⟨none, rfl, fun h => absurd rfl h, fun h => ?_⟩
      obtain ⟨st', h⟩ := hiff.2 (h name List.mem_cons_self)
      cases h
    | some st₁ =>
      obtain ⟨o, ho', hall⟩ := ih st₁
      refine ⟨o, ho', hall.trans ⟨fun h other hother => ?_, fun h other hother => ?_⟩⟩
      · rcases List.mem_cons.1 hother with rfl | hother
        · exact hiff.1 ⟨st₁, rfl⟩
        · exact h other hother
      · exact h other (List.mem_cons_of_mem _ hother)

/-! ## A tree with two directories -/

theorem sub_inj {d d' n n' : List Char} (hn : '/' ∉ n) (hn' : '/' ∉ n') (h : sub d n = sub d' n') :
    d = d' ∧ n = n' := by
  have hrev : n.reverse ++ '/' :: d.reverse = n'.reverse ++ '/' :: d'.reverse := by
    simpa [sub] using congrArg List.reverse h
  obtain ⟨h₁, h₂⟩ := append_cons_inj (by simpa using hn) (by simpa using hn') hrev
  exact ⟨List.reverse_injective h₂, List.reverse_injective h₁⟩

theorem mem_of_sub_mem {es : List (List Char × List Char)} (hes : ∀ e ∈ es, '/' ∉ e.2)
    {d n : List Char} (hn : '/' ∉ n) (h : sub d n ∈ es.map fun e => sub e.1 e.2) :
    (d, n) ∈ es := by
  obtain ⟨e, he, heq⟩ := List.mem_map.1 h
  obtain ⟨rfl, rfl⟩ := sub_inj (hes e he) hn heq
  exact he

/-- Sources from lists: the directories and files in `src_root`, and the entries of directories
    that are files or directories. -/
def treeSources (topDirs topFiles : List (List Char)) (files dirs : List (List Char × List Char))
    (htop : ∀ p ∈ topDirs ++ topFiles, '/' ∉ p) (hlisted : ∀ e ∈ files ++ dirs, IsListed e.2) :
    HookSources where
  isFile p := topFiles.contains p || (files.map fun e => sub e.1 e.2).contains p
  isDir p := topDirs.contains p || (dirs.map fun e => sub e.1 e.2).contains p
  names d := ((files ++ dirs).filter fun e => e.1 = d).map Prod.snd
  listed d n hn := by
    obtain ⟨e, he, rfl⟩ := List.mem_map.1 hn
    exact hlisted e (List.mem_filter.1 he).1
  complete d n hn h := by
    have hslash : ∀ {es : List (List Char × List Char)}, es ⊆ files ++ dirs →
        ∀ e ∈ es, '/' ∉ e.2 := fun hes e he => (hlisted e (hes he)).2.2
    have hnottop : ∀ {ps : List (List Char)}, ps ⊆ topDirs ++ topFiles → sub d n ∉ ps := by
      intro ps hps hmem
      exact htop _ (hps hmem) (by simp [sub])
    simp only [Bool.or_eq_true, List.contains_iff_mem] at h
    refine List.mem_map.2 ⟨(d, n), List.mem_filter.2 ⟨List.mem_append.2 ?_, by simp⟩, rfl⟩
    rcases h with (h | h) | (h | h)
    · exact absurd h (hnottop (List.subset_append_right _ _))
    · exact .inl (mem_of_sub_mem (hslash (List.subset_append_left _ _)) hn.2.2 h)
    · exact absurd h (hnottop (List.subset_append_left _ _))
    · exact .inr (mem_of_sub_mem (hslash (List.subset_append_right _ _)) hn.2.2 h)

/-- The entries of directories that are files. -/
def twoDirFiles : List (List Char × List Char) :=
  [("a/x".toList, "1.sh".toList), ("a/y".toList, "2.sh".toList)]

/-- The entries of directories that are directories. -/
def twoDirDirs : List (List Char × List Char) :=
  [("a".toList, "x".toList), ("a".toList, "y".toList)]

/-- A directory with two directories, each of them with a script. -/
def twoDirs : HookSources :=
  treeSources ["a".toList] [] twoDirFiles twoDirDirs (by simp)
    (by simp [twoDirFiles, twoDirDirs, IsListed])

theorem noTwins_twoDirs : NoTwins twoDirs := by
  intro d d' n hn
  obtain ⟨e, he, rfl⟩ := List.mem_map.1 (mem_subdirs.1 hn).2.1
  have he := (List.mem_filter.1 he).1
  by_contra hfile
  have hfile : sub d' (e.2 ++ dotSh) ∈ twoDirFiles.map fun e => sub e.1 e.2 := by
    rw [show sub d' (e.2 ++ dotSh) = sub d' e.2 ++ dotSh by simp [sub]]
    have hmem : ([].contains (sub d' e.2 ++ dotSh) ||
        (twoDirFiles.map fun e => sub e.1 e.2).contains (sub d' e.2 ++ dotSh)) = true :=
      (Bool.not_eq_false _).mp hfile
    exact List.contains_iff_mem.1 ((Bool.or_eq_true _ _).mp hmem |>.resolve_left (by simp))
  have hslash : ∀ e ∈ twoDirFiles ++ twoDirDirs, '/' ∉ e.2 ++ dotSh := by
    simp [twoDirFiles, twoDirDirs, dotSh]
  have hmem := mem_of_sub_mem (by simp [twoDirFiles]) (hslash e he) hfile
  have hnone : ∀ e ∈ twoDirFiles ++ twoDirDirs, ∀ e' ∈ twoDirFiles, e.2 ++ dotSh ≠ e'.2 := by
    simp [twoDirFiles, twoDirDirs, dotSh]
  exact hnone e he _ hmem rfl

theorem phaseoutInstallLocal_recursive_twoDirs :
    phaseoutInstallLocal twoDirs true 4 ["a".toList] ⟨[], [], []⟩ = some none ∧
      ¬ Straight twoDirs "a".toList := by
  have hB : ∀ d, twoDirs.isDir d = true → d.length ≤ 3 := by
    intro d hd
    simp [twoDirs, treeSources, twoDirDirs, sub] at hd
    rcases hd with rfl | rfl | rfl <;> simp
  obtain ⟨o, ho, hiff⟩ :=
    phaseoutInstallLocal_recursive noTwins_twoDirs hB ["a".toList] ⟨[], [], []⟩
  have hrun : phaseoutInstallLocal twoDirs true 4 ["a".toList] ⟨[], [], []⟩ = some none := by
    decide +kernel
  obtain rfl : o = none := Option.some.inj (ho.symm.trans hrun)
  exact ⟨hrun, fun h => (hiff.2 (by simpa using h)) rfl⟩

end

end Phaseout

end Fischstaebchen
