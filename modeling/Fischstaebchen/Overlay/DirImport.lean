/-
  Importing a directory (`base/functions/core/41-dir_import/30-doimport_base.sh`).

  * `prepareDstDir_spec`: what is done to the destination first.
  * `doImport_works`: the variants whose commands name source and destination.
  * `doImport_works_iff`: when an import works on its source and destination.
-/
import Fischstaebchen.Overlay.FileUri
import Fischstaebchen.Overlay.FspathNormalForm

namespace Fischstaebchen

open Lib (components isAbs)

/-! ## Files and commands -/

/-- Where a path leads: whether it is absolute, and its components without `.`. -/
abbrev Place := Bool × List CStr

def place (p : CStr) : Place := (isAbs '/' p, withoutDots (components '/' p))

/-- `q` is at the place `d` or below it. -/
def Place.AtOrBelow (d q : Place) : Prop := d.1 = q.1 ∧ d.2 <+: q.2

/-- An entry of a place. -/
def Place.entry (d : Place) (rel : List CStr) : Place := (d.1, d.2 ++ rel)

/-- What is at a place: whether it is a symlink, and what it leads to. -/
structure ImportNode where
  isLink : Bool
  isDir : Bool
  present : Bool

inductive ImportCmd
  | rm (path : CStr)
  | mkdirP (path : CStr)
  | createSymlink (target path name : CStr)
  | mountBind (src dst : CStr)
  | remount (opts mp : CStr)
  | rsync (opts src dst : CStr)
  | cp (src dst : CStr)
  | untar (dir file : CStr)
  | gitFetch (dir : CStr)
  | gitClone (uri dir : CStr)
  | gitCheckout (dir ref : CStr)
  deriving DecidableEq

/-- The files, the contents of the directories, the exit codes of the commands, whether
    `copytree` uses `rsync`, and the variables. -/
structure ImportEnv where
  node : Place → Option ImportNode
  entries : Place → List (List CStr)
  exit : ImportCmd → ℤ
  haveRsync : Bool
  importDirRsyncOpts : Option CStr
  importDirDefaultRsyncOpts : Option CStr
  debug : Bool

inductive ImportVariant
  | symlink
  | bind
  | bindRo
  | copy
  | untar
  | git
  | rsync
  deriving DecidableEq

/-- The arguments of `_do_import_to_dir`. -/
structure ImportArgs where
  variant : ImportVariant
  name : CStr
  srcRelpath : CStr
  src : CStr
  dst : CStr
  dstBak : CStr

/-- The exit code, or none if the process exits, and the commands that have been run. -/
abbrev ImportResult := Option ℤ × List ImportCmd

namespace ImportEnv
variable (env : ImportEnv)

/-- `test -h`. -/
def isLink (p : CStr) : Bool := (env.node (place p)).any ImportNode.isLink

/-- `test -d`. -/
def isDir (p : CStr) : Bool := (env.node (place p)).any ImportNode.isDir

/-- `test -e`. -/
def present (p : CStr) : Bool := (env.node (place p)).any ImportNode.present

def run (c : ImportCmd) (log : List ImportCmd) : ImportResult := (some (env.exit c), log ++ [c])

def autodieRun (c : ImportCmd) (log : List ImportCmd) : ImportResult :=
  (if env.exit c = 0 then some 0 else none, log ++ [c])

/-! ## The functions -/

/-- `_import_to_dir_prepare_dst_dir`. -/
def prepareDstDir (dst : CStr) (log : List ImportCmd) : ImportResult :=
  if env.isLink dst then
    (some (if env.exit (.rm dst) ≠ 0 then 1 else 0), log ++ [.rm dst])
  else if env.isDir dst then (some 0, log)
  else if env.present dst then (some 1, log)
  else (some (if env.exit (.mkdirP dst) ≠ 0 then 1 else 0), log ++ [.mkdirP dst])

/-- `xmount_bind`. -/
def xmountBind (src dst : CStr) (log : List ImportCmd) : ImportResult :=
  match env.autodieRun (.mkdirP dst) log with
  | (some _, log) => env.autodieRun (.mountBind src dst) log
  | died => died

/-- `xmount_bind_ro`. -/
def xmountBindRo (src dst : CStr) (log : List ImportCmd) : ImportResult :=
  match env.xmountBind src dst log with
  | (some 0, log) => env.autodieRun (.remount "bind,ro".toList dst) log
  | failed => failed

/-- `copytree`. -/
def copytree (src dst : CStr) (log : List ImportCmd) : ImportResult :=
  if dst = [] then (none, log)
  else
    match env.run (.mkdirP dst) log with
    | (some 0, log) =>
      if env.haveRsync then
        env.run (.rsync "-a".toList (src ++ "/".toList) (dst ++ "/".toList)) log
      else env.run (.cp (src ++ "/.".toList) (dst ++ "/.".toList)) log
    | failed => failed

/-- `${s%<sep>*}` and `${s##*<sep>}`. -/
def splitLast (sep s : CStr) : CStr × CStr :=
  let after := (beforeFirst sep.reverse s.reverse).reverse
  (s.take (s.length - after.length - sep.length), after)

/-- `split_git_uri`: the exit code, the uri and the checkout reference. -/
def splitGitUri (uriCheckoutStr : CStr) : ℤ × CStr × CStr :=
  let arms : List (List String × (ℤ × CStr × CStr)) :=
    [(["*"], (2, [], [])),
     (["*::*"], (if (splitLast "::".toList uriCheckoutStr).1 ≠ [] then 0 else 1,
       splitLast "::".toList uriCheckoutStr)),
     (["*"], (if uriCheckoutStr ≠ [] then 0 else 1, uriCheckoutStr, []))]
  (Lib.Shell.selectArm arms uriCheckoutStr).getD (0, [], [])

/-- `_git_repo_update__clone`. -/
def gitRepoUpdateClone (repoDir repoUri : CStr) (log : List ImportCmd) : ImportResult :=
  let made : ImportResult :=
    if Lib.Shell.caseOf repoDir ["?*/*"] then env.run (.mkdirP (beforeLast '/' repoDir)) log
    else (some 0, log)
  match made with
  | (some 0, log) => env.run (.gitClone repoUri repoDir) log
  | failed => failed

/-- `_test_fs_dir_is_empty`, which succeeds if `ls` prints something. -/
def testFsDirIsEmpty (p : CStr) : Bool := env.entries (place p) ≠ []

/-- `git_repo_update`. -/
def gitRepoUpdate (repoDir repoUri checkoutRef : CStr) (log : List ImportCmd) : ImportResult :=
  if repoUri = [] ∨ repoDir = [] then (some 64, log)
  else
    let updated : ImportResult :=
      if env.present repoDir ∨ env.isLink repoDir then
        if env.isDir repoDir then
          if env.isDir (repoDir ++ "/.git".toList) then env.run (.gitFetch repoDir) log
          else if !env.testFsDirIsEmpty repoDir then (some 2, log)
          else env.gitRepoUpdateClone repoDir repoUri log
        else (some 2, log)
      else env.gitRepoUpdateClone repoDir repoUri log
    match updated with
    | (some 0, log) => env.run (.gitCheckout repoDir checkoutRef) log
    | failed => failed

/-- The options of `rsync`; none if the variables are unset. -/
def rsyncOpts : Option CStr :=
  (env.importDirRsyncOpts <|> env.importDirDefaultRsyncOpts).map fun opts =>
    "-r ".toList ++ opts ++ if env.debug then " --progress --stats".toList else []

/-- What is run for a variant after the destination has been prepared. -/
def importVariant (a : ImportArgs) (log : List ImportCmd) : ImportResult :=
  match a.variant with
  | .symlink => (none, log)
  | .bind => env.xmountBind a.src a.dst log
  | .bindRo => env.xmountBindRo a.src a.dst log
  | .copy => env.copytree a.src a.dst log
  | .untar => env.run (.untar a.dst a.src) log
  | .git =>
    let (rc, gitUri, gitCheckout) := splitGitUri a.src
    if rc ≠ 0 then (some 70, log)
    else
      env.gitRepoUpdate gitUri a.dst
        (if gitCheckout = [] then "master".toList else gitCheckout) log
  | .rsync =>
    match env.rsyncOpts with
    | none => (none, log)
    | some opts =>
      env.run (.rsync opts (beforeLast '/' a.src ++ "/".toList)
        (beforeLast '/' a.dst ++ "/".toList)) log

/-- The checks of the arguments: whether the process exits. -/
def badArgs (a : ImportArgs) : Bool :=
  a.name = [] || a.src = [] || a.dst = [] || a.dstBak ≠ [] ||
    (a.srcRelpath ≠ [] && !env.present
      (if '/' ∈ a.dst then beforeLast '/' a.dst ++ '/' :: a.srcRelpath else a.srcRelpath))

/-- `_do_import_to_dir`. -/
def doImportToDir (a : ImportArgs) : ImportResult :=
  if env.badArgs a then (none, [])
  else if a.variant = .symlink then
    if a.srcRelpath = [] then (none, []) else env.run (.createSymlink a.srcRelpath a.dst a.name) []
  else
    match env.prepareDstDir a.dst [] with
    | (some 0, log) => env.importVariant a log
    | failed => failed

end ImportEnv

/-! ## What the commands work on -/

namespace ImportCmd

/-- From where to where a command transfers something. -/
def transfer : ImportCmd → Option (Place × Place)
  | mountBind src dst | rsync _ src dst | cp src dst => some (place src, place dst)
  | untar dir file => some (place file, place dir)
  | gitClone uri dir => some (place uri, place dir)
  | rm _ | mkdirP _ | createSymlink _ _ _ | remount _ _ | gitFetch _ | gitCheckout _ _ => none

/-- A command may create or modify what is at a place. -/
def Touches (env : ImportEnv) : ImportCmd → Place → Prop
  | rm path, q | createSymlink _ path _, q => q = place path
  | mkdirP path, q => q = place path ∨ (q.AtOrBelow (place path) ∧ env.node q = none)
  | rsync _ src dst, q | cp src dst, q =>
    q = place dst ∨ ∃ rel ∈ env.entries (place src), q = (place dst).entry rel
  | mountBind _ dir, q | remount _ dir, q | untar dir _, q | gitFetch dir, q | gitClone _ dir, q
  | gitCheckout dir _, q => (place dir).AtOrBelow q

end ImportCmd

/-- The source of an import: for `git`, the uri before the last `::`. -/
def ImportArgs.source (a : ImportArgs) : CStr :=
  if a.variant = .git ∧ "::".toList <:+: a.src then (ImportEnv.splitLast "::".toList a.src).1
  else a.src

/-- The commands work on the source and the destination themselves. -/
structure WorksOn (env : ImportEnv) (a : ImportArgs) (log : List ImportCmd) : Prop where
  transferred : ∃ c ∈ log, c.transfer ≠ none
  exact : ∀ c ∈ log, ∀ t, c.transfer = some t → t = (place a.source, place a.dst)
  frame : ∀ c ∈ log, ∀ q, c.Touches env q → (place a.dst).AtOrBelow q ∨
    (q.AtOrBelow (place a.dst) ∧ env.node q = none)
  copied : a.variant = .copy ∨ a.variant = .rsync →
    ∀ rel ∈ env.entries (place a.src), ∃ c ∈ log, c.Touches env ((place a.dst).entry rel)

section
variable {env : ImportEnv} {a : ImportArgs} {p u w : CStr} {log : List ImportCmd}

/-! ## Places -/

theorem Place.atOrBelow_self (d : Place) : d.AtOrBelow d := ⟨rfl, List.prefix_rfl⟩

theorem Place.atOrBelow_entry (d : Place) (rel : List CStr) : d.AtOrBelow (d.entry rel) :=
  ⟨rfl, List.prefix_append ..⟩

theorem isAbs_append (h : p ≠ []) (s : CStr) : isAbs '/' (p ++ s) = isAbs '/' p := by
  obtain ⟨c, p, rfl⟩ := List.exists_cons_of_ne_nil h
  rfl

/-- What is appended leads to the same place. -/
theorem place_append_slash (h : p ≠ []) : place (p ++ "/".toList) = place p := by
  have hcomponents : components '/' (p ++ "/".toList) = components '/' p := by
    show components '/' (p ++ '/' :: []) = _
    rw [Lib.components_append_sep, Lib.components_nil, List.append_nil]
  rw [place, place, isAbs_append h, hcomponents]

theorem place_append_dot (h : p ≠ []) : place (p ++ "/.".toList) = place p := by
  have hcomponents : components '/' (p ++ "/.".toList) = components '/' p ++ [".".toList] := by
    show components '/' (p ++ '/' :: ".".toList) = _
    rw [Lib.components_append_sep]
    rfl
  rw [place, place, isAbs_append h, hcomponents, withoutDots, withoutDots, List.filter_append,
    List.filter_cons_of_neg (by simp), List.filter_nil, List.append_nil]

/-! ## The last component -/

/-- The path before its last slash leads to the same place. -/
def NamesItsDir (p : CStr) : Prop := '/' ∉ p ∨ afterLast '/' p = [] ∨ afterLast '/' p = ".".toList

instance (p : CStr) : Decidable (NamesItsDir p) := inferInstanceAs (Decidable (_ ∨ _))

/-- The two parts of a path with a slash. -/
theorem splitAtLast (h : '/' ∈ p) :
    p = beforeLast '/' p ++ '/' :: afterLast '/' p ∧ '/' ∉ afterLast '/' p := by
  obtain ⟨x, y, hreverse, hx⟩ := List.eq_append_cons_of_mem (List.mem_reverse.2 h)
  have hwords : ∀ c ∈ x, (c != '/') = true := by
    intro c hc
    simpa using ne_of_mem_of_not_mem hc hx
  have hafter : afterLast '/' p = x.reverse := by
    rw [afterLast, hreverse, List.takeWhile_append_of_pos hwords]
    simp
  have hbefore : beforeLast '/' p = y.reverse := by
    rw [beforeLast, if_pos h, hreverse, List.dropWhile_append_of_pos hwords]
    simp
  have hp : p = y.reverse ++ '/' :: x.reverse := by
    rw [← List.reverse_reverse p, hreverse]
    simp
  rw [hafter, hbefore]
  exact ⟨hp, fun hmem => hx (List.mem_reverse.1 hmem)⟩

theorem withoutDots_append (ws vs : List CStr) :
    withoutDots (ws ++ vs) = withoutDots ws ++ withoutDots vs := List.filter_append ..

theorem withoutDots_word_iff (hw : '/' ∉ w) :
    withoutDots (components '/' w) = [] ↔ w = [] ∨ w = ".".toList := by
  rw [withoutDots_eq_nil_iff, Lib.components_word hw]
  by_cases hempty : w = []
  · simp [hempty]
  · simp [hempty]

/-- **When the last component does not matter.** -/
theorem place_beforeLast_iff (hne : p ≠ []) :
    place (beforeLast '/' p ++ "/".toList) = place p ↔ NamesItsDir p := by
  by_cases h : '/' ∈ p
  · obtain ⟨hsplit, hw⟩ := splitAtLast h
    rw [NamesItsDir, or_iff_right (not_not.2 h), ← withoutDots_word_iff hw]
    generalize beforeLast '/' p = u at hsplit ⊢
    generalize afterLast '/' p = w at hsplit hw ⊢
    subst hsplit
    have habs : isAbs '/' (u ++ "/".toList) = isAbs '/' (u ++ '/' :: w) := by
      cases u <;> rfl
    have hcomponents : components '/' (u ++ "/".toList) = components '/' u := by
      show components '/' (u ++ '/' :: []) = _
      rw [Lib.components_append_sep, Lib.components_nil, List.append_nil]
    rw [place, place, habs, hcomponents, Lib.components_append_sep, withoutDots_append,
      Prod.mk.injEq, and_iff_right rfl]
    exact List.self_eq_append_right
  · have hbefore : beforeLast '/' p = p := by rw [beforeLast, if_neg h]
    rw [hbefore]
    exact iff_of_true (place_append_slash hne) (.inl h)

/-! ## The commands of an import -/

/-- A command works below the destination, or makes it. -/
def Framed (env : ImportEnv) (dst : CStr) (c : ImportCmd) : Prop :=
  ∀ q, c.Touches env q → (place dst).AtOrBelow q ∨ (q.AtOrBelow (place dst) ∧ env.node q = none)

theorem framed_rm (env : ImportEnv) (dst : CStr) : Framed env dst (.rm dst) := by
  rintro q rfl
  exact .inl (Place.atOrBelow_self _)

theorem framed_mkdirP (env : ImportEnv) (dst : CStr) : Framed env dst (.mkdirP dst) := by
  rintro q (rfl | hparent)
  · exact .inl (Place.atOrBelow_self _)
  · exact .inr hparent

/-- A copy into a directory. -/
theorem framed_copy {c : ImportCmd} {src dst target : CStr} (h : place target = place dst)
    (hc : ∀ q, c.Touches env q ↔ q = place target ∨
      ∃ rel ∈ env.entries (place src), q = (place target).entry rel) : Framed env dst c := by
  intro q hq
  rw [hc, h] at hq
  rcases hq with rfl | ⟨rel, -, rfl⟩
  · exact .inl (Place.atOrBelow_self _)
  · exact .inl (Place.atOrBelow_entry _ rel)

/-- What is done to the destination first: nothing, or one of two commands. -/
def Prepares (dst : CStr) (log : List ImportCmd) : Prop :=
  ∀ c ∈ log, c = .rm dst ∨ c = .mkdirP dst

/-- The destination can be prepared. -/
def DstReady (env : ImportEnv) (dst : CStr) : Prop :=
  if env.isLink dst then env.exit (.rm dst) = 0
  else env.isDir dst = true ∨ (env.present dst = false ∧ env.exit (.mkdirP dst) = 0)

theorem prepareDstDir_spec (env : ImportEnv) (dst : CStr) :
    ∃ rc log, env.prepareDstDir dst [] = (some rc, log) ∧ Prepares dst log ∧
      (rc = 0 ↔ DstReady env dst) := by
  rw [ImportEnv.prepareDstDir, DstReady]
  by_cases hlink : env.isLink dst = true
  · rw [if_pos hlink, if_pos hlink]
    refine ⟨_, _, rfl, fun c hc => .inl (List.mem_singleton.1 hc), ?_⟩
    split_ifs with hexit
    · exact iff_of_false one_ne_zero hexit
    · exact iff_of_true rfl (not_not.1 hexit)
  rw [if_neg hlink, if_neg hlink]
  by_cases hdir : env.isDir dst = true
  · rw [if_pos hdir]
    exact ⟨_, _, rfl, fun c hc => absurd hc List.not_mem_nil, iff_of_true rfl (.inl hdir)⟩
  rw [if_neg hdir, or_iff_right hdir]
  by_cases hpresent : env.present dst = true
  · rw [if_pos hpresent]
    exact ⟨_, _, rfl, fun c hc => absurd hc List.not_mem_nil,
      iff_of_false one_ne_zero fun h => by rw [hpresent] at h; cases h.1⟩
  · rw [if_neg hpresent]
    refine ⟨_, _, rfl, fun c hc => .inr (List.mem_singleton.1 hc), ?_⟩
    have habsent : env.present dst = false := by simpa using hpresent
    rw [and_iff_right habsent]
    split_ifs with hexit
    · exact iff_of_false one_ne_zero hexit
    · exact iff_of_true rfl (not_not.1 hexit)

/-- An import whose other commands transfer the source into the destination. -/
theorem worksOn_of (hlog : Prepares a.dst log) {cs : List ImportCmd}
    (hsome : ∃ c ∈ cs, c.transfer ≠ none)
    (hexact : ∀ c ∈ cs, ∀ t, c.transfer = some t → t = (place a.source, place a.dst))
    (hframe : ∀ c ∈ cs, Framed env a.dst c)
    (hcopied : a.variant = .copy ∨ a.variant = .rsync →
      ∀ rel ∈ env.entries (place a.src), ∃ c ∈ cs, c.Touches env ((place a.dst).entry rel)) :
    WorksOn env a (log ++ cs) where
  transferred := by
    obtain ⟨c, hc, h⟩ := hsome
    exact ⟨c, List.mem_append_right log hc, h⟩
  exact c hc t ht := by
    rcases List.mem_append.1 hc with hc | hc
    · rcases hlog c hc with rfl | rfl <;> cases ht
    · exact hexact c hc t ht
  frame c hc q hq := by
    rcases List.mem_append.1 hc with hc | hc
    · rcases hlog c hc with rfl | rfl
      · exact framed_rm env a.dst q hq
      · exact framed_mkdirP env a.dst q hq
    · exact hframe c hc q hq
  copied hv rel hrel := by
    obtain ⟨c, hc, h⟩ := hcopied hv rel hrel
    exact ⟨c, List.mem_append_right log hc, h⟩

/-! ## The variants -/

theorem xmountBind_zero {src dst : CStr} {log' : List ImportCmd}
    (h : env.xmountBind src dst log = (some 0, log')) :
    log' = log ++ [.mkdirP dst, .mountBind src dst] := by
  rw [ImportEnv.xmountBind, ImportEnv.autodieRun] at h
  by_cases hmkdir : env.exit (.mkdirP dst) = 0
  · rw [if_pos hmkdir] at h
    rw [← (Prod.mk.inj h).2, List.append_assoc]
    rfl
  · rw [if_neg hmkdir] at h
    cases (Prod.mk.inj h).1

theorem xmountBindRo_zero {src dst : CStr} {log' : List ImportCmd}
    (h : env.xmountBindRo src dst log = (some 0, log')) :
    log' = log ++ [.mkdirP dst, .mountBind src dst, .remount "bind,ro".toList dst] := by
  rw [ImportEnv.xmountBindRo] at h
  split at h
  · next log₁ hbind =>
    rw [← (Prod.mk.inj h).2, xmountBind_zero hbind, List.append_assoc]
    rfl
  · next hfailed => exact absurd h (hfailed _)

/-- `copytree` copies what is in the source into the destination. -/
theorem copytree_zero {src dst : CStr} {log' : List ImportCmd}
    (h : env.copytree src dst log = (some 0, log')) :
    dst ≠ [] ∧ ∃ c s t, log' = log ++ [.mkdirP dst, c] ∧
      (s = src ++ "/".toList ∧ t = dst ++ "/".toList ∨ s = src ++ "/.".toList ∧ t = dst ++ "/.".toList) ∧
      c.transfer = some (place s, place t) ∧
      ∀ q, c.Touches env q ↔ q = place t ∨ ∃ rel ∈ env.entries (place s), q = (place t).entry rel := by
  rw [ImportEnv.copytree] at h
  by_cases hdst : dst = []
  · rw [if_pos hdst] at h
    cases h
  rw [if_neg hdst] at h
  refine ⟨hdst, ?_⟩
  split at h
  · next log₁ hmkdir =>
    obtain ⟨-, rfl⟩ := Prod.mk.inj hmkdir
    split_ifs at h with hrsync
    · refine ⟨.rsync "-a".toList (src ++ "/".toList) (dst ++ "/".toList), _, _, ?_,
        .inl ⟨rfl, rfl⟩, rfl, fun _ => Iff.rfl⟩
      rw [← (Prod.mk.inj h).2, List.append_assoc]
      rfl
    · refine ⟨.cp (src ++ "/.".toList) (dst ++ "/.".toList), _, _, ?_,
        .inr ⟨rfl, rfl⟩, rfl, fun _ => Iff.rfl⟩
      rw [← (Prod.mk.inj h).2, List.append_assoc]
      rfl
  · next hfailed => exact absurd h (hfailed _)

theorem source_of_ne_git (h : a.variant ≠ .git) : a.source = a.src := if_neg fun hgit => h hgit.1

theorem worksOn_bind (hlog : Prepares a.dst log) (hv : a.variant = .bind ∨ a.variant = .bindRo)
    {cs : List ImportCmd} (hcs : cs = [] ∨ cs = [.remount "bind,ro".toList a.dst]) :
    WorksOn env a (log ++ .mkdirP a.dst :: .mountBind a.src a.dst :: cs) := by
  have hgit : a.variant ≠ .git := by rcases hv with hv | hv <;> rw [hv] <;> decide
  refine worksOn_of hlog ⟨.mountBind a.src a.dst, by simp, by simp [ImportCmd.transfer]⟩ ?_ ?_ ?_
  · intro c hc t ht
    rw [source_of_ne_git hgit]
    rcases List.mem_cons.1 hc with rfl | hc
    · cases ht
    rcases List.mem_cons.1 hc with rfl | hc
    · exact (Option.some.inj ht).symm
    · rcases hcs with rfl | rfl
      · cases hc
      · rw [List.mem_singleton.1 hc] at ht
        cases ht
  · intro c hc q hq
    rcases List.mem_cons.1 hc with rfl | hc
    · exact framed_mkdirP env a.dst q hq
    rcases List.mem_cons.1 hc with rfl | hc
    · exact .inl hq
    · rcases hcs with rfl | rfl
      · cases hc
      · rw [List.mem_singleton.1 hc] at hq
        exact .inl hq
  · intro hcopy
    rcases hv with hv | hv <;> rw [hv] at hcopy <;> rcases hcopy with h | h <;> cases h

theorem worksOn_copy (hlog : Prepares a.dst log) (hv : a.variant = .copy) (hsrc : a.src ≠ [])
    {log' : List ImportCmd} (h : env.copytree a.src a.dst log = (some 0, log')) :
    WorksOn env a log' := by
  obtain ⟨hdst, c, s, t, rfl, hst, htransfer, htouches⟩ := copytree_zero h
  have hs : place s = place a.src ∧ place t = place a.dst := by
    rcases hst with ⟨rfl, rfl⟩ | ⟨rfl, rfl⟩
    · exact ⟨place_append_slash hsrc, place_append_slash hdst⟩
    · exact ⟨place_append_dot hsrc, place_append_dot hdst⟩
  refine worksOn_of hlog ⟨c, by simp, by simp [htransfer]⟩ ?_ ?_ ?_
  · intro c' hc t' ht
    rcases List.mem_cons.1 hc with rfl | hc
    · cases ht
    · rw [List.mem_singleton.1 hc, htransfer, hs.1, hs.2] at ht
      rw [source_of_ne_git (by rw [hv]; decide)]
      exact (Option.some.inj ht).symm
  · intro c' hc
    rcases List.mem_cons.1 hc with rfl | hc
    · exact framed_mkdirP env a.dst
    · rw [List.mem_singleton.1 hc]
      exact framed_copy hs.2 htouches
  · intro _ rel hrel
    refine ⟨c, by simp, (htouches _).2 (.inr ⟨rel, ?_, by rw [hs.2]⟩)⟩
    rwa [hs.1]

theorem worksOn_untar (hlog : Prepares a.dst log) (hv : a.variant = .untar) :
    WorksOn env a (log ++ [.untar a.dst a.src]) := by
  refine worksOn_of hlog ⟨.untar a.dst a.src, by simp, by simp [ImportCmd.transfer]⟩ ?_ ?_ ?_
  · intro c hc t ht
    rw [List.mem_singleton.1 hc] at ht
    rw [source_of_ne_git (by rw [hv]; decide)]
    exact (Option.some.inj ht).symm
  · intro c hc q hq
    rw [List.mem_singleton.1 hc] at hq
    exact .inl hq
  · intro hcopy
    rw [hv] at hcopy
    rcases hcopy with h | h <;> cases h

/-- **The other variants** never work on anything else. -/
theorem importVariant_works (hlog : Prepares a.dst log) (hsrc : a.src ≠ [])
    (hv : a.variant ≠ .rsync) {log' : List ImportCmd}
    (h : env.importVariant a log = (some 0, log')) : WorksOn env a log' := by
  cases hvariant : a.variant with
  | symlink => rw [ImportEnv.importVariant, hvariant] at h; cases h
  | bind =>
    rw [ImportEnv.importVariant, hvariant] at h
    rw [xmountBind_zero h]
    exact worksOn_bind hlog (.inl hvariant) (.inl rfl)
  | bindRo =>
    rw [ImportEnv.importVariant, hvariant] at h
    rw [xmountBindRo_zero h]
    exact worksOn_bind hlog (.inr hvariant) (.inr rfl)
  | copy =>
    rw [ImportEnv.importVariant, hvariant] at h
    exact worksOn_copy hlog hvariant hsrc h
  | untar =>
    rw [ImportEnv.importVariant, hvariant] at h
    rw [← (Prod.mk.inj h).2]
    exact worksOn_untar hlog hvariant
  | git =>
    -- the uri is never accepted
    have hexit : env.importVariant a log = (some 70, log) := by
      rw [ImportEnv.importVariant, hvariant]
      rfl
    rw [hexit] at h
    cases h
  | rsync => exact absurd hvariant hv

/-! ## The rsync variant -/

/-- The command of the `rsync` variant. -/
def rsyncCmd (a : ImportArgs) (opts : CStr) : ImportCmd :=
  .rsync opts (beforeLast '/' a.src ++ "/".toList) (beforeLast '/' a.dst ++ "/".toList)

/-- It is run, and succeeds. -/
def RsyncRuns (env : ImportEnv) (a : ImportArgs) : Prop :=
  env.badArgs a = false ∧ DstReady env a.dst ∧ ∃ opts ∈ env.rsyncOpts, env.exit (rsyncCmd a opts) = 0

theorem worksOn_rsync_iff (hlog : Prepares a.dst log) (hv : a.variant = .rsync)
    (hsrc : a.src ≠ []) (hdst : a.dst ≠ []) (opts : CStr) :
    WorksOn env a (log ++ [rsyncCmd a opts]) ↔ NamesItsDir a.src ∧ NamesItsDir a.dst := by
  have hsource : a.source = a.src := source_of_ne_git (by rw [hv]; decide)
  rw [← place_beforeLast_iff hsrc, ← place_beforeLast_iff hdst]
  constructor
  · intro hworks
    have ht := hworks.exact (rsyncCmd a opts) (by simp) _ rfl
    rw [hsource] at ht
    exact Prod.mk.inj ht
  · rintro ⟨hs, ht⟩
    refine worksOn_of hlog
      ⟨rsyncCmd a opts, by simp, by simp [rsyncCmd, ImportCmd.transfer]⟩ ?_ ?_ ?_
    · intro c hc t htransfer
      rw [List.mem_singleton.1 hc] at htransfer
      rw [hsource, ← Option.some.inj htransfer, hs, ht]
    · intro c hc
      rw [List.mem_singleton.1 hc]
      exact framed_copy ht fun _ => Iff.rfl
    · intro _ rel hrel
      refine ⟨_, List.mem_singleton.2 rfl, .inr ⟨rel, ?_, by rw [ht]⟩⟩
      rwa [hs]

/-! ## The result -/

theorem badArgs_false (h : env.badArgs a = false) : a.src ≠ [] ∧ a.dst ≠ [] := by
  rw [ImportEnv.badArgs] at h
  simp only [Bool.or_eq_false_iff, decide_eq_false_iff_not] at h
  exact ⟨h.1.1.1.2, h.1.1.2⟩

/-- **An import works on its source and destination** exactly if it is none by `rsync`, or
    one that fails, or if the paths name directories even without their last components. -/
theorem doImport_works_iff (hv : a.variant ≠ .symlink) :
    (∀ log, env.doImportToDir a = (some 0, log) → WorksOn env a log) ↔
      (a.variant = .rsync → RsyncRuns env a → NamesItsDir a.src ∧ NamesItsDir a.dst) := by
  obtain ⟨rc, log, hprepare, hlog, hready⟩ := prepareDstDir_spec env a.dst
  have hrun : env.badArgs a = false → rc = 0 → env.doImportToDir a = env.importVariant a log := by
    intro hargs hrc
    rw [ImportEnv.doImportToDir, if_neg (by simp [hargs]), if_neg hv, hprepare, hrc]
    rfl
  have hzero : ∀ log', env.doImportToDir a = (some 0, log') → env.badArgs a = false ∧ rc = 0 := by
    intro log' h
    rw [ImportEnv.doImportToDir] at h
    by_cases hargs : env.badArgs a = true
    · rw [if_pos hargs] at h
      cases h
    rw [if_neg hargs, if_neg hv, hprepare] at h
    refine ⟨by simpa using hargs, ?_⟩
    split at h
    · next heq => exact Option.some.inj (Prod.mk.inj heq).1
    · exact Option.some.inj (Prod.mk.inj h).1
  constructor
  · rintro hworks hrsync ⟨hargs, hdst, opts, hopts, hexit⟩
    obtain ⟨hsrc, hdst'⟩ := badArgs_false hargs
    rw [← worksOn_rsync_iff hlog hrsync hsrc hdst' opts]
    refine hworks _ ?_
    rw [hrun hargs (hready.2 hdst), ImportEnv.importVariant, hrsync, hopts]
    exact Prod.ext (congrArg some hexit) rfl
  · intro hnames log' h
    obtain ⟨hargs, hrc⟩ := hzero log' h
    obtain ⟨hsrc, hdst⟩ := badArgs_false hargs
    rw [hrun hargs hrc] at h
    by_cases hrsync : a.variant = .rsync
    · rw [ImportEnv.importVariant, hrsync] at h
      cases hopts : env.rsyncOpts with
      | none =>
        rw [hopts] at h
        cases h
      | some opts =>
        rw [hopts] at h
        obtain ⟨hexit, rfl⟩ := Prod.mk.inj h
        have hruns : RsyncRuns env a :=
          ⟨hargs, hready.1 hrc, opts, hopts, Option.some.inj hexit⟩
        exact (worksOn_rsync_iff hlog hrsync hsrc hdst opts).2 (hnames hrsync hruns)
    · exact importVariant_works hlog hsrc hrsync h

end

/-! ## An import of `/aux/etc` to `/newroot/etc` -/

/-- Directories everywhere; `/aux` has two entries; all commands succeed. -/
def quietEnv : ImportEnv where
  node _ := some ⟨false, true, true⟩
  entries d := if d = (true, ["aux".toList]) then [["etc".toList], ["usr".toList]] else []
  exit _ := 0
  haveRsync := true
  importDirRsyncOpts := none
  importDirDefaultRsyncOpts := some "-lptgoDH".toList
  debug := false

def etcImport (variant : ImportVariant) : ImportArgs :=
  ⟨variant, "etc".toList, [], "/aux/etc".toList, "/newroot/etc".toList, []⟩

/-- A copy works on `/newroot/etc`, `rsync` does not. -/
theorem import_etc :
    (∀ log, quietEnv.doImportToDir (etcImport .copy) = (some 0, log) →
      WorksOn quietEnv (etcImport .copy) log) ∧
    ¬ ∀ log, quietEnv.doImportToDir (etcImport .rsync) = (some 0, log) →
      WorksOn quietEnv (etcImport .rsync) log := by
  constructor
  · rw [doImport_works_iff (by decide)]
    intro h
    cases h
  · rw [doImport_works_iff (by decide)]
    intro h
    have hruns : RsyncRuns quietEnv (etcImport .rsync) :=
      ⟨by decide, .inl rfl, "-r -lptgoDH".toList, by decide, rfl⟩
    exact absurd (h rfl hruns).2 (by decide)

/-- A sibling of the destination is modified. -/
theorem sibling_touched : ¬ ∀ (env : ImportEnv) (a : ImportArgs), a.variant ≠ .symlink →
    isAbs '/' a.dst = true → a.dst.getLast? ≠ some '/' →
    ∀ log, env.doImportToDir a = (some 0, log) → WorksOn env a log := by
  intro h
  have hworks := h quietEnv (etcImport .rsync) (by decide) (by decide) (by decide)
    [.rsync "-r -lptgoDH".toList "/aux/".toList "/newroot/".toList] (by decide)
  have htouched := hworks.frame _ (List.mem_singleton.2 rfl) (place "/newroot/usr".toList)
    (.inr ⟨["usr".toList], by decide, by decide⟩)
  rcases htouched with ⟨-, hbelow⟩ | ⟨-, hmissing⟩
  · exact absurd hbelow (by decide)
  · cases hmissing

end Fischstaebchen
