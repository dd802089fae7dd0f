/-
  The uris that `preparse_file_uri` returns (`base/functions/core/23-file-uri.sh`).

  `arg_is_real_file_uri` stores such a uri, and it is parsed again when the file is
  imported.

  * `preparseFileUri_eq`: the type of an argument decides what its path becomes.
  * `preparseFileUri_spelling`: the two spellings of a type are equivalent.
  * `canonical_iff`: when the uri is parsed again to the same type and uri.
-/
import Fischstaebchen.Overlay.FileUri

namespace Fischstaebchen

open Lib.Shell (caseOf)

/-! ## Types and their paths -/

/-- The types that are written before `://`. -/
def longTypes : List String :=
  ["aux", "file", "disk", "http", "https", "ftp", "cifs", "smb", "nfs", "github", "gh", "git",
    "git+ssh", "rsync"]

/-- The types that are written before `=`. -/
def shortTypes : List String :=
  ["aux", "file", "disk", "http", "https", "ftp", "cifs", "smb", "nfs", "github", "gh", "git",
    "rsync"]

/-- What a type makes of a path. -/
def typedFileUri (gh : GithubArchive) (type srcpath altSrcpath : CStr) : ℕ × FileUri :=
  let typed (type srcpath : CStr) : FileUri :=
    ⟨type, srcpath, type ++ "://".toList ++ withoutPrefix ['/'] srcpath⟩
  if caseOf type ["local", "file"] then
    (if caseOf srcpath ["/*"] then 0 else 2, ⟨type, srcpath, srcpath⟩)
  else if caseOf type ["aux"] then (checkSrcpath srcpath, ⟨type, srcpath, '@' :: srcpath⟩)
  else if caseOf type ["github"] then
    match githubSrcpath gh srcpath with
    | none => (2, ⟨type, srcpath, []⟩)
    | some srcpath => (checkSrcpath srcpath, typed gh.type srcpath)
  else if caseOf type ["git", "rsync"] then
    (checkSrcpath srcpath, ⟨type, srcpath, if altSrcpath = [] then srcpath else altSrcpath⟩)
  else (checkSrcpath srcpath, typed type srcpath)

section
variable {gh : GithubArchive} {arg type srcpath alt : CStr}

/-- **The type of an argument decides** what its path becomes. -/
theorem preparseFileUri_eq (hne : arg ≠ [])
    (hsplit : splitFileUri arg = some (type, srcpath, alt)) :
    preparseFileUri gh arg = typedFileUri gh (unaliasType type) srcpath alt := by
  rw [preparseFileUri, if_neg hne, hsplit]
  rfl

theorem splitFileUri_long {t : String} (ht : t ∈ longTypes) (rest : CStr) :
    splitFileUri (t.toList ++ ("://".toList ++ rest)) =
      some (t.toList, rest, t.toList ++ ("://".toList ++ rest)) := by
  simp only [longTypes, List.mem_cons, List.not_mem_nil, or_false] at ht
  rcases ht with rfl | rfl | rfl | rfl | rfl | rfl | rfl | rfl | rfl | rfl | rfl | rfl | rfl | rfl
    <;> rfl

theorem splitFileUri_short {t : String} (ht : t ∈ shortTypes) (rest : CStr) :
    splitFileUri (t.toList ++ '=' :: rest) = some (t.toList, rest, []) := by
  simp only [shortTypes, List.mem_cons, List.not_mem_nil, or_false] at ht
  rcases ht with rfl | rfl | rfl | rfl | rfl | rfl | rfl | rfl | rfl | rfl | rfl | rfl | rfl <;> rfl

/-- An argument that matches one of the patterns `t:*`, `t=*`, .. -/
theorem exists_of_caseOf {types : List String} {sep : String}
    (hlit : ∀ t ∈ types, Lib.Shell.IsLiteral (t ++ sep).toList)
    (h : caseOf arg (types.map fun t => t ++ sep ++ "*") = true) :
    ∃ t ∈ types, ∃ rest, arg = t.toList ++ (sep.toList ++ rest) := by
  obtain ⟨p, hp, hglob⟩ := List.any_eq_true.1 h
  obtain ⟨t, ht, rfl⟩ := List.mem_map.1 hp
  have hpre := (Lib.Shell.matches_prefix (hlit t ht) (by rw [String.toList_append]; rfl)).1 hglob
  obtain ⟨rest, rfl⟩ := hpre
  exact ⟨t, ht, rest, by rw [String.toList_append, List.append_assoc]⟩

/-- **What the arguments with a type look like.** -/
theorem splitFileUri_cases (h : splitFileUri arg = some (type, srcpath, alt)) :
    (∃ rest, arg = '/' :: rest) ∨ (∃ rest, arg = '@' :: rest ∨ arg = ':' :: rest) ∨
      (∃ t ∈ longTypes, ∃ rest, arg = t.toList ++ ("://".toList ++ rest)) ∨
      ∃ t ∈ shortTypes, ∃ rest, arg = t.toList ++ '=' :: rest := by
  rw [splitFileUri] at h
  split_ifs at h with hlocal haux hlong hshort
  · obtain ⟨t, ht, rest, rfl⟩ :=
      exists_of_caseOf (by decide : ∀ t ∈ ["/"], Lib.Shell.IsLiteral (t ++ "").toList) hlocal
    rw [List.mem_singleton.1 ht]
    exact .inl ⟨rest, rfl⟩
  · obtain ⟨t, ht, rest, rfl⟩ :=
      exists_of_caseOf (by decide : ∀ t ∈ ["@", ":"], Lib.Shell.IsLiteral (t ++ "").toList) haux
    simp only [List.mem_cons, List.not_mem_nil, or_false] at ht
    rcases ht with rfl | rfl
    · exact .inr (.inl ⟨rest, .inl rfl⟩)
    · exact .inr (.inl ⟨rest, .inr rfl⟩)
  · exact .inr (.inr (.inl (exists_of_caseOf (by decide) hlong)))
  · exact .inr (.inr (.inr (exists_of_caseOf
      (by decide : ∀ t ∈ shortTypes, Lib.Shell.IsLiteral (t ++ "=").toList) hshort)))

/-- The types with a spelling before `=` and one before `://`, except those of
    directories. -/
def fileTypes : List String :=
  ["aux", "file", "disk", "http", "https", "ftp", "cifs", "smb", "nfs", "github", "gh"]

/-- **The two spellings of a type** are equivalent. -/
theorem preparseFileUri_spelling (gh : GithubArchive) {t : String} (ht : t ∈ fileTypes)
    (rest : CStr) : preparseFileUri gh (t.toList ++ '=' :: rest) =
      preparseFileUri gh (t.toList ++ ("://".toList ++ rest)) := by
  have hshort : t ∈ shortTypes := List.mem_append_left ["git", "rsync"] ht
  have hlong : t ∈ longTypes := List.mem_append_left ["git", "git+ssh", "rsync"] ht
  rw [preparseFileUri_eq (by simp) (splitFileUri_short hshort rest),
    preparseFileUri_eq (by simp) (splitFileUri_long hlong rest)]
  simp only [fileTypes, List.mem_cons, List.not_mem_nil, or_false] at ht
  rcases ht with rfl | rfl | rfl | rfl | rfl | rfl | rfl | rfl | rfl | rfl | rfl <;> rfl

/-! ## Parsing a uri again -/

/-- The types whose uris start with them. -/
def remoteTypes : List String := ["disk", "http", "https", "ftp", "cifs", "nfs"]

/-- **The uri of a remote type** is parsed again. -/
theorem preparseFileUri_remote (gh : GithubArchive) {t : String} (ht : t ∈ remoteTypes)
    (rest : CStr) : preparseFileUri gh (t.toList ++ "://".toList ++ rest) =
      (checkSrcpath rest,
        ⟨t.toList, rest, t.toList ++ "://".toList ++ withoutPrefix ['/'] rest⟩) := by
  have hlong : t ∈ longTypes := by
    revert t
    decide
  rw [List.append_assoc, preparseFileUri_eq (by simp) (splitFileUri_long hlong rest)]
  simp only [remoteTypes, List.mem_cons, List.not_mem_nil, or_false] at ht
  rcases ht with rfl | rfl | rfl | rfl | rfl | rfl <;> rfl

/-- A path has a slash that is neither its first nor its last char. -/
theorem checkSrcpath_zero_iff : checkSrcpath srcpath = 0 ↔
    ∃ a u b v, srcpath = a :: (u ++ '/' :: b :: v) := by
  rw [checkSrcpath, caseOf, List.any_cons, List.any_nil, Bool.or_false,
    ← Lib.Shell.matches_inner (c := '/') (by decide) (p := "?*/?*") rfl]
  split_ifs with h
  · exact iff_of_true rfl h
  · exact iff_of_false (by simp) h

/-- **A uri is canonical**: if an argument is accepted, and is no uri of a directory, then
    its uri is parsed to the same type and uri. -/
def Canonical (gh : GithubArchive) (arg : CStr) : Prop :=
  ∀ file, preparseFileUri gh arg = (0, file) → file.type ≠ "git".toList →
    file.type ≠ "rsync".toList →
    ∃ srcpath, preparseFileUri gh file.uri = (0, ⟨file.type, srcpath, file.uri⟩)

/-- **The uri of a remote type is canonical** unless its path starts with two slashes. -/
theorem remote_stable_iff (gh : GithubArchive) {t : String} (ht : t ∈ remoteTypes)
    (h : checkSrcpath srcpath = 0) :
    (∃ p, preparseFileUri gh (t.toList ++ "://".toList ++ withoutPrefix ['/'] srcpath) =
      (0, ⟨t.toList, p, t.toList ++ "://".toList ++ withoutPrefix ['/'] srcpath⟩)) ↔
    ¬ ['/', '/'] <+: srcpath := by
  have hslash : ∀ s : CStr, withoutPrefix ['/'] ('/' :: s) = s := fun s => rfl
  have hother : ∀ (c : Char) (s : CStr), c ≠ '/' → withoutPrefix ['/'] (c :: s) = c :: s := by
    intro c s hc
    have hnot : ¬ ['/'] <+: c :: s := fun hpre => hc (List.cons_prefix_cons.1 hpre).1.symm
    rw [withoutPrefix, strStartswith_eq_none.2 hnot]
    rfl
  rw [preparseFileUri_remote gh ht]
  obtain ⟨a, u, b, v, rfl⟩ := checkSrcpath_zero_iff.1 h
  by_cases ha : a = '/'
  · subst ha
    rw [hslash]
    obtain ⟨c, s, hs⟩ : ∃ c s, u ++ '/' :: b :: v = c :: s :=
      List.exists_cons_of_ne_nil (by simp)
    by_cases hc : c = '/'
    · -- another slash is removed
      subst hc
      refine iff_of_false ?_ (not_not.2 ⟨s, by rw [hs]; rfl⟩)
      rintro ⟨p, hp⟩
      have huri := congrArg (fun r => r.2.uri.length) hp
      rw [hs, hslash] at huri
      simp at huri
    · refine iff_of_true ⟨u ++ '/' :: b :: v, ?_⟩ fun hpre => ?_
      · have hcheck : checkSrcpath (u ++ '/' :: b :: v) = 0 := by
          cases u with
          | nil => exact absurd (List.cons.inj hs).1.symm hc
          | cons d u => exact checkSrcpath_zero_iff.2 ⟨d, u, b, v, rfl⟩
        rw [hcheck, hs, hother c s hc]
      · rw [hs] at hpre
        exact hc (List.cons_prefix_cons.1 (List.cons_prefix_cons.1 hpre).2).1.symm
  · refine iff_of_true ⟨a :: (u ++ '/' :: b :: v), ?_⟩ fun hpre =>
      ha (List.cons_prefix_cons.1 hpre).1.symm
    rw [hother a _ ha, h, hother a _ ha]

/-- The spellings of the remote types. -/
def remoteSpellings : List String := "smb" :: remoteTypes

/-- **An argument of a remote type whose path starts with two slashes**, and does not end
    there. -/
def DoubleSlash (arg : CStr) : Prop :=
  ∃ t ∈ remoteSpellings, ∃ rest, rest ≠ [] ∧
    (arg = t.toList ++ '=' :: '/' :: '/' :: rest ∨
      arg = t.toList ++ ("://".toList ++ '/' :: '/' :: rest))

theorem mem_fileTypes {t : String} (ht : t ∈ remoteSpellings) : t ∈ fileTypes := by
  revert t
  decide

/-- A spelling of a remote type. -/
theorem preparseFileUri_spelled (gh : GithubArchive) {t : String} (ht : t ∈ remoteSpellings) :
    ∃ t' ∈ remoteTypes, ∀ rest, preparseFileUri gh (t.toList ++ '=' :: rest) =
      (checkSrcpath rest,
        ⟨t'.toList, rest, t'.toList ++ "://".toList ++ withoutPrefix ['/'] rest⟩) := by
  have hshort : t ∈ shortTypes := List.mem_append_left ["git", "rsync"] (mem_fileTypes ht)
  rcases List.mem_cons.1 ht with rfl | hremote
  · refine ⟨"cifs", by decide, fun rest => ?_⟩
    rw [preparseFileUri_eq (by simp) (splitFileUri_short hshort rest)]
    rfl
  · exact ⟨t, hremote, fun rest => by
      rw [preparseFileUri_spelling gh (mem_fileTypes ht), ← List.append_assoc,
        preparseFileUri_remote gh hremote]⟩

theorem remoteTypes_ne {t : String} (ht : t ∈ remoteTypes) :
    t.toList ≠ "git".toList ∧ t.toList ≠ "rsync".toList := by
  revert t
  decide

theorem Canonical.congr {gh : GithubArchive} {arg arg' : CStr}
    (h : preparseFileUri gh arg = preparseFileUri gh arg') :
    Canonical gh arg ↔ Canonical gh arg' := by
  rw [Canonical, Canonical, h]

/-- The uri of a remote type. -/
theorem canonical_remote_iff (gh : GithubArchive) {t : String} (ht : t ∈ remoteSpellings)
    (rest : CStr) : Canonical gh (t.toList ++ '=' :: rest) ↔
      (checkSrcpath rest = 0 → ¬ ['/', '/'] <+: rest) := by
  obtain ⟨t', ht', hvalue⟩ := preparseFileUri_spelled gh ht
  obtain ⟨hgit, hrsync⟩ := remoteTypes_ne ht'
  rw [Canonical, hvalue rest]
  constructor
  · intro h hcheck
    rw [← remote_stable_iff gh ht' hcheck]
    exact h _ (by rw [hcheck]) hgit hrsync
  · intro h file hfile _ _
    obtain ⟨hcheck, rfl⟩ := Prod.mk.inj hfile
    exact (remote_stable_iff gh ht' hcheck).2 (h hcheck)

/-- A local file is its own uri. -/
theorem canonical_local (gh : GithubArchive) (rest : CStr) : Canonical gh ('/' :: rest) := by
  intro file hfile _ _
  have hvalue : preparseFileUri gh ('/' :: rest) =
      (0, ⟨"local".toList, '/' :: rest, '/' :: rest⟩) := rfl
  rw [hvalue] at hfile
  obtain ⟨-, rfl⟩ := Prod.mk.inj hfile
  exact ⟨_, hvalue⟩

theorem canonical_aux (gh : GithubArchive) (rest : CStr) : Canonical gh ('@' :: rest) := by
  intro file hfile _ _
  have hvalue : preparseFileUri gh ('@' :: rest) =
      (checkSrcpath rest, ⟨"aux".toList, rest, '@' :: rest⟩) := rfl
  rw [hvalue] at hfile
  obtain ⟨hcheck, rfl⟩ := Prod.mk.inj hfile
  exact ⟨rest, by rw [hvalue, hcheck]⟩

/-- The archive of a github uri. -/
theorem canonical_github {t : String} (ht : t = "github" ∨ t = "gh") (rest : CStr) :
    Canonical githubArchive (t.toList ++ '=' :: rest) := by
  have hvalue : preparseFileUri githubArchive (t.toList ++ '=' :: rest) =
      match githubSrcpath githubArchive rest with
      | none => (2, ⟨"github".toList, rest, []⟩)
      | some srcpath => (checkSrcpath srcpath, ⟨"https".toList, srcpath,
          "https".toList ++ "://".toList ++ withoutPrefix ['/'] srcpath⟩) := by
    rcases ht with rfl | rfl <;> rfl
  intro file hfile _ _
  rw [hvalue] at hfile
  cases hsrcpath : githubSrcpath githubArchive rest with
  | none =>
    rw [hsrcpath] at hfile
    cases hfile
  | some srcpath =>
    rw [hsrcpath] at hfile
    obtain ⟨hcheck, rfl⟩ := Prod.mk.inj hfile
    refine (remote_stable_iff githubArchive (t := "https") (by decide) hcheck).2 ?_
    -- the path starts with the site
    have hsite : ∃ s, srcpath = 'a' :: s := by
      rw [githubSrcpath] at hsrcpath
      split_ifs at hsrcpath
      · exact ⟨_, (Option.some.inj hsrcpath).symm⟩
      · exact ⟨_, (Option.some.inj hsrcpath).symm⟩
    obtain ⟨s, rfl⟩ := hsite
    simp

theorem canonical_file (gh : GithubArchive) (rest : CStr) :
    Canonical gh ("file".toList ++ '=' :: rest) := by
  have hvalue : preparseFileUri gh ("file".toList ++ '=' :: rest) =
      (if caseOf rest ["/*"] then 0 else 2, ⟨"local".toList, rest, rest⟩) := rfl
  intro file hfile hgit hrsync
  rw [hvalue] at hfile
  split_ifs at hfile with habs
  · obtain ⟨t, ht, r, rfl⟩ :=
      exists_of_caseOf (by decide : ∀ t ∈ ["/"], Lib.Shell.IsLiteral (t ++ "").toList) habs
    rw [List.mem_singleton.1 ht] at hfile
    obtain ⟨-, rfl⟩ := Prod.mk.inj hfile
    exact canonical_local gh r _ rfl hgit hrsync
  · cases hfile

/-- The uri of an argument with a type. -/
theorem canonical_of_fileType {t : String} (ht : t ∈ fileTypes) {rest : CStr}
    (h : t ∈ remoteSpellings → checkSrcpath rest = 0 → ¬ ['/', '/'] <+: rest) :
    Canonical githubArchive (t.toList ++ '=' :: rest) := by
  by_cases hremote : t ∈ remoteSpellings
  · exact (canonical_remote_iff _ hremote rest).2 (h hremote)
  have hother : t = "aux" ∨ t = "file" ∨ t = "github" ∨ t = "gh" := by
    clear h
    revert t
    decide
  rcases hother with rfl | rfl | hgithub
  · have hvalue : preparseFileUri githubArchive ("aux".toList ++ '=' :: rest) =
        preparseFileUri githubArchive ('@' :: rest) := rfl
    exact (Canonical.congr hvalue).2 (canonical_aux _ rest)
  · exact canonical_file _ rest
  · exact canonical_github hgithub rest

/-- **What is accepted is canonical** unless a path starts with two slashes, and the two
    spellings of a type are equivalent. -/
theorem canonical_iff (arg : CStr) :
    (Canonical githubArchive arg ∧ ∀ t ∈ fileTypes, ∀ rest,
      preparseFileUri githubArchive (t.toList ++ '=' :: rest) =
        preparseFileUri githubArchive (t.toList ++ ("://".toList ++ rest))) ↔
    ¬ DoubleSlash arg := by
  rw [and_iff_left fun t ht rest => preparseFileUri_spelling githubArchive ht rest]
  constructor
  · rintro h ⟨t, ht, rest, hrest, harg⟩
    have hcanonical : Canonical githubArchive (t.toList ++ '=' :: '/' :: '/' :: rest) := by
      rcases harg with rfl | rfl
      · exact h
      · exact (Canonical.congr (preparseFileUri_spelling _ (mem_fileTypes ht) _)).2 h
    obtain ⟨b, v, rfl⟩ := List.exists_cons_of_ne_nil hrest
    refine (canonical_remote_iff _ ht _).1 hcanonical ?_ ⟨b :: v, rfl⟩
    exact checkSrcpath_zero_iff.2 ⟨'/', [], b, v, rfl⟩
  · intro h file hfile hgit hrsync
    -- a path with two slashes is not accepted if it ends there
    have hslash : ∀ t ∈ remoteSpellings, ∀ rest, (arg = t.toList ++ '=' :: rest ∨
        arg = t.toList ++ ("://".toList ++ rest)) → checkSrcpath rest = 0 →
        ¬ ['/', '/'] <+: rest := by
      rintro t ht rest harg hcheck ⟨r, rfl⟩
      refine h ⟨t, ht, r, ?_, harg⟩
      rintro rfl
      cases hcheck
    have hdir : ∀ t : String, t ∉ fileTypes → t ∈ longTypes → ∀ srcpath alt,
        (typedFileUri githubArchive (unaliasType t.toList) srcpath alt).2.type = "git".toList ∨
          (typedFileUri githubArchive (unaliasType t.toList) srcpath alt).2.type =
            "rsync".toList := by
      intro t ht hlong srcpath alt
      have hcases : ∀ t ∈ longTypes, t ∉ fileTypes → t = "git" ∨ t = "git+ssh" ∨ t = "rsync" := by
        decide
      rcases hcases t hlong ht with rfl | rfl | rfl
      · exact .inl rfl
      · exact .inl rfl
      · exact .inr rfl
    have hne : arg ≠ [] := by
      rintro rfl
      cases hfile
    cases hsplit : splitFileUri arg with
    | none =>
      rw [preparseFileUri, if_neg hne, hsplit] at hfile
      cases hfile
    | some parts =>
      obtain ⟨type, srcpath, alt⟩ := parts
      rcases splitFileUri_cases hsplit with ⟨rest, rfl⟩ | ⟨rest, rfl | rfl⟩ |
        ⟨t, ht, rest, rfl⟩ | ⟨t, ht, rest, rfl⟩
      · exact canonical_local _ rest file hfile hgit hrsync
      · exact canonical_aux _ rest file hfile hgit hrsync
      · exact canonical_aux _ rest file hfile hgit hrsync
      · by_cases hmem : t ∈ fileTypes
        · have hspelling := preparseFileUri_spelling githubArchive hmem rest
          refine (Canonical.congr hspelling).1 (canonical_of_fileType hmem fun hr => ?_) file hfile
            hgit hrsync
          exact hslash t hr rest (.inr rfl)
        · rw [preparseFileUri_eq hne (splitFileUri_long ht rest)] at hfile
          have htype := hdir t hmem ht rest (t.toList ++ ("://".toList ++ rest))
          rw [hfile] at htype
          exact (htype.elim hgit hrsync).elim
      · by_cases hmem : t ∈ fileTypes
        · refine canonical_of_fileType hmem (fun hr => ?_) file hfile hgit hrsync
          exact hslash t hr rest (.inl rfl)
        · have hlong : t ∈ longTypes := by
            clear hmem hfile hsplit hslash h hne
            revert t
            decide
          rw [preparseFileUri_eq hne (splitFileUri_short ht rest)] at hfile
          have htype := hdir t hmem hlong rest []
          rw [hfile] at htype
          exact (htype.elim hgit hrsync).elim

/-- A uri with slashes is stored with one of them less, and is not accepted again. -/
theorem canonical_slashes : DoubleSlash "http=//a".toList ∧
    preparseFileUri githubArchive "http=//a".toList =
      (0, ⟨"http".toList, "//a".toList, "http:///a".toList⟩) ∧
    (preparseFileUri githubArchive "http:///a".toList).1 = 2 ∧
    ¬ Canonical githubArchive "http=//a".toList := by
  have hfirst : preparseFileUri githubArchive "http=//a".toList =
      (0, ⟨"http".toList, "//a".toList, "http:///a".toList⟩) := rfl
  have hsecond : (preparseFileUri githubArchive "http:///a".toList).1 = 2 := rfl
  refine ⟨⟨"http", by decide, ['a'], by simp, .inl rfl⟩, hfirst, hsecond, fun h => ?_⟩
  obtain ⟨srcpath, hagain⟩ := h _ hfirst (by decide) (by decide)
  rw [hagain] at hsecond
  cases hsecond

end

end Fischstaebchen
