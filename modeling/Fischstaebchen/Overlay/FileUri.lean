/-
  File uris on the command line (`base/functions/core/23-file-uri.sh` and
  `arg_is_real_file_uri` of `base/hooks/parse-cmdline`).

  * `argIsRealFileUri_ne_nil`: a file uri is not empty.
-/
import Fischstaebchen.Lib.Glob
import Fischstaebchen.Strutil.Compare

namespace Fischstaebchen

open Lib.Shell (caseOf)

/-! ## Parameter expansions -/

/-- `${s%%<sep>*}`: the part before the first occurrence. -/
def beforeFirst (sep : CStr) : CStr → CStr
  | [] => []
  | c :: s => if sep.isPrefixOf (c :: s) then [] else c :: beforeFirst sep s

/-- `${s#*<sep>}`: the part after the first occurrence, or the string itself. -/
def afterFirst (sep s : CStr) : CStr :=
  match (s.drop (beforeFirst sep s).length) with
  | [] => s
  | rest => rest.drop sep.length

/-- `${s%<c>*}`: the part before the last `c`, or the string itself. -/
def beforeLast (c : Char) (s : CStr) : CStr :=
  if c ∈ s then (s.reverse.dropWhile (· != c)).reverse.dropLast else s

/-- `${s##*<c>}`: the part after the last `c`, or the string itself. -/
def afterLast (c : Char) (s : CStr) : CStr := (s.reverse.takeWhile (· != c)).reverse

/-- `${s#<pre>}`. -/
def withoutPrefix (pre s : CStr) : CStr := (strStartswith s pre).getD s

/-! ## The functions -/

/-- The variables that `preparse_file_uri` sets. -/
structure FileUri where
  type : CStr
  srcpath : CStr
  uri : CStr

/-- Where the archives of github are (`GITHUB_ARCHIVE_SITE`, `GITHUB_ARCHIVE_TYPE`). -/
structure GithubArchive where
  site : CStr
  type : CStr

/-- The values of `misc/metash_vdef`. -/
def githubArchive : GithubArchive := ⟨"api.github.com/repos".toList, "https".toList⟩

/-- The first `case` of `preparse_file_uri`: `type`, `srcpath` and `alt_srcpath`. -/
def splitFileUri (arg : CStr) : Option (CStr × CStr × CStr) :=
  if caseOf arg ["/*"] then some ("local".toList, arg, [])
  else if caseOf arg ["@*", ":*"] then some ("aux".toList, arg.drop 1, [])
  else if caseOf arg ["aux://*", "file://*", "disk://*", "http://*", "https://*", "ftp://*",
      "cifs://*", "smb://*", "nfs://*", "github://*", "gh://*", "git://*", "git+ssh://*",
      "rsync://*"] then
    some (beforeFirst "://".toList arg, afterFirst "://".toList arg, arg)
  else if caseOf arg ["aux=*", "file=*", "disk=*", "http=*", "https=*", "ftp=*", "cifs=*", "smb=*",
      "nfs=*", "github=*", "gh=*", "git=*", "rsync=*"] then
    some (beforeFirst ['='] arg, afterFirst ['='] arg, [])
  else none

/-- The second `case` of `preparse_file_uri`. -/
def unaliasType (type : CStr) : CStr :=
  if caseOf type ["smb"] then "cifs".toList
  else if caseOf type ["file"] then "local".toList
  else if caseOf type ["gh"] then "github".toList
  else if caseOf type ["git+ssh"] then "git".toList
  else type

/-- The `srcpath` of a github uri; `none` if it is malformed. -/
def githubSrcpath (gh : GithubArchive) (srcpath : CStr) : Option CStr :=
  if caseOf srcpath ["*/*:*:*", "*/*:", "/*", "*/", "*/*/*"] then none
  else if caseOf srcpath ["?*/?*:?*"] then
    some (gh.site ++ '/' :: beforeLast ':' srcpath ++ "/tarball/".toList ++ afterLast ':' srcpath)
  else if caseOf srcpath ["?*/?*"] then
    some (gh.site ++ '/' :: srcpath ++ "/tarball/master".toList)
  else none

/-- The last `case` of `preparse_file_uri`. -/
def checkSrcpath (srcpath : CStr) : ℕ := if caseOf srcpath ["?*/?*"] then 0 else 2

/-- `preparse_file_uri`: the return code and the variables. -/
def preparseFileUri (gh : GithubArchive) (arg : CStr) : ℕ × FileUri :=
  if arg = [] then (64, ⟨[], [], []⟩)
  else
    match splitFileUri arg with
    | none => (1, ⟨[], [], []⟩)
    | some (type, srcpath, altSrcpath) =>
      let type := unaliasType type
      let typed (type srcpath : CStr) : FileUri :=
        ⟨type, srcpath, type ++ "://".toList ++ withoutPrefix ['/'] srcpath⟩
      if caseOf type ["local", "file"] then
        (if caseOf srcpath ["/*"] then 0 else 2, ⟨type, srcpath, srcpath⟩)
      else if caseOf type ["aux"] then (checkSrcpath srcpath, ⟨type, srcpath, '@' :: srcpath⟩)
      else if caseOf type ["github"] then
        match githubSrcpath gh srcpath with
        | none => (2, ⟨type, srcpath, []⟩)
        | some srcpath => (checkSrcpath srcpath, typed gh.type srcpath)
      else if caseOf type ["git", "rsync"] then
        (checkSrcpath srcpath, ⟨type, srcpath, if altSrcpath = [] then srcpath else altSrcpath⟩)
      else (checkSrcpath srcpath, typed type srcpath)

/-- `check_file_uri_type_dir_only`. -/
def checkFileUriTypeDirOnly (type : CStr) : Bool :=
  if caseOf type ["git"] then true else if caseOf type ["rsync"] then true else false

/-- `_arg_is_file_uri`: the uri, if the argument is one; `none` if it kills the process. -/
def argIsFileUri (gh : GithubArchive) (arg : CStr) : Option (Option FileUri) :=
  let (rc, file) := preparseFileUri gh (withoutPrefix "file=".toList arg)
  if rc = 0 then some (some file) else if file.type ≠ [] then none else some none

/-- `arg_is_real_file_uri`: the uri, if the argument is one; `none` if it kills the
    process. -/
def argIsRealFileUri (gh : GithubArchive) (arg : CStr) : Option (Option CStr) :=
  match argIsFileUri gh arg with
  | some (some file) => if checkFileUriTypeDirOnly file.type then none else some (some file.uri)
  | some none => some none
  | none => none

/-! ## The uris -/

theorem checkFileUriTypeDirOnly_eq (type : CStr) :
    checkFileUriTypeDirOnly type = caseOf type ["git", "rsync"] := by
  have hpair : caseOf type ["git", "rsync"] = (caseOf type ["git"] || caseOf type ["rsync"]) := by
    simp [caseOf]
  rw [checkFileUriTypeDirOnly, hpair]
  cases caseOf type ["git"] <;> cases caseOf type ["rsync"] <;> rfl

/-- A uri that is accepted is not empty, unless it is one of a directory. -/
theorem preparseFileUri_ne_nil {gh : GithubArchive} {arg : CStr} {file : FileUri}
    (hfile : preparseFileUri gh arg = (0, file))
    (hdir : checkFileUriTypeDirOnly file.type = false) : file.uri ≠ [] := by
  have htyped : ∀ type rest : CStr, type ++ "://".toList ++ rest ≠ [] := by simp
  rw [preparseFileUri] at hfile
  split_ifs at hfile with harg
  · cases hfile
  · cases hsplit : splitFileUri arg with
    | none => rw [hsplit] at hfile; cases hfile
    | some parts =>
      obtain ⟨type, srcpath, alt⟩ := parts
      rw [hsplit] at hfile
      dsimp only at hfile
      split_ifs at hfile with hlocal habs haux hgithub hgit
      · -- the path is absolute
        cases hfile
        rintro rfl
        exact absurd habs (by decide)
      · cases hfile
      · obtain ⟨-, rfl⟩ := Prod.mk.inj hfile
        exact List.cons_ne_nil _ _
      · cases hsrcpath : githubSrcpath gh srcpath with
        | none => rw [hsrcpath] at hfile; cases hfile
        | some srcpath =>
          rw [hsrcpath] at hfile
          obtain ⟨-, rfl⟩ := Prod.mk.inj hfile
          exact htyped _ _
      all_goals obtain ⟨-, rfl⟩ := Prod.mk.inj hfile
      · rw [checkFileUriTypeDirOnly_eq, hgit] at hdir
        cases hdir
      · rw [checkFileUriTypeDirOnly_eq, hgit] at hdir
        cases hdir
      · exact htyped _ _

/-- **A file uri is not empty.** -/
theorem argIsRealFileUri_ne_nil {gh : GithubArchive} {arg uri : CStr}
    (h : argIsRealFileUri gh arg = some (some uri)) : uri ≠ [] := by
  rw [argIsRealFileUri, argIsFileUri] at h
  cases hfile : preparseFileUri gh (withoutPrefix "file=".toList arg) with
  | mk rc file =>
    rw [hfile] at h
    dsimp only at h
    by_cases hrc : rc = 0
    · rw [if_pos hrc] at h
      dsimp only at h
      split_ifs at h with hdir
      cases h
      rw [hrc] at hfile
      exact preparseFileUri_ne_nil hfile (by simpa using hdir)
    · rw [if_neg hrc] at h
      split_ifs at h
      cases h

end Fischstaebchen
