/-
  Verifying imported files (`base/functions/core/40-file_import/30-file-import-base.sh`).

  A file may have digest files next to it, one for each of two hash programs.

  * `verifyHashfile_zero_iff`: when a digest file verifies the file.
  * `verifyDigestForFile_zero_iff`: when the file is accepted.
  * `acceptsOnlyVerified_iff`: an accepted file has no digest file that fails to verify
    it, unless the other one verifies it.
-/
import Fischstaebchen.Lib.Fields
import Fischstaebchen.Strutil.Compare

namespace Fischstaebchen

open Lib.Shell (isIfsBlank)

/-! ## Reading and hashing -/

/-- The hash programs: `io_sha1` and `io_md5sum`. -/
inductive HashProg
  | sha1
  | md5
  deriving DecidableEq

/-- A file: whether it is a regular one, and what is read from it; `none` if it cannot
    be read. -/
structure ImportedFile where
  isRegular : Bool
  content : Option CStr

/-- The files, and the hash programs: their exit codes and outputs for an input. -/
structure DigestEnv where
  files : CStr → Option ImportedFile
  haveSha1 : CStr
  haveMd5 : CStr
  ioHash : HashProg → CStr → ℤ × CStr

/-- `[ -f file ]`. -/
def DigestEnv.isFile (env : DigestEnv) (file : CStr) : Bool :=
  (env.files file).any ImportedFile.isRegular

def DigestEnv.content (env : DigestEnv) (file : CStr) : Option CStr :=
  (env.files file).bind ImportedFile.content

/-- A string without the blanks around it. -/
def trimBlanks (s : CStr) : CStr := (s.dropWhile isIfsBlank).rdropWhile isIfsBlank

/-- `read -r`: the exit code and the variable.  A line that does not end is read, but
    the exit code is 1. -/
def readLine (input : CStr) : ℤ × CStr :=
  (if '\n' ∈ input then 0 else 1, trimBlanks (input.takeWhile (· != '\n')))

/-- `$(...)`: the output without the newlines at its end. -/
def commandSubst (output : CStr) : CStr := output.rdropWhile (· == '\n')

section
variable (env : DigestEnv)

/-- `_import_file_do_verify_hashfile`. -/
def importFileDoVerifyHashfile (prog : HashProg) (srcfile hashfile : CStr) : ℤ :=
  match (env.content hashfile).map readLine with
  | none => 1
  | some (rc, theirHash) =>
    if rc ≠ 0 ∨ theirHash = [] then 1
    else
      match (env.content srcfile).map (env.ioHash prog) with
      | none => 2
      | some (rc, output) =>
        let ourHash := commandSubst output
        if rc ≠ 0 ∨ ourHash = [] then 2
        else if theirHash ≠ ourHash then 3
        else 0

/-! ## Verifying a file -/

/-- The local variables of `_import_file_do_verify_digest_for_file`. -/
structure DigestVars where
  didVerify : CStr
  partialFail : ℤ

/-- A check for one of the hash programs. -/
def checkDigest (have_ : CStr) (prog : HashProg) (name file : CStr) (v : DigestVars) :
    DigestVars :=
  if have_ ≠ [] ∧ env.isFile (file ++ '.' :: name) then
    if importFileDoVerifyHashfile env prog file (file ++ '.' :: name) = 0 then
      { v with didVerify := v.didVerify ++ ' ' :: name }
    else { v with partialFail := 1 }
  else v

/-- The check with `HAVE_SHA1`. -/
def checkSha1 : CStr → DigestVars → DigestVars := checkDigest env env.haveSha1 .sha1 "sha1".toList

/-- The check with `HAVE_MD5`. -/
def checkMd5 : CStr → DigestVars → DigestVars := checkDigest env env.haveMd5 .md5 "md5".toList

/-- `_import_file_do_verify_digest_for_file`. -/
def importFileDoVerifyDigestForFile (file : CStr) : ℤ :=
  if file = [] then 64
  else
    let v := checkMd5 env file (checkSha1 env file ⟨[], 0⟩)
    let didVerify := (strStartswith v.didVerify [' ']).getD v.didVerify
    if didVerify = [] then
      -- there are no digest files, or none of them verifies the file
      if v.partialFail = 0 then 0 else 1
    else 0

/-- `_import_file_verify_digest_post`; there is no digest of a file that is no local one. -/
def importFileVerifyDigestPost (srcFilepath : CStr) : ℤ :=
  if srcFilepath ≠ [] then importFileDoVerifyDigestForFile env srcFilepath else 0

/-- `_import_file_verify_digest_pre`. -/
def importFileVerifyDigestPre (dst : CStr) : ℤ :=
  if env.isFile dst then importFileDoVerifyDigestForFile env dst else 1

/-! ## What is accepted -/

/-- `HAVE_SHA1` and `HAVE_MD5`. -/
def DigestEnv.have_ : HashProg → CStr
  | .sha1 => env.haveSha1
  | .md5 => env.haveMd5

/-- The digest file of a hash program. -/
def digestFile (file : CStr) : HashProg → CStr
  | .sha1 => file ++ ".sha1".toList
  | .md5 => file ++ ".md5".toList

/-- There is a digest file, and the hash program for it. -/
def HasDigest (file : CStr) (prog : HashProg) : Prop :=
  env.have_ prog ≠ [] ∧ env.isFile (digestFile file prog) = true

/-- **The digest file verifies the file**: its first line is complete, and is the hash of
    the file. -/
def Verifies (file : CStr) (prog : HashProg) : Prop :=
  ∃ line rest data hash, env.content (digestFile file prog) = some (line ++ '\n' :: rest) ∧
    '\n' ∉ line ∧ env.content file = some data ∧ env.ioHash prog data = (0, hash) ∧
    commandSubst hash ≠ [] ∧ trimBlanks line = commandSubst hash

/-- An accepted file is verified by each digest file for which there is a hash program. -/
def AcceptsOnlyVerified (file : CStr) : Prop :=
  importFileDoVerifyDigestForFile env file = 0 → ∀ prog, HasDigest env file prog →
    Verifies env file prog

end

section
variable {env : DigestEnv} {file : CStr} {prog : HashProg}

theorem readLine_zero {input hash : CStr} : readLine input = (0, hash) ↔
    ∃ line rest, input = line ++ '\n' :: rest ∧ '\n' ∉ line ∧ trimBlanks line = hash := by
  have htake : ∀ line rest : CStr, '\n' ∉ line →
      (line ++ '\n' :: rest).takeWhile (· != '\n') = line := by
    intro line rest hline
    rw [List.takeWhile_append_of_pos]
    · simp
    · intro c hc
      have hne : c ≠ '\n' := ne_of_mem_of_not_mem hc hline
      simpa using hne
  constructor
  · intro h
    obtain ⟨hrc, rfl⟩ := Prod.mk.inj h
    have hmem : '\n' ∈ input := by
      by_contra hnot
      rw [if_neg hnot] at hrc
      cases hrc
    obtain ⟨line, rest, rfl, hline⟩ := List.eq_append_cons_of_mem hmem
    exact ⟨line, rest, rfl, hline, by rw [htake line rest hline]⟩
  · rintro ⟨line, rest, rfl, hline, rfl⟩
    rw [readLine, htake line rest hline, if_pos (List.mem_append_right _ List.mem_cons_self)]

/-- **When a digest file verifies a file.** -/
theorem verifyHashfile_zero_iff :
    importFileDoVerifyHashfile env prog file (digestFile file prog) = 0 ↔
      Verifies env file prog := by
  unfold importFileDoVerifyHashfile
  constructor
  · intro h
    cases hdigest : env.content (digestFile file prog) with
    | none =>
      rw [hdigest] at h
      cases h
    | some input =>
      rw [hdigest, Option.map_some] at h
      dsimp only at h
      by_cases hread : (readLine input).1 ≠ 0 ∨ (readLine input).2 = []
      · rw [if_pos hread] at h
        cases h
      rw [if_neg hread] at h
      simp only [not_or, not_not] at hread
      cases hdata : env.content file with
      | none =>
        rw [hdata] at h
        cases h
      | some data =>
        rw [hdata, Option.map_some] at h
        dsimp only at h
        by_cases hhash : (env.ioHash prog data).1 ≠ 0 ∨ commandSubst (env.ioHash prog data).2 = []
        · rw [if_pos hhash] at h
          cases h
        rw [if_neg hhash] at h
        simp only [not_or, not_not] at hhash
        by_cases heq : (readLine input).2 ≠ commandSubst (env.ioHash prog data).2
        · rw [if_pos heq] at h
          cases h
        replace heq := not_not.1 heq
        obtain ⟨line, rest, rfl, hline, htrim⟩ := readLine_zero.1 (Prod.ext hread.1 rfl)
        exact ⟨line, rest, data, _, hdigest, hline, hdata, Prod.ext hhash.1 rfl, hhash.2,
          htrim.trans heq⟩
  · rintro ⟨line, rest, data, hash, hdigest, hline, hdata, hhash, hne, heq⟩
    have hread : readLine (line ++ '\n' :: rest) = (0, commandSubst hash) :=
      readLine_zero.2 ⟨line, rest, rfl, hline, heq⟩
    rw [hdigest, hdata, Option.map_some, Option.map_some, hread, hhash]
    dsimp only
    rw [if_neg (by simp [hne]), if_neg (by simp [hne]), if_neg (by simp)]

/-- The variables after the checks for some hash programs: `did_verify` is empty if
    nothing has been verified. -/
structure Noted (env : DigestEnv) (file : CStr) (progs : List HashProg) (v : DigestVars) :
    Prop where
  didVerify : (v.didVerify = [] ∧ ∀ prog ∈ progs, HasDigest env file prog →
      ¬ Verifies env file prog) ∨
    ∃ c rest, v.didVerify = ' ' :: c :: rest ∧
      ∃ prog ∈ progs, HasDigest env file prog ∧ Verifies env file prog
  partialFail : v.partialFail = 0 ↔
    ∀ prog ∈ progs, HasDigest env file prog → Verifies env file prog

/-- **A check** notes whether the digest file verifies the file. -/
theorem Noted.checkDigest {progs : List HashProg} {v : DigestVars} (h : Noted env file progs v)
    {have_ : CStr} (hhave : have_ = env.have_ prog) {c : Char} {name : CStr}
    (hname : file ++ '.' :: c :: name = digestFile file prog) :
    Noted env file (prog :: progs) (checkDigest env have_ prog (c :: name) file v) := by
  obtain ⟨hdid, hfail⟩ := h
  subst hhave
  rw [Fischstaebchen.checkDigest, hname]
  by_cases hhas : HasDigest env file prog
  · rw [if_pos (show env.have_ prog ≠ [] ∧ _ from hhas)]
    by_cases hver : Verifies env file prog
    · rw [if_pos (verifyHashfile_zero_iff.2 hver)]
      refine ⟨.inr ?_, ?_⟩
      · have hmem : ∃ p ∈ prog :: progs, HasDigest env file p ∧ Verifies env file p :=
          ⟨prog, List.mem_cons_self, hhas, hver⟩
        rcases hdid with ⟨hdid, -⟩ | ⟨c', rest, hdid, -⟩
        · exact ⟨c, name, by rw [hdid, List.nil_append], hmem⟩
        · exact ⟨c', rest ++ ' ' :: c :: name, by rw [hdid]; rfl, hmem⟩
      · simp only [List.forall_mem_cons, hver, implies_true, true_and]
        exact hfail
    · rw [if_neg (mt verifyHashfile_zero_iff.1 hver)]
      refine ⟨?_, ?_⟩
      · rcases hdid with ⟨hdid, hnone⟩ | ⟨c', rest, hdid, p, hp, hpver⟩
        · exact .inl ⟨hdid, List.forall_mem_cons.2 ⟨fun _ => hver, hnone⟩⟩
        · exact .inr ⟨c', rest, hdid, p, List.mem_cons_of_mem _ hp, hpver⟩
      · refine iff_of_false one_ne_zero fun hall => ?_
        exact hver (hall prog List.mem_cons_self hhas)
  · rw [if_neg (show ¬ (env.have_ prog ≠ [] ∧ _) from hhas)]
    refine ⟨?_, ?_⟩
    · rcases hdid with ⟨hdid, hnone⟩ | ⟨c', rest, hdid, p, hp, hpver⟩
      · exact .inl ⟨hdid, List.forall_mem_cons.2 ⟨fun h => absurd h hhas, hnone⟩⟩
      · exact .inr ⟨c', rest, hdid, p, List.mem_cons_of_mem _ hp, hpver⟩
    · simp only [List.forall_mem_cons, hhas, false_implies, true_and]
      exact hfail

theorem mem_progs (prog : HashProg) : prog ∈ [HashProg.md5, .sha1] := by
  cases prog <;> simp

theorem noted_checks : Noted env file [.md5, .sha1] (checkMd5 env file (checkSha1 env file ⟨[], 0⟩)) := by
  have hnone : Noted env file [] ⟨[], 0⟩ := ⟨.inl ⟨rfl, by simp⟩, by simp⟩
  have hsha1 : Noted env file [.sha1] (checkSha1 env file ⟨[], 0⟩) := hnone.checkDigest rfl rfl
  exact hsha1.checkDigest rfl rfl

/-- **When a file is accepted**: one of its digest files verifies it, or it has none. -/
theorem verifyDigestForFile_zero_iff : importFileDoVerifyDigestForFile env file = 0 ↔
    file ≠ [] ∧ ((∃ prog, HasDigest env file prog ∧ Verifies env file prog) ∨
      ∀ prog, ¬ HasDigest env file prog) := by
  by_cases hfile : file = []
  · rw [importFileDoVerifyDigestForFile, if_pos hfile]
    exact iff_of_false (by simp) fun h => h.1 hfile
  rw [importFileDoVerifyDigestForFile, if_neg hfile, and_iff_right hfile]
  have hnoted : Noted env file [.md5, .sha1] (checkMd5 env file (checkSha1 env file ⟨[], 0⟩)) :=
    noted_checks
  obtain ⟨hdid, hfail⟩ := hnoted
  dsimp only
  rcases hdid with ⟨hdid, hnone⟩ | ⟨c, rest, hdid, prog, -, hprog⟩
  · -- then the file is accepted if no digest file has failed
    have hempty : (strStartswith ([] : CStr) [' ']).getD [] = [] := rfl
    rw [hdid, hempty, if_pos rfl]
    constructor
    · intro h
      have hzero : (checkMd5 env file (checkSha1 env file ⟨[], 0⟩)).partialFail = 0 := by
        by_contra hne
        rw [if_neg hne] at h
        cases h
      exact .inr fun prog hhas =>
        hnone prog (mem_progs prog) hhas (hfail.1 hzero prog (mem_progs prog) hhas)
    · rintro (⟨prog, hhas, hver⟩ | hno)
      · exact absurd hver (hnone prog (mem_progs prog) hhas)
      · exact if_pos (hfail.2 fun prog _ hhas => absurd hhas (hno prog))
  · have hstrip : (strStartswith (' ' :: c :: rest) [' ']).getD (' ' :: c :: rest) = c :: rest :=
      rfl
    rw [hdid, hstrip, if_neg (List.cons_ne_nil _ _)]
    exact iff_of_true rfl (.inl ⟨prog, hprog⟩)

/-- **An accepted file is verified** by all of its digest files, unless one of them
    verifies it and the other one does not. -/
theorem acceptsOnlyVerified_iff (env : DigestEnv) (file : CStr) : AcceptsOnlyVerified env file ↔
    file = [] ∨ ¬ ∃ prog prog', (HasDigest env file prog ∧ Verifies env file prog) ∧
      HasDigest env file prog' ∧ ¬ Verifies env file prog' := by
  rw [AcceptsOnlyVerified, verifyDigestForFile_zero_iff]
  by_cases hfile : file = []
  · exact iff_of_true (fun h => absurd hfile h.1) (.inl hfile)
  rw [or_iff_right hfile]
  constructor
  · rintro h ⟨prog, prog', hver, hhas, hnot⟩
    exact hnot (h ⟨hfile, .inl ⟨prog, hver⟩⟩ prog' hhas)
  · rintro h ⟨-, ⟨prog, hver⟩ | hnone⟩ prog' hhas
    · by_contra hnot
      exact h ⟨prog, prog', hver, hhas, hnot⟩
    · exact absurd hhas (hnone prog')

end

/-- A file with two digests, the second of which is that of another file; the hash of a
    file is the file. -/
def tamperedEnv : DigestEnv where
  files := fun file =>
    if file = "a".toList then some ⟨true, some "x".toList⟩
    else if file = "a.sha1".toList then some ⟨true, some "x\n".toList⟩
    else if file = "a.md5".toList then some ⟨true, some "y\n".toList⟩
    else none
  haveSha1 := "sha1sum".toList
  haveMd5 := "md5".toList
  ioHash := fun _ input => (0, input ++ ['\n'])

/-- **The failure of the md5 digest is hidden** by the sha1 digest. -/
theorem mismatch_hidden : importFileDoVerifyDigestForFile tamperedEnv "a".toList = 0 ∧
    importFileDoVerifyHashfile tamperedEnv .md5 "a".toList "a.md5".toList = 3 ∧
    ¬ AcceptsOnlyVerified tamperedEnv "a".toList := by
  have hzero : importFileDoVerifyDigestForFile tamperedEnv "a".toList = 0 := by decide
  have hthree : importFileDoVerifyHashfile tamperedEnv .md5 "a".toList "a.md5".toList = 3 := by
    decide
  refine ⟨hzero, hthree, fun h => ?_⟩
  have hver := h hzero .md5 ⟨by decide, by decide⟩
  have hret : importFileDoVerifyHashfile tamperedEnv .md5 "a".toList "a.md5".toList = 0 :=
    verifyHashfile_zero_iff.2 hver
  rw [hthree] at hret
  cases hret

end Fischstaebchen
