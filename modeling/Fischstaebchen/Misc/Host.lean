/-
  What the program learns about the system, and the environment it exports
  (`common/misc/sysinfo.c`, `common/misc/kver.c`, `common/misc/env.c`).

  * `getLocalversion_suffix`: the local version is an end of the release string.
  * `exportEnv_self`, `exportEnv_of_ne`: an export sets its variable and no other.
-/
import Fischstaebchen.Strutil.Compare

namespace Fischstaebchen

/-! ## System information -/

/-- What sysinfo(2) says about the memory. -/
structure Sysinfo where
  totalram : BitVec 64
  memUnit : BitVec 32

/-- What uname(2) says. -/
structure Utsname where
  release : CStr
  machine : CStr

/-- The answers of the system, which do not change while the program runs;
    `none` is a failed call. -/
structure Host where
  nprocsConf : ℤ
  sysinfo : Option Sysinfo
  uname : Option Utsname

/-- `get_cpucount`. -/
def getCpucount (host : Host) : ℤ := host.nprocsConf

/-- `_get_memsize_m_from_sysinfo`. -/
def getMemsizeMFromSysinfo (sinfo : Sysinfo) : ℕ :=
  let memUnit : BitVec 64 := sinfo.memUnit.setWidth 64
  let toSize (sizem : BitVec 64) : ℕ :=
    if sizem.toInt < 0 then 0 else if sizem = 0#64 then 1 else sizem.toNat
  if sinfo.totalram > 1048576#64 then toSize (sinfo.totalram / 1048576#64 * memUnit)
  else if sinfo.totalram > 1024#64 then toSize (sinfo.totalram / 1024#64 * (memUnit / 1024#64))
  else if memUnit > 1048576#64 then toSize (memUnit / 1048576#64 * sinfo.totalram)
  else 1

/-- `get_memsize_m`: the memory size in megabytes, 0 if it is not known. -/
def getMemsizeM (host : Host) : ℕ :=
  match host.sysinfo with
  | none => 0
  | some sinfo => getMemsizeMFromSysinfo sinfo

/-- `get_kernel_release`. -/
def getKernelRelease (host : Host) : Option CStr := host.uname.map Utsname.release

/-- The loop of `get_localversion` after `-rc`; `splitPos` starts at the `r`. -/
def localversionLoop (splitPos : CStr) : Bool → CStr → CStr
  | isFirst, [] => if isFirst then splitPos else []
  | isFirst, c :: s =>
    if '0' ≤ c ∧ c ≤ '9' then localversionLoop splitPos false s
    else if c = '+' then if isFirst ∨ s ≠ [] then splitPos else []
    else if c = '-' then if isFirst then splitPos else s
    else splitPos

/-- `get_localversion`, for a release string that is not NULL. -/
def getLocalversion (kversionStr : CStr) : CStr :=
  match strchr kversionStr '-' with
  | none => []
  | some rest =>
    match rest.drop 1 with
    | 'r' :: 'c' :: s => localversionLoop ('r' :: 'c' :: s) true s
    | splitPos => splitPos

theorem localversionLoop_suffix {splitPos : CStr} : ∀ (isFirst : Bool) (s : CStr), s <:+ splitPos →
    localversionLoop splitPos isFirst s <:+ splitPos
  | isFirst, [], _ => by
    cases isFirst
    · exact List.nil_suffix
    · exact List.suffix_rfl
  | isFirst, c :: s, h => by
    have hs : s <:+ splitPos := (List.suffix_cons c s).trans h
    rw [localversionLoop]
    split_ifs
    · exact localversionLoop_suffix false s hs
    · exact List.suffix_rfl
    · exact List.nil_suffix
    · exact List.suffix_rfl
    · exact hs
    · exact List.suffix_rfl

/-- **The local version** is an end of the release string. -/
theorem getLocalversion_suffix (kversionStr : CStr) :
    getLocalversion kversionStr <:+ kversionStr := by
  unfold getLocalversion
  rw [strchr_eq]
  split_ifs
  · have hdrop : (kversionStr.dropWhile (· != '-')).drop 1 <:+ kversionStr :=
      (List.drop_suffix _ _).trans (List.dropWhile_suffix _)
    dsimp only
    split
    · rename_i s hs
      rw [hs] at hdrop
      exact (localversionLoop_suffix true s ((List.suffix_cons _ _).trans
        (List.suffix_cons _ _))).trans hdrop
    · exact hdrop
  · exact List.nil_suffix

/-! ## The environment -/

/-- The environment variables. -/
abbrev Environ := String → Option CStr

/-- `do_export_env`; NULL unsets the variable. -/
def doExportEnv (varname : String) (value : Option CStr) (overwrite : Bool) (env : Environ) :
    Environ :=
  match value with
  | none => Function.update env varname none
  | some value =>
    if overwrite ∨ env varname = none then Function.update env varname (some value) else env

/-- `export_env`. -/
def exportEnv (varname : String) (value : Option CStr) (env : Environ) : Environ :=
  doExportEnv varname value true env

/-- `SHELL_STR_TRUE`. -/
def shellStrTrue : CStr := "y".toList

/-- `SHELL_STR_FALSE`. -/
def shellStrFalse : CStr := "n".toList

/-- `export_env_shbool`. -/
def exportEnvShbool (varname : String) (boolval : ℤ) (env : Environ) : Environ :=
  exportEnv varname (some (if boolval ≠ 0 then shellStrTrue else shellStrFalse)) env

theorem exportEnv_self (varname : String) (value : Option CStr) (env : Environ) :
    exportEnv varname value env varname = value := by
  cases value <;> simp [exportEnv, doExportEnv]

theorem exportEnv_of_ne {name varname : String} (h : name ≠ varname) (value : Option CStr)
    (env : Environ) : exportEnv varname value env name = env name := by
  cases value <;> simp [exportEnv, doExportEnv, h]

theorem exportEnvShbool_self (varname : String) (boolval : ℤ) (env : Environ) :
    exportEnvShbool varname boolval env varname = some shellStrTrue ↔ boolval ≠ 0 := by
  rw [exportEnvShbool, exportEnv_self]
  by_cases h : boolval = 0
  · simp [h, shellStrTrue, shellStrFalse]
  · simp [h]

theorem exportEnvShbool_of_ne {name varname : String} (h : name ≠ varname) (boolval : ℤ)
    (env : Environ) : exportEnvShbool varname boolval env name = env name :=
  exportEnv_of_ne h _ _

end Fischstaebchen
