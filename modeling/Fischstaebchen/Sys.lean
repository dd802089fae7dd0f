/-
  What the system calls answer, and what programs do.
-/
import Mathlib.Tactic

namespace Fischstaebchen

/-- The errors that are told apart somewhere; `other` is any of the rest. -/
inductive Errno
  | ENOENT
  | EBUSY
  | EINVAL
  | other (code : ℕ)
deriving DecidableEq, Repr

/-- The answer of a system call: success or `errno`. -/
abbrev SysAnswer := Option Errno

/-- `EXIT_SUCCESS`. -/
def exitSuccess : ℤ := 0

/-- `EXIT_FAILURE`. -/
def exitFailure : ℤ := 1

/-- `EX_USAGE`. -/
def exUsage : ℤ := 64

/-- `EX_SOFTWARE`. -/
def exSoftware : ℤ := 70

end Fischstaebchen
