import Mathlib.Algebra.Group.Nat.Defs
import Mathlib.Tactic.Common

/-!
# Ground types of the nucleus

The error codes of `lib/error.cxxm`, the lifecycle states of `zxfoundation/base/typestate.cxxm`
and the wrapping counters of the fixed-width fields. A `u32` or `u16` field is a natural
number here; every increment the source performs on one is written with its wrap.
-/

namespace ZXFoundation

/-! ## Error codes -/

inductive MemoryError where
  | outOfMemory | invalidAddress | alignmentError | regionOverlap | hhdmInitFailed | pageFault
  | invalidIrqContext | transactionAborted | capabilityInvalid | purposeMismatch | zoneExhausted
  | sspCheckFail
  deriving DecidableEq, Repr

inductive LockingError where
  | timeout | deadlockDetected | alreadyLocked | notLocked | maxDepthExceeded
  deriving DecidableEq, Repr

inductive DriverError where
  | notFound | notReady | ioError | timeout | busy
  deriving DecidableEq, Repr

inductive GenericError where
  | invalidArg | notSupported | notImplemented | internalError | notFound | unknown | outOfRange
  | uninitialized | stall
  deriving DecidableEq, Repr

/-- `lib::kernel_error`: a category together with the code of that category. -/
inductive KernelError where
  | memory (code : MemoryError)
  | locking (code : LockingError)
  | driver (code : DriverError)
  | generic (code : GenericError)
  deriving DecidableEq, Repr

/-! ## Lifecycle states -/

inductive LifecycleState where
  | embryo | sealed | active | suspended | dying | destroyed
  deriving DecidableEq, Repr

/-! ## Wrapping counters -/

def succ32 (n : Nat) : Nat := (n + 1) % 2 ^ 32

def pred32 (n : Nat) : Nat := (n + (2 ^ 32 - 1)) % 2 ^ 32

def succ16 (n : Nat) : Nat := (n + 1) % 2 ^ 16

theorem succ32_of_lt {n : Nat} (h : n + 1 < 2 ^ 32) : succ32 n = n + 1 :=
  Nat.mod_eq_of_lt h

theorem pred32_of_pos {n : Nat} (hpos : 0 < n) (h : n < 2 ^ 32) : pred32 n = n - 1 := by
  unfold pred32
  omega

theorem pred32_succ32 {n : Nat} (h : n < 2 ^ 32) : pred32 (succ32 n) = n := by
  unfold pred32 succ32
  omega

end ZXFoundation
