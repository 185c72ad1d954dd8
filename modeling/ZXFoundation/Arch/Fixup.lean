import Mathlib.Data.List.Basic
import ZXFoundation.Base

/-!
# The exception table

`arch/s390x/trap/fixup.zcomponent`. An instruction of the kernel that may fault has an entry which
names the address where execution goes on and a recovery that patches the saved registers. An entry
holds its two addresses relative to its own fields, and the number of a register in the high bits of
`data`.
-/

namespace ZXFoundation.Arch.Fixup

open Function

/-- The `EX_TYPE_*` constants; `other` is the `default` of the switch. -/
inductive ExType where
  | fixup | uaLoadReg | uaLoadRp | uaStore | uaMvcosTo | uaMvcosFrom | other
  deriving DecidableEq, Repr

structure FixupEntry where
  faultDelta : Int
  fixupDelta : Int
  type : ExType
  data : Nat
  deriving DecidableEq, Repr

/-- `irq_frame`: what a program check saves and restores. -/
structure IrqFrame where
  gprs : Nat → Nat
  accessRegs : Nat → Nat := fun _ => 0
  pswMask : Nat := 0
  pswAddr : Nat := 0

/-- The entries between `__ex_table_start` and `__ex_table_end`. -/
structure ExTable where
  base : Nat
  entries : List FixupEntry

/-- `field_address` of entry `i`; an entry takes twelve bytes. -/
def ExTable.fieldAddress (X : ExTable) (i offset : Nat) (delta : Int) : Nat :=
  (((X.base + 12 * i + offset : Nat) : Int) + delta).toNat % 2 ^ 64

def extractReg (data : Nat) : Nat := data / 2 ^ 12 % 16

def recover (e : FixupEntry) (failingStorageAddress : Nat) (frame : IrqFrame) : IrqFrame :=
  let reg := extractReg e.data
  match e.type with
  | .uaLoadReg => { frame with gprs := update frame.gprs reg failingStorageAddress }
  | .uaLoadRp =>
    { frame with gprs := update (update frame.gprs reg 0) (reg + 1) 0 }
  | .uaStore | .uaMvcosTo | .uaMvcosFrom => { frame with gprs := update frame.gprs reg 0 }
  | .fixup | .other => frame

/-- The first entry whose fault address is `faultingAddr`, with its index. -/
def ExTable.lookup (X : ExTable) (faultingAddr : Nat) : Option (FixupEntry × Nat) :=
  X.entries.zipIdx.find? fun e => X.fieldAddress e.2 0 e.1.faultDelta == faultingAddr

/-- `try_applying_fixup`: the address where execution goes on and the patched frame, or `none` if
the instruction has no entry. -/
def tryApplyingFixup (X : ExTable) (faultingAddr failingStorageAddress : Nat) (frame : IrqFrame) :
    Option (Nat × IrqFrame) :=
  (X.lookup faultingAddr).map fun e =>
    (X.fieldAddress e.2 4 e.1.fixupDelta, recover e.1 failingStorageAddress frame)

end ZXFoundation.Arch.Fixup
