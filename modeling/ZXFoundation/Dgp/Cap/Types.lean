import Mathlib.Data.Nat.Bitwise
import ZXFoundation.Scoms.Kobject

/-!
# Capability tokens

`zxfoundation/dgp/cap.zcomponent/types.cxxm` and the slot record of `core.cxx`. A token is an
opaque 64-bit word that packs four 16-bit fields:

    rights << 48 | generation << 32 | slot index << 16 | type

Packing and unpacking are inverse to each other (`make_fields`, `objectId_make` and its
siblings), so the word a holder presents is determined by the four fields the nucleus compares.
Both enumerations have `u16` as underlying type and are read out of an arbitrary word, so any
16-bit value can occur; the named values are constants.
-/

namespace ZXFoundation.Dgp.Cap

open Scoms

abbrev CapType := UInt16

abbrev CapRights := UInt16

namespace CapType

def none : CapType := 0
def domain : CapType := 1
def ioDevice : CapType := 5
def memory : CapType := 6
def memoryExtent : CapType := 9

end CapType

namespace CapRights

def none : CapRights := 0
def read : CapRights := 1
def write : CapRights := 2
def exec : CapRights := 4
def destroy : CapRights := 8
def delegate : CapRights := 16

/-- Every right of `b` is among those of `a`: the source's `(a & b) == b`. -/
def Covers (a b : CapRights) : Prop := a &&& b = b

theorem Covers.refl {a : CapRights} : Covers a a := UInt16.and_self

theorem Covers.trans {a b c : CapRights} (hab : Covers a b) (hbc : Covers b c) : Covers a c := by
  unfold Covers at *
  rw [← hbc, ← UInt16.and_assoc, hab]

end CapRights

structure CapToken where
  raw : UInt64
  deriving DecidableEq, Repr

variable (t : CapToken)

namespace CapToken

def make (type : CapType) (objId gen : UInt16) (rights : CapRights) : CapToken where
  raw := (rights.toUInt64 <<< 48) ||| (gen.toUInt64 <<< 32) ||| (objId.toUInt64 <<< 16) |||
    type.toUInt64

def type : CapType := (t.raw &&& 0xFFFF).toUInt16

def objectId : UInt16 := ((t.raw >>> 16) &&& 0xFFFF).toUInt16

def generation : UInt16 := ((t.raw >>> 32) &&& 0xFFFF).toUInt16

def rights : CapRights := ((t.raw >>> 48) &&& 0xFFFF).toUInt16

/-- `operator bool`. -/
def isValid : Bool := t.raw != 0 && t.type != CapType.none

/-! ## Packing -/

theorem mul_or_eq_add (a k : Nat) {b : Nat} (h : b < 2 ^ k) : a * 2 ^ k ||| b = a * 2 ^ k + b := by
  rw [← Nat.shiftLeft_eq, Nat.shiftLeft_add_eq_or_of_lt h]

theorem raw_make {type : CapType} {objId gen : UInt16} {rights : CapRights} :
    (make type objId gen rights).raw.toNat =
      rights.toNat * 2 ^ 48 + (gen.toNat * 2 ^ 32 + (objId.toNat * 2 ^ 16 + type.toNat)) := by
  have hr := rights.toNat_lt
  have hg := gen.toNat_lt
  have ho := objId.toNat_lt
  have ht := type.toNat_lt
  have h48 : (48 : UInt64).toNat % 64 = 48 := by decide
  have h32 : (32 : UInt64).toNat % 64 = 32 := by decide
  have h16 : (16 : UInt64).toNat % 64 = 16 := by decide
  simp only [make, UInt64.toNat_or, UInt64.toNat_shiftLeft, UInt16.toNat_toUInt64, h48, h32, h16,
    Nat.or_assoc, Nat.shiftLeft_eq]
  -- no shift overflows, and each field lies below the next one
  rw [Nat.mod_eq_of_lt (by omega), Nat.mod_eq_of_lt (by omega), Nat.mod_eq_of_lt (by omega),
    mul_or_eq_add _ 16 (by omega), mul_or_eq_add _ 32 (by omega), mul_or_eq_add _ 48 (by omega)]

theorem toNat_field {raw k : UInt64} (hk : k.toNat < 64) :
    ((raw >>> k) &&& 0xFFFF).toUInt16.toNat = raw.toNat / 2 ^ k.toNat % 2 ^ 16 := by
  simp only [UInt64.toNat_toUInt16, UInt64.toNat_and, UInt64.toNat_shiftRight,
    Nat.mod_eq_of_lt hk, Nat.shiftRight_eq_div_pow]
  rw [show (0xFFFF : UInt64).toNat = 2 ^ 16 - 1 from rfl, Nat.and_two_pow_sub_one_eq_mod]
  omega

theorem toNat_type : t.type.toNat = t.raw.toNat % 2 ^ 16 := by
  simp only [type, UInt64.toNat_toUInt16, UInt64.toNat_and]
  rw [show (0xFFFF : UInt64).toNat = 2 ^ 16 - 1 from rfl, Nat.and_two_pow_sub_one_eq_mod]
  omega

theorem toNat_objectId : t.objectId.toNat = t.raw.toNat / 2 ^ 16 % 2 ^ 16 :=
  toNat_field (by decide)

theorem toNat_generation : t.generation.toNat = t.raw.toNat / 2 ^ 32 % 2 ^ 16 :=
  toNat_field (by decide)

theorem toNat_rights : t.rights.toNat = t.raw.toNat / 2 ^ 48 % 2 ^ 16 :=
  toNat_field (by decide)

theorem make_fields : make t.type t.objectId t.generation t.rights = t := by
  obtain ⟨raw⟩ := t
  have hlt := raw.toNat_lt
  have hraw : (make (type ⟨raw⟩) (objectId ⟨raw⟩) (generation ⟨raw⟩) (rights ⟨raw⟩)).raw = raw := by
    rw [← UInt64.toNat_inj, raw_make, toNat_type, toNat_objectId, toNat_generation, toNat_rights]
    dsimp only
    omega
  exact congrArg CapToken.mk hraw

section Projections

variable (type : CapType) (objId gen : UInt16) (rights : CapRights)

@[simp] theorem type_make : (make type objId gen rights).type = type := by
  have ht := type.toNat_lt
  rw [← UInt16.toNat_inj, toNat_type, raw_make]
  omega

@[simp] theorem objectId_make : (make type objId gen rights).objectId = objId := by
  have ht := type.toNat_lt
  have ho := objId.toNat_lt
  rw [← UInt16.toNat_inj, toNat_objectId, raw_make]
  omega

@[simp] theorem generation_make : (make type objId gen rights).generation = gen := by
  have ht := type.toNat_lt
  have ho := objId.toNat_lt
  have hg := gen.toNat_lt
  rw [← UInt16.toNat_inj, toNat_generation, raw_make]
  omega

@[simp] theorem rights_make : (make type objId gen rights).rights = rights := by
  have ht := type.toNat_lt
  have ho := objId.toNat_lt
  have hg := gen.toNat_lt
  have hr := rights.toNat_lt
  rw [← UInt16.toNat_inj, toNat_rights, raw_make]
  omega

end Projections

end CapToken

/-! ## Slots -/

def maxCapabilities : Nat := 1024

def lookupTableSize : Nat := 16

structure CapabilitySlot where
  target : Option Addr := Option.none
  type : CapType := CapType.none
  rights : CapRights := CapRights.none
  ownerDomain : Nat := kobjectIdInvalid
  targetGeneration : Nat := 0
  generation : UInt16 := 1
  active : Bool := false
  deriving DecidableEq, Repr

end ZXFoundation.Dgp.Cap
