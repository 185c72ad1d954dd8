import Mathlib.Data.Nat.Bitwise
import ZXFoundation.Base

/-!
# Dynamic address translation

`arch/s390x/mmu`: the walk of the translation tables that `mmu::walk` performs in software. A table
is an array of 64-bit words in physical storage, reached through the direct map; four levels of
region and segment tables lead to a page table, and a region-third or segment entry can map a large
page by itself.

The protection bit of an entry forbids stores to everything below it. The hardware looks at it on
every access; the software walk does not.
-/

namespace ZXFoundation.Arch.Dat

inductive DatLevel where
  | region1 | region2 | region3 | segment | page
  deriving DecidableEq, Repr

/-- `virt_index_rt`: eleven bits of the address for a region or segment table, eight for a page
table. -/
def virtIndex (virt : Nat) : DatLevel → Nat
  | .region1 => virt / 2 ^ 53 % 2 ^ 11
  | .region2 => virt / 2 ^ 42 % 2 ^ 11
  | .region3 => virt / 2 ^ 31 % 2 ^ 11
  | .segment => virt / 2 ^ 20 % 2 ^ 11
  | .page => virt / 2 ^ 12 % 2 ^ 8

/-- The words of the translation tables, by physical address. -/
abbrev Tables := Nat → Nat

/-- `table[virt_index_rt(lvl, virt)]` of the table at `origin`. -/
def Tables.entry (T : Tables) (origin virt : Nat) (lvl : DatLevel) : Nat :=
  T (origin + 8 * virtIndex virt lvl)

/-- `rste_is_invalid`: `RSTE_INVALID` is `0x020`. -/
def rsteIsInvalid (val : Nat) : Bool := val.testBit 5

/-- `pte_is_invalid`: `PTE_INVALID` is `0x400`. -/
def pteIsInvalid (val : Nat) : Bool := val.testBit 10

/-- `seg_is_large` and `r3_is_large`: the format control `0x400`. -/
def isLarge (val : Nat) : Bool := val.testBit 10

/-- `PTE_PROTECT` and `RSTE_PROTECT`: `0x200`. -/
def isProtected (val : Nat) : Bool := val.testBit 9

/-- `rste_origin` and `pte_frame`: the entry without its low twelve bits. -/
def origin (val : Nat) : Nat := val / 2 ^ 12 * 2 ^ 12

/-- The loop of `walk_impl` over the levels that remain, then the page table. The low bits of a
large or small page's base are zero, so that the source's `base | offset` is a sum. -/
def walkLevels (T : Tables) (virt : Nat) : List DatLevel → Nat → Except KernelError Nat
  | [], current =>
    let pte := T.entry current virt .page
    if pteIsInvalid pte then .error (.memory .invalidAddress)
    else .ok (origin pte + virt % 2 ^ 12)
  | lvl :: rest, current =>
    let entry := T.entry current virt lvl
    if rsteIsInvalid entry then .error (.memory .invalidAddress)
    else if lvl = .segment ∧ isLarge entry then .ok (entry / 2 ^ 20 * 2 ^ 20 + virt % 2 ^ 20)
    else if lvl = .region3 ∧ isLarge entry then .ok (entry / 2 ^ 31 * 2 ^ 31 + virt % 2 ^ 31)
    else walkLevels T virt rest (origin entry)

/-- The levels between a region-first root and the page table. -/
def upperLevels : List DatLevel := [.region1, .region2, .region3, .segment]

def walk (T : Tables) (root virt : Nat) :
    Except KernelError Nat := walkLevels T virt upperLevels root

/-- Whether an entry on the way down carries the protection bit. -/
def protectedBelow (T : Tables) (virt : Nat) : List DatLevel → Nat → Bool
  | [], current => isProtected (T.entry current virt .page)
  | lvl :: rest, current =>
    let entry := T.entry current virt lvl
    isProtected entry ||
      (!(isLarge entry && (lvl == .segment || lvl == .region3)) &&
        protectedBelow T virt rest (origin entry))

def mapped (T : Tables) (root virt : Nat) : Bool := (walk T root virt).isOk

def storable (T : Tables) (root virt : Nat) : Bool :=
  mapped T root virt && !protectedBelow T virt upperLevels root

/-! ## Within one page -/

section SamePage

variable {virt j : Nat} (h : virt % 4096 + j < 4096)

include h

theorem virtIndex_add (lvl : DatLevel) : virtIndex (virt + j) lvl = virtIndex virt lvl := by
  cases lvl <;> simp only [virtIndex] <;> omega

theorem Tables.entry_add (T : Tables) (current : Nat) (lvl : DatLevel) :
    T.entry current (virt + j) lvl = T.entry current virt lvl := by
  rw [Tables.entry, Tables.entry, virtIndex_add h]

/-- **One walk serves the rest of its page.** -/
theorem walkLevels_add (T : Tables) (lvls : List DatLevel) (current : Nat) :
    walkLevels T (virt + j) lvls current = (walkLevels T virt lvls current).map (· + j) := by
  induction lvls generalizing current with
  | nil =>
    simp only [walkLevels, Tables.entry_add h]
    generalize T.entry current virt .page = pte
    by_cases hinvalid : pteIsInvalid pte
    · rw [if_pos hinvalid, if_pos hinvalid]
      rfl
    · rw [if_neg hinvalid, if_neg hinvalid]
      simp only [Except.map, Except.ok.injEq]
      omega
  | cons lvl rest ih =>
    simp only [walkLevels, Tables.entry_add h]
    generalize T.entry current virt lvl = entry
    by_cases hinvalid : rsteIsInvalid entry
    · rw [if_pos hinvalid, if_pos hinvalid]
      rfl
    rw [if_neg hinvalid, if_neg hinvalid]
    -- a large page ends the walk; its offset is wider but shares the low twelve bits
    by_cases hsegment : lvl = .segment ∧ isLarge entry
    · rw [if_pos hsegment, if_pos hsegment]
      simp only [Except.map, Except.ok.injEq]
      omega
    rw [if_neg hsegment, if_neg hsegment]
    by_cases hregion : lvl = .region3 ∧ isLarge entry
    · rw [if_pos hregion, if_pos hregion]
      simp only [Except.map, Except.ok.injEq]
      omega
    rw [if_neg hregion, if_neg hregion]
    exact ih _

theorem walk_add (T : Tables) (root : Nat) :
    walk T root (virt + j) = (walk T root virt).map (· + j) :=
  walkLevels_add h T _ _

theorem mapped_add (T : Tables) (root : Nat) : mapped T root (virt + j) = mapped T root virt := by
  simp only [mapped, walk_add h]
  cases walk T root virt <;> rfl

end SamePage

end ZXFoundation.Arch.Dat
