import Mathlib.Data.List.Basic
import ZXFoundation.Base

/-!
# Access-list entries

`arch/s390x/cpu/aste.zcomponent`. An access register selects another address space through an
access-list entry (ALE) of the running domain, which names an ASN-second-table entry (ASTE), which
holds the address space. The table of ASTEs is global; every domain has an access list of its own,
whose first three entries the architecture reserves.

A token (ALET) names an entry of the list together with the sequence number the entry had when it
was created, so that a token of an entry that has been reused is refused.
-/

namespace ZXFoundation.Arch.Aste

open Function

def maxAsteEntries : Nat := 256

def maxAleEntries : Nat := 16

def aletReservedMax : Nat := 2

/-! ## Tokens -/

def aletMake (alen : UInt16) (alesn : UInt8) : UInt32 := (alesn.toUInt32 <<< 16) ||| alen.toUInt32

def aletAlen (alet : UInt32) : Nat := (alet &&& 0xFFFF).toNat

def aletAlesn (alet : UInt32) : UInt8 := ((alet &&& 0x00FF0000) >>> 16).toUInt8

/-- `alet & (ALET_RESERVED_MASK | ALET_PRIMARY_LIST)`. -/
def aletReserved (alet : UInt32) : UInt32 := alet &&& (0xFE000000 ||| 0x01000000)

theorem alet_spec {alen : Nat} (hlo : aletReservedMax < alen) (hhi : alen < maxAleEntries)
    {alesn : UInt8} :
    aletAlen (aletMake alen.toUInt16 alesn) = alen ∧
      aletAlesn (aletMake alen.toUInt16 alesn) = alesn ∧
      aletReserved (aletMake alen.toUInt16 alesn) = 0 ∧
      aletReservedMax < (aletMake alen.toUInt16 alesn).toNat := by
  have hall : ∀ n : Fin 16, 2 < n.val → ∀ s : Fin 256,
      aletAlen (aletMake n.val.toUInt16 (UInt8.ofFin s)) = n.val ∧
        aletAlesn (aletMake n.val.toUInt16 (UInt8.ofFin s)) = UInt8.ofFin s ∧
        aletReserved (aletMake n.val.toUInt16 (UInt8.ofFin s)) = 0 ∧
        2 < (aletMake n.val.toUInt16 (UInt8.ofFin s)).toNat := by
    decide +kernel
  exact hall ⟨alen, hhi⟩ hlo alesn.toFin

/-! ## The table of address spaces -/

/-- `aste`: the words that are used. -/
structure Entry where
  asce : UInt64 := 0
  authorizationIndex : Nat := 0
  invalid : Bool := true
  deriving DecidableEq, Repr

/-- `g_initialized`, `g_aste_used` and the ASTE table. -/
structure Table where
  initialized : Bool := false
  used : Nat → Bool := fun _ => false
  entry : Nat → Entry := fun _ => {}

namespace Table

def findFree (T : Table) : Option Nat := (List.range maxAsteEntries).find? fun i => !T.used i

def alloc (T : Table) (targetAsce : UInt64) (authIndex : Nat) : Except KernelError (Nat × Table) :=
  if !T.initialized then .error (.generic .uninitialized)
  else match T.findFree with
    | none => .error (.memory .outOfMemory)
    | some i => .ok (i, { T with
        used := update T.used i true
        entry := update T.entry i
          { asce := targetAsce, authorizationIndex := authIndex, invalid := false } })

def free (T : Table) (i : Nat) : Except KernelError Table :=
  if !T.initialized then .error (.generic .uninitialized)
  else if i ≥ maxAsteEntries then .error (.generic .outOfRange)
  else if !T.used i then .error (.generic .notFound)
  else .ok { T with
    used := update T.used i false
    entry := update T.entry i { T.entry i with invalid := true } }

end Table

/-! ## Access lists -/

/-- `ale`: the fields that are used. -/
structure Ale where
  invalid : Bool := true
  sequence : UInt8 := 0
  asteIndex : Nat := 0
  deriving DecidableEq, Repr

/-- `art_context` with the access list behind it. `present` says that both of its pages are
there. -/
structure AccessList where
  present : Bool := false
  entry : Nat → Ale := fun _ => {}
  sequence : Nat → UInt8 := fun _ => 1

def aleSequenceNext (current : UInt8) : UInt8 := if current + 1 = 0 then 1 else current + 1

namespace AccessList

def findFree (L : AccessList) : Option Nat :=
  (List.range' (aletReservedMax + 1) (maxAleEntries - (aletReservedMax + 1))).find?
    fun i => (L.entry i).invalid

def create (T : Table) (L : AccessList) (asteIndex : Nat) :
    Except KernelError (UInt32 × AccessList) :=
  if !T.initialized then .error (.generic .uninitialized)
  else if !L.present ∨ asteIndex ≥ maxAsteEntries then .error (.generic .outOfRange)
  else if !T.used asteIndex then .error (.generic .notFound)
  else match L.findFree with
    | none => .error (.memory .outOfMemory)
    | some i => .ok (aletMake i.toUInt16 (L.sequence i), { L with
        entry := update L.entry i
          { invalid := false, sequence := L.sequence i, asteIndex := asteIndex } })

def destroy (T : Table) (L : AccessList) (alet : UInt32) : Except KernelError AccessList :=
  let i := aletAlen alet
  if !T.initialized then .error (.generic .uninitialized)
  else if aletReserved alet ≠ 0 then .error (.generic .outOfRange)
  else if !L.present ∨ i ≤ aletReservedMax ∨ i ≥ maxAleEntries then .error (.generic .outOfRange)
  else if (L.entry i).invalid ∨ (L.entry i).sequence ≠ aletAlesn alet then
    .error (.generic .notFound)
  else .ok { L with
    entry := update L.entry i { L.entry i with invalid := true }
    sequence := update L.sequence i (aleSequenceNext (L.sequence i)) }

/-- The entry is one that portals may use, and it is in use. -/
def Taken (L : AccessList) (i : Nat) : Prop :=
  aletReservedMax < i ∧ i < maxAleEntries ∧ (L.entry i).invalid = false

instance (L : AccessList) (i : Nat) : Decidable (L.Taken i) := inferInstanceAs (Decidable (_ ∧ _))

theorem taken_congr {L L' : AccessList} {i : Nat} (h : L'.entry i = L.entry i) :
    L'.Taken i ↔ L.Taken i := by
  unfold Taken
  rw [h]

/-- The token is one that address translation and `ale_destroy` take: it names an entry in use by
the sequence number of the entry. -/
structure Accepts (L : AccessList) (alet : UInt32) : Prop where
  present : L.present = true
  reserved : aletReserved alet = 0
  taken : L.Taken (aletAlen alet)
  sequence : (L.entry (aletAlen alet)).sequence = aletAlesn alet

variable {T : Table} {L L' : AccessList} {alet : UInt32} {asteIndex : Nat}

theorem create_ok (h : create T L asteIndex = .ok (alet, L')) :
    L.present = true ∧ L'.present = true ∧ L'.sequence = L.sequence ∧ aletReserved alet = 0 ∧
      aletReservedMax < aletAlen alet ∧ aletAlen alet < maxAleEntries ∧
      (L.entry (aletAlen alet)).invalid = true ∧
      L'.entry (aletAlen alet) =
        { invalid := false, sequence := L.sequence (aletAlen alet), asteIndex := asteIndex } ∧
      ∀ j, j ≠ aletAlen alet → L'.entry j = L.entry j := by
  unfold create at h
  split_ifs at h with hinit hrange hused
  split at h
  · cases h
  next k hfind =>
  cases h
  rw [not_or, Bool.not_eq_true', Bool.not_eq_false] at hrange
  have hinvalid : (L.entry k).invalid = true :=
    List.find?_some (p := fun i => (L.entry i).invalid) hfind
  obtain ⟨hlo, hhi⟩ := List.mem_range'_1.mp (List.mem_of_find?_eq_some hfind)
  obtain ⟨halen, -, hreserved, -⟩ := alet_spec hlo hhi
  rw [halen]
  exact ⟨hrange.1, hrange.1, rfl, hreserved, hlo, hhi, hinvalid, update_self ..,
    fun j hj => update_of_ne hj ..⟩

theorem destroy_ok (h : destroy T L alet = .ok L') :
    L.Accepts alet ∧ L'.present = true ∧ (L'.entry (aletAlen alet)).invalid = true ∧
      L'.sequence (aletAlen alet) = aleSequenceNext (L.sequence (aletAlen alet)) ∧
      ∀ j, j ≠ aletAlen alet → L'.entry j = L.entry j ∧ L'.sequence j = L.sequence j := by
  unfold destroy at h
  dsimp only at h
  split_ifs at h with hinit hreserved hrange hfound
  cases h
  simp only [not_or, Bool.not_eq_true, Bool.not_eq_false', Nat.not_le, ne_eq, not_not,
    ge_iff_le] at hreserved hrange hfound
  refine ⟨⟨hrange.1, hreserved, ⟨hrange.2.1, hrange.2.2, hfound.1⟩, hfound.2⟩, hrange.1, ?_,
    update_self .., fun j hj => ⟨update_of_ne hj .., update_of_ne hj ..⟩⟩
  dsimp only
  rw [update_self]

end AccessList

end ZXFoundation.Arch.Aste
