import ZXFoundation.Lib.Run
import ZXFoundation.Lib.Tally
import ZXFoundation.Scoms.Metadata

/-!
# Dependency accounting

The link between a child and its parent is stored twice: the child keeps the parent's metadata slot,
type, id and generation, the parent keeps the number of its children. This module shows that the two
always agree. Links are moved in four places: `CoreInv.registerObject`, `CoreInv.attach`,
`CoreInv.clearParentLocked` and `CoreInv.retire` say that each of them keeps the invariant.
-/

namespace ZXFoundation.Scoms

open Tally Runs Function ObjectCore ObjectMetadata Finset Option

namespace ObjectCore

/-! ## Links -/

/-- Type, id and generation of the object that the entry describes. -/
def identity (c : ObjectCore) (p : Nat) : Option (KobjectType × Nat × Nat) :=
  (c.entry p).object.map fun q => ((c.heap q).type, (c.heap q).id, (c.heap q).generation)

/-- The four parent fields of `e` identify the entry at index `p`. -/
def Identifies (c : ObjectCore) (e : ObjectMetadata) (p : Nat) : Prop :=
  e.parentSlot = p + 1 ∧ c.identity p = some (e.parentType, e.parentId, e.parentGeneration)

/-- `e` is the active entry of a child of the entry at index `p`. -/
def AttachedTo (c : ObjectCore) (p : Nat) (e : ObjectMetadata) : Prop :=
  e.active = true ∧ c.Identifies e p

instance (c : ObjectCore) (p : Nat) : DecidablePred (c.AttachedTo p) := fun _ =>
  inferInstanceAs (Decidable (_ ∧ _ ∧ _))

/-- The number of active entries whose parent fields identify the entry at index `p`. -/
def dependents (c : ObjectCore) (p : Nat) : Nat :=
  tally (Finset.range maxObjectMetadata) (c.AttachedTo p) c.entry

end ObjectCore

/-- `e` is active and stores the metadata slot of index `p`. -/
def ObjectMetadata.InSlot (p : Nat) (e : ObjectMetadata) : Prop :=
  e.active = true ∧ e.parentSlot = p + 1

instance (p : Nat) : DecidablePred (ObjectMetadata.InSlot p) := fun _ =>
  inferInstanceAs (Decidable (_ ∧ _))

/-- The fields of an entry that the links depend on. -/
def ObjectMetadata.links (e : ObjectMetadata) : Option Addr × Nat × KobjectType × Nat × Nat × Nat :=
  (e.object, e.parentSlot, e.parentType, e.parentId, e.parentGeneration, e.dependentCount)

structure CoreInv (c : ObjectCore) : Prop where
  /-- An active entry is the one its object finds. -/
  active : ∀ i, (c.entry i).active = true →
    ∃ a, (c.entry i).object = some a ∧ c.findLocked a = some i ∧ (c.heap a).id ≠ kobjectIdInvalid
  pending : ∀ i, (c.entry i).reclaimPending = true → (c.entry i).active = false
  /-- Only an active entry with a parent id stores a parent slot. -/
  orphan : ∀ i, (c.entry i).active = false ∨ (c.entry i).parentId = kobjectIdInvalid →
    (c.entry i).parentSlot = 0
  /-- A stored parent is active and has the stored identity. -/
  linked : ∀ i, (c.entry i).active = true → (c.entry i).parentId ≠ kobjectIdInvalid →
    ∃ p, (c.entry p).active = true ∧ c.Identifies (c.entry i) p
  count : ∀ p, (c.entry p).active = true → (c.entry p).dependentCount =
    tally (Finset.range maxObjectMetadata) (ObjectMetadata.InSlot p) c.entry

namespace CoreInv

variable {c c' : ObjectCore}

variable {i p d : Nat} {a : Addr}

variable (h : CoreInv c)
include h

theorem lt_max (hi : (c.entry i).active = true) : i < maxObjectMetadata := by
  obtain ⟨a, -, hfind, -⟩ := h.active i hi
  exact (findLocked_eq_some.mp hfind).2.1

theorem identifies_of_slot (hslot : (c.entry i).parentSlot = p + 1) :
    (c.entry i).active = true ∧ (c.entry p).active = true ∧ c.Identifies (c.entry i) p := by
  have hne : ¬ ((c.entry i).active = false ∨ (c.entry i).parentId = kobjectIdInvalid) :=
    fun hor => by simp [h.orphan i hor] at hslot
  rw [not_or, Bool.not_eq_false] at hne
  obtain ⟨p', hp', hid⟩ := h.linked i hne.1 hne.2
  obtain rfl : p' = p := by
    have := hid.1
    omega
  exact ⟨hne.1, hp', hid⟩

theorem count_pos (hslot : (c.entry i).parentSlot = p + 1) : 0 < (c.entry p).dependentCount := by
  obtain ⟨hi, hp, -⟩ := h.identifies_of_slot hslot
  rw [h.count p hp]
  exact tally_pos (mem_range.mpr (h.lt_max hi)) ⟨hi, hslot⟩

theorem not_pending (hi : (c.entry i).active = true) : (c.entry i).reclaimPending = false := by
  by_contra hpend
  simp [h.pending i (by simpa using hpend)] at hi

theorem findLocked_object (hi : (c.entry i).active = true) (hobj : (c.entry i).object = some a) :
    c.findLocked a = some i := by
  obtain ⟨b, hb, hfind, -⟩ := h.active i hi
  rwa [some.inj (hobj.symm.trans hb)]

theorem count_eq_dependents (hp : (c.entry p).active = true) :
    (c.entry p).dependentCount = c.dependents p := by
  rw [h.count p hp]
  refine tally_congr fun i _ => ⟨fun hs => ?_, fun hatt => ⟨hatt.1, hatt.2.1⟩⟩
  exact ⟨hs.1, (h.identifies_of_slot hs.2).2.2⟩

theorem count_lt (hp : (c.entry p).active = true) :
    (c.entry p).dependentCount ≤ maxObjectMetadata := by
  rw [h.count p hp]
  exact (tally_le_card _ _ _).trans_eq (card_range _)

theorem active_kept (c' : ObjectCore) (hi : (c.entry i).active = true)
    (hact : (c'.entry i).active = true) (hobj : (c'.entry i).object = (c.entry i).object)
    (hpres : ∀ b, c.present b = true → c'.present b = true)
    (hheap : ∀ a, (c.entry i).object = some a →
      (c'.heap a).id = (c.heap a).id ∧ (c'.heap a).objectFlags = (c.heap a).objectFlags) :
    ∃ a, (c'.entry i).object = some a ∧ c'.findLocked a = some i ∧
      (c'.heap a).id ≠ kobjectIdInvalid := by
  obtain ⟨a, ha, hfind, hid⟩ := h.active i hi
  obtain ⟨hid', hflags'⟩ := hheap a ha
  obtain ⟨hflags, hmax, hp, -, -⟩ := findLocked_eq_some.mp hfind
  exact ⟨a, hobj.trans ha, findLocked_eq_some.mpr
    ⟨hflags'.trans hflags, hmax, hpres _ hp, hact, hobj.trans ha⟩, hid'.symm ▸ hid⟩

/-- **Steps that leave the links alone.** The same entries are active, with the same links, and
every object that some entry calls its parent keeps its identity. -/
theorem transfer (hact : ∀ i, (c'.entry i).active = (c.entry i).active)
    (hlinks : ∀ i, (c.entry i).active = true → (c'.entry i).links = (c.entry i).links)
    (hpend : ∀ i, (c.entry i).active = true → (c'.entry i).reclaimPending = false)
    (hidle : ∀ i, (c.entry i).active = false → (c'.entry i).parentSlot = 0)
    (hpres : ∀ b, c.present b = true → c'.present b = true)
    (hheap : ∀ i a, (c.entry i).active = true → (c.entry i).object = some a →
      (c'.heap a).id = (c.heap a).id ∧ (c'.heap a).objectFlags = (c.heap a).objectFlags)
    (hident : ∀ i p, (c.entry i).parentSlot = p + 1 → c'.identity p = c.identity p) :
    CoreInv c' := by
  simp only [links, Prod.mk.injEq] at hlinks
  refine ⟨fun i hi => ?_, fun i hi => ?_, fun i hi => ?_, fun i hi hpar => ?_, fun p hp => ?_⟩
  · have hwas := (hact i).symm.trans hi
    exact h.active_kept _ hwas hi (hlinks i hwas).1 hpres fun a => hheap i a hwas
  · by_contra hne
    rw [Bool.not_eq_false, hact] at hne
    simp [hpend i hne] at hi
  · by_cases hwas : (c.entry i).active = true
    · rw [(hlinks i hwas).2.1]
      refine h.orphan i (hi.imp (fun hoff => ?_) fun hinv => ?_)
      · rwa [hact] at hoff
      · rwa [(hlinks i hwas).2.2.2.1] at hinv
    · exact hidle i (by simpa using hwas)
  · rw [hact] at hi
    obtain ⟨-, hslot, htype, hpid, hgen, -⟩ := hlinks i hi
    rw [hpid] at hpar
    obtain ⟨p, hp, hs, hidp⟩ := h.linked i hi hpar
    refine ⟨p, (hact p).trans hp, hslot.trans hs, ?_⟩
    rw [htype, hpid, hgen, hident i p hs, hidp]
  · rw [hact] at hp
    rw [(hlinks p hp).2.2.2.2.2, h.count p hp]
    refine tally_congr fun i _ => ?_
    unfold ObjectMetadata.InSlot
    rw [hact]
    constructor <;> rintro ⟨hi, hs⟩
    · exact ⟨hi, (hlinks i hi).2.1.trans hs⟩
    · exact ⟨hi, (hlinks i hi).2.1.symm.trans hs⟩

/-- **Steps that change one entry's parent.** Everything but the parent fields of entry `i` and
the counts is kept, and the counts move with the link. -/
theorem relink (hi : (c.entry i).active = true) (hheap : c'.heap = c.heap)
    (hpres : c'.present = c.present)
    (hsame : ∀ j, (c'.entry j).active = (c.entry j).active ∧
      (c'.entry j).object = (c.entry j).object ∧
      (c'.entry j).reclaimPending = (c.entry j).reclaimPending)
    (hpar : ∀ j, j ≠ i → (c'.entry j).parentSlot = (c.entry j).parentSlot ∧
      (c'.entry j).parentType = (c.entry j).parentType ∧
      (c'.entry j).parentId = (c.entry j).parentId ∧
      (c'.entry j).parentGeneration = (c.entry j).parentGeneration)
    (hnew : (c'.entry i).parentId = kobjectIdInvalid ∧ (c'.entry i).parentSlot = 0 ∨
      (c'.entry i).parentId ≠ kobjectIdInvalid ∧
        ∃ p, (c.entry p).active = true ∧ c.Identifies (c'.entry i) p)
    (hcount : ∀ p, (c.entry p).active = true →
      (c'.entry p).dependentCount + (if (c.entry i).InSlot p then 1 else 0) =
        (c.entry p).dependentCount + (if (c'.entry i).InSlot p then 1 else 0)) : CoreInv c' := by
  have hident : ∀ p, c'.identity p = c.identity p := fun p => by
    simp only [identity, (hsame p).2.1, hheap]
  refine ⟨fun j hj => ?_, fun j hj => ?_, fun j hj => ?_, fun j hj hne => ?_, fun p hp => ?_⟩
  · exact h.active_kept _ ((hsame j).1.symm.trans hj) hj (hsame j).2.1 (fun _ => hpres ▸ id)
      fun _ _ => hheap ▸ ⟨rfl, rfl⟩
  · rw [(hsame j).1]
    exact h.pending j ((hsame j).2.2 ▸ hj)
  · by_cases hji : j = i
    · subst hji
      rcases hnew with ⟨-, hslot⟩ | ⟨hne, -⟩
      · exact hslot
      rcases hj with hoff | hinv
      · rw [(hsame j).1, hi] at hoff
        cases hoff
      · exact absurd hinv hne
    · obtain ⟨hslot, -, hpid, -⟩ := hpar j hji
      rw [hslot]
      rw [(hsame j).1, hpid] at hj
      exact h.orphan j hj
  · by_cases hji : j = i
    · subst hji
      rcases hnew with ⟨hinv, -⟩ | ⟨-, p, hp, hs, hidp⟩
      · exact absurd hinv hne
      · exact ⟨p, (hsame p).1.trans hp, hs, (hident p).trans hidp⟩
    · obtain ⟨hslot, htype, hpid, hgen⟩ := hpar j hji
      rw [(hsame j).1] at hj
      rw [hpid] at hne
      obtain ⟨p, hp, hs, hidp⟩ := h.linked j hj hne
      refine ⟨p, (hsame p).1.trans hp, hslot.trans hs, ?_⟩
      rw [hident, htype, hpid, hgen, hidp]
  · rw [(hsame p).1] at hp
    -- as far as `InSlot` can see, only entry `i` was written
    have hwrite : tally (range maxObjectMetadata) (ObjectMetadata.InSlot p) c'.entry =
        tally (range maxObjectMetadata) (ObjectMetadata.InSlot p)
          (update c.entry i (c'.entry i)) := by
      refine tally_congr fun j _ => update_cases j .rfl fun j hji => ?_
      rw [ObjectMetadata.InSlot, ObjectMetadata.InSlot, (hsame j).1, (hpar j hji).1]
    have hmove := tally_update (ObjectMetadata.InSlot p) c.entry
      (mem_range.mpr (h.lt_max hi)) (c'.entry i)
    have hold := h.count p hp
    have hdiff := hcount p hp
    omega

/-! ## The operations keep the invariant -/

theorem object_ne (hfind : c.findLocked a = none) {j : Nat}
    (hj : (c.entry j).active = true) : (c.entry j).object ≠ some a := by
  intro hobj
  rw [h.findLocked_object hj hobj] at hfind
  cases hfind

theorem grown (hg : ObjectCore.Grown c c') : CoreInv c' := by
  have hkept : ∀ i, (c.entry i).active = true → c'.entry i = c.entry i := fun i hi => by
    obtain ⟨a, -, hfind, -⟩ := h.active i hi
    exact hg.kept i (findLocked_eq_some.mp hfind).2.2.1
  refine h.transfer (fun i => ?_) (fun i hi => by rw [hkept i hi]) (fun i hi => ?_)
    (fun i hi => ?_) hg.present (fun i a _ _ => by simp [hg.heap]) (fun i p hs => ?_)
  · rcases hg.fresh i with heq | hdef
    · rw [heq]
    · cases hwas : (c.entry i).active
      · rw [hdef]
      · rw [hkept i hwas, hwas]
  · rw [hkept i hi, h.not_pending hi]
  · rcases hg.fresh i with heq | hdef
    · rw [heq]
      exact h.orphan i (Or.inl hi)
    · rw [hdef]
  · rw [identity, identity, hg.heap, hkept p (h.identifies_of_slot hs).2.1]

theorem fresh {f : Nat} (hmax : i < maxObjectMetadata)
    (hpres : c.present (i / metadataBlockSize) = true) (hoff : (c.entry i).active = false)
    (hfind : c.findLocked a = none) (hid : (c.heap a).id ≠ kobjectIdInvalid) :
    CoreInv ((c.setEntry i (freshEntry a d f)).setObject a
      { c.heap a with objectFlags := i + 1 }) := by
  have hne : ∀ {j}, (c.entry j).active = true → j ≠ i := fun hj heq => by
    rw [heq, hoff] at hj
    cases hj
  have hother : ∀ {j b}, (c.entry j).active = true → (c.entry j).object = some b → b ≠ a :=
    fun hj hb heq => h.object_ne hfind hj (heq ▸ hb)
  refine ⟨fun j hj => ?_, fun j => ?_, fun j => ?_, fun j hj hpar => ?_, fun p hp => ?_⟩ <;>
    simp only [setObject_entry] at *
  · by_cases hji : j = i
    · subst hji
      refine ⟨a, by simp [freshEntry], findLocked_eq_some.mpr ?_, by simpa⟩
      simp [freshEntry, hmax, hpres]
    have heq := setEntry_entry_of_ne c (freshEntry a d f) hji
    have hwas := heq ▸ hj
    refine h.active_kept ((c.setEntry i _).setObject a _) hwas hj (congrArg _ heq) (fun _ => id)
      fun b hb => ?_
    rw [setObject_heap_of_ne _ _ (hother hwas hb)]
    exact ⟨rfl, rfl⟩
  · exact setEntry_cases j (by simp [freshEntry]) fun j _ => h.pending j
  · exact setEntry_cases j (by simp [freshEntry]) fun j _ => h.orphan j
  · induction j using setEntry_cases with
    | self => simp [freshEntry] at hpar
    | other j =>
    obtain ⟨p, hp, hs, hident⟩ := h.linked j hj hpar
    obtain ⟨q, hq, -⟩ := h.active p hp
    rw [identity, hq] at hident
    refine ⟨p, by rwa [setEntry_entry_of_ne _ _ (hne hp)], hs, ?_⟩
    rw [identity, setObject_entry, setEntry_entry_of_ne _ _ (hne hp), hq, map_some,
      setObject_heap_of_ne _ _ (hother hp hq)]
    exact hident
  · have hfree : ∀ q, ¬ (freshEntry a d f).InSlot q := fun q hq => by
      simp [ObjectMetadata.InSlot, freshEntry] at hq
    induction p using setEntry_cases with
    | self =>
      refine (tally_eq_zero.mpr fun j _ => ?_).symm
      refine setEntry_cases j (hfree i) fun j _ hj => ?_
      -- an entry that stored this slot would identify an active occupant
      exact hne (h.identifies_of_slot hj.2).2.1 rfl
    | other p =>
      rw [h.count p hp]
      refine (tally_update_same ?_).symm
      exact ⟨fun hq => absurd hq (hfree p), fun hq => absurd (hoff.symm.trans hq.1) (by decide)⟩

theorem registerObject {mem : Nat → Bool}
    (hid : (c.heap a).id ≠ kobjectIdInvalid) (hok : c.registerObject mem a d = .ok c') :
    CoreInv c' := by
  obtain ⟨hnotFound, i, c₁, hscan, rfl⟩ := registerObject_eq_ok hok
  obtain ⟨hg, hmax, hp, hoff, -⟩ := registerScan_spec hscan
  -- the object found no entry before the scan, and no new block names it
  have hnone : c₁.findLocked a = none := by
    refine eq_none_iff_forall_ne_some.mpr fun j hj => ?_
    obtain ⟨-, -, -, hact, hobj⟩ := findLocked_eq_some.mp hj
    rcases hg.fresh j with heq | hdef
    · rw [heq] at hact hobj
      exact h.object_ne hnotFound hact hobj
    · simp [hdef] at hact
  exact (h.grown hg).fresh (by omega) hp hoff hnone (by rwa [hg.heap])

theorem parentMatches (hslot : (c.entry i).parentSlot = p + 1) :
    c.parentMatches (c.entry i) = true := by
  obtain ⟨-, hp, -, hident⟩ := h.identifies_of_slot hslot
  obtain ⟨q, hq, hfind, -⟩ := h.active p hp
  obtain ⟨-, -, hpres, -, -⟩ := findLocked_eq_some.mp hfind
  have hpos := (h.count_pos hslot).ne'
  simp only [identity, hq, map_some, some.injEq, Prod.mk.injEq] at hident
  simp [ObjectCore.parentMatches, metadataAt, hslot, hpres, hq, hp, hident, hpos]

/-- What `clear_parent_locked` does to a child with a parent: the parent's count goes down by
one and the child forgets the parent. -/
theorem clearParentLocked_eq (hslot : (c.entry i).parentSlot = p + 1)
    (hpar : (c.entry i).parentId ≠ kobjectIdInvalid) :
    c.clearParentLocked i =
      let c₁ := c.setEntry p { c.entry p with dependentCount := (c.entry p).dependentCount - 1 }
      c₁.setEntry i (c₁.entry i).withoutParent := by
  obtain ⟨-, hp, -⟩ := h.identifies_of_slot hslot
  have hpos := h.count_pos hslot
  have hlt : (c.entry p).dependentCount < 2 ^ 32 :=
    (h.count_lt hp).trans_lt (by decide)
  simp only [clearParentLocked, if_neg hpar, h.parentMatches hslot, hslot,
    Nat.add_sub_cancel, pred32_of_pos hpos hlt]
  simp

theorem clearParentLocked (hi : (c.entry i).active = true) : CoreInv (c.clearParentLocked i) := by
  by_cases hpar : (c.entry i).parentId = kobjectIdInvalid
  · rwa [clearParentLocked_of_invalid hpar]
  obtain ⟨p, hp, hslot, -⟩ := h.linked i hi hpar
  rw [h.clearParentLocked_eq hslot hpar]
  have hpos := h.count_pos hslot
  refine h.relink hi rfl rfl (fun j => ?_) (fun j hji => ?_) (Or.inl ?_) (fun q hq => ?_)
  · simp only [setEntry_entry]
    split_ifs <;> simp [*, withoutParent]
  · simp only [setEntry_entry, if_neg hji]
    split_ifs <;> simp [*]
  · simp [withoutParent]
  have hleft : (c.entry i).InSlot q ↔ q = p := by
    rw [ObjectMetadata.InSlot, hslot]
    exact ⟨fun hs => by omega, fun heq => ⟨hi, by omega⟩⟩
  have hright : ¬ ((c.entry i).withoutParent).InSlot q := fun hs => by
    simp [ObjectMetadata.InSlot, withoutParent] at hs
  simp only [setEntry_entry]
  split_ifs <;> simp_all [withoutParent, ObjectMetadata.InSlot] <;> omega

theorem clearParentLocked_entry (hi : (c.entry i).active = true) :
    ((c.clearParentLocked i).entry i).parentSlot = 0 ∧
      ((c.entry i).dependentCount = 0 → ((c.clearParentLocked i).entry i).dependentCount = 0) := by
  by_cases hpar : (c.entry i).parentId = kobjectIdInvalid
  · rw [clearParentLocked_of_invalid hpar]
    exact ⟨h.orphan i (Or.inr hpar), id⟩
  obtain ⟨p, hp, hslot, -⟩ := h.linked i hi hpar
  rw [h.clearParentLocked_eq hslot hpar, setEntry_entry_self]
  by_cases hip : i = p
  · subst hip
    simp only [withoutParent, setEntry_entry_self]
    exact ⟨trivial, fun hzero => by omega⟩
  · simp only [withoutParent, setEntry_entry_of_ne _ _ hip]
    exact ⟨trivial, id⟩

theorem attach {child parent : Addr} (hok : c.attach child parent = .ok c') : CoreInv c' := by
  obtain ⟨i, p, hip, hfi, hfp, hpar, rfl⟩ := attach_eq_ok hok
  obtain ⟨-, -, -, hi, -⟩ := findLocked_eq_some.mp hfi
  obtain ⟨hpflags, -, -, hp, hpobj⟩ := findLocked_eq_some.mp hfp
  obtain ⟨q, hq, -, hqid⟩ := h.active p hp
  obtain rfl : q = parent := some.inj (hq.symm.trans hpobj)
  have hslot : (c.entry i).parentSlot = 0 := h.orphan i (Or.inr hpar)
  have hsucc : succ32 (c.entry p).dependentCount = (c.entry p).dependentCount + 1 := by
    have hle := h.count_lt hp
    unfold maxObjectMetadata at hle
    exact succ32_of_lt (by omega)
  refine h.relink hi rfl rfl (fun j => ?_) (fun j hji => ?_) (Or.inr ?_) (fun r hr => ?_)
  · simp only [setEntry_entry]
    split_ifs <;> simp [*, attachedEntry]
  · simp only [setEntry_entry, if_neg hji]
    split_ifs <;> simp [*]
  · rw [setEntry_entry_of_ne _ _ hip, setEntry_entry_self]
    refine ⟨hqid, p, hp, hpflags, ?_⟩
    simp [identity, hpobj, attachedEntry]
  have hleft : ¬ (c.entry i).InSlot r := fun hs => by
    simp [ObjectMetadata.InSlot, hslot] at hs
  have hright : (attachedEntry (c.entry i) (c.heap q)).InSlot r ↔ r = p := by
    simp only [ObjectMetadata.InSlot, attachedEntry, hi, hpflags, true_and]
    omega
  rw [setEntry_entry_of_ne _ _ hip, setEntry_entry_self, if_neg hleft]
  simp only [setEntry_entry, hright]
  split_ifs <;> simp_all [attachedEntry]

theorem detach {child : Addr} (hok : c.detach child = .ok c') : CoreInv c' := by
  obtain ⟨i, hfind, rfl⟩ := detach_eq_ok hok
  exact h.clearParentLocked (findLocked_eq_some.mp hfind).2.2.2.1

theorem slot_ne_of_count (hzero : (c.entry p).dependentCount = 0) (i : Nat) :
    (c.entry i).parentSlot ≠ p + 1 := fun hs => (h.count_pos hs).ne' hzero

theorem retire (hpar : (c.entry i).parentSlot = 0) (hzero : (c.entry i).dependentCount = 0) :
    CoreInv (c.setEntry i { c.entry i with active := false, reclaimPending := true }) := by
  have hunused := h.slot_ne_of_count hzero
  have hoff : ∀ {j}, ((c.setEntry i { c.entry i with active := false, reclaimPending := true }
      ).entry j).active = true → j ≠ i := fun hj heq => by
    simp [heq] at hj
  refine ⟨fun j hj => ?_, fun j => setEntry_cases j (fun _ => rfl) fun j _ => h.pending j,
    fun j => setEntry_cases j (fun _ => hpar) fun j _ => h.orphan j, fun j hj hne => ?_,
    fun p hp => ?_⟩
  · have hji := hoff hj
    have heq :=
      setEntry_entry_of_ne c { c.entry i with active := false, reclaimPending := true } hji
    exact h.active_kept _ (heq ▸ hj) hj (congrArg _ heq) (fun _ => id) fun _ _ => ⟨rfl, rfl⟩
  · have hji := hoff hj
    rw [setEntry_entry_of_ne _ _ hji] at hj hne ⊢
    obtain ⟨p, hp, hs, hident⟩ := h.linked j hj hne
    have hpi : p ≠ i := fun heq => hunused j (heq ▸ hs)
    refine ⟨p, by rwa [setEntry_entry_of_ne _ _ hpi], hs, ?_⟩
    rw [identity, setEntry_entry_of_ne _ _ hpi]
    exact hident
  · have hpi := hoff hp
    rw [setEntry_entry_of_ne _ _ hpi] at hp ⊢
    rw [h.count p hp]
    refine (tally_update_same ?_).symm
    simp [ObjectMetadata.InSlot, hpar]

theorem unregisterObject (hok : c.unregisterObject a = .ok c') : CoreInv c' := by
  obtain ⟨i, hfind, hzero, rfl⟩ := unregisterObject_eq_ok hok
  obtain ⟨-, -, -, hi, -⟩ := findLocked_eq_some.mp hfind
  obtain ⟨hslot', hzero'⟩ := h.clearParentLocked_entry hi
  exact (h.clearParentLocked hi).retire hslot' (hzero' hzero)

/-- Header writes that keep the id and the metadata index of registered objects, and the
identity of every object with children. -/
theorem setObject {o : Bobject}
    (hreg : ∀ i, (c.entry i).active = true → (c.entry i).object = some a →
      o.id = (c.heap a).id ∧ o.objectFlags = (c.heap a).objectFlags)
    (hkids : ∀ i p, (c.entry i).parentSlot = p + 1 → (c.entry p).object = some a →
      o.type = (c.heap a).type ∧ o.id = (c.heap a).id ∧ o.generation = (c.heap a).generation) :
    CoreInv (c.setObject a o) := by
  refine h.transfer (fun _ => rfl) (fun _ _ => rfl) (fun i => h.not_pending)
    (fun i hi => h.orphan i (Or.inl hi)) (fun _ hb => hb) (fun i b hi hb => ?_) (fun i p hs => ?_)
  · induction b using setObject_cases with
    | self => exact hreg i hi hb
    | other => exact ⟨rfl, rfl⟩
  · rw [identity, identity, setObject_entry]
    cases hobj : (c.entry p).object with
    | none => rfl
    | some b =>
    by_cases hba : b = a
    · subst hba
      obtain ⟨htype, hid, hgen⟩ := hkids i p hs hobj
      simp [htype, hid, hgen]
    · simp [setObject_heap_of_ne _ _ hba]

theorem setEntry {e : ObjectMetadata}
    (hact : e.active = (c.entry i).active) (hlinks : (c.entry i).active = true →
      e.links = (c.entry i).links ∧ e.reclaimPending = (c.entry i).reclaimPending)
    (hslot : e.parentSlot = (c.entry i).parentSlot) : CoreInv (c.setEntry i e) := by
  refine h.transfer (fun j => setEntry_cases j hact fun _ _ => rfl) (fun j => ?_) (fun j => ?_)
    (fun j => ?_)
    (fun _ hb => hb) (fun _ _ _ _ => ⟨rfl, rfl⟩) (fun j p hs => ?_)
  · exact setEntry_cases j (fun hj => (hlinks hj).1) fun _ _ _ => rfl
  · exact setEntry_cases j (fun hj => (hlinks hj).2.trans (h.not_pending hj)) fun _ _ =>
      h.not_pending
  · exact setEntry_cases j (fun hj => hslot.trans (h.orphan i (.inl hj))) fun j _ hj =>
      h.orphan j (.inl hj)
  · unfold identity
    induction p using setEntry_cases with
    | self =>
      have hobj := congrArg Prod.fst (hlinks (h.identifies_of_slot hs).2.1).1
      rw [show e.object = (c.entry i).object from hobj]
      rfl
    | other => rfl

theorem setOwner (hok : c.setOwner a d = .ok c') : CoreInv c' := by
  obtain ⟨i, -, rfl⟩ := setOwner_eq_ok hok
  exact h.setEntry rfl (fun _ => ⟨rfl, rfl⟩) rfl

theorem setReclaimer {t : Option TableId} (hok : c.setReclaimer a t = .ok c') : CoreInv c' := by
  obtain ⟨i, -, rfl⟩ := setReclaimer_eq_ok hok
  exact h.setEntry rfl (fun _ => ⟨rfl, rfl⟩) rfl

theorem completeReclaim (hok : c.completeReclaim a = .ok c') : CoreInv c' := by
  obtain ⟨i, hret, rfl⟩ := completeReclaim_eq_ok hok
  obtain ⟨hflags, -, -, hpend, hobj⟩ := retiredLocked_eq_some.mp hret
  have hoff := h.pending i hpend
  have h₁ : CoreInv (c.setEntry i { c.entry i with
      object := none, reclaimer := none, reclaimPending := false }) :=
    h.setEntry rfl (fun hi => by simp [hoff] at hi) rfl
  refine h₁.setObject (fun j hj hja => ?_) (fun j p _ _ => ⟨rfl, rfl, rfl⟩)
  -- a registered object would find its own, active entry where this one waits
  have hji : j ≠ i := fun heq => by simp [heq, hoff] at hj
  rw [setEntry_entry_of_ne _ _ hji] at hj hja
  have hflags' := (findLocked_eq_some.mp (h.findLocked_object hj hja)).1
  omega

end CoreInv

/-! ## Runs of the metadata operations -/

/-- The operations on the metadata array, and the two header writes of the object owners:
`bobject::initialize` before registration and the generation that some creators store after it. -/
inductive CoreOp where
  | initializeAs (a : Addr) (id : Nat) (type : KobjectType) (generation : Nat)
  | writeGeneration (a : Addr) (generation : Nat)
  | registerObject (a : Addr) (ownerDomain : Nat) (mem : Nat → Bool)
  | setReclaimer (a : Addr) (reclaimer : Option TableId)
  | setOwner (a : Addr) (ownerDomain : Nat)
  | attach (child parent : Addr)
  | detach (child : Addr)
  | unregisterObject (a : Addr)
  | completeReclaim (a : Addr)

def CoreOp.run (c : ObjectCore) : CoreOp → Except Trap ObjectCore
  | .initializeAs a id type generation =>
    .ok (c.setObject a { (c.heap a).initializeAs id type with generation := generation })
  | .writeGeneration a generation =>
    .ok (c.setObject a { c.heap a with generation := generation })
  | .registerObject a d mem => .ok (c.commit (c.registerObject mem a d))
  | .setReclaimer a t => .ok (c.commit (c.setReclaimer a t))
  | .setOwner a d => .ok (c.commit (c.setOwner a d))
  | .attach child parent => .ok (c.commit (c.attach child parent))
  | .detach child => .ok (c.commit (c.detach child))
  | .unregisterObject a => .ok (c.commit (c.unregisterObject a))
  | .completeReclaim a => c.completeReclaim a

/-- What the object owners keep to. Headers are initialized with a table id, and only while the
object is not registered; a generation is overwritten only before the object has children; and
only initialized objects are registered. -/
def CoreOp.Allowed (c : ObjectCore) : CoreOp → Prop
  | .initializeAs a id _ _ =>
    id ≠ kobjectIdInvalid ∧ ∀ i, (c.entry i).active = true → (c.entry i).object ≠ some a
  | .writeGeneration a _ => c.hasDependents a = false
  | .registerObject a _ _ => (c.heap a).id ≠ kobjectIdInvalid
  | _ => True

/-- The metadata array under arbitrary sequences of operations. -/
def coreMachine : Machine ObjectCore CoreOp where
  start := fun c => ∃ heap, c = .boot heap
  step := fun c op c' => op.Allowed c ∧ op.run c = .ok c'

theorem CoreInv.boot {heap : Addr → Bobject} : CoreInv (.boot heap) := by
  refine ⟨?_, ?_, ?_, ?_, ?_⟩ <;> simp [ObjectCore.boot]

variable {c : ObjectCore} {p : Nat}

theorem CoreInv.commit {r : Except KernelError ObjectCore} (h : CoreInv c)
    (hok : ∀ c', r = .ok c' → CoreInv c') : CoreInv (c.commit r) := by
  cases r with
  | ok c' => exact hok c' rfl
  | error _ => exact h

theorem CoreInv.no_child (h : CoreInv c) {a : Addr}
    (hnone : c.hasDependents a = false) {i : Nat} (hs : (c.entry i).parentSlot = p + 1) :
    (c.entry p).object ≠ some a := by
  intro hobj
  have hfind := h.findLocked_object (h.identifies_of_slot hs).2.1 hobj
  have hpos := h.count_pos hs
  simp [hasDependents, hfind] at hnone
  omega

theorem CoreInv.step {c' : ObjectCore} {op : CoreOp} (h : CoreInv c)
    (hstep : coreMachine.step c op c') : CoreInv c' := by
  obtain ⟨hallowed, hrun⟩ := hstep
  cases op with
  | completeReclaim a => exact h.completeReclaim hrun
  | initializeAs a id type generation =>
    cases hrun
    refine h.setObject (fun i hi ha => absurd ha (hallowed.2 i hi)) (fun i p hs ha => ?_)
    exact absurd ha (hallowed.2 p (h.identifies_of_slot hs).2.1)
  | writeGeneration a generation =>
    cases hrun
    exact h.setObject (fun _ _ _ => ⟨rfl, rfl⟩) fun i p hs ha => absurd ha (h.no_child hallowed hs)
  | registerObject a d mem => cases hrun; exact h.commit fun _ => h.registerObject hallowed
  | setReclaimer a t => cases hrun; exact h.commit fun _ => h.setReclaimer
  | setOwner a d => cases hrun; exact h.commit fun _ => h.setOwner
  | attach child parent => cases hrun; exact h.commit fun _ => h.attach
  | detach child => cases hrun; exact h.commit fun _ => h.detach
  | unregisterObject a => cases hrun; exact h.commit fun _ => h.unregisterObject

theorem CoreInv.of_reachable (h : coreMachine.Reachable c) : CoreInv c := by
  refine h.invariant (fun _ hstart => ?_) fun _ _ _ => CoreInv.step
  obtain ⟨heap, rfl⟩ := hstart
  exact .boot

/-! ## Unregistering -/

/-- `unregister_object` succeeds exactly on objects without an attached child. -/
theorem CoreInv.unregisterObject_iff (h : CoreInv c) {a : Addr} (hfind : c.findLocked a = some p) :
    (∃ c', c.unregisterObject a = .ok c') ↔ ∀ i, ¬ c.AttachedTo p (c.entry i) := by
  obtain ⟨-, -, -, hp, -⟩ := findLocked_eq_some.mp hfind
  have hzero : (c.entry p).dependentCount = 0 ↔ ∀ i, ¬ c.AttachedTo p (c.entry i) := by
    rw [h.count_eq_dependents hp, dependents, tally_eq_zero]
    refine ⟨fun hnone i hi => ?_, fun hnone i _ => hnone i⟩
    exact hnone i (mem_range.mpr (h.lt_max hi.1)) hi
  rw [← hzero]
  simp only [ObjectCore.unregisterObject, hfind, ne_eq, ite_not]
  split_ifs with hcount <;> simp [hcount]

theorem CoreInv.slot_ne_of_inactive (h : CoreInv c)
    (hoff : (c.entry p).active = false) (i : Nat) : (c.entry i).parentSlot ≠ p + 1 := by
  intro hs
  have hp := (h.identifies_of_slot hs).2.1
  simp [hoff] at hp

/-- A newly registered object has no children yet, whoever had its slot before. -/
theorem CoreInv.slot_ne_of_registerObject {c' : ObjectCore} (h : CoreInv c) {mem : Nat → Bool}
    {b : Addr} {d : Nat} (hid : (c.heap b).id ≠ kobjectIdInvalid)
    (hok : c.registerObject mem b d = .ok c') (hfind : c'.findLocked b = some p) (i : Nat) :
    (c'.entry i).parentSlot ≠ p + 1 := by
  have h' := h.registerObject hid hok
  have hflags := (findLocked_eq_some.mp hfind).1
  refine h'.slot_ne_of_count ?_ i
  obtain ⟨-, j, c₁, -, rfl⟩ := registerObject_eq_ok hok
  simp only [setObject_heap_self, Nat.add_right_cancel_iff] at hflags
  subst hflags
  simp [freshEntry]

/-- **Dependency accounting.** In every reachable state the count of an active entry is the
number of active entries that identify it as their parent. So `unregister_object` succeeds exactly
on objects without an attached child; after it no entry stores the object's slot, every entry
that stores the slot later identifies its occupant at that time, and an object that moves into
the slot starts without children. -/
theorem dependency_accounting {c : ObjectCore} (h : coreMachine.Reachable c) :
    (∀ p, (c.entry p).active = true → (c.entry p).dependentCount = c.dependents p) ∧
    ∀ a p, c.findLocked a = some p →
      ((∃ c', c.unregisterObject a = .ok c') ↔ ∀ i, ¬ c.AttachedTo p (c.entry i)) ∧
      ∀ c', c.unregisterObject a = .ok c' → (∀ i, (c'.entry i).parentSlot ≠ p + 1) ∧
        ∀ os c₁, coreMachine.Exec c' os c₁ →
          (∀ i, (c₁.entry i).parentSlot = p + 1 →
            (c₁.entry p).active = true ∧ c₁.Identifies (c₁.entry i) p) ∧
          ∀ b d mem c₂, (c₁.heap b).id ≠ kobjectIdInvalid → c₁.registerObject mem b d = .ok c₂ →
            c₂.findLocked b = some p → ∀ i, (c₂.entry i).parentSlot ≠ p + 1 := by
  have hinv := CoreInv.of_reachable h
  refine ⟨fun p => hinv.count_eq_dependents, fun a p hfind => ⟨hinv.unregisterObject_iff hfind, ?_⟩⟩
  intro c' hok
  have hinv' := hinv.unregisterObject hok
  refine ⟨hinv'.slot_ne_of_inactive ?_, fun os c₁ hrun => ?_⟩
  · obtain ⟨i, hfind', -, rfl⟩ := unregisterObject_eq_ok hok
    obtain rfl : i = p := Option.some.inj (hfind'.symm.trans hfind)
    simp
  · have hinv₁ : CoreInv c₁ := hrun.invariant (fun _ _ _ => CoreInv.step) hinv'
    refine ⟨fun i hs => (hinv₁.identifies_of_slot hs).2, fun b d mem c₂ hid hreg hfind₂ => ?_⟩
    exact hinv₁.slot_ne_of_registerObject hid hreg hfind₂

def attachedPair : List CoreOp :=
  [.initializeAs 10 0 .domain 1, .initializeAs 11 0 .strand 1,
   .registerObject 10 0 fun _ => true, .registerObject 11 0 fun _ => true, .attach 11 10]

theorem dependency_accounting_pair :
    ∃ c, coreMachine.Exec (.boot fun _ => {}) attachedPair c ∧ (c.entry 0).dependentCount = 1 ∧
      c.dependents 0 = 1 ∧ ¬ ∃ c', c.unregisterObject 10 = .ok c' := by
  have hrun : ∃ c, coreMachine.Exec (.boot fun _ => {}) attachedPair c ∧
      c.findLocked 10 = some 0 ∧ (c.entry 0).dependentCount = 1 ∧
      c.AttachedTo 0 (c.entry 1) := by
    refine ⟨_, .cons ⟨⟨by decide, by simp [ObjectCore.boot]⟩, rfl⟩
      (.cons ⟨⟨by decide, by simp [ObjectCore.boot, setObject]⟩, rfl⟩
      (.cons ⟨show _ ≠ _ by decide, rfl⟩ (.cons ⟨show _ ≠ _ by decide, rfl⟩
      (.cons ⟨trivial, rfl⟩ (.nil _))))), ?_, ?_, ?_⟩ <;> decide
  obtain ⟨c, hexec, hfind, hcount, hchild⟩ := hrun
  have hacc := dependency_accounting (Machine.Reachable.exec (.start ⟨_, rfl⟩) hexec)
  have hactive := (findLocked_eq_some.mp hfind).2.2.2.1
  refine ⟨c, hexec, hcount, (hacc.1 0 hactive).symm.trans hcount, fun hok => ?_⟩
  exact (hacc.2 10 0 hfind).1.mp hok 1 hchild

end ZXFoundation.Scoms
