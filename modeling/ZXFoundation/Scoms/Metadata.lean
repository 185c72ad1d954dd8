import ZXFoundation.Scoms.Kobject

/-!
# Nucleus-owned object metadata

`zxfoundation/scoms/metadata.zcomponent/core.cxx`. Every registered object owns one entry of a
global array of `MAX_OBJECT_METADATA` records, reached through its `object_flags`. A block of the
array that was never allocated is a null pointer (`present` is false). A child names its parent by
four separately stored fields and the parent counts its children in `dependent_count`.

The functions that return `std::expected` leave the state alone when they fail: `Except KernelError
ObjectCore`.
-/

namespace ZXFoundation.Scoms

open Function

def maxObjectMetadata : Nat := 16384

def metadataBlockSize : Nat := 256

/-- `object_metadata`. The reclaimer is the table whose `reclaim_object` it points to. -/
structure ObjectMetadata where
  object : Option Addr := none
  ownerDomain : Nat := kobjectIdInvalid
  parentSlot : Nat := 0
  parentType : KobjectType := .none
  parentId : Nat := kobjectIdInvalid
  parentGeneration : Nat := 0
  objectFlags : Nat := 0
  dependentCount : Nat := 0
  hardwareGeneration : Nat := 0
  reclaimer : Option TableId := none
  active : Bool := false
  reclaimPending : Bool := false
  deriving DecidableEq, Repr

def ObjectMetadata.withoutParent (e : ObjectMetadata) : ObjectMetadata :=
  { e with parentSlot := 0, parentType := .none, parentId := kobjectIdInvalid,
           parentGeneration := 0 }

/-- The object headers in memory and the metadata array. -/
structure ObjectCore where
  heap : Addr → Bobject
  /-- `g_metadata[block] != nullptr`. -/
  present : Nat → Bool
  entry : Nat → ObjectMetadata

namespace ObjectCore

def boot (heap : Addr → Bobject) : ObjectCore where
  heap := heap
  present := fun _ => false
  entry := fun _ => {}

def setEntry (c : ObjectCore) (i : Nat) (e : ObjectMetadata) : ObjectCore :=
  { c with entry := update c.entry i e }

def setObject (c : ObjectCore) (a : Addr) (o : Bobject) : ObjectCore :=
  { c with heap := update c.heap a o }

section Fields

variable (c : ObjectCore) (i j : Nat) (e : ObjectMetadata) (a b : Addr) (o : Bobject)

@[simp] theorem setEntry_heap : (c.setEntry i e).heap = c.heap := rfl
@[simp] theorem setEntry_present : (c.setEntry i e).present = c.present := rfl
@[simp] theorem setEntry_entry_self : (c.setEntry i e).entry i = e := update_self ..
@[simp] theorem setObject_entry : (c.setObject a o).entry = c.entry := rfl
@[simp] theorem setObject_present : (c.setObject a o).present = c.present := rfl
@[simp] theorem setObject_heap_self : (c.setObject a o).heap a = o := update_self ..

theorem setEntry_entry : (c.setEntry i e).entry j = if j = i then e else c.entry j :=
  update_apply ..

variable {i j a b}

theorem setEntry_entry_of_ne (h : j ≠ i) : (c.setEntry i e).entry j = c.entry j :=
  update_of_ne h ..

theorem setObject_heap_of_ne (h : b ≠ a) : (c.setObject a o).heap b = c.heap b :=
  update_of_ne h ..

variable {c e o}

@[elab_as_elim]
theorem setEntry_cases {motive : Nat → ObjectMetadata → Prop} (j : Nat) (self : motive i e)
    (other : ∀ j, j ≠ i → motive j (c.entry j)) : motive j ((c.setEntry i e).entry j) :=
  (forall_update_iff c.entry motive).mpr ⟨self, other⟩ j

@[elab_as_elim]
theorem setObject_cases {motive : Addr → Bobject → Prop} (b : Addr) (self : motive a o)
    (other : ∀ b, b ≠ a → motive b (c.heap b)) : motive b ((c.setObject a o).heap b) :=
  (forall_update_iff c.heap motive).mpr ⟨self, other⟩ b

end Fields

/-- A failed call leaves the state as it was. -/
def commit (c : ObjectCore) : Except KernelError ObjectCore → ObjectCore
  | .ok c' => c'
  | .error _ => c

/-! ## Lookup -/

def metadataAt (c : ObjectCore) (i : Nat) : Option ObjectMetadata :=
  if c.present (i / metadataBlockSize) then some (c.entry i) else none

/-- `metadata_at(index, true)`: allocate the block when it is missing. `mem` is the outcome of
that `kmalloc`; the result is `none` when the block cannot be had. -/
def metadataAtCreate (c : ObjectCore) (mem : Bool) (i : Nat) : Option ObjectCore :=
  if c.present (i / metadataBlockSize) then some c
  else if mem then
    some { c with
      present := update c.present (i / metadataBlockSize) true
      entry := fun j => if j / metadataBlockSize = i / metadataBlockSize then {} else c.entry j }
  else none

/-- `find_locked`: the index of the object's active entry. -/
def findLocked (c : ObjectCore) (a : Addr) : Option Nat :=
  if (c.heap a).objectFlags = 0 then none
  else if (c.heap a).objectFlags - 1 ≥ maxObjectMetadata then none
  else match c.metadataAt ((c.heap a).objectFlags - 1) with
    | some e => if e.active ∧ e.object = some a then some ((c.heap a).objectFlags - 1) else none
    | none => none

/-- `retired_locked`: the index of the object's entry while its reclaim is pending. -/
def retiredLocked (c : ObjectCore) (a : Addr) : Option Nat :=
  if (c.heap a).objectFlags = 0 then none
  else if (c.heap a).objectFlags - 1 ≥ maxObjectMetadata then none
  else match c.metadataAt ((c.heap a).objectFlags - 1) with
    | some e =>
      if e.reclaimPending ∧ e.object = some a then some ((c.heap a).objectFlags - 1) else none
    | none => none

def errorNotFound : KernelError := .generic .notFound

/-! ## Parent links -/

/-- The parent entry that `clear_parent_locked` decrements: the one in the stored slot, if it is
active, its object still has the stored identity and its count is not zero. -/
def parentMatches (c : ObjectCore) (child : ObjectMetadata) : Bool :=
  match c.metadataAt (child.parentSlot - 1) with
  | some p =>
    match p.object with
    | some q => p.active && (c.heap q).type == child.parentType && (c.heap q).id == child.parentId
        && (c.heap q).generation == child.parentGeneration && p.dependentCount != 0
    | none => false
  | none => false

/-- `clear_parent_locked` on the entry at index `i`. A mismatch skips the decrement silently. -/
def clearParentLocked (c : ObjectCore) (i : Nat) : ObjectCore :=
  if (c.entry i).parentId = kobjectIdInvalid then c
  else
    let p := (c.entry i).parentSlot - 1
    let c' :=
      if (c.entry i).parentSlot ≠ 0 ∧ c.parentMatches (c.entry i) then
        c.setEntry p { c.entry p with dependentCount := pred32 (c.entry p).dependentCount }
      else c
    c'.setEntry i (c'.entry i).withoutParent

/-! ## Registration and retirement -/

/-- The loop of `register_object` from index `i` on: the first entry that is neither active nor
waiting for its reclaim, in the array with the blocks allocated on the way. `mem j` is the outcome
of the block allocation attempted at index `j`. -/
def registerScan (mem : Nat → Bool) : Nat → Nat → ObjectCore → Option (Nat × ObjectCore)
  | 0, _, _ => none
  | fuel + 1, i, c =>
    match c.metadataAtCreate (mem i) i with
    | none => registerScan mem fuel (i + 1) c
    | some c' =>
      if (c'.entry i).active ∨ (c'.entry i).reclaimPending then
        registerScan mem fuel (i + 1) c'
      else some (i, c')

def freshEntry (a : Addr) (ownerDomain flags : Nat) : ObjectMetadata :=
  { object := some a, ownerDomain := ownerDomain, objectFlags := flags, active := true }

def registerObject (c : ObjectCore) (mem : Nat → Bool) (a : Addr) (ownerDomain : Nat) :
    Except KernelError ObjectCore :=
  if (c.findLocked a).isSome then .error (.generic .invalidArg)
  else match registerScan mem maxObjectMetadata 0 c with
    | none => .error (.memory .outOfMemory)
    | some (i, c') =>
      .ok ((c'.setEntry i (freshEntry a ownerDomain (c'.heap a).objectFlags)).setObject a
        { c'.heap a with objectFlags := i + 1 })

/-- `unregister_object`: the entry gives up its parent and waits for the last reference. -/
def unregisterObject (c : ObjectCore) (a : Addr) : Except KernelError ObjectCore :=
  match c.findLocked a with
  | none => .error errorNotFound
  | some i =>
    if (c.entry i).dependentCount ≠ 0 then .error (.generic .invalidArg)
    else
      let c' := c.clearParentLocked i
      .ok (c'.setEntry i { c'.entry i with active := false, reclaimPending := true })

def setReclaimer (c : ObjectCore) (a : Addr) (reclaimer : Option TableId) :
    Except KernelError ObjectCore :=
  if reclaimer = none then .error (.generic .invalidArg)
  else match c.findLocked a with
    | none => .error errorNotFound
    | some i => .ok (c.setEntry i { c.entry i with reclaimer := reclaimer })

def completeReclaim (c : ObjectCore) (a : Addr) : Except Trap ObjectCore :=
  match c.retiredLocked a with
  | none => .error .completeReclaim
  | some i =>
    .ok ((c.setEntry i { c.entry i with object := none, reclaimer := none,
                                        reclaimPending := false }).setObject a
      { c.heap a with objectFlags := 0 })

def setOwner (c : ObjectCore) (a : Addr) (ownerDomain : Nat) : Except KernelError ObjectCore :=
  match c.findLocked a with
  | none => .error errorNotFound
  | some i => .ok (c.setEntry i { c.entry i with ownerDomain := ownerDomain })

/-- The entry of a child whose parent has the header `o`. -/
def attachedEntry (e : ObjectMetadata) (o : Bobject) : ObjectMetadata :=
  { e with parentType := o.type, parentId := o.id, parentGeneration := o.generation,
           parentSlot := o.objectFlags }

def attach (c : ObjectCore) (child parent : Addr) : Except KernelError ObjectCore :=
  if child = parent then .error (.generic .invalidArg)
  else match c.findLocked child, c.findLocked parent with
    | some i, some p =>
      if (c.entry i).parentId ≠ kobjectIdInvalid then .error errorNotFound
      else
        let c' := c.setEntry i (attachedEntry (c.entry i) (c.heap parent))
        .ok (c'.setEntry p { c'.entry p with
          dependentCount := succ32 (c'.entry p).dependentCount })
    | _, _ => .error errorNotFound

def detach (c : ObjectCore) (child : Addr) : Except KernelError ObjectCore :=
  match c.findLocked child with
  | none => .error errorNotFound
  | some i =>
    if (c.entry i).parentId = kobjectIdInvalid then .ok c else .ok (c.clearParentLocked i)

def hasDependents (c : ObjectCore) (a : Addr) : Bool :=
  match c.findLocked a with
  | none => false
  | some i => (c.entry i).dependentCount != 0

/-! ## What the lookups and the scan find -/

variable {c c' : ObjectCore} {a : Addr} {i : Nat}

theorem findLocked_eq_some :
    c.findLocked a = some i ↔ (c.heap a).objectFlags = i + 1 ∧ i < maxObjectMetadata ∧
      c.present (i / metadataBlockSize) = true ∧ (c.entry i).active = true ∧
      (c.entry i).object = some a := by
  unfold findLocked metadataAt
  constructor
  · intro h
    split_ifs at h with h₀ hmax hp
    · simp only [Option.ite_none_right_eq_some, Option.some.injEq] at h
      obtain ⟨⟨hact, hobj⟩, rfl⟩ := h
      exact ⟨by omega, by omega, hp, hact, hobj⟩
  · rintro ⟨hf, hmax, hp, hact, hobj⟩
    rw [hf]
    simp [hp, hact, hobj, Nat.not_le.mpr hmax]

theorem retiredLocked_eq_some :
    c.retiredLocked a = some i ↔ (c.heap a).objectFlags = i + 1 ∧ i < maxObjectMetadata ∧
      c.present (i / metadataBlockSize) = true ∧ (c.entry i).reclaimPending = true ∧
      (c.entry i).object = some a := by
  unfold retiredLocked metadataAt
  constructor
  · intro h
    split_ifs at h with h₀ hmax hp
    · simp only [Option.ite_none_right_eq_some, Option.some.injEq] at h
      obtain ⟨⟨hpend, hobj⟩, rfl⟩ := h
      exact ⟨by omega, by omega, hp, hpend, hobj⟩
  · rintro ⟨hf, hmax, hp, hpend, hobj⟩
    rw [hf]
    simp [hp, hpend, hobj, Nat.not_le.mpr hmax]

/-- `c'` is `c` with some metadata blocks allocated. -/
structure Grown (c c' : ObjectCore) : Prop where
  heap : c'.heap = c.heap
  present : ∀ b, c.present b = true → c'.present b = true
  kept : ∀ i, c.present (i / metadataBlockSize) = true → c'.entry i = c.entry i
  fresh : ∀ i, c'.entry i = c.entry i ∨ c'.entry i = {}

theorem Grown.refl : Grown c c :=
  ⟨rfl, fun _ h => h, fun _ _ => rfl, fun _ => Or.inl rfl⟩

theorem Grown.trans {c'' : ObjectCore} (h : Grown c c') (h' : Grown c' c'') : Grown c c'' where
  heap := h'.heap.trans h.heap
  present := fun b hb => h'.present b (h.present b hb)
  kept := fun i hi => (h'.kept i (h.present _ hi)).trans (h.kept i hi)
  fresh := fun i => by
    rcases h'.fresh i with heq | hdef
    · rw [heq]
      exact h.fresh i
    · exact Or.inr hdef

theorem metadataAtCreate_spec {mem : Bool} (h : c.metadataAtCreate mem i = some c') :
    Grown c c' ∧ c'.present (i / metadataBlockSize) = true := by
  unfold metadataAtCreate at h
  split_ifs at h with hp hm
  · cases h
    exact ⟨.refl, hp⟩
  cases h
  refine ⟨⟨rfl, fun b hb => ?_, fun j hj => ?_, fun j => ?_⟩, update_self ..⟩
  · by_cases hbi : b = i / metadataBlockSize
    · rw [hbi]
      exact update_self ..
    · exact (update_of_ne hbi ..).trans hb
  · have hji : j / metadataBlockSize ≠ i / metadataBlockSize := fun heq => hp (heq ▸ hj)
    exact if_neg hji
  · by_cases hj : j / metadataBlockSize = i / metadataBlockSize
    · exact Or.inr (if_pos hj)
    · exact Or.inl (if_neg hj)

theorem registerScan_spec {mem : Nat → Bool} {fuel j : Nat}
    (h : registerScan mem fuel i c = some (j, c')) :
    Grown c c' ∧ j < i + fuel ∧ c'.present (j / metadataBlockSize) = true ∧
      (c'.entry j).active = false ∧ (c'.entry j).reclaimPending = false := by
  induction fuel generalizing i c with
  | zero => cases h
  | succ fuel ih =>
    rw [registerScan] at h
    split at h
    · obtain ⟨hg, hj, hrest⟩ := ih h
      exact ⟨hg, by omega, hrest⟩
    next c₁ hc₁ =>
    obtain ⟨hg₁, hp₁⟩ := metadataAtCreate_spec hc₁
    split_ifs at h with hbusy
    · obtain ⟨hg, hj, hrest⟩ := ih h
      exact ⟨hg₁.trans hg, by omega, hrest⟩
    · cases h
      simp only [not_or, Bool.not_eq_true] at hbusy
      exact ⟨hg₁, by omega, hp₁, hbusy.1, hbusy.2⟩

/-! ## What a successful call did -/

theorem registerObject_eq_ok {mem : Nat → Bool} {d : Nat} (h : c.registerObject mem a d = .ok c') :
    c.findLocked a = none ∧ ∃ i c₁, registerScan mem maxObjectMetadata 0 c = some (i, c₁) ∧
      c' = (c₁.setEntry i (freshEntry a d (c₁.heap a).objectFlags)).setObject a
        { c₁.heap a with objectFlags := i + 1 } := by
  unfold registerObject at h
  split_ifs at h with hfound
  split at h
  · cases h
  · next i c₁ hscan =>
    cases h
    exact ⟨by simpa using hfound, i, c₁, hscan, rfl⟩

theorem unregisterObject_eq_ok (h : c.unregisterObject a = .ok c') :
    ∃ i, c.findLocked a = some i ∧ (c.entry i).dependentCount = 0 ∧
      c' = (c.clearParentLocked i).setEntry i
        { (c.clearParentLocked i).entry i with active := false, reclaimPending := true } := by
  unfold unregisterObject at h
  split at h
  · cases h
  next i hfind =>
  split_ifs at h with hzero
  cases h
  exact ⟨i, hfind, not_not.mp hzero, rfl⟩

theorem setReclaimer_eq_ok {t : Option TableId} (h : c.setReclaimer a t = .ok c') :
    ∃ i, c.findLocked a = some i ∧ c' = c.setEntry i { c.entry i with reclaimer := t } := by
  unfold setReclaimer at h
  split_ifs at h
  split at h
  · cases h
  · next i hfind =>
    cases h
    exact ⟨i, hfind, rfl⟩

theorem completeReclaim_eq_ok (h : c.completeReclaim a = .ok c') :
    ∃ i, c.retiredLocked a = some i ∧
      c' = (c.setEntry i { c.entry i with
        object := none, reclaimer := none, reclaimPending := false }).setObject a
          { c.heap a with objectFlags := 0 } := by
  unfold completeReclaim at h
  split at h
  · cases h
  · next i hret =>
    cases h
    exact ⟨i, hret, rfl⟩

theorem setOwner_eq_ok {d : Nat} (h : c.setOwner a d = .ok c') :
    ∃ i, c.findLocked a = some i ∧ c' = c.setEntry i { c.entry i with ownerDomain := d } := by
  unfold setOwner at h
  split at h
  · cases h
  · next i hfind =>
    cases h
    exact ⟨i, hfind, rfl⟩

theorem clearParentLocked_of_invalid
    (h : (c.entry i).parentId = kobjectIdInvalid) : c.clearParentLocked i = c :=
  if_pos h

@[simp] theorem clearParentLocked_heap (c : ObjectCore) (i : Nat) :
    (c.clearParentLocked i).heap = c.heap := by
  unfold clearParentLocked
  dsimp only
  split_ifs <;> rfl

@[simp] theorem clearParentLocked_present : (c.clearParentLocked i).present = c.present := by
  unfold clearParentLocked
  dsimp only
  split_ifs <;> rfl

theorem clearParentLocked_entry_cases (c : ObjectCore) (i j : Nat) :
    ∃ n, (c.clearParentLocked i).entry j = { c.entry j with dependentCount := n } ∨
      j = i ∧ (c.clearParentLocked i).entry j =
        { (c.entry j).withoutParent with dependentCount := n } := by
  by_cases hpar : (c.entry i).parentId = kobjectIdInvalid
  · exact ⟨_, Or.inl (by rw [clearParentLocked_of_invalid hpar])⟩
  -- the count of `j` after the parent's entry was written
  let c₁ : ObjectCore :=
    if (c.entry i).parentSlot ≠ 0 ∧ c.parentMatches (c.entry i) then
      c.setEntry ((c.entry i).parentSlot - 1)
        { c.entry ((c.entry i).parentSlot - 1) with
          dependentCount := pred32 (c.entry ((c.entry i).parentSlot - 1)).dependentCount }
    else c
  have hclear : c.clearParentLocked i = c₁.setEntry i (c₁.entry i).withoutParent := if_neg hpar
  have hcount : c₁.entry j = { c.entry j with dependentCount := (c₁.entry j).dependentCount } := by
    unfold c₁
    split_ifs
    · rw [setEntry_entry]
      split_ifs with hj
      · rw [hj]
      · rfl
    · rfl
  refine ⟨(c₁.entry j).dependentCount, ?_⟩
  rw [hclear]
  by_cases hji : j = i
  · subst hji
    refine Or.inr ⟨rfl, ?_⟩
    rw [setEntry_entry_self, hcount]
    rfl
  · exact Or.inl (by rw [setEntry_entry_of_ne _ _ hji, ← hcount])

theorem detach_eq_ok {child : Addr} (h : c.detach child = .ok c') :
    ∃ i, c.findLocked child = some i ∧ c' = c.clearParentLocked i := by
  unfold detach at h
  split at h
  · cases h
  next i hfind =>
  split_ifs at h with hpar
  · cases h
    exact ⟨i, hfind, (clearParentLocked_of_invalid hpar).symm⟩
  · cases h
    exact ⟨i, hfind, rfl⟩

theorem attach_eq_ok {child parent : Addr} (h : c.attach child parent = .ok c') :
    ∃ i p, i ≠ p ∧ c.findLocked child = some i ∧ c.findLocked parent = some p ∧
      (c.entry i).parentId = kobjectIdInvalid ∧
      c' = (c.setEntry i (attachedEntry (c.entry i) (c.heap parent))).setEntry p
        { c.entry p with dependentCount := succ32 (c.entry p).dependentCount } := by
  unfold attach at h
  split_ifs at h with hself
  split at h
  · next i p hi hp =>
    split_ifs at h with hpar
    cases h
    have hip : i ≠ p := fun heq => by
      have hiobj := (findLocked_eq_some.mp hi).2.2.2.2
      rw [heq, (findLocked_eq_some.mp hp).2.2.2.2] at hiobj
      exact hself (Option.some.inj hiobj).symm
    refine ⟨i, p, hip, hi, hp, not_not.mp hpar, ?_⟩
    rw [setEntry_entry_of_ne _ _ hip.symm]
  · cases h

end ObjectCore
end ZXFoundation.Scoms
