import ZXFoundation.Nucleus

/-!
# Memory objects

`memory_object_create` and `memory_object_destroy` of `zxfoundation/memory/objects.zcomponent`. All
memory objects share one table, which stores the type the creator asks for. A new object is attached
to its parent before it is activated, so that the parent cannot be released before it.
-/

namespace ZXFoundation.Memory

open Scoms Outcome Dgp.Isolation

def validMemoryType : KobjectType → Bool
  | .memoryResource | .memoryExtent | .memoryFolio | .page | .storage | .grant | .mapping
  | .addressSpace | .pageTable | .key | .vmRegion | .kmemCache | .policyServer | .serviceEntry
  | .deviceBinding | .datasetExtent => true
  | _ => false

/-- The range check that an extent has to pass. The end of the range is computed modulo 2⁶⁴. -/
def validExtentRange (start length : UInt64) : Bool :=
  start != 0 && length != 0 && start &&& 0xFFF == 0 && length &&& 0xFFF == 0 &&
    start ≤ start + length

def memoryObjectsInit (cfg : Config) (n : Nucleus) (mem : Nat → Bool) : Nucleus :=
  if n.memoryReady then n
  else { n with world := n.world.initTable cfg memoryTable mem .none, memoryReady := true }

/-- The part of `memory_object_create` under `if (parent)`: the object is attached, and it records
what it is attached to. -/
def attachRelated (n : Nucleus) (a : Addr) :
    Option Addr → Except Trap (Except KernelError Unit × Nucleus)
  | none => return (.ok (), n)
  | some parent => do
    let (r, n) ← n.store (n.world.attach a parent)
    match r with
    | .error e => return (.error e, n)
    | .ok _ =>
      let related := n.world.header parent
      return (.ok (), n.updateMemoryObject a fun o => { o with
        relatedType := related.type
        relatedId := related.id
        relatedGeneration := related.generation })

/-- The failing exits of `memory_object_create` after the attachment. -/
def abandonAttached (cfg : Config) (n : Nucleus) (a : Addr) (handle : Nat) (e : KernelError) :
    Except Trap (Except KernelError Addr × Nucleus) := do
  let (_, n) ← n.store (n.world.detach a)
  n.abandon cfg memoryTable a handle e

def memoryObjectCreate (cfg : Config) (n : Nucleus) (type : KobjectType) (ownerDomain : Nat)
    (parent : Option Addr) (start length : UInt64) (rights : IsolationRights)
    (faults : AllocFaults) : Except Trap (Except KernelError Addr × Nucleus) := do
  if !n.memoryReady || !validMemoryType type then return (.error (.generic .invalidArg), n)
  if type = .memoryExtent ∧ !validExtentRange start length then
    return (.error (.memory .invalidAddress), n)
  let handle := n.world.handle.length
  let (slot, n) ← n.store (n.world.alloc memoryTable type faults)
  match slot with
  | .error e => return (.error e, n)
  | .ok a =>
    let n := n.updateMemoryObject a fun _ =>
      { ownerDomain := ownerDomain, rangeStart := start, rangeLength := length
        authorityRights := rights }
    let (ownerResult, n) ← n.store (n.world.setOwner a ownerDomain)
    match ownerResult with
    | .error e => n.abandon cfg memoryTable a handle e
    | .ok _ =>
      let (attachResult, n) ← attachRelated n a parent
      match attachResult with
      | .error e => abandonAttached cfg n a handle e
      | .ok _ =>
        let w ← n.world.changeState handle .activate
        let active := w.handle.length - 1
        match ← w.handlePtr active with
        | none => abandonAttached cfg (n.withWorld w) a handle (.generic .invalidArg)
        | some _ =>
          let w ← w.dropHandle cfg active
          let w ← w.dropHandle cfg handle
          return (.ok a, n.withWorld w)

/-- A store to `extent_retiring`, made only under the condition. -/
def storeRetiring (n : Nucleus) (a : Addr) (condition retiring : Bool) : Nucleus :=
  if condition then n.updateMemoryObject a fun o => { o with extentRetiring := retiring } else n

/-- `memory_object_destroy`. An extent is marked as retiring while the release is tried. -/
def memoryObjectDestroy (cfg : Config) (n : Nucleus) (id : Nat) :
    Except Trap (Except KernelError Unit × Nucleus) := do
  match n.world.findRaw cfg memoryTable id with
  | none => return (.error (.generic .notFound), n)
  | some a =>
    let extent := (n.world.header a).type == .memoryExtent
    if extent && (n.memoryObject a).activeMappings != 0 then return (.error (.driver .busy), n)
    let wasRetiring := extent && (n.memoryObject a).extentRetiring
    let n := storeRetiring n a extent true
    if n.world.core.hasDependents a then
      return (.error (.driver .busy), storeRetiring n a (extent && !wasRetiring) false)
    let (r, n) ← n.store (n.world.release cfg memoryTable id)
    match r with
    | .error e => return (.error e, storeRetiring n a (extent && !wasRetiring) false)
    | .ok _ => return (.ok (), n)

/-! ## The books are kept -/

variable {cfg : Config} {n : Nucleus} {x : Addr → Nat}

variable (h : WF cfg n.world x)
include h

theorem wf_memoryObjectsInit {mem : Nat → Bool} : WF cfg (memoryObjectsInit cfg n mem).world x := by
  unfold memoryObjectsInit
  split_ifs
  · exact h
  · exact h.initTable

theorem post_attachRelated (a : Addr) (parent : Option Addr) :
    Post Trap.IsBenign (fun r => n.StoreStep cfg x r.2) (attachRelated n a parent) := by
  cases parent with
  | none => exact ⟨h, rfl⟩
  | some p =>
    refine (Nucleus.post_storeStep h.attach).bind fun r hr => ?_
    obtain ⟨_ | _, n₁⟩ := r
    · exact hr
    · exact ⟨hr.wf, hr.strandBody⟩

theorem post_abandonAttached (a : Addr) (handle : Nat) (e : KernelError) :
    Post Trap.IsBenign (fun r => n.StoreStep cfg x r.2) (abandonAttached cfg n a handle e) := by
  refine (Nucleus.post_storeStep (h.detach a)).bind fun p hp => ?_
  exact (Nucleus.post_abandon hp.wf _ a handle e).mono fun r hr => hp.trans hr.2

theorem post_memoryObjectCreate (type : KobjectType) (ownerDomain : Nat)
    (parent : Option Addr) (start length : UInt64) (rights : IsolationRights)
    (faults : AllocFaults) :
    Post Trap.IsBenign (fun r => n.StoreStep cfg x r.2)
      (memoryObjectCreate cfg n type ownerDomain parent start length rights faults) := by
  unfold memoryObjectCreate
  split_ifs
  · exact ⟨h, rfl⟩
  · exact ⟨h, rfl⟩
  have halloc := (alloc_outcome h memoryTable type faults).mono fun r hr => hr.wf h
  refine (Nucleus.post_storeStep halloc).bind fun r hr => ?_
  obtain ⟨_ | a, n₁⟩ := r
  · exact hr
  refine (Nucleus.post_storeStep (hr.wf.setOwner a ownerDomain)).bind fun r₂ h₂ => ?_
  obtain ⟨_ | _, n₂⟩ := r₂
  · exact (Nucleus.post_abandon h₂.wf _ a _ _).mono fun r hr' =>
      ⟨hr'.2.wf, hr'.2.strandBody.trans (h₂.strandBody.trans hr.strandBody)⟩
  have hstep : n.StoreStep cfg x n₂ := ⟨h₂.wf, h₂.strandBody.trans hr.strandBody⟩
  refine (post_attachRelated h₂.wf a parent).bind fun r₃ h₃ => ?_
  obtain ⟨_ | _, n₃⟩ := r₃
  · exact (post_abandonAttached h₃.wf a _ _).mono fun r hr' => hstep.trans (h₃.trans hr')
  refine (h₃.wf.changeState _ .activate).bind fun w hw => ?_
  refine (post_handlePtr w _).bind fun p _ => ?_
  cases p with
  | none =>
    refine (post_abandonAttached hw a _ _).mono fun r hr' => ?_
    exact ⟨hr'.wf, hr'.strandBody.trans (hstep.trans h₃).strandBody⟩
  | some _ =>
    refine (hw.dropHandle _).bind fun w₁ hw₁ => (hw₁.dropHandle _).bind fun w₂ hw₂ => ?_
    exact ⟨hw₂, (hstep.trans h₃).strandBody⟩

omit h in
theorem storeStep_storeRetiring {m : Nucleus} (h : n.StoreStep cfg x m) (a : Addr)
    (condition retiring : Bool) : n.StoreStep cfg x (storeRetiring m a condition retiring) := by
  unfold storeRetiring
  split_ifs
  · exact ⟨h.wf, h.strandBody⟩
  · exact h

theorem post_memoryObjectDestroy {E : Trap → Prop} {id : Nat} :
    Post E (fun r => n.StoreStep cfg x r.2) (memoryObjectDestroy cfg n id) := by
  unfold memoryObjectDestroy
  split
  · exact ⟨h, rfl⟩
  next a _ =>
  have hmarked := storeStep_storeRetiring (n := n) ⟨h, rfl⟩ a
    ((n.world.header a).type == .memoryExtent) true
  dsimp only
  split_ifs
  · exact ⟨h, rfl⟩
  · exact storeStep_storeRetiring hmarked a _ _
  refine (Nucleus.post_storeStep hmarked.wf.release).bind fun r hr => ?_
  obtain ⟨_ | _, n₁⟩ := r
  · exact storeStep_storeRetiring (hmarked.trans hr) a _ _
  · exact hmarked.trans hr

end ZXFoundation.Memory
