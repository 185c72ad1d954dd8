import ZXFoundation.Dgp.Authorize
import ZXFoundation.Dgp.Signal
import ZXFoundation.Memory.Frames
import ZXFoundation.Scoms.Machine

/-!
# The state of the nucleus

The object store of `Scoms/World.lean` knows objects by their headers. Here are the parts of the
objects behind the headers, for the object types whose lifecycle is modelled, together with what
those objects own outside the store: strand bodies, physical frames and storage keys.

A field of `Nucleus` that maps addresses to bodies is storage: it has a value at every address, and
which addresses hold an object of the type is the matter of the store. `alloc` constructs the body
anew.
-/

namespace ZXFoundation

open Scoms Outcome Dgp Isolation Signal Memory Function

/-! ## Strands -/

inductive SchedSubstate where
  | idle | runnable | running | blocked
  deriving DecidableEq, Repr

/-- `strand` behind its header, less its scheduler accounting. `idle` is `strand_flags::idle`. -/
structure Strand where
  owner : Option Addr := none
  substate : SchedSubstate := .idle
  cpu : Nat := 0
  onRq : Bool := false
  idle : Bool := false
  body : Option Addr := none
  kstackTop : UInt64 := 0
  ksp : UInt64 := 0
  deriving DecidableEq, Repr

/-- `strand_body`, less its accounting and register areas. Its list node is the membership of its
address in `Domain.strands`. -/
structure StrandBody where
  kstackBase : UInt64 := 0
  deriving DecidableEq, Repr

/-! ## Domains -/

structure DomainFlags where
  idle : Bool := false
  needResched : Bool := false
  nucleus : Bool := false
  deriving DecidableEq, Repr

/-- `vm_space`, less its regions and their accounting. -/
structure VmSpace where
  ownerObject : Option Addr := none
  addressSpaceObject : Option Addr := none
  asceVal : UInt64 := 0
  storageKey : Nat := 0
  numaNode : Nat := 0
  storageKeyGeneration : Nat := 0
  ownerDomain : Nat := 0

/-- `vm_space_init`: the identity of the space is not reset. -/
def VmSpace.init (v : VmSpace) : VmSpace :=
  { v with storageKey := 0, numaNode := 0, storageKeyGeneration := 0 }

/-- `domain` behind its header, less its name and its scheduler budgets. -/
structure Domain where
  flags : DomainFlags := {}
  storageKey : Nat := 0
  rootPhys : UInt64 := 0
  primaryStrand : Strand := {}
  asce : UInt64 := 0
  art : ArtContext := {}
  gateCount : Nat := 0
  portalCount : Nat := 0
  grantedRights : IsolationRights := .none
  numaNode : Nat := 0
  revocationEpoch : Nat := 0
  storageKeyGeneration : Nat := 0
  storageKeyState : SkeyRevocationState := .none
  teardownPhase : TeardownPhase := .none
  /-- The bodies on the list of secondary strands. -/
  strands : List Addr := []
  vmSpace : VmSpace := {}
  signalQueue : SignalQueue := {}

/-! ## Objects that name domains -/

/-- `memory_object` behind its header, less its view and its placement policy. -/
structure MemoryObject where
  rangeStart : UInt64 := 0
  rangeLength : UInt64 := 0
  ownerDomain : Nat := kobjectIdInvalid
  relatedType : KobjectType := .none
  relatedId : Nat := kobjectIdInvalid
  relatedGeneration : Nat := 0
  authorityRights : IsolationRights := .none
  activeMappings : Nat := 0
  extentRetiring : Bool := false

/-- `gate_desc`: the domain it leads into. -/
structure GateDesc where
  targetDomain : Nat := 0

/-- `portal_desc`: the domains it connects. -/
structure PortalDesc where
  sourceDomain : Nat := 0
  targetDomain : Nat := 0

/-- `endpoint_object`: its two domains. -/
structure EndpointObject where
  ownerDomain : Nat := kobjectIdInvalid
  peerDomain : Nat := kobjectIdInvalid

def gateTable : TableId := 3

def portalTable : TableId := 4

def endpointTable : TableId := 5

/-! ## The nucleus -/

structure Nucleus where
  world : World
  domain : Addr → Domain
  strand : Addr → Strand
  memoryObject : Addr → MemoryObject
  gate : Addr → GateDesc
  portal : Addr → PortalDesc
  endpoint : Addr → EndpointObject
  /-- The allocated strand bodies. -/
  strandBody : Addr → Option StrandBody
  frames : Frames
  keys : KeyRegistry
  /-- The `aste` component is initialized. -/
  artReady : Bool
  /-- The `memory::objects` component is initialized. -/
  memoryReady : Bool
  /-- `g_nucleus.ptr`. -/
  nucleusPtr : Option Addr
  /-- The `current_domain` of the running CPU. -/
  currentDomain : Option Addr

namespace Nucleus

def boot (heap : Addr → Bobject) : Nucleus where
  world := .boot heap
  domain := fun _ => {}
  strand := fun _ => {}
  memoryObject := fun _ => {}
  gate := fun _ => {}
  portal := fun _ => {}
  endpoint := fun _ => {}
  strandBody := fun _ => none
  frames := fun _ => none
  keys := {}
  artReady := false
  memoryReady := false
  nucleusPtr := none
  currentDomain := none

def withWorld (n : Nucleus) (w : World) : Nucleus := { n with world := w }

def withFrames (n : Nucleus) (F : Frames) : Nucleus := { n with frames := F }

def withKeys (n : Nucleus) (R : KeyRegistry) : Nucleus := { n with keys := R }

def updateDomain (n : Nucleus) (a : Addr) (f : Domain → Domain) : Nucleus :=
  { n with domain := update n.domain a (f (n.domain a)) }

def updateStrand (n : Nucleus) (a : Addr) (f : Strand → Strand) : Nucleus :=
  { n with strand := update n.strand a (f (n.strand a)) }

def updateMemoryObject (n : Nucleus) (a : Addr) (f : MemoryObject → MemoryObject) : Nucleus :=
  { n with memoryObject := update n.memoryObject a (f (n.memoryObject a)) }

def setBody (n : Nucleus) (b : Addr) (body : Option StrandBody) : Nucleus :=
  { n with strandBody := update n.strandBody b body }

/-- `g_nucleus.ptr` and the current domain of the boot CPU. -/
def setNucleus (n : Nucleus) (d : Addr) : Nucleus :=
  { n with nucleusPtr := some d, currentDomain := some d }

section Fields

variable (n : Nucleus) (w : World) (F : Frames) (a : Addr) (d : Domain → Domain)

@[simp] theorem withWorld_world : (n.withWorld w).world = w := rfl
@[simp] theorem withFrames_world : (n.withFrames F).world = n.world := rfl
@[simp] theorem updateDomain_world : (n.updateDomain a d).world = n.world := rfl

end Fields

/-- A reference argument refers to an object of its type: a live object of the table of that
type. -/
def checkObject (n : Nucleus) (t : TableId) (a : Addr) : Except Trap Unit :=
  if (n.world.allocation a).any fun al => al.home == t then .ok () else .error .danglingPointer

theorem post_checkObject (n : Nucleus) (t : TableId) (a : Addr) :
    Post Trap.IsBenign (fun _ => ∃ al, n.world.allocation a = some al ∧ al.home = t)
      (n.checkObject t a) := by
  unfold checkObject
  split_ifs with h
  · simpa [Option.any_eq_true] using h
  · trivial

def store {α : Type} (n : Nucleus) (r : Except Trap (α × World)) : Except Trap (α × Nucleus) := do
  let (a, w) ← r
  return (a, n.withWorld w)

theorem post_store {α : Type} {E : Trap → Prop} {Q : α × World → Prop} (n : Nucleus)
    {r : Except Trap (α × World)} (h : Post E Q r) :
    Post E (fun p => Q (p.1, p.2.world) ∧ p.2 = n.withWorld p.2.world) (n.store r) :=
  h.bind fun _ hp => ⟨hp, rfl⟩

/-- A step in which the books of the store are kept and no strand body comes or goes. -/
structure StoreStep (cfg : Config) (x : Addr → Nat) (n n' : Nucleus) : Prop where
  wf : WF cfg n'.world x
  strandBody : n'.strandBody = n.strandBody

section StoreStep

variable {cfg : Config} {x : Addr → Nat} {n n₁ n₂ : Nucleus}

theorem StoreStep.trans (h : StoreStep cfg x n n₁) (h' : StoreStep cfg x n₁ n₂) :
    StoreStep cfg x n n₂ :=
  ⟨h'.wf, h'.strandBody.trans h.strandBody⟩

theorem post_storeStep {α : Type} {E : Trap → Prop} {r : Except Trap (α × World)}
    (h : Post E (fun p => WF cfg p.2 x) r) : Post E (fun p => StoreStep cfg x n p.2) (n.store r) :=
  h.bind fun _ hp => ⟨hp, rfl⟩

end StoreStep

/-- `kmalloc_t<strand_body>`, whose outcome is `answer`. -/
def allocBody (n : Nucleus) (answer : Option Addr) : Except Trap (Option Addr × Nucleus) :=
  match answer with
  | none => return (none, n)
  | some b =>
    if (n.strandBody b).isSome then .error .allocatorOverlap
    else return (some b, n.setBody b (some {}))

theorem post_allocBody {n : Nucleus} {answer : Option Addr} :
    Post Trap.IsBenign (fun r => match r.1 with
      | some b => n.strandBody b = none ∧ r.2 = n.setBody b (some {})
      | none => r.2 = n) (n.allocBody answer) := by
  unfold allocBody
  cases answer with
  | none => rfl
  | some b =>
    dsimp only
    split_ifs with hused
    · trivial
    · exact ⟨Option.not_isSome_iff_eq_none.mp hused, rfl⟩

def bodyAt (n : Nucleus) : Option Addr → Except Trap (Addr × StrandBody)
  | none => .error .nullDereference
  | some b => match n.strandBody b with
    | none => .error .danglingPointer
    | some body => return (b, body)

theorem post_bodyAt (n : Nucleus) (p : Option Addr) :
    Post Trap.IsBenign (fun _ => True) (n.bodyAt p) := by
  unfold bodyAt
  split
  · trivial
  · split <;> trivial

/-- The last lines of a failed creation: the slot of the new object is released, whatever the
release says, and its first handle goes out of scope. -/
def abandon (cfg : Config) (n : Nucleus) (t : TableId) (a : Addr) (handle : Nat)
    (e : KernelError) : Except Trap (Except KernelError Addr × Nucleus) := do
  let (_, w) ← n.world.release cfg t (n.world.header a).id
  let w ← w.dropHandle cfg handle
  return (.error e, n.withWorld w)

theorem post_abandon {cfg : Config} {n : Nucleus} {x : Addr → Nat} (h : WF cfg n.world x)
    (t : TableId) (a : Addr) (handle : Nat) (e : KernelError) :
    Post Trap.IsBenign (fun r => r.1 = .error e ∧ StoreStep cfg x n r.2)
      (n.abandon cfg t a handle e) := by
  refine h.release.bind fun r hr => (hr.dropHandle handle).bind fun w hw => ?_
  exact ⟨rfl, hw, rfl⟩

end Nucleus

end ZXFoundation
