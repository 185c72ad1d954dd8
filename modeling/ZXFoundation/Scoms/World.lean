import ZXFoundation.Dgp.Cap.Types
import ZXFoundation.Scoms.Metadata
import ZXFoundation.Scoms.Table

/-!
# Objects, tables and handles

The operations of `scoms/table.cxxm` and `scoms/kobject.zcomponent/ref.cxxm` on objects, as
functions on one `World`.

* Outcomes of `kmalloc` and injected registration failures are arguments (`AllocFaults`).
* A function that can stop the nucleus returns `Except Trap`; what the source returns as
  `std::expected` is the inner `Except KernelError`, together with the world after the call.
* A pointer argument that names no allocated object ends the run with `danglingPointer`.

Four fields of `World` are bookkeeping that no operation reads: the allocated addresses with their
tables, the number of objects ever allocated, those reclaimed, and how often each capability slot
was vacated.
-/

namespace ZXFoundation.Scoms

open Dgp.Cap Function

/-- A registered lookup callback: the published object of an id in one table, if its header
passes the callback's own check. -/
structure Lookup where
  table : TableId
  accepts : Bobject → Bool

/-- What is fixed when the nucleus is built and booted: the capacity of each table and the
lookup callback of each capability type. A capability names its target with 16 bits, so the
tables behind the callbacks have at most that many ids. -/
structure Config where
  capacity : TableId → Capacity
  lookup : Nat → Option Lookup
  fits : ∀ {idx l}, lookup idx = some l → (capacity l.table).N ≤ 2 ^ 16

/-- An allocated object: its number in the order of allocation, and its table. -/
structure Allocation where
  serial : Nat
  home : TableId
  deriving DecidableEq, Repr

structure World where
  core : ObjectCore
  /-- `g_bobject_finalizer` is installed. -/
  finalizer : Bool
  table : TableId → ScomsTable
  /-- Every `robject` ever constructed, with its current `ptr_`. -/
  handle : List (Option Addr)
  /-- `s_capabilities`. -/
  caps : Option (Nat → CapabilitySlot)
  allocation : Addr → Option Allocation
  serial : Nat
  reclaimed : List Nat
  vacated : Nat → Nat

/-! ## The tables of the nucleus -/

def domainTable : TableId := 0

/-- `g_strand_table`, for secondary and idle strands. -/
def strandTable : TableId := 1

/-- The table of `memory::objects`. -/
def memoryTable : TableId := 2

/-- The outcomes of the allocations that one `alloc` attempts. -/
structure AllocFaults where
  /-- `kmalloc` of the slot block succeeds. -/
  block : Bool := true
  /-- The storage that `kmalloc` returns for the object. -/
  object : Option Addr
  /-- An injected failure of `register_object`. -/
  metadata : Option KernelError := none
  /-- `kmalloc` of a metadata block succeeds. -/
  metadataBlock : Nat → Bool := fun _ => true

variable (cfg : Config) (w : World) (t : TableId) (i : Nat) (id : Nat) (faults : AllocFaults)

/-- The registration of a new object, unless its failure is injected. -/
def AllocFaults.register (core : ObjectCore) (a : Addr) : Except KernelError ObjectCore :=
  match faults.metadata with
  | some e => .error e
  | none => core.registerObject faults.metadataBlock a kobjectIdInvalid

variable (a : Addr)

namespace World

def boot (heap : Addr → Bobject) : World where
  core := .boot heap
  finalizer := false
  table := fun _ => {}
  handle := []
  caps := none
  allocation := fun _ => none
  serial := 0
  reclaimed := []
  vacated := fun _ => 0

def header : Bobject := w.core.heap a

def setHeader (o : Bobject) : World :=
  { w with core := w.core.setObject a o }

def setTable (T : ScomsTable) : World :=
  { w with table := update w.table t T }

def pushHandle (p : Option Addr) : World := { w with handle := w.handle ++ [p] }

def setHandle (p : Option Addr) : World :=
  { w with handle := w.handle.set i p }

/-- The caller may only pass a pointer to an allocated object. -/
def checkLive : Except Trap Unit :=
  if (w.allocation a).isSome then .ok () else .error .danglingPointer

/-! ## Reference counts -/

def tryGet : Except Trap (Bool × World) := do
  let (got, n) ← krefTryGet (w.header a).ref
  return (got, w.setHeader a { w.header a with ref := n })

def reclaimRetired : Except Trap World :=
  let id := (w.header a).id
  if id ≥ (cfg.capacity t).N then .error .reclaimBadId
  else if (w.table t).objectPtr id ≠ none then .error .reclaimPublished
  else do
    let core ← w.core.completeReclaim a
    return { w with
      core := core.setObject a { core.heap a with id := kobjectIdInvalid }
      table := update w.table t ((w.table t).pushFree id)
      allocation := update w.allocation a none
      reclaimed := (w.allocation a).elim w.reclaimed fun al => al.serial :: w.reclaimed }

def reclaimObject : Except Trap World :=
  if (w.table t).hasInstance then w.reclaimRetired cfg t a else .error .reclaimNoInstance

def finalizeLastPut : Except Trap World :=
  match w.core.retiredLocked a with
  | none => .error .finalizeLastPut
  | some i =>
    match (w.core.entry i).reclaimer with
    | none => .error .finalizeLastPut
    | some t => w.reclaimObject cfg t a

def put : Except Trap World := do
  let (last, n) ← krefPut (w.header a).ref
  let w := w.setHeader a { w.header a with ref := n }
  if last then
    if w.finalizer then w.finalizeLastPut cfg a else .error .noFinalizer
  else return w

/-- `put` through a pointer that may be null. -/
def putPtr : Option Addr → Except Trap World
  | none => return w
  | some a => w.put cfg a

/-! ## Handles -/

/-- `robject(T*)`: the pointer that the new handle holds. -/
def acquire : Option Addr → Except Trap (Option Addr × World)
  | none => return (none, w)
  | some a => do
    let (got, w) ← w.tryGet a
    return (if got then some a else none, w)

def handlePtr : Except Trap (Option Addr) :=
  match w.handle[i]? with
  | none => .error .outOfBounds
  | some p => return p

/-- A handle constructed from a raw pointer. -/
def constructHandle : Except Trap World := do
  w.checkLive a
  let (p, w) ← w.acquire (some a)
  return w.pushHandle p

def copyHandle : Except Trap World := do
  let src ← w.handlePtr i
  let (p, w) ← w.acquire src
  return w.pushHandle p

def moveHandle : Except Trap World := do
  let src ← w.handlePtr i
  return (w.setHandle i none).pushHandle src

def dropHandle : Except Trap World := do
  let p ← w.handlePtr i
  (w.setHandle i none).putPtr cfg p

/-- Copy assignment. The old pointer is given up before the new one is taken. -/
def copyAssign (i j : Nat) : Except Trap World := do
  if i = j then return w
  let old ← w.handlePtr i
  let src ← w.handlePtr j
  let w ← (w.setHandle i none).putPtr cfg old
  let (p, w) ← w.acquire src
  return w.setHandle i p

def moveAssign (i j : Nat) : Except Trap World := do
  if i = j then return w
  let old ← w.handlePtr i
  let src ← w.handlePtr j
  let w ← (w.setHandle i none).putPtr cfg old
  return (w.setHandle j none).setHandle i src

end World

/-- The state changes of a handle. -/
inductive HandleChange where
  | activate | seal | suspend | resume | beginDestroy | abort
  deriving DecidableEq, Repr

def HandleChange.target : HandleChange → LifecycleState
  | .activate => .active
  | .seal => .sealed
  | .suspend => .suspended
  | .resume => .active
  | .beginDestroy => .dying
  | .abort => .dying

/-- The targets with which `swap_state_to` and its `mark_` forms are called. -/
inductive SwapTarget where
  | sealed | active | suspended | dying | destroyed
  deriving DecidableEq, Repr

def SwapTarget.toState : SwapTarget → LifecycleState
  | .sealed => .sealed
  | .active => .active
  | .suspended => .suspended
  | .dying => .dying
  | .destroyed => .destroyed

namespace World

/-- A state change through a handle: on success the reference moves to the handle of the new
state, otherwise the result is null and the old handle keeps it. -/
def changeState (change : HandleChange) : Except Trap World := do
  match ← w.handlePtr i with
  | none => .error .nullDereference
  | some a =>
    let (o, done) := (w.header a).transition change.target
    if done then return ((w.setHeader a o).setHandle i none).pushHandle (some a)
    else return w.pushHandle none

/-- `swap_state_to`, `mark_dying`, `mark_destroyed` and `mark_suspended` on a raw pointer. -/
def swapStateTo (target : SwapTarget) (a : Addr) : Except Trap (Bool × World) := do
  w.checkLive a
  let (o, done) := (w.header a).transition target.toState
  return (done, w.setHeader a o)

/-! ## Table operations -/

/-- `scoms_table::init`, which also installs the finalizer. Each table is initialized once. -/
def initTable (mem : Nat → Bool) (type : KobjectType) : World :=
  if (w.table t).initialized then w
  else { w.setTable t ((w.table t).init (cfg.capacity t).N mem type) with finalizer := true }

/-- The common tail of `alloc` and `alloc_at`, once the id is off the free list: get the slot block
and the object, publish it, register it, and hand out the first handle. Every failure puts the
id back at the head of the free list. -/
def publish (type : KobjectType) (faults : AllocFaults) :
    Except Trap (Except KernelError Addr × World) :=
  match (w.table t).ensureObjectBlock faults.block (id / tableBlockSize) with
  | none =>
    return (.error (.memory .outOfMemory), w.setTable t ((w.table t).pushFree id))
  | some T =>
    match faults.object with
    | none => return (.error (.memory .outOfMemory), w.setTable t (T.pushFree id))
    | some a =>
      if (w.allocation a).isSome then .error .allocatorOverlap
      else
        let gen := succ32 (T.generation id)
        let T := { T.setSlot id (some a) with
          generation := update T.generation id gen }
        let core := w.core.setObject a (({ generation := gen } : Bobject).initializeAs id type)
        match faults.register core a with
        | .error e =>
          return (.error e, { w with core := core }.setTable t ((T.pushFree id).setSlot id none))
        | .ok core =>
          match core.setReclaimer a (some t) with
          | .error e =>
            return (.error e, { w with core := core.commit (core.unregisterObject a) }.setTable t
              ((T.pushFree id).setSlot id none))
          | .ok core => do
            let w := { w with
              core := core
              table := update w.table t { T with count := succ32 T.count }
              allocation := update w.allocation a (some ⟨w.serial, t⟩)
              serial := w.serial + 1 }
            let (p, w) ← w.acquire (some a)
            return (.ok a, w.pushHandle p)

def alloc (requestedType : KobjectType) (faults : AllocFaults) :
    Except Trap (Except KernelError Addr × World) :=
  let T := w.table t
  if !T.initialized then return (.error (.generic .uninitialized), w)
  else if T.freeHead = kobjectIdInvalid then return (.error (.memory .outOfMemory), w)
  else
    let type := if requestedType = .none then T.type else requestedType
    (w.setTable t T.popFree).publish t T.freeHead type faults

def allocAt : Except Trap (Except KernelError Addr × World) :=
  let T := w.table t
  if !T.initialized then return (.error (.generic .uninitialized), w)
  else if id ≥ (cfg.capacity t).N then return (.error (.generic .invalidArg), w)
  else if T.objectPtr id ≠ none then return (.error (.locking .alreadyLocked), w)
  else if T.freeHead = kobjectIdInvalid then return (.error (.memory .outOfMemory), w)
  else do
    match ← T.unlinkFree (cfg.capacity t).N id with
    | none => return (.error (.locking .alreadyLocked), w)
    | some T' => (w.setTable t T').publish t id T.type faults

/-- An `alloc` whose caller then stores a generation of its own in the header. -/
def overwriteGeneration (r : Except KernelError Addr) (generation : Option Nat) : World :=
  match r, generation with
  | .ok a, some g => w.setHeader a { w.header a with generation := g }
  | _, _ => w

def findRaw : Option Addr :=
  if id ≥ (cfg.capacity t).N then none
  else match (w.table t).objectPtr id with
    | none => none
    | some a => if (w.header a).id = kobjectIdInvalid then none else some a

def findByGen (id gen : Nat) : Option Addr :=
  match w.findRaw cfg t id with
  | none => none
  | some a => if (w.header a).generation ≠ gen then none else some a

/-- `scoms_table::acquire_ref<State>`: the pointer that the returned handle holds. The id is not
checked against the capacity. -/
def acquireRef (state : LifecycleState) : Except Trap (Option Addr × World) :=
  if id / tableBlockSize ≥ tableBlockCount (cfg.capacity t).N then .error .outOfBounds
  else match (w.table t).objectPtr id with
    | none => return (none, w)
    | some a => if (w.header a).state ≠ state then return (none, w) else w.acquire (some a)

/-- The states that `release` first moves to `dying`. -/
def releasable (state : LifecycleState) : Bool :=
  state == .embryo || state == .active || state == .suspended

/-- `scoms_table::release`. A failure after the first transition leaves the object dying. -/
def release : Except Trap (Except KernelError Unit × World) :=
  if id ≥ (cfg.capacity t).N then return (.error (.generic .invalidArg), w)
  else match (w.table t).objectPtr id with
    | none => return (.error (.generic .notFound), w)
    | some a =>
      let (o, moved) :=
        if releasable (w.header a).state then (w.header a).transition .dying else (w.header a, true)
      if !moved then return (.error (.generic .invalidArg), w)
      else
        let w := w.setHeader a o
        if o.state ≠ .dying then return (.error (.generic .invalidArg), w)
        else match w.core.unregisterObject a with
          | .error e => return (.error e, w)
          | .ok core => do
            let T := (w.table t).setSlot id none
            let w := { w with
              core := core.setObject a ((core.heap a).transition .destroyed).1
              table := update w.table t { T with count := pred32 T.count } }
            let w ← w.put cfg a
            return (.ok (), w)

/-- The loop of `destroy_if` from id `i` on; `n` objects are destroyed so far. The predicate and
the cleanup see more of the object than its header, so both are arguments by id. -/
def destroyLoop (cfg : Config) (t : TableId) (pred : Nat → Bool)
    (cleanup : Nat → World → Except Trap World) : Nat → Nat → Nat → World →
    Except Trap (Nat × World)
  | 0, _, n, w => return (n, w)
  | fuel + 1, i, n, w => do
    match ← w.acquireRef cfg t i .active with
    | (none, w) => destroyLoop cfg t pred cleanup fuel (i + 1) n w
    | (some a, w) =>
      if pred i then
        let w ← cleanup i w
        let (r, w) ← w.release cfg t i
        let n := match r with
          | .ok _ => n + 1
          | .error _ => n
        let w ← w.put cfg a
        destroyLoop cfg t pred cleanup fuel (i + 1) n w
      else
        let w ← w.put cfg a
        destroyLoop cfg t pred cleanup fuel (i + 1) n w

def destroyIf (pred : Nat → Bool)
    (cleanup : Nat → World → Except Trap World) : Except Trap (Nat × World) :=
  destroyLoop cfg t pred cleanup (cfg.capacity t).N 0 0 w

/-! ## Metadata operations -/

/-- The effect of a metadata call on the world. -/
def commitCore : Except KernelError ObjectCore → Except KernelError Unit × World
  | .ok core => (.ok (), { w with core := core })
  | .error e => (.error e, w)

def setOwner (ownerDomain : Nat) : Except Trap (Except KernelError Unit × World) := do
  w.checkLive a
  return w.commitCore (w.core.setOwner a ownerDomain)

def attach (child parent : Addr) : Except Trap (Except KernelError Unit × World) := do
  w.checkLive child
  w.checkLive parent
  return w.commitCore (w.core.attach child parent)

def detach (child : Addr) : Except Trap (Except KernelError Unit × World) := do
  w.checkLive child
  return w.commitCore (w.core.detach child)

end World

end ZXFoundation.Scoms
