import ZXFoundation.Dgp.Domain.Strand
import ZXFoundation.Memory.Objects

/-!
# Creation of domains

`domain_create_txn` of `zxfoundation/dgp/domain.zcomponent/core.cxx`. `execute` acquires, in this
order, a slot of the domain table, a storage key, a root table, a kernel stack, the two pages of an
ART context, the body of the primary strand and an address-space object, and takes the new object
from `embryo` over `sealed` to `active` on the way. If it returns before `commit`, the destructor of
the transaction calls `on_rollback`, which gives back what the `m_has_` flags record.

The result of `execute` names the point at which it failed besides the error.
-/

namespace ZXFoundation.Dgp.Domain

open Scoms Outcome Memory Isolation

/-- The points at which `execute` can fail. -/
inductive CreateStep where
  | slot | storageKey | rootTable | stack | art | asceBind | strandBody | activation
  | authorization | addressSpace | lease
  deriving DecidableEq, Repr

/-- The members of `domain_create_txn` and the flag of its base class. -/
structure CreateTxn where
  slot : Nat := kobjectIdInvalid
  skey : Nat := 0
  rootPhys : UInt64 := 0
  stackPhys : UInt64 := 0
  dgpState : IsolationDomainState := {}
  rawDomain : Option Addr := none
  hasSlot : Bool := false
  hasSkey : Bool := false
  hasRoot : Bool := false
  hasStack : Bool := false
  hasArt : Bool := false
  addressSpaceId : Nat := kobjectIdInvalid
  hasAddressSpace : Bool := false
  committed : Bool := false

variable (cfg : Config) (n : Nucleus) (d : Addr) (txn : CreateTxn)

namespace CreateTxn

/-- The first block of `on_rollback`: the kernel stack. -/
def freeStack (F : Frames) : Frames :=
  if txn.hasStack && txn.stackPhys != 0 then F.free txn.stackPhys else F

/-- The second block: the root table. -/
def freeRoot (F : Frames) : Frames :=
  if txn.hasRoot && txn.rootPhys != 0 then tableFree F txn.rootPhys else F

/-- The third block: the ART context. -/
def destroyArt (n : Nucleus) : Nucleus :=
  match txn.rawDomain with
  | none => n
  | some d =>
    if txn.hasArt then
      (n.withFrames (artContextDestroy n.frames (n.domain d).art)).updateDomain d
        fun dom => { dom with art := {} }
    else n

/-- The fourth block: the storage key. The lifecycle state that it is revoked for is a local
variable. -/
def revokeKey (R : KeyRegistry) : KeyRegistry :=
  if txn.hasSkey then
    (destroyDomain R ⟨.sealed, txn.dgpState.storageKey, txn.dgpState.storageKeyGeneration,
      txn.dgpState.storageKeyState, txn.dgpState.revocationEpoch⟩).2.2
  else R

def releaseResources (n : Nucleus) : Nucleus :=
  let n := txn.destroyArt (n.withFrames (txn.freeRoot (txn.freeStack n.frames)))
  n.withKeys (txn.revokeKey n.keys)

def onRollback (n : Nucleus) : Except Trap Nucleus := do
  let mut n := txn.releaseResources n
  if txn.hasAddressSpace then
    let (_, n') ← memoryObjectDestroy cfg n txn.addressSpaceId
    n := n'
  if txn.hasSlot then
    let (_, n') ← n.store (n.world.release cfg domainTable txn.slot)
    n := n'
  return n

/-- `~transaction`. -/
def destructor (n : Nucleus) : Except Trap Nucleus :=
  if txn.committed then return n else txn.onRollback cfg n

end CreateTxn

/-- What the allocators answer during `execute`. -/
structure CreateAnswers where
  slot : AllocFaults
  rootTable : Except KernelError UInt64
  /-- The answer of `phys_range_is_mapped` for the root table. -/
  rootMapped : Bool := true
  stack : Except KernelError UInt64
  artDuct : Except KernelError UInt64
  artAles : Except KernelError UInt64
  body : Option Addr
  addressSpace : AllocFaults

/-- The transaction and the nucleus after a part of `execute`. A failed part names the point. -/
abbrev Progress (α : Type) : Type := Except (CreateStep × KernelError) α × CreateTxn × Nucleus

variable (answers : CreateAnswers)

/-- The part of `execute` on an embryo: from the storage key to the ART context. -/
def acquireResources : Except Trap (Progress Unit) := do
  match createDomain n.keys txn.slot {} with
  | .error e => return (.error (.storageKey, e), txn, n)
  | .ok (state, keys) =>
    let n := n.withKeys keys
    let txn := { txn with dgpState := state, skey := state.storageKey, hasSkey := true }
    let (root, frames) ← crstAlloc n.frames answers.rootTable answers.rootMapped
    let n := n.withFrames frames
    match root with
    | .error e => return (.error (.rootTable, e), txn, n)
    | .ok rootPhys =>
      let txn := { txn with rootPhys := rootPhys, hasRoot := true }
      let (stack, frames) ← n.frames.alloc stackFolio answers.stack
      let n := n.withFrames frames
      match stack with
      | .error e => return (.error (.stack, e), txn, n)
      | .ok stackPhys =>
        let txn := { txn with stackPhys := stackPhys, hasStack := true, rawDomain := some d }
        let n := n.updateDomain d fun dom => { dom with
          flags := {}
          storageKey := txn.skey
          rootPhys := txn.rootPhys
          grantedRights := txn.dgpState.grantedRights
          revocationEpoch := txn.dgpState.revocationEpoch
          storageKeyGeneration := txn.dgpState.storageKeyGeneration
          storageKeyState := txn.dgpState.storageKeyState
          teardownPhase := .none }
        let (art, frames) ← artContextInit n.frames n.artReady (n.domain d).art answers.artDuct
          answers.artAles
        let n := n.withFrames frames
        match art with
        | .error e => return (.error (.art, e), txn, n)
        | .ok context =>
          return (.ok (), { txn with hasArt := true },
            n.updateDomain d fun dom => { dom with art := context })

def deref (w : World) (handle : Nat) : Except Trap Unit := do
  match ← w.handlePtr handle with
  | none => .error .nullDereference
  | some _ => return ()

/-- The primary strand of a new domain, on the stack at `base`. -/
def initPrimary (s : Strand) (d b : Addr) (base : UInt64) : Strand :=
  { s with
    body := some b
    kstackTop := base + domainKernelStackSize
    ksp := base + domainKernelStackSize
    onRq := false
    cpu := 0
    owner := some d }

/-- The part of `execute` from `seal` to `activate`. The body of the primary strand gets no
`m_has_` flag; the failure to allocate it tries to release the slot by itself. -/
def sealAndActivate (handle : Nat) (d : Addr) (txn : CreateTxn)
    (answers : CreateAnswers) : Except Trap (Progress Unit) := do
  let w ← n.world.changeState handle .seal
  let sealedRef := w.handle.length - 1
  deref w sealedRef
  let n := n.withWorld w
  let asce := asceBuild txn.rootPhys
  match bindAsceRoot txn.dgpState (n.world.header d).state asce txn.rootPhys with
  | .error e => return (.error (.asceBind, e), txn, n)
  | .ok state =>
    let txn := { txn with dgpState := state }
    let n := n.updateDomain d fun dom => { dom with asce := asce }
    let (body, n) ← n.allocBody answers.body
    match body with
    | none =>
      let (_, n) ← n.store (n.world.release cfg domainTable txn.slot)
      return (.error (.strandBody, .memory .outOfMemory), txn, n)
    | some b =>
      let base := physToVirt txn.stackPhys
      let n := n.setBody b (some ⟨base⟩)
      let id := (n.world.header d).id
      let n := n.updateDomain d fun dom => { dom with
        primaryStrand := initPrimary dom.primaryStrand d b base
        gateCount := 0
        portalCount := 0
        strands := []
        vmSpace := { dom.vmSpace.init with ownerDomain := id, ownerObject := some d } }
      match activateDomain (n.world.header d).state (n.domain d).asce (n.domain d).rootPhys with
      | .error e => return (.error (.activation, e), txn, n)
      | .ok _ =>
        let w ← n.world.changeState sealedRef .activate
        match ← w.handlePtr (w.handle.length - 1) with
        | none => return (.error (.activation, .generic .invalidArg), txn, n.withWorld w)
        | some _ => return (.ok (), txn, n.withWorld w)

/-- The part of `execute` on an active domain: its address-space object is created in the name of
the nucleus, under a lease that is consumed afterwards. -/
def createAddressSpace : Except Trap (Progress Addr) := do
  match n.nucleusPtr with
  | none => .error .nullDereference
  | some nucleus =>
    match authorize n.world (n.domain nucleus).grantedRights nucleus d .addressSpaceCreate
        { requestedRights := .lifecycle } with
    | .error e => return (.error (.authorization, e), txn, n)
    | .ok lease =>
      let (object, n) ← memoryObjectCreate cfg n .addressSpace (n.world.header d).id (some d) 0 0
        .map answers.addressSpace
      match object with
      | .error e => return (.error (.addressSpace, e), txn, n)
      | .ok o =>
        let (consumed, _) := lease.consume n.world
        if !consumed then
          let (_, n) ← memoryObjectDestroy cfg n (n.world.header o).id
          return (.error (.lease, .generic .invalidArg), txn, n)
        let n := n.updateDomain d fun dom => { dom with
          vmSpace := { dom.vmSpace with
            addressSpaceObject := some o
            storageKey := dom.storageKey
            storageKeyGeneration := dom.storageKeyGeneration
            numaNode := dom.numaNode
            asceVal := dom.asce } }
        return (.ok d, { txn with
          addressSpaceId := (n.world.header o).id
          rawDomain := some d
          committed := true
          hasAddressSpace := false
          hasArt := false }, n)

/-- The destructors of `k` handles, the first of which is `first`, in the reverse order of their
construction. -/
def dropHandles (cfg : Config) (first : Nat) : Nat → World → Except Trap World
  | 0, w => return w
  | k + 1, w => do
    let w ← w.dropHandle cfg (first + k)
    dropHandles cfg first k w

/-- The destructors of the handles constructed since there were `first`, as at the end of a
function. -/
def dropScope (first : Nat) (w : World) : Except Trap World :=
  dropHandles cfg first (w.handle.length - first) w

/-- The parts of `execute` after the slot is there, one after the other. -/
def buildDomain (handle : Nat) (d : Addr) (txn : CreateTxn)
    (answers : CreateAnswers) : Except Trap (Progress Addr) := do
  match ← acquireResources n d txn answers with
  | (.error e, txn, n) => return (.error e, txn, n)
  | (.ok _, txn, n) =>
    match ← sealAndActivate cfg n handle d txn answers with
    | (.error e, txn, n) => return (.error e, txn, n)
    | (.ok _, txn, n) => createAddressSpace cfg n d txn answers

/-- `domain_create_txn::execute`. Every handle it holds is gone when the transaction is
destroyed. -/
def execute : Except Trap (Progress Addr) := do
  let handle := n.world.handle.length
  let (slot, n) ← n.store (n.world.alloc domainTable .none answers.slot)
  match slot with
  | .error e => return (.error (.slot, e), {}, n)
  | .ok d =>
    let n := n.updateDomain d fun _ => {}
    let (result, txn, n) ← buildDomain cfg n handle d
      { slot := (n.world.header d).id, hasSlot := true } answers
    let w ← dropScope cfg handle n.world
    return (result, txn, n.withWorld w)

def domainCreate (name : Option String) (answers : CreateAnswers) :
    Except Trap (Except KernelError Addr × Nucleus) := do
  if !(n.world.table domainTable).initialized then return (.error (.generic .uninitialized), n)
  if name = none then return (.error (.generic .invalidArg), n)
  let (result, txn, n) ← execute cfg n answers
  let n ← txn.destructor cfg n
  return (result.mapError Prod.snd, n)

def domainActivate (id : Nat) : Except Trap (Except KernelError Unit × Nucleus) := do
  if id ≥ (cfg.capacity domainTable).N then return (.error (.generic .invalidArg), n)
  match n.world.findRaw cfg domainTable id with
  | none => return (.error (.generic .notFound), n)
  | some d =>
    let (done, n) ← n.store (n.world.swapStateTo .active d)
    return (if done then .ok () else .error (.generic .invalidArg), n)

/-! ## The nucleus domain -/

/-- The part of `domain_init_nucleus` after the slot is there. `cr1` is the address-space control
element that the CPU runs on. -/
def initNucleusDomain (cr1 : UInt64) (artDuct artAles : Except KernelError UInt64) :
    Except Trap (Except KernelError Unit × Nucleus) := do
  let n := n.updateDomain d fun _ =>
    { flags := { nucleus := true }
      storageKey := 0
      storageKeyState := .active
      storageKeyGeneration := 1
      grantedRights := .all }
  if cr1 = 0 then return (.error (.generic .invalidArg), n)
  let n := n.updateDomain d fun dom => { dom with
    asce := cr1
    rootPhys := cr1 &&& ~~~0xFFF
    vmSpace := { dom.vmSpace with asceVal := cr1 } }
  let (art, frames) ← artContextInit n.frames n.artReady (n.domain d).art artDuct artAles
  let n := n.withFrames frames
  match art with
  | .error e => return (.error e, n)
  | .ok context =>
    let n := n.updateDomain d fun dom => { dom with
      art := context
      primaryStrand := { dom.primaryStrand with
        kstackTop := 0, ksp := 0, onRq := false, cpu := 0, substate := .idle, owner := some d
        body := none, idle := true } }
    let (done, n) ← n.store (n.world.swapStateTo .active d)
    if !done then return (.error (.generic .internalError), n)
    return (.ok (), n.setNucleus d)

def domainInitNucleus (faults : AllocFaults) (cr1 : UInt64)
    (artDuct artAles : Except KernelError UInt64) :
    Except Trap (Except KernelError Unit × Nucleus) := do
  if !(n.world.table domainTable).initialized then return (.error (.generic .uninitialized), n)
  let handle := n.world.handle.length
  let (slot, n) ← n.store (n.world.allocAt cfg domainTable 0 faults)
  match slot with
  | .error e => return (.error e, n)
  | .ok d =>
    let n := n.withWorld (n.world.overwriteGeneration (.ok d) (some 1))
    let (result, n) ← initNucleusDomain n d cr1 artDuct artAles
    let w ← dropScope cfg handle n.world
    return (result, n.withWorld w)

end ZXFoundation.Dgp.Domain
