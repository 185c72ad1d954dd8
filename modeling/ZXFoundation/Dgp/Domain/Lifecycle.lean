import ZXFoundation.Dgp.Domain.Destroy
import ZXFoundation.Dgp.Domain.Rollback
import ZXFoundation.Scoms.Conservation

/-!
# Runs of the nucleus

A run is a sequence of entries into the nucleus, in any order and with any arguments: the operations
on domains, strands and memory objects that are modelled with everything they own, what the
scheduler writes, and everything else as arbitrary operations on the object store together with
arbitrary bodies for the objects that name domains. An entry that ends in a trap has no successor
state.
-/

namespace ZXFoundation.Dgp.Domain

open Runs Scoms Outcome Memory Isolation Signal Function

inductive NucleusOp where
  /-- A component that is not modelled uses the store. -/
  | component (op : Op)
  | writeGate (a : Addr) (gate : GateDesc)
  | writePortal (a : Addr) (portal : PortalDesc)
  | writeEndpoint (a : Addr) (endpoint : EndpointObject)
  | writeMemoryObject (a : Addr) (object : MemoryObject)
  /-- `isolation::init`, which the boot sequence calls once. -/
  | isolationInit
  | asteInit
  | memoryObjectsInit (mem : Nat → Bool)
  | memoryObjectCreate (type : KobjectType) (ownerDomain : Nat) (parent : Option Addr)
      (start length : UInt64) (rights : IsolationRights) (faults : AllocFaults)
  | memoryObjectDestroy (id : Nat)
  | domainInitNucleus (faults : AllocFaults) (cr1 : UInt64)
      (artDuct artAles : Except KernelError UInt64)
  | domainCreate (name : Option String) (answers : CreateAnswers)
  | domainActivate (id : Nat)
  | domainDestroy (id : Nat) (work : Teardown)
  | strandCreate (owner : Option Addr) (cpu : Nat) (answers : StrandAnswers)
  | strandDestroy (s : StrandRef)
  | idleStrandCreate (cpu : Nat) (answers : StrandAnswers)
  | idleStrandDestroy (s : Addr)
  | signalRegisterHandler (d : Addr) (kind : SignalKind) (info : SignalHandlerInfo)
  | deliverEntry (d : Addr) (entry : SignalEntry) (handled : Bool)
  | ncDomainExit
  /-- The scheduler sets the substate of a strand and takes it on or off a run queue. -/
  | schedule (s : StrandRef) (substate : SchedSubstate) (onRq : Bool)
  /-- The CPU goes on in another domain. -/
  | switchTo (d : Option Addr)
  | finishSwitch (d : Addr) (work : Teardown)

def Strand.scheduled (s : Strand) (substate : SchedSubstate) (onRq : Bool) : Strand :=
  { s with substate := substate, onRq := onRq }

def NucleusOp.run (cfg : Config) (n : Nucleus) : NucleusOp → Except Trap Nucleus
  | .component op => do
    let (_, n) ← n.store (op.run cfg n.world)
    return n
  | .writeGate a gate => return { n with gate := update n.gate a gate }
  | .writePortal a portal => return { n with portal := update n.portal a portal }
  | .writeEndpoint a endpoint =>
    return { n with endpoint := update n.endpoint a endpoint }
  | .writeMemoryObject a object => return n.updateMemoryObject a fun _ => object
  | .isolationInit => return if n.keys.initialized then n else n.withKeys .init
  | .asteInit => return { n with artReady := true }
  | .memoryObjectsInit mem => return Memory.memoryObjectsInit cfg n mem
  | .memoryObjectCreate type ownerDomain parent start length rights faults => do
    let (_, n) ← Memory.memoryObjectCreate cfg n type ownerDomain parent start length rights faults
    return n
  | .memoryObjectDestroy id => do
    let (_, n) ← Memory.memoryObjectDestroy cfg n id
    return n
  | .domainInitNucleus faults cr1 artDuct artAles => do
    let (_, n) ← Domain.domainInitNucleus cfg n faults cr1 artDuct artAles
    return n
  | .domainCreate name answers => do
    let (_, n) ← Domain.domainCreate cfg n name answers
    return n
  | .domainActivate id => do
    let (_, n) ← Domain.domainActivate cfg n id
    return n
  | .domainDestroy id work => do
    let (_, n) ← Domain.domainDestroy cfg n id work
    return n
  | .strandCreate owner cpu answers => do
    let (_, n) ← Domain.strandCreate cfg n owner cpu answers
    return n
  | .strandDestroy s => do
    let (_, n) ← Domain.strandDestroy cfg n s
    return n
  | .idleStrandCreate cpu answers => do
    let (_, n) ← idleStrandCreateImpl cfg n cpu answers
    return n
  | .idleStrandDestroy s => do
    let (_, n) ← idleStrandDestroyImpl cfg n s
    return n
  | .signalRegisterHandler d kind info => do
    n.checkObject domainTable d
    return n.updateDomain d fun dom => { dom with
      signalQueue := { dom.signalQueue with
        handlers := update dom.signalQueue.handlers kind info } }
  | .deliverEntry d entry handled => do
    let (_, n) ← Domain.deliverEntry n d entry handled
    return n
  | .ncDomainExit => do
    let (_, n) ← Domain.ncDomainExit n
    return n
  | .schedule (.object s) substate onRq =>
    return n.updateStrand s fun st => Strand.scheduled st substate onRq
  | .schedule (.primary d) substate onRq => return n.updateDomain d fun dom => { dom with
      primaryStrand := Strand.scheduled dom.primaryStrand substate onRq }
  | .switchTo d => return { n with currentDomain := d }
  | .finishSwitch d work => Domain.finishSwitch cfg n d work

/-- The nucleus, from the state in which nothing is initialized. -/
def nucleusMachine (cfg : Config) : Machine Nucleus NucleusOp where
  start := fun n => ∃ heap, n = .boot heap
  step := fun n op n' => op.run cfg n = .ok n'

def runOps (cfg : Config) : List NucleusOp → Nucleus → Except Trap Nucleus
  | [], n => return n
  | op :: ops, n => do
    let n ← op.run cfg n
    runOps cfg ops n

variable {cfg : Config} {n n' : Nucleus}

theorem kept_run (h : WF cfg n.world fun _ => 0) {op : NucleusOp} :
    Kept cfg (fun _ => 0) (op.run cfg n) := by
  cases op with
  | component op => exact (Nucleus.post_storeStep h.op).forget.bind fun _ hr => hr.wf
  | writeGate | writePortal | writeEndpoint | writeMemoryObject | asteInit | switchTo => exact h
  | isolationInit =>
    change WF cfg (if n.keys.initialized then n else n.withKeys .init).world _
    split_ifs <;> exact h
  | memoryObjectsInit mem => exact wf_memoryObjectsInit h
  | memoryObjectCreate type ownerDomain parent start length rights faults =>
    exact (post_memoryObjectCreate h ..).forget.bind fun _ hr => hr.wf
  | memoryObjectDestroy id => exact (post_memoryObjectDestroy h).bind fun _ hr => hr.wf
  | domainInitNucleus faults cr1 artDuct artAles =>
    exact (post_domainInitNucleus h ..).forget.bind fun _ hr => hr
  | domainCreate name answers => exact (post_domainCreate h).forget.bind fun _ hr => hr
  | domainActivate id => exact (post_domainActivate h).forget.bind fun _ hr => hr
  | domainDestroy id work => exact (kept_domainDestroy h).bind fun _ hr => hr
  | strandCreate owner cpu answers =>
    cases owner with
    | none => exact h
    | some d => exact (post_strandCreateImpl h).forget.bind fun _ hr => hr.1
  | strandDestroy s => exact (post_strandDestroy h).bind fun _ hr => hr.2.1
  | idleStrandCreate cpu answers =>
    exact (post_idleStrandCreateImpl h).forget.bind fun _ hr => hr.1
  | idleStrandDestroy s =>
    exact (post_idleStrandDestroyImpl h).forget.bind fun _ hr => hr.2.1
  | signalRegisterHandler d kind info => exact post_any.bind fun _ _ => h
  | deliverEntry d entry handled => exact (kept_deliverEntry h d).bind fun _ hr => hr
  | ncDomainExit => exact (kept_ncDomainExit h).bind fun _ hr => hr
  | schedule s substate onRq => cases s <;> exact h
  | finishSwitch d work => exact kept_finishSwitch h d

/-- **The books balance in every state of every run of the nucleus.** -/
theorem wf_of_reachable (h : (nucleusMachine cfg).Reachable n) : WF cfg n.world fun _ => 0 := by
  refine h.invariant (P := fun n => WF cfg n.world fun _ => 0) (fun n hn => ?_)
    fun n op n' hn hstep => ?_
  · obtain ⟨heap, rfl⟩ := hn
    exact WF.boot
  · exact (kept_run hn).result hstep

theorem exec_of_runOps {ops : List NucleusOp} (h : runOps cfg ops n = .ok n') :
    (nucleusMachine cfg).Exec n ops n' := by
  induction ops generalizing n with
  | nil =>
    cases h
    exact .nil _
  | cons op ops ih =>
    rw [runOps] at h
    cases hop : op.run cfg n with
    | error e => simp [hop, bind, Except.bind] at h
    | ok n₁ =>
      simp only [hop, bind, Except.bind] at h
      exact .cons hop (ih h)

theorem reachable_of_runOps {ops : List NucleusOp} {heap : Addr → Bobject}
    (h : runOps cfg ops (.boot heap) = .ok n) : (nucleusMachine cfg).Reachable n :=
  ⟨_, _, ⟨heap, rfl⟩, exec_of_runOps h⟩

/-!
## Domains and strands over whole runs

Three results on the states that runs of the nucleus reach. A failed creation leaves no trace
exactly when it failed before the new domain was sealed. `domain_reap` never reclaims anything: it
destroys by way of `domain_destroy`, which takes active domains only. And no strand can be
destroyed, because it is marked destroyed before the table is asked to release it.
-/

/-! ## Creation -/

theorem creation_undone_iff (hreach : (nucleusMachine cfg).Reachable n) (answers : CreateAnswers)
    {step : CreateStep} {e : KernelError} {txn : CreateTxn} {n₁ : Nucleus}
    (hrun : execute cfg n answers = .ok (.error (step, e), txn, n₁)) :
    ∃ n₂, txn.destructor cfg n₁ = .ok n₂ ∧ (Restored n n₂ ↔ step.beforeSeal = true) :=
  ((post_execute (wf_of_reachable hreach)).result hrun).2 step e rfl

def bootOps : List NucleusOp :=
  [.component (.call (.init domainTable (fun _ => true) .domain)),
    .component (.call (.init strandTable (fun _ => true) .strand)),
    .isolationInit, .asteInit, .memoryObjectsInit fun _ => true,
    .domainInitNucleus { object := some 1000 } 0x10000 (.ok 0x20000) (.ok 0x30000)]

/-- The allocators have everything a creation asks for. -/
def plenty : CreateAnswers where
  slot := { object := some 2000 }
  rootTable := .ok 0x40000
  stack := .ok 0x50000
  artDuct := .ok 0x60000
  artAles := .ok 0x70000
  body := some 3000
  addressSpace := { object := some 4000 }

theorem reachable_with {Q : Nucleus → Prop} (ops : List NucleusOp)
    (h : Post (fun _ => False) Q (runOps smallConfig ops (.boot fun _ => {}))) :
    ∃ n, (nucleusMachine smallConfig).Reachable n ∧ Q n := by
  obtain ⟨n, hrun, hn⟩ := h.total
  exact ⟨n, reachable_of_runOps hrun, hn⟩

/-- Whatever domains, strands and memory objects are created and destroyed, in any order and with
any failures on the way, the store stays in balance: its tables are partitioned, an object has as
many references as holders, reclaimed storage has no holder, an object can be unregistered exactly
when no child is attached to it, and every object ever allocated is live or was reclaimed, once. -/
theorem nucleus_store_balanced (hreach : (nucleusMachine cfg).Reachable n) :
    (∀ t, (n.world.table t).initialized = true → Partitioned cfg n.world t) ∧
    (∀ a al, n.world.allocation a = some al → (n.world.header a).ref =
      (if n.world.published a then 1 else 0) + n.world.handle.count
        (some a) + n.world.capReferences a) ∧
    (∀ a, n.world.allocation a = none → ¬ n.world.HeldBy a) ∧
    (∀ a p, n.world.core.findLocked a = some p → ((∃ c, n.world.core.unregisterObject a = .ok c) ↔
      ∀ i, ¬ n.world.core.AttachedTo p (n.world.core.entry i))) ∧
    n.world.reclaimed.Nodup ∧ ∀ s < n.world.serial,
      ((∃ a al, n.world.allocation a = some al ∧ al.serial = s) ↔ s ∉ n.world.reclaimed) := by
  have hwf := wf_of_reachable hreach
  exact ⟨fun t => hwf.partitioned, fun a al hal => (hwf.refs.live hal).1, fun a => hwf.not_heldBy,
    fun a p => hwf.books.core.unregisterObject_iff, hwf.history.nodup, fun s =>
      hwf.history.live_iff⟩

/-- A domain is created with its address space, and a storage object comes and goes. -/
def creationOps : List NucleusOp :=
  [.domainCreate (some "shell") plenty,
    .memoryObjectCreate .storage 1 none 0x1000 0x1000 .none { object := some 6000 },
    .memoryObjectDestroy 1]

theorem nucleus_store_balanced_creation : ∃ n, (nucleusMachine smallConfig).Reachable n ∧
    Partitioned smallConfig n.world domainTable ∧ n.world.published 2000 ∧
    (n.world.header 2000).ref = 1 + n.world.handle.count (some 2000) +
      n.world.capReferences 2000 ∧ ¬ n.world.HeldBy 6000 ∧
    ¬ ∃ a al, n.world.allocation a = some al ∧ al.serial = 3 := by
  obtain ⟨n, hreach, hinit, hpub, halloc, hgone, hserial, hreclaimed⟩ := reachable_with
    (Q := fun n => (n.world.table domainTable).initialized = true ∧ n.world.published 2000 ∧
      (n.world.allocation 2000).isSome ∧ (n.world.allocation 6000).isNone ∧ 3 < n.world.serial ∧
      n.world.reclaimed = [3])
    (bootOps ++ creationOps) (by decide +kernel)
  obtain ⟨hparts, hrefs, hfree, -, -, hhistory⟩ := nucleus_store_balanced hreach
  obtain ⟨al, hal⟩ := Option.isSome_iff_exists.mp halloc
  have hcount := hrefs 2000 al hal
  rw [if_pos hpub] at hcount
  refine ⟨n, hreach, hparts _ hinit, hpub, hcount, hfree 6000 (Option.isNone_iff_eq_none.mp hgone),
    fun hlive => (hhistory 3 hserial).mp hlive ?_⟩
  rw [hreclaimed]
  exact .head _

/-- No stack is left: the slot, the key and the root table are given back. -/
theorem creation_undone_iff_noStack : ∃ n txn n₁, (nucleusMachine smallConfig).Reachable n ∧
    execute smallConfig n { plenty with stack := .error (.memory .outOfMemory) } =
      .ok (.error (.stack, .memory .outOfMemory), txn, n₁) ∧
    ∃ n₂, txn.destructor smallConfig n₁ = .ok n₂ ∧ Restored n n₂ := by
  obtain ⟨n, hboot, hexec⟩ := reachable_with (Q := fun n => Post (fun _ => False)
    (fun r => r.1 = .error (.stack, .memory .outOfMemory))
    (execute smallConfig n { plenty with stack := .error (.memory .outOfMemory) }))
    bootOps (by decide +kernel)
  obtain ⟨⟨result, txn, n₁⟩, hrun, rfl⟩ := hexec.total
  obtain ⟨n₂, hdestructor, hiff⟩ := creation_undone_iff hboot _ hrun
  exact ⟨n, txn, n₁, hboot, hrun, n₂, hdestructor, hiff.mpr rfl⟩

/-- No strand body is left: the domain stays in its slot, sealed. -/
theorem creation_not_undone : ∃ n txn n₁ n₂, (nucleusMachine smallConfig).Reachable n ∧
    execute smallConfig n { plenty with body := none } =
      .ok (.error (.strandBody, .memory .outOfMemory), txn, n₁) ∧
        txn.destructor smallConfig n₁ = .ok n₂ ∧
    (n₂.world.header 2000).state = .sealed ∧ ¬ Restored n n₂ := by
  obtain ⟨n, hboot, hfree, hexec⟩ := reachable_with
    (Q := fun n => (n.world.table domainTable).objectPtr 1 = none ∧ Post (fun _ => False)
      (fun r => r.1 = .error (.strandBody, .memory .outOfMemory) ∧ Post (fun _ => False)
        (fun n₂ => (n₂.world.header 2000).state = .sealed ∧
          (n₂.world.table domainTable).objectPtr 1 = some 2000)
          (r.2.1.destructor smallConfig r.2.2))
      (execute smallConfig n { plenty with body := none }))
    bootOps (by decide +kernel)
  obtain ⟨⟨result, txn, n₁⟩, hrun, rfl, hdestructor⟩ := hexec.total
  obtain ⟨n₂, hn₂, hsealed, hptr⟩ := hdestructor.total
  refine ⟨n, txn, n₁, n₂, hboot, hrun, hn₂, hsealed, fun h => ?_⟩
  rw [h.published 1, hfree] at hptr
  cases hptr

/-! ## Reaping -/

/-- Nothing is left of the domain `id`, which had the storage key `key`. -/
structure Reclaimed (n : Nucleus) (id key : Nat) : Prop where
  slot : (n.world.table domainTable).objectPtr id = none
  storageKey : n.keys.used key = false
  gates : ∀ i a, (n.world.table gateTable).objectPtr i = some a → (n.gate a).targetDomain ≠ id
  portals : ∀ i a, (n.world.table portalTable).objectPtr i = some a →
    (n.portal a).sourceDomain ≠ id ∧ (n.portal a).targetDomain ≠ id
  endpoints : ∀ i a, (n.world.table endpointTable).objectPtr i = some a →
    (n.endpoint a).ownerDomain ≠ id ∧ (n.endpoint a).peerDomain ≠ id
  memoryObjects : ∀ i a, (n.world.table memoryTable).objectPtr i = some a →
    (n.memoryObject a).ownerDomain ≠ id

theorem domainDestroy_of_not_active {id : Nat} {d : Addr}
    (hptr : (n.world.table domainTable).objectPtr id = some d)
    (hstate : (n.world.header d).state ≠ .active) {work : Teardown} :
    ∃ e, domainDestroy cfg n id work = .ok (.error e, n) := by
  unfold domainDestroy
  split_ifs with hlarge hzero
  · exact ⟨_, rfl⟩
  · exact ⟨_, rfl⟩
  have hblock : ¬ id / tableBlockSize ≥ tableBlockCount (cfg.capacity domainTable).N := by
    have hblocks := (cfg.capacity domainTable).blocks
    have hlt := (cfg.capacity domainTable).lt
    unfold tableBlockCount tableBlockSize at *
    omega
  have href : n.world.acquireRef cfg domainTable id .active = .ok (none, n.world) := by
    unfold World.acquireRef
    rw [if_neg hblock, hptr]
    exact if_pos hstate
  rw [href]
  exact ⟨_, rfl⟩

theorem objectPtr_of_not_destroyed {x : Addr → Nat} (h : WF cfg n.world x) {a : Addr}
    {al : Allocation} (hal : n.world.allocation a = some al)
    (hstate : (n.world.header a).state ≠ .destroyed) :
    (n.world.table al.home).objectPtr (n.world.header a).id = some a := by
  rw [← published_iff hal]
  by_contra hret
  obtain ⟨i, -, -, -, -, -, hentry⟩ := (h.books.object hal).entry
  rw [if_neg hret] at hentry
  exact hstate hentry.2

/-- **`domain_reap` reclaims nothing.** It changes no state, and a dying domain still occupies its
slot afterwards. -/
theorem reap_reclaims_nothing (hreach : (nucleusMachine cfg).Reachable n) {d : Addr}
    {al : Allocation} (hal : n.world.allocation d = some al) (hhome : al.home = domainTable)
    (hdying : (n.world.header d).state = .dying) (work : Teardown) :
    domainReap cfg n d work = .ok n ∧
      ¬ Reclaimed n (n.world.header d).id (n.domain d).storageKey := by
  have hptr : (n.world.table domainTable).objectPtr (n.world.header d).id = some d := by
    rw [← hhome]
    exact objectPtr_of_not_destroyed (wf_of_reachable hreach) hal (by rw [hdying]; decide)
  constructor
  · unfold domainReap
    dsimp only
    split_ifs with hid hstate
    · rfl
    · exact absurd hdying hstate
    -- the one call it makes asks for an active domain
    obtain ⟨e, he⟩ : ∃ e, domainDestroy cfg n (n.world.header d).id work = .ok (.error e, n) :=
      domainDestroy_of_not_active hptr (by rw [hdying]; decide)
    rw [he]
    rfl
  · intro h
    rw [h.slot] at hptr
    cases hptr

theorem reap_reclaims_nothing_signalled : ∃ n, (nucleusMachine smallConfig).Reachable n ∧
    (n.world.header 2000).state = .dying ∧ domainReap smallConfig n 2000 {} = .ok n ∧
    ¬ Reclaimed n (n.world.header 2000).id (n.domain 2000).storageKey := by
  obtain ⟨n, hreach, hdying, hlive⟩ := reachable_with
    (Q := fun n => (n.world.header 2000).state = .dying ∧
      (n.world.allocation 2000).any (fun al => al.home == domainTable) = true)
    (bootOps ++ [.domainCreate (some "init") plenty,
      .deliverEntry 2000 { kind := .term } false]) (by decide +kernel)
  obtain ⟨al, hal, hhome⟩ := (Option.any_eq_true ..).mp hlive
  exact ⟨n, hreach, hdying, reap_reclaims_nothing hreach hal (beq_iff_eq.mp hhome) hdying {}⟩

/-- A domain that exited and that no CPU runs: the slot and the key are still its own after
`domain_reap`. -/
theorem reap_leaves_exited_domain : ∃ n n', (nucleusMachine smallConfig).Reachable n ∧
    (n.world.header 2000).state = .dying ∧ (n.domain 2000).flags.nucleus = false ∧
    n.currentDomain = some 1000 ∧ domainReap smallConfig n 2000 {} = .ok n' ∧
    (n'.world.table domainTable).objectPtr 1 = some 2000 ∧
    n'.keys.used (n.domain 2000).storageKey = true := by
  obtain ⟨n, hreach, hdying, hflag, hcurrent, hreap⟩ := reachable_with
    (Q := fun n => (n.world.header 2000).state = .dying ∧ (n.domain 2000).flags.nucleus = false ∧
      n.currentDomain = some 1000 ∧ Post (fun _ => False)
        (fun n' => (n'.world.table domainTable).objectPtr 1 = some 2000 ∧
          n'.keys.used (n.domain 2000).storageKey = true) (domainReap smallConfig n 2000 {}))
    (bootOps ++ [.domainCreate (some "init") plenty, .switchTo (some 2000), .ncDomainExit,
      .switchTo (some 1000)]) (by decide +kernel)
  obtain ⟨n', hn', hafter⟩ := hreap.total
  exact ⟨n, n', hreach, hdying, hflag, hcurrent, hn', hafter⟩

/-! ## Strands -/

/-- The strand table counts and shows what it did before. -/
structure StrandsRestored (n n' : Nucleus) : Prop where
  count : (n'.world.table strandTable).count = (n.world.table strandTable).count
  slots : ∀ id, (n'.world.table strandTable).objectPtr id = (n.world.table strandTable).objectPtr id

theorem CreateOutcome.not_restored {n₁ n₂ : Nucleus} {s : Addr} {result : Except KernelError Unit}
    (hcreate : CreateOutcome cfg (fun _ => 0) n (.ok s, n₁))
    (hdestroy : DestroyRefused cfg (fun _ => 0) n₁ (result, n₂)) : ¬ StrandsRestored n n₂ := by
  obtain ⟨w, id, hborn, hslots⟩ := hcreate.2 s rfl
  intro h
  have hptr : (n₂.world.table strandTable).objectPtr id = some s := by
    rw [hdestroy.2.2.objectPtr, hslots.objectPtr, hborn.objectPtr, if_pos ⟨rfl, rfl⟩]
  rw [h.slots, hborn.vacant] at hptr
  cases hptr

/-- **No strand is ever destroyed**: neither destruction succeeds on any strand, and none makes
up for a creation. -/
theorem strand_never_destroyed (hreach : (nucleusMachine cfg).Reachable n) :
    (∀ s n', strandDestroy cfg n s ≠ .ok (.ok (), n')) ∧
    (∀ s n', idleStrandDestroyImpl cfg n s ≠ .ok (.ok (), n')) ∧
    (∀ owner cpu answers s n₁ result n₂, strandCreate cfg n owner cpu answers = .ok (.ok s, n₁) →
      strandDestroy cfg n₁ (.object s) = .ok (result, n₂) → ¬ StrandsRestored n n₂) ∧
    (∀ cpu answers s n₁ result n₂, idleStrandCreateImpl cfg n cpu answers = .ok (.ok s, n₁) →
      idleStrandDestroyImpl cfg n₁ s = .ok (result, n₂) → ¬ StrandsRestored n n₂) := by
  have hwf := wf_of_reachable hreach
  refine ⟨fun s n' hrun => ?_, fun s n' hrun => ?_, ?_, ?_⟩
  · obtain ⟨⟨e, he⟩, -⟩ := (post_strandDestroy hwf).result hrun
    cases he
  · obtain ⟨⟨e, he⟩, -⟩ := (post_idleStrandDestroyImpl hwf).result hrun
    cases he
  · intro owner cpu answers s n₁ result n₂ hcreate hdestroy
    cases owner with
    | none => cases hcreate
    | some d =>
      have hnew := (post_strandCreateImpl hwf).result hcreate
      exact hnew.not_restored ((post_strandDestroy hnew.1).result hdestroy)
  · intro cpu answers s n₁ result n₂ hcreate hdestroy
    have hnew := (post_idleStrandCreateImpl hwf).result hcreate
    exact hnew.not_restored ((post_idleStrandDestroyImpl hnew.1).result hdestroy)

def strandPlenty : StrandAnswers where
  slot := { object := some 5000 }
  body := some 6000
  stack := .ok 0x80000

theorem strand_never_destroyed_boot : ∃ n, (nucleusMachine smallConfig).Reachable n ∧
    ∃ n₁ result n₂, strandCreate smallConfig n (some 1000) 0 strandPlenty = .ok (.ok 5000, n₁) ∧
      strandDestroy smallConfig n₁ (.object 5000) = .ok (result, n₂) ∧
      ¬ StrandsRestored n n₂ := by
  obtain ⟨n, hreach, hcreate⟩ := reachable_with
    (Q := fun n => Post (fun _ => False)
      (fun r => r.1 = .ok 5000 ∧
        Post (fun _ => False) (fun _ => True) (strandDestroy smallConfig r.2 (.object 5000)))
      (strandCreate smallConfig n (some 1000) 0 strandPlenty))
    bootOps (by decide +kernel)
  obtain ⟨⟨_, n₁⟩, hn₁, rfl, hdestroy⟩ := hcreate.total
  obtain ⟨⟨result, n₂⟩, hn₂, -⟩ := hdestroy.total
  exact ⟨n, hreach, n₁, result, n₂, hn₁, hn₂,
    (strand_never_destroyed hreach).2.2.1 _ _ _ _ _ _ _ hn₁ hn₂⟩

/-- The strand is off every run queue and does not run; its destruction frees the stack and the
body, fails, and leaves the strand in its slot. -/
theorem strand_left_behind : ∃ n n₁ e n₂, (nucleusMachine smallConfig).Reachable n ∧
    strandCreate smallConfig n (some 1000) 0 strandPlenty = .ok (.ok 5000, n₁) ∧
    (n₁.strand 5000).onRq = false ∧ (n₁.strand 5000).substate ≠ .running ∧
    strandDestroy smallConfig n₁ (.object 5000) = .ok (.error e, n₂) ∧
    n₂.strandBody 6000 = none ∧ (n.world.table strandTable).objectPtr 0 = none ∧
    (n₂.world.table strandTable).objectPtr 0 = some 5000 ∧
    (n₂.world.table strandTable).count = (n.world.table strandTable).count + 1 := by
  obtain ⟨n, hreach, hvacant, hcreate⟩ := reachable_with
    (Q := fun n => (n.world.table strandTable).objectPtr 0 = none ∧ Post (fun _ => False)
      (fun r => r.1 = .ok 5000 ∧ (r.2.strand 5000).onRq = false ∧
        (r.2.strand 5000).substate ≠ .running ∧
        Post (fun _ => False) (fun q => q.1 = .error (.generic .invalidArg) ∧
          q.2.strandBody 6000 = none ∧ (q.2.world.table strandTable).objectPtr 0 = some 5000 ∧
          (q.2.world.table strandTable).count = (n.world.table strandTable).count + 1)
          (strandDestroy smallConfig r.2 (.object 5000)))
      (strandCreate smallConfig n (some 1000) 0 strandPlenty))
    bootOps (by decide +kernel)
  obtain ⟨⟨_, n₁⟩, hn₁, rfl, honRq, hsub, hdestroy⟩ := hcreate.total
  obtain ⟨⟨_, n₂⟩, hn₂, rfl, hbody, hptr, hcount⟩ := hdestroy.total
  exact ⟨n, n₁, _, n₂, hreach, hn₁, honRq, hsub, hn₂, hbody, hvacant, hptr, hcount⟩

end ZXFoundation.Dgp.Domain
