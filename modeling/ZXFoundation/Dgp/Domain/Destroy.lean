import ZXFoundation.Dgp.Domain.Create

/-!
# The end of domains

`domain_destroy` of `zxfoundation/dgp/domain.zcomponent/core.cxx` with what it calls, and the places
that start or finish the end of a domain: `nc_domain_exit`, `deliver_entry`, and in the scheduler
`domain_reap` and the last lines of `schedule`.

A destruction that has claimed its domain does not return an error: what goes wrong from then on is
`syschk_fatal`. Policy servers, services, message queues, portal hardware and VM regions have state
of their own that is not modelled; what their teardown does to the store and to the frames is an
argument (`Teardown`).
-/

namespace ZXFoundation.Dgp.Domain

open Scoms Outcome Memory Isolation Signal

/-! ## Components with state of their own -/

/-- What a component does to the store and the frames. -/
structure ComponentWork where
  calls : List Call := []
  freed : List UInt64 := []

def perform (cfg : Config) (n : Nucleus) (work : ComponentWork) : Except Trap Nucleus := do
  let w ← runCalls cfg work.calls n.world
  return (n.withWorld w).withFrames (work.freed.foldl Frames.free n.frames)

/-- What the components do for a `domain_destroy`. -/
structure Teardown where
  /-- ALE, access register, root table and ASTE of the portal with this id. -/
  portal : Nat → ComponentWork := fun _ => {}
  /-- `purge_alb_all_cpus` succeeds for the portal with this id. -/
  purged : Nat → Bool := fun _ => true
  policy : ComponentWork := {}
  /-- The messages in the queue of the endpoint with this id. -/
  endpoint : Nat → ComponentWork := fun _ => {}
  service : ComponentWork := {}
  vm : ComponentWork := {}

/-! ## Objects that name the domain -/

/-- The loop of `destroy_if` with a predicate and a cleanup that see the whole object. -/
def destroyLoop (cfg : Config) (t : TableId) (pred : Nucleus → Addr → Bool)
    (cleanup : Nat → Addr → Nucleus → Except Trap Nucleus) :
    Nat → Nat → Nucleus → Except Trap Nucleus
  | 0, _, n => return n
  | fuel + 1, i, n => do
    match ← n.store (n.world.acquireRef cfg t i .active) with
    | (none, n) => destroyLoop cfg t pred cleanup fuel (i + 1) n
    | (some a, n) =>
      if pred n a then
        let n ← cleanup i a n
        let (_, n) ← n.store (n.world.release cfg t i)
        let w ← n.world.put cfg a
        destroyLoop cfg t pred cleanup fuel (i + 1) (n.withWorld w)
      else
        let w ← n.world.put cfg a
        destroyLoop cfg t pred cleanup fuel (i + 1) (n.withWorld w)

def destroyIf (cfg : Config) (t : TableId) (pred : Nucleus → Addr → Bool)
    (cleanup : Nat → Addr → Nucleus → Except Trap Nucleus) (n : Nucleus) : Except Trap Nucleus :=
  destroyLoop cfg t pred cleanup (cfg.capacity t).N 0 n

def gateDestroyForDomain (cfg : Config) (id : Nat) (n : Nucleus) : Except Trap Nucleus :=
  destroyIf cfg gateTable (fun n a => (n.gate a).targetDomain == id) (fun _ _ n => return n) n

/-- The cleanup of `portal::destroy_for_domain`. The portal is counted at its source domain. -/
def portalCleanup (cfg : Config) (work : Teardown) (i : Nat) (a : Addr) (n : Nucleus) :
    Except Trap Nucleus :=
  let n := match n.world.findRaw cfg domainTable (n.portal a).sourceDomain with
    | none => n
    | some src => n.updateDomain src fun dom => { dom with
        revocationEpoch := succ16 dom.revocationEpoch
        portalCount := dom.portalCount - 1 }
  if !work.purged i then .error .syschkFatal else perform cfg n (work.portal i)

def portalDestroyForDomain (cfg : Config) (work : Teardown) (id : Nat) (n : Nucleus) :
    Except Trap Nucleus :=
  destroyIf cfg portalTable
    (fun n a => (n.portal a).sourceDomain == id || (n.portal a).targetDomain == id)
    (portalCleanup cfg work) n

def ipcDestroyForDomain (cfg : Config) (work : Teardown) (id : Nat) (n : Nucleus) :
    Except Trap Nucleus :=
  destroyIf cfg endpointTable
    (fun n a => (n.endpoint a).ownerDomain == id || (n.endpoint a).peerDomain == id)
    (fun i _ n => perform cfg n (work.endpoint i)) n

/-! ## Strands of the domain -/

/-- The `strand*` that the destruction of a domain computes from a node of its list: it subtracts
the offset of the member `body` from the address of the body. -/
def strandOfBody (n : Nucleus) (b : Addr) : Except Trap Addr :=
  if (n.world.allocation (b - 104)).any fun al => al.home == strandTable then .ok (b - 104)
  else .error .wildPointer

/-- `classed::dequeue`. The idle class has no queue. -/
def dequeue (s : Strand) : Strand := if s.idle then s else { s with onRq := false }

/-- The loop of `quiesce_domain`. -/
def quiesceStrands : List Addr → Nucleus → Except Trap (Except KernelError Unit × Nucleus)
  | [], n => return (.ok (), n)
  | b :: bs, n => do
    let s ← strandOfBody n b
    if (n.strand s).substate = .running then return (.error (.driver .busy), n)
    quiesceStrands bs (if (n.strand s).onRq then n.updateStrand s dequeue else n)

def quiesceDomain (n : Nucleus) (d : Addr) : Except Trap (Except KernelError Unit × Nucleus) := do
  let primary := (n.domain d).primaryStrand
  if n.currentDomain = some d ∨ primary.substate = .running then
    return (.error (.driver .busy), n)
  let n := if primary.onRq then
      n.updateDomain d fun dom => { dom with primaryStrand := dequeue dom.primaryStrand }
    else n
  quiesceStrands (n.domain d).strands n

/-- The loop of `domain_destroy` over the secondary strands. -/
def freeStrands (cfg : Config) (d : Addr) : List Addr → Nucleus → Except Trap Nucleus
  | [], n => return n
  | b :: bs, n => do
    let n := n.updateDomain d fun dom => { dom with strands := bs }
    let (_, body) ← n.bodyAt (some b)
    let s ← strandOfBody n b
    let frames := if body.kstackBase ≠ 0 then n.frames.free (virtToPhys body.kstackBase)
      else n.frames
    let n := n.withFrames frames
    let (_, n) ← n.store (n.world.detach s)
    let n := n.setBody b none
    let (_, n) ← n.store (n.world.release cfg strandTable (n.world.header s).id)
    freeStrands cfg d bs n

/-! ## Destruction -/

def claimDomainDestroy (n : Nucleus) (d : Addr) : Except KernelError Nucleus :=
  let (o, done) := (n.world.header d).transition .dying
  if (n.world.header d).state ≠ .active ∨ (n.domain d).teardownPhase ≠ .none ∨ !done then
    .error (.generic .invalidArg)
  else .ok (n.withWorld (n.world.setHeader d o))

/-- `advance_domain_teardown_phase`, whose failure is fatal. -/
def advancePhase (n : Nucleus) (d : Addr) (expected requested : TeardownPhase) :
    Except Trap Nucleus :=
  match advanceTeardownPhase (n.domain d).teardownPhase expected requested with
  | .error _ => .error .syschkFatal
  | .ok phase => .ok (n.updateDomain d fun dom => { dom with teardownPhase := phase })

def orFatal {α : Type} : Except KernelError α × Nucleus → Except Trap Nucleus
  | (.ok _, n) => .ok n
  | (.error _, _) => .error .syschkFatal

/-- The address-space object of the domain is destroyed. -/
def releaseAddressSpace (cfg : Config) (n : Nucleus) (d : Addr) : Except Trap Nucleus :=
  match (n.domain d).vmSpace.addressSpaceObject with
  | none => return n
  | some o => do
    let n ← orFatal (← memoryObjectDestroy cfg n (n.world.header o).id)
    return n.updateDomain d fun dom => { dom with
      vmSpace := { dom.vmSpace with addressSpaceObject := none } }

/-- The kernel stack and the body of the primary strand are freed. -/
def freePrimaryStrand (n : Nucleus) (d : Addr) : Nucleus :=
  let top := (n.domain d).primaryStrand.kstackTop
  let n := if top ≠ 0 then
      n.withFrames (n.frames.free (virtToPhys (top - domainKernelStackSize)))
    else n
  match (n.domain d).primaryStrand.body with
  | none => n
  | some b => (n.setBody b none).updateDomain d fun dom => { dom with
      primaryStrand := { dom.primaryStrand with body := none } }

/-- The part of `domain_destroy` that releases memory: VM space, address-space object, ART context,
primary strand, root table and secondary strands. -/
def releaseMemory (cfg : Config) (n : Nucleus) (d : Addr) (work : Teardown) :
    Except Trap Nucleus := do
  let n ← perform cfg n work.vm
  let n := n.updateDomain d fun dom => { dom with
    vmSpace := { dom.vmSpace with ownerObject := none } }
  let n ← releaseAddressSpace cfg n d
  let n := n.withFrames (artContextDestroy n.frames (n.domain d).art)
  let n := n.updateDomain d fun dom => { dom with
    art := {}
    signalQueue := dom.signalQueue.enqueue .fault 0xDEADBEEF }
  let n := freePrimaryStrand n d
  let n := n.withFrames (tableFree n.frames (n.domain d).rootPhys)
  freeStrands cfg d (n.domain d).strands n

/-- `isolation::destroy_domain` on the fields of the domain. -/
def releaseIsolation (n : Nucleus) (d : Addr) : Except Trap Nucleus :=
  let dom := n.domain d
  let (result, holding, keys) := destroyDomain n.keys ⟨(n.world.header d).state, dom.storageKey,
    dom.storageKeyGeneration, dom.storageKeyState, dom.revocationEpoch⟩
  match result with
  | .error _ => .error .syschkFatal
  | .ok _ =>
    let n := (n.withKeys keys).withWorld
      (n.world.setHeader d { n.world.header d with state := holding.state })
    .ok (n.updateDomain d fun dom => { dom with
      storageKeyGeneration := holding.storageKeyGeneration
      storageKeyState := holding.storageKeyState
      revocationEpoch := holding.revocationEpoch })

/-- The part of `domain_destroy` after the claim. -/
def teardownDomain (cfg : Config) (n : Nucleus) (id : Nat) (d : Addr) (work : Teardown) :
    Except Trap Nucleus := do
  let n ← advancePhase n d .none .denyNewEntries
  let (_, n) ← n.store (n.world.capRevokeForDomain cfg id)
  let n ← orFatal (← quiesceDomain n d)
  let n ← advancePhase n d .denyNewEntries .drainGates
  let n ← gateDestroyForDomain cfg id n
  let n ← advancePhase n d .drainGates .drainPortals
  let n ← portalDestroyForDomain cfg work id n
  let n ← perform cfg n work.policy
  let n ← ipcDestroyForDomain cfg work id n
  let n ← perform cfg n work.service
  let n ← advancePhase n d .drainPortals .releaseMemory
  let n ← releaseMemory cfg n d work
  let n ← releaseIsolation n d
  let n ← advancePhase n d .releaseMemory .releaseIdentity
  orFatal (← n.store (n.world.release cfg domainTable id))

/-- `domain_destroy`. The handle from `acquire_ref` is dropped at the end. -/
def domainDestroy (cfg : Config) (n : Nucleus) (id : Nat) (work : Teardown) :
    Except Trap (Except KernelError Unit × Nucleus) := do
  if id ≥ (cfg.capacity domainTable).N then return (.error (.generic .invalidArg), n)
  if id = 0 then return (.error (.generic .invalidArg), n)
  let (ref, n) ← n.store (n.world.acquireRef cfg domainTable id .active)
  match ref with
  | none => return (.error (.generic .notFound), n)
  | some d =>
    if (n.domain d).flags.nucleus then
      let w ← n.world.put cfg d
      return (.error (.generic .invalidArg), n.withWorld w)
    match claimDomainDestroy n d with
    | .error e =>
      let w ← n.world.put cfg d
      return (.error e, n.withWorld w)
    | .ok n =>
      let n ← teardownDomain cfg n id d work
      let w ← n.world.put cfg d
      return (.ok (), n.withWorld w)

/-! ## Where the end of a domain starts -/

/-- `mark_dying`, and the request to reschedule. -/
def markDying (n : Nucleus) (d : Addr) : Except Trap Nucleus := do
  let (_, n) ← n.store (n.world.swapStateTo .dying d)
  return n.updateDomain d fun dom => { dom with flags := { dom.flags with needResched := true } }

def ncDomError : UInt64 := 0xFFFFFFFFFFFFFFFF

def ncDomainExit (n : Nucleus) : Except Trap (UInt64 × Nucleus) := do
  match n.currentDomain with
  | none => return (ncDomError, n)
  | some d =>
    n.checkObject domainTable d
    match authorize n.world (n.domain d).grantedRights d d .domainExit {} with
    | .error _ => return (ncDomError, n)
    | .ok _ => return (0, ← markDying n d)

/-- `deliver_entry`; `handled` is what a registered handler returns. -/
def deliverEntry (n : Nucleus) (d : Addr) (entry : SignalEntry) (handled : Bool) :
    Except Trap (Bool × Nucleus) := do
  n.checkObject domainTable d
  if entry.kind = .none then return (false, n)
  let info := (n.domain d).signalQueue.handlers entry.kind
  if info.handler.isSome && handled then return (true, n)
  match info.effectiveDefault entry.kind with
  | .terminate => return (true, ← markDying n d)
  | .notify | .ignore => return (true, n)

/-! ## Where the scheduler finishes it -/

def domainReap (cfg : Config) (n : Nucleus) (d : Addr) (work : Teardown) : Except Trap Nucleus := do
  let o := n.world.header d
  if o.id = kobjectIdInvalid then return n
  if o.state ≠ .dying then return n
  let (_, n) ← domainDestroy cfg n o.id work
  return n

/-- The last lines of `schedule`, for the domain that was switched away from. -/
def finishSwitch (cfg : Config) (n : Nucleus) (d : Addr) (work : Teardown) :
    Except Trap Nucleus := do
  n.checkObject domainTable d
  if (n.world.header d).state ≠ .dying ∨ (n.domain d).flags.idle then return n
  let id := (n.world.header d).id
  let n ← gateDestroyForDomain cfg id n
  let n ← portalDestroyForDomain cfg work id n
  domainReap cfg n d work

/-! ## The books are kept -/

variable {cfg : Config} {n : Nucleus} {x : Addr → Nat}

/-- Whatever ends the run, a result keeps the books. -/
abbrev Kept (cfg : Config) (x : Addr → Nat) (r : Except Trap Nucleus) : Prop :=
  Post (fun _ => True) (fun n => WF cfg n.world x) r

variable (h : WF cfg n.world x)
include h

theorem kept_perform {work : ComponentWork} : Kept cfg x (perform cfg n work) :=
  (WF.runCalls h).forget.bind fun _ hw => hw

omit h in
theorem kept_destroyLoop {t : TableId} {pred : Nucleus → Addr → Bool}
    {cleanup : Nat → Addr → Nucleus → Except Trap Nucleus}
    (hcleanup : ∀ i a (n : Nucleus) x, WF cfg n.world x → Kept cfg x (cleanup i a n))
    {fuel : Nat} : ∀ (i : Nat) {n : Nucleus}, WF cfg n.world x →
      Kept cfg x (destroyLoop cfg t pred cleanup fuel i n) := by
  induction fuel with
  | zero => exact fun i n h => h
  | succ fuel ih =>
    intro i n h
    rw [destroyLoop]
    refine ((n.post_store h.acquireRef).forget).bind fun r hr => ?_
    obtain ⟨p, n₁⟩ := r
    obtain ⟨hr, -⟩ := hr
    cases p with
    | none => exact ih (i + 1) (by simpa using hr)
    | some a =>
    -- the handle of this round is in flight until the put at its end
    dsimp only
    split_ifs
    · refine (hcleanup i a _ _ hr).bind fun n₂ h₂ => ?_
      refine (Nucleus.post_storeStep h₂.release).bind fun r h₃ => ?_
      exact h₃.wf.put.bind fun w h₄ => ih (i + 1) h₄
    · exact (WF.put hr).bind fun w h₂ => ih (i + 1) h₂

theorem kept_destroyIf {t : TableId} {pred : Nucleus → Addr → Bool}
    {cleanup : Nat → Addr → Nucleus → Except Trap Nucleus}
    (hcleanup : ∀ i a (n : Nucleus) x, WF cfg n.world x → Kept cfg x (cleanup i a n)) :
    Kept cfg x (destroyIf cfg t pred cleanup n) :=
  kept_destroyLoop hcleanup 0 h

variable {id : Nat}

theorem kept_gateDestroyForDomain : Kept cfg x (gateDestroyForDomain cfg id n) :=
  kept_destroyIf h fun _ _ _ _ hn => hn

variable {work : Teardown}

theorem kept_portalDestroyForDomain : Kept cfg x (portalDestroyForDomain cfg work id n) := by
  refine kept_destroyIf h fun i a n x hn => ?_
  unfold portalCleanup
  dsimp only
  split_ifs
  · trivial
  · refine kept_perform ?_
    split <;> exact hn

theorem kept_ipcDestroyForDomain : Kept cfg x (ipcDestroyForDomain cfg work id n) :=
  kept_destroyIf h fun _ _ _ _ hn => kept_perform hn

omit h in
theorem kept_quiesceStrands {bs : List Addr} : ∀ {n : Nucleus}, WF cfg n.world x →
    Ensures (fun r => WF cfg r.2.world x) (quiesceStrands bs n) := by
  induction bs with
  | nil => exact fun h => h
  | cons b bs ih =>
    intro n h
    refine post_any.bind fun s _ => ?_
    split_ifs
    · exact h
    · refine ih ?_
      exact h
    · exact ih h

variable (d : Addr)

theorem kept_quiesceDomain : Ensures (fun r => WF cfg r.2.world x) (quiesceDomain n d) := by
  unfold quiesceDomain
  dsimp only
  split_ifs
  · exact h
  all_goals
    refine kept_quiesceStrands ?_
    exact h

omit h in
theorem kept_orFatal {α : Type} {r : Except KernelError α × Nucleus} (h : WF cfg r.2.world x) :
    Kept cfg x (orFatal r) := by
  obtain ⟨_ | _, n⟩ := r
  · trivial
  · exact h

theorem kept_advancePhase {expected requested : TeardownPhase} :
    Kept cfg x (advancePhase n d expected requested) := by
  unfold advancePhase
  split
  · trivial
  · exact h

omit h in
theorem kept_freeStrands {bs : List Addr} : ∀ {n : Nucleus}, WF cfg n.world x →
    Kept cfg x (freeStrands cfg d bs n) := by
  induction bs with
  | nil => exact fun h => h
  | cons b bs ih =>
    intro n h
    refine post_any.bind fun q _ => post_any.bind fun s _ => ?_
    refine (Nucleus.post_storeStep (h.detach s)).forget.bind fun p hp => ?_
    exact (Nucleus.post_storeStep hp.wf.release).bind fun r hr => ih hr.wf

theorem kept_releaseAddressSpace : Kept cfg x (releaseAddressSpace cfg n d) := by
  unfold releaseAddressSpace
  split
  · exact h
  · refine (post_memoryObjectDestroy h).bind fun r hr => ?_
    exact (kept_orFatal hr.wf).bind fun n₁ h₁ => h₁

omit h in
@[simp] theorem freePrimaryStrand_world {d : Addr} : (freePrimaryStrand n d).world = n.world := by
  unfold freePrimaryStrand
  dsimp only
  split_ifs <;> split <;> rfl

theorem kept_releaseMemory : Kept cfg x (releaseMemory cfg n d work) := by
  refine (kept_perform h).bind fun n₁ h₁ => ?_
  refine (kept_releaseAddressSpace (n := n₁.updateDomain d _) h₁ d).bind fun n₂ h₂ => ?_
  refine kept_freeStrands d ?_
  rw [Nucleus.withFrames_world, freePrimaryStrand_world]
  exact h₂

omit h in
/-- `destroy_domain` writes the state of the domain through a reference, but leaves a destroyed
domain alone. -/
theorem kept_releaseIsolation {d : Addr} (h : WF cfg n.world (held x (some d))) :
    Kept cfg (held x (some d)) (releaseIsolation n d) := by
  unfold releaseIsolation
  dsimp only
  split
  · trivial
  refine WF.setHeader h ⟨rfl, rfl, rfl, rfl⟩ rfl fun hret => ?_
  obtain ⟨al, hal⟩ := h.allocated
  obtain ⟨i, -, -, -, -, -, hdone⟩ := (h.books.object hal).entry
  rw [hret] at hdone
  have hdestroyed : (n.world.header d).state = .destroyed := hdone.2
  dsimp only
  rw [destroyDomain, if_pos hdestroyed]

omit h in
theorem kept_teardownDomain {d : Addr} (h : WF cfg n.world (held x (some d))) :
    Kept cfg (held x (some d)) (teardownDomain cfg n id d work) := by
  unfold teardownDomain
  refine (kept_advancePhase h d).bind fun n₁ h₁ => ?_
  refine (Nucleus.post_storeStep h₁.capRevokeForDomain).forget.bind fun r₂ h₂ => ?_
  refine (kept_quiesceDomain h₂.wf d).bind fun r₃ h₃ => (kept_orFatal h₃).bind fun n₃ h₃ => ?_
  refine (kept_advancePhase h₃ d).bind fun n₄ h₄ => ?_
  refine (kept_gateDestroyForDomain h₄).bind fun n₅ h₅ => ?_
  refine (kept_advancePhase h₅ d).bind fun n₆ h₆ => ?_
  refine (kept_portalDestroyForDomain h₆).bind fun n₇ h₇ => ?_
  refine (kept_perform h₇).bind fun n₈ h₈ => ?_
  refine (kept_ipcDestroyForDomain h₈).bind fun n₉ h₉ => ?_
  refine (kept_perform h₉).bind fun m₁ k₁ => ?_
  refine (kept_advancePhase k₁ d).bind fun m₂ k₂ => ?_
  refine (kept_releaseMemory k₂ d).bind fun m₃ k₃ => ?_
  refine (kept_releaseIsolation k₃).bind fun m₄ k₄ => ?_
  refine (kept_advancePhase k₄ d).bind fun m₅ k₅ => ?_
  exact (Nucleus.post_storeStep k₅.release).bind fun r hr => kept_orFatal hr.wf

theorem kept_domainDestroy :
    Ensures (fun r => WF cfg r.2.world x) (domainDestroy cfg n id work) := by
  unfold domainDestroy
  split_ifs
  · exact h
  · exact h
  refine ((n.post_store h.acquireRef).forget).bind fun r hr => ?_
  obtain ⟨p, n₁⟩ := r
  obtain ⟨hr, -⟩ := hr
  cases p with
  | none => simpa using hr
  | some d =>
  dsimp only at hr ⊢
  split_ifs
  · exact (WF.put hr).bind fun w hw => hw
  split
  · exact (WF.put hr).bind fun w hw => hw
  next n₂ hclaim =>
  have h₂ : WF cfg n₂.world (held x (some d)) := by
    obtain ⟨al, hal⟩ := hr.allocated
    unfold claimDomainDestroy at hclaim
    dsimp only at hclaim
    split_ifs at hclaim
    cases hclaim
    exact hr.transition hal (by decide)
  refine (kept_teardownDomain h₂).bind fun n₃ h₃ => ?_
  exact (WF.put h₃).bind fun w hw => hw

theorem kept_markDying : Kept cfg x (markDying n d) :=
  (Nucleus.post_storeStep h.swapStateTo).forget.bind fun _ hr => hr.wf

theorem kept_ncDomainExit : Ensures (fun r => WF cfg r.2.world x) (ncDomainExit n) := by
  unfold ncDomainExit
  split
  · exact h
  refine post_any.bind fun _ _ => ?_
  split
  · exact h
  · exact (kept_markDying h _).bind fun n₁ h₁ => h₁

theorem kept_deliverEntry {entry : SignalEntry} {handled : Bool} :
    Ensures (fun r => WF cfg r.2.world x) (deliverEntry n d entry handled) := by
  refine post_any.bind fun _ _ => ?_
  dsimp only
  split_ifs
  · exact h
  · exact h
  split
  · exact (kept_markDying h d).bind fun n₁ h₁ => h₁
  · exact h
  · exact h

theorem kept_domainReap : Kept cfg x (domainReap cfg n d work) := by
  unfold domainReap
  dsimp only
  split_ifs
  · exact h
  · exact h
  · exact (kept_domainDestroy h).bind fun r hr => hr

theorem kept_finishSwitch : Kept cfg x (finishSwitch cfg n d work) := by
  refine post_any.bind fun _ _ => ?_
  split_ifs
  · exact h
  refine (kept_gateDestroyForDomain h).bind fun n₁ h₁ => ?_
  refine (kept_portalDestroyForDomain h₁).bind fun n₂ h₂ => ?_
  exact kept_domainReap h₂ d

end ZXFoundation.Dgp.Domain
