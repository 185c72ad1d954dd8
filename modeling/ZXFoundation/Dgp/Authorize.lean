import ZXFoundation.Dgp.Isolation
import ZXFoundation.Scoms.World

/-!
# Authorization of operations on domains

`zxfoundation/dgp/authorize.zcomponent` and the part of `sync_contract.zcomponent` it asks. Every
entry into the nucleus that acts for one domain on another passes `authorize`; what it returns is a
lease on the two identities it looked at.
-/

namespace ZXFoundation.Dgp

open Scoms Isolation

/-! ## Synchronization contract -/

inductive LockContext where
  | bootSingleCpu | thread | irqDisabled | rcuReadSide | teardown
  deriving DecidableEq, Repr

inductive TeardownPhase where
  | none | denyNewEntries | drainGates | drainPortals | releaseMemory | releaseIdentity
  deriving DecidableEq, Repr

def TeardownPhase.next? : TeardownPhase → Option TeardownPhase
  | .none => some .denyNewEntries
  | .denyNewEntries => some .drainGates
  | .drainGates => some .drainPortals
  | .drainPortals => some .releaseMemory
  | .releaseMemory => some .releaseIdentity
  | .releaseIdentity => Option.none

def validateTeardownPhase (current requested : TeardownPhase) : Except KernelError Unit :=
  if current.next? = some requested then .ok () else .error (.generic .invalidArg)

/-- `advance_teardown_phase`: the phase that is stored afterwards. -/
def advanceTeardownPhase (current expected requested : TeardownPhase) :
    Except KernelError TeardownPhase :=
  if current ≠ expected then .error (.generic .invalidArg)
  else match validateTeardownPhase expected requested with
    | .error e => .error e
    | .ok _ => .ok requested

def validateAuthorityLookup (context : LockContext) (phase : TeardownPhase) :
    Except KernelError Unit :=
  if context = .teardown ∧ phase = .releaseIdentity then .error (.generic .invalidArg) else .ok ()

/-! ## Operations -/

inductive OperationKind where
  | none | domainCreate | domainDestroy | domainExit | domainInfo | domainQuery | strandCreate
  | addressSpaceCreate | gateCreate | gateDestroy | gateEntry | portalCreate | portalDestroy
  | ioBind | ioUnbind | ioSubmit | ioIrqBind | ioDmaExtent | ioCompletionDequeue
  | signalRegister | signalPoll | signalAck | signalSend | signalMaskSet | signalMaskGet
  | signalWait
  | memAlloc | memFree | memMap | memUnmap | memProtect | memShare
  | capAcquire | capRelease | capValidate | capRevoke
  | timeYield | timeDeadline | timeNow | consoleWrite
  | registerService | lookupService | unregisterService
  | strandSetPolicy | strandSetAffinity | strandQueryState
  | ipcEndpointCreate | ipcEndpointDestroy | ipcSend | ipcReceive
  | shmExport | shmImport | shmMap | policyServerRegister | policyServerUnregister
  deriving DecidableEq, Repr

open IsolationRights in
def requiredRightsForOp : OperationKind → IsolationRights
  | .domainCreate | .domainDestroy | .gateCreate | .gateDestroy | .portalDestroy => lifecycle
  | .portalCreate => lifecycle ||| share
  | .strandCreate => lifecycle ||| sched
  | .addressSpaceCreate => lifecycle
  | .ipcEndpointCreate | .ipcEndpointDestroy | .ipcSend | .ipcReceive => signal
  | .shmExport => share
  | .shmImport => map
  | .shmMap => map ||| share
  | .policyServerRegister | .policyServerUnregister => service
  | .ioBind | .ioUnbind | .ioSubmit | .ioIrqBind | .ioDmaExtent | .ioCompletionDequeue => io
  | .signalRegister | .signalPoll | .signalAck | .signalSend | .signalMaskSet | .signalMaskGet
  | .signalWait => signal
  | .memAlloc | .memFree | .memMap | .memUnmap | .memProtect => map
  | .memShare => share
  | .gateEntry => enter
  | .capAcquire | .capRelease | .capValidate => IsolationRights.none
  | .capRevoke => delegate ||| lifecycle
  | .timeYield | .timeDeadline | .timeNow => IsolationRights.none
  | .consoleWrite => console
  | .registerService | .lookupService => service
  | .unregisterService => service ||| lifecycle
  | .domainExit | .domainInfo => IsolationRights.none
  | .domainQuery => debug
  | .strandSetPolicy | .strandSetAffinity => sched
  | .strandQueryState => sched ||| debug
  | .none => IsolationRights.none

structure AuthorizationMetadata where
  requestedRights : IsolationRights := .none
  targetVaStart : UInt64 := 0
  targetVaEnd : UInt64 := 0
  gateId : Nat := 0

def validateOpMetadata (op : OperationKind) (data : AuthorizationMetadata) :
    Except KernelError Unit :=
  match op with
  | .portalCreate | .memMap | .memShare | .memUnmap | .memProtect | .memFree | .shmExport =>
    if data.targetVaStart ≥ data.targetVaEnd then .error (.generic .invalidArg) else .ok ()
  | .gateEntry | .ioIrqBind =>
    if data.gateId = 0 then .error (.generic .invalidArg) else .ok ()
  | _ => .ok ()

/-! ## Leases -/

structure AuthorizationLease where
  caller : Addr
  target : Addr
  callerGeneration : Nat
  targetGeneration : Nat
  operation : OperationKind
  rights : IsolationRights
  consumed : Bool
  deriving DecidableEq, Repr

namespace AuthorizationLease

def valid (l : AuthorizationLease) (w : World) : Bool :=
  !l.consumed && (w.header l.caller).generation == l.callerGeneration &&
    (w.header l.target).generation == l.targetGeneration &&
    (w.header l.caller).state == .active && (w.header l.target).state == .active

def consume (l : AuthorizationLease) (w : World) : Bool × AuthorizationLease :=
  if l.valid w then (true, { l with consumed := true }) else (false, l)

end AuthorizationLease

def validateCommon (w : World) (caller target : Addr) : Except KernelError Unit :=
  if (w.header caller).state ≠ .active then .error (.generic .invalidArg)
  else if (w.header target).state ≠ .active then .error (.generic .invalidArg)
  else validateAuthorityLookup .thread .none

/-- `authorize`, for a caller that holds the rights `granted`. The requested rights count only for
operations that require some right themselves. -/
def authorize (w : World) (granted : IsolationRights) (caller target : Addr) (op : OperationKind)
    (data : AuthorizationMetadata) : Except KernelError AuthorizationLease := do
  validateCommon w caller target
  validateOpMetadata op data
  let required := requiredRightsForOp op
  if required ≠ .none ∧ !hasAllRights granted (data.requestedRights ||| required) then
    .error (.memory .capabilityInvalid)
  return ⟨caller, target, (w.header caller).generation, (w.header target).generation, op, required,
    false⟩

/-!
## Leases

What a caller of `authorize` may rely on. The states, the metadata and the rights that the operation
itself requires are checked for every operation. The rights that the caller asks for are checked
together with those, in the branch for operations that require some right: `domain_exit`,
`domain_info`, the `cap_` operations but `cap_revoke`, and the `time_` operations are granted with
any `requested_rights`.
-/

open AuthorizationLease

/-! ## Rights -/

theorem hasAllRights_or {g r s : IsolationRights} :
    hasAllRights g (r ||| s) = true ↔ hasAllRights g r = true ∧ hasAllRights g s = true := by
  simp only [hasAllRights, beq_iff_eq, ← UInt32.toBitVec_inj, UInt32.toBitVec_and,
    UInt32.toBitVec_or,
    BitVec.eq_of_getElem_eq_iff, BitVec.getElem_and, BitVec.getElem_or]
  constructor
  · intro h
    constructor
    all_goals
      intro i hi
      specialize h i hi
      revert h
      cases g.toBitVec[i] <;> cases r.toBitVec[i] <;> cases s.toBitVec[i] <;> decide
  · rintro ⟨hr, hs⟩ i hi
    rw [Bool.and_or_distrib_left, hr i hi, hs i hi]

theorem hasAllRights_none {g : IsolationRights} : hasAllRights g .none = true := by
  rw [hasAllRights, IsolationRights.none, UInt32.and_zero]
  rfl

/-! ## The property -/

section Property

variable (w : World) (granted : IsolationRights) (caller target : Addr) (op : OperationKind)
  (data : AuthorizationMetadata)

def rangeOps : List OperationKind :=
  [.portalCreate, .memMap, .memShare, .memUnmap, .memProtect, .memFree, .shmExport]

def gateOps : List OperationKind := [.gateEntry, .ioIrqBind]

/-- The metadata have what the operation needs. -/
structure WellFormed : Prop where
  range : op ∈ rangeOps → data.targetVaStart < data.targetVaEnd
  gate : op ∈ gateOps → data.gateId ≠ 0

def BothActive : Prop := (w.header caller).state = .active ∧ (w.header target).state = .active

def SameGenerations (w' : World) : Prop :=
  (w'.header caller).generation = (w.header caller).generation ∧
    (w'.header target).generation = (w.header target).generation

/-- The worlds in which a lease is consumed when it is tried in one after the other. -/
def AuthorizationLease.consumedIn (l : AuthorizationLease) : List World → List World
  | [] => []
  | w :: ws =>
    let rest := (l.consume w).2.consumedIn ws
    if (l.consume w).1 then w :: rest else rest

/-- The lease is good for one operation on the two domains as they are in `w`. -/
structure GoodOnce (l : AuthorizationLease) (ws : List World) : Prop where
  once : (l.consumedIn ws).length ≤ 1
  unchanged : ∀ w' ∈ l.consumedIn ws, BothActive w' l.caller l.target ∧
    SameGenerations w l.caller l.target w'

/-- What a lease stands for. -/
structure Sound (l : AuthorizationLease) : Prop where
  active : BothActive w caller target
  required : hasAllRights granted (requiredRightsForOp op) = true
  requested : hasAllRights granted data.requestedRights = true
  wellFormed : WellFormed op data
  parties : l.caller = caller ∧ l.target = target
  goodOnce : ∀ ws, GoodOnce w l ws

end Property

/-! ## Consuming a lease -/

section Consume

variable {w : World} {l : AuthorizationLease}

theorem consumedIn_of_consumed (h : l.consumed = true) (ws : List World) :
    l.consumedIn ws = [] := by
  induction ws with
  | nil => rfl
  | cons w' ws ih =>
    have hconsume : l.consume w' = (false, l) := by simp [consume, valid, h]
    simp only [consumedIn, hconsume]
    exact ih

theorem goodOnce_of_generations (hcaller : l.callerGeneration = (w.header l.caller).generation)
    (htarget : l.targetGeneration = (w.header l.target).generation) (ws : List World) :
    GoodOnce w l ws := by
  induction ws with
  | nil => exact ⟨Nat.zero_le 1, fun w' h => by cases h⟩
  | cons w' ws ih =>
    cases hvalid : l.valid w' with
    | false =>
      have hconsume : l.consume w' = (false, l) := by simp [consume, hvalid]
      have hsame : l.consumedIn (w' :: ws) = l.consumedIn ws := by
        simp only [consumedIn, hconsume]
        rfl
      exact ⟨hsame ▸ ih.once, hsame ▸ ih.unchanged⟩
    | true =>
      have hconsume : l.consume w' = (true, { l with consumed := true }) := by
        simp [consume, hvalid]
      have hone : l.consumedIn (w' :: ws) = [w'] := by
        simp only [consumedIn, hconsume, if_true]
        rw [consumedIn_of_consumed rfl]
      simp only [valid, Bool.and_eq_true, beq_iff_eq] at hvalid
      obtain ⟨⟨⟨⟨-, hcg⟩, htg⟩, hca⟩, hta⟩ := hvalid
      refine ⟨by rw [hone]; exact le_rfl, fun w'' hmem => ?_⟩
      rw [hone, List.mem_singleton] at hmem
      subst hmem
      exact ⟨⟨hca, hta⟩, hcg.trans hcaller, htg.trans htarget⟩

end Consume

/-! ## Authorization -/

section Authorize

variable {w : World} {granted : IsolationRights} {caller target : Addr} {op : OperationKind}
  {data : AuthorizationMetadata} {l : AuthorizationLease}

theorem validateCommon_eq_ok :
    validateCommon w caller target = .ok () ↔ BothActive w caller target := by
  unfold validateCommon BothActive
  split_ifs with hc ht
  · exact iff_of_false (fun h => by cases h) fun h => hc h.1
  · exact iff_of_false (fun h => by cases h) fun h => ht h.2
  · exact iff_of_true rfl ⟨not_not.mp hc, not_not.mp ht⟩

theorem validateOpMetadata_eq_ok : validateOpMetadata op data = .ok () ↔ WellFormed op data := by
  have hiff : WellFormed op data ↔
      (op ∈ rangeOps → data.targetVaStart < data.targetVaEnd) ∧ (op ∈ gateOps → data.gateId ≠ 0) :=
    ⟨fun h => ⟨h.range, h.gate⟩, fun h => ⟨h.1, h.2⟩⟩
  rw [hiff]
  cases op <;> simp [validateOpMetadata, rangeOps, gateOps]

theorem wellFormed_of_required_none (h : requiredRightsForOp op = .none) : WellFormed op data := by
  have hops : op ∉ rangeOps ∧ op ∉ gateOps := by
    revert h
    cases op <;> decide
  exact ⟨fun hin => absurd hin hops.1, fun hin => absurd hin hops.2⟩

theorem authorize_eq_ok : authorize w granted caller target op data = .ok l ↔
    BothActive w caller target ∧ WellFormed op data ∧
      (requiredRightsForOp op = .none ∨
        hasAllRights granted (data.requestedRights ||| requiredRightsForOp op) = true) ∧
      l = ⟨caller, target, (w.header caller).generation, (w.header target).generation, op,
        requiredRightsForOp op, false⟩ := by
  rw [← validateCommon_eq_ok, ← validateOpMetadata_eq_ok]
  unfold authorize
  cases hcommon : validateCommon w caller target with
  | error e => exact iff_of_false (fun h => by cases h) fun h => by cases h.1
  | ok =>
  cases hmeta : validateOpMetadata op data with
  | error e => exact iff_of_false (fun h => by cases h) fun h => by cases h.2.1
  | ok =>
  have hif : ¬ (requiredRightsForOp op ≠ .none ∧
        (!hasAllRights granted (data.requestedRights ||| requiredRightsForOp op)) = true) ↔
      requiredRightsForOp op = .none ∨
        hasAllRights granted (data.requestedRights ||| requiredRightsForOp op) = true := by
    rw [not_and_or, not_not, Bool.not_eq_true', Bool.not_eq_false]
  rw [← hif]
  by_cases hrights : requiredRightsForOp op ≠ .none ∧
      (!hasAllRights granted (data.requestedRights ||| requiredRightsForOp op)) = true
  · refine iff_of_false (fun h => ?_) fun h => h.2.2.1 hrights
    simp only [bind, Except.bind, if_pos hrights] at h
    cases h
  · simp only [bind, Except.bind, if_neg hrights, pure, Except.pure, Except.ok.injEq, true_and]
    exact ⟨fun h => ⟨hrights, h.symm⟩, fun h => h.2.symm⟩

end Authorize

/-- Every lease that `authorize` gives out for a request is sound exactly when the operation
requires some right, the caller holds the rights it asks for, or one of the domains is not active,
so that there is no lease. -/
theorem authorize_sound_iff (w : World) (granted : IsolationRights) (caller target : Addr)
    (op : OperationKind)
    (data : AuthorizationMetadata) :
    (∀ l, authorize w granted caller target op data = .ok l →
      Sound w granted caller target op data l) ↔
      requiredRightsForOp op ≠ .none ∨ hasAllRights granted data.requestedRights = true ∨
        ¬ BothActive w caller target := by
  constructor
  · intro h
    by_contra hnot
    push Not at hnot
    obtain ⟨hnone, hrights, hactive⟩ := hnot
    exact hrights (h _ (authorize_eq_ok.mpr
      ⟨hactive, wellFormed_of_required_none hnone, .inl hnone, rfl⟩)).requested
  · intro h l hok
    obtain ⟨hactive, hwf, hchecked, rfl⟩ := authorize_eq_ok.mp hok
    rcases hchecked with hnone | hall
    · have hrequested : hasAllRights granted data.requestedRights = true :=
        (h.resolve_left (not_not.mpr hnone)).resolve_right (not_not.mpr hactive)
      exact ⟨hactive, hnone ▸ hasAllRights_none, hrequested, hwf, ⟨rfl, rfl⟩,
        goodOnce_of_generations rfl rfl⟩
    · rw [hasAllRights_or] at hall
      exact ⟨hactive, hall.2, hall.1, hwf, ⟨rfl, rfl⟩, goodOnce_of_generations rfl rfl⟩

/-- A domain without any right asks for the right to console output with `domain_info`, and gets a
lease. -/
theorem authorize_requested_unchecked :
    ∃ l, authorize (.boot fun _ => { state := .active }) .none 0 0 .domainInfo
      { requestedRights := .console } = .ok l ∧
      ¬ hasAllRights .none IsolationRights.console :=
  ⟨_, rfl, by decide⟩

end ZXFoundation.Dgp
