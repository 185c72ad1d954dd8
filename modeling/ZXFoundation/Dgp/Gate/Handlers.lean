import ZXFoundation.Sched.Admission
import ZXFoundation.Sys.Ipc

/-!
# What the handlers act on

The arguments of a nucleus call are decoded twice: by `target_domain_for_op`, for the authorization,
and by the handler, for what it does. The second decoding is read off the handlers in
`zxfoundation/dgp/gate.zcomponent/nc_*.cxxm` and the functions that they call.

* **`handlerChecks`**: what the handler checks before it acts. These are the words themselves, the
  capability in `a0`, the objects and the user memory that the words name, and an `authorize` of its
  own.
* **`handlerDomain`**: the domain that it then acts on.
* **`SameReading`**: what the words have to be for both decodings to arrive at one domain. It says
  something for eight operations only.

A handler that acts has been authorized by itself, and `authorize` looks at no more of its target
than whether it is active. So for a call whose handler acts, `validate_call` decides by the state of
the domain that it takes for the target, by the gates and by the capability: that is
`validateCallOn_iff_of_checks`, from which `dispatch_faithful_iff` follows operation by operation.
-/

namespace ZXFoundation.Dgp.Gate

open Scoms Isolation Cap World Sched Sys.Ipc

/-! ## What a call finds outside the nucleus -/

/-- `user_message_request`, and the fields of `user_message_result` that are read. -/
structure UserMessageRequest where
  payload : UInt64 := 0
  capabilities : UInt64 := 0
  grants : UInt64 := 0
  length : Nat := 0
  capabilityCount : Nat := 0
  grantCount : Nat := 0

structure Surroundings where
  /-- `copy_from_user` of so many bytes from an address succeeds. -/
  readable : UInt64 → Nat → Bool
  /-- The message record at an address. -/
  request : UInt64 → UserMessageRequest
  /-- The component that the handler hands the call on to carries it out: it finds the region, the
  binding or the service, and has the memory, the slot or the room in a queue that it needs. -/
  carriedOut : Bool

namespace Surroundings

variable (u : Surroundings)

/-- A pointer that is not null, and that many bytes behind it. -/
def reads (p : UInt64) (length : Nat) : Bool := p != 0 && u.readable p length

/-- The copies of `nc_ipc_send`: the record, and each of the three buffers unless it is empty. -/
def sends (p : UInt64) : Bool :=
  let r := u.request p
  u.reads p 32 && decide (r.length ≤ ipcMessageBytes) &&
    decide (r.capabilityCount ≤ ipcMessageCaps) && decide (r.grantCount ≤ ipcMessageGrants) &&
    (r.length == 0 || u.reads r.payload r.length) &&
    (r.capabilityCount == 0 || u.reads r.capabilities (8 * r.capabilityCount)) &&
    (r.grantCount == 0 || u.reads r.grants (12 * r.grantCount))

/-- `nc_ipc_receive` reads how many capabilities and grants there is room for. -/
def receives (p : UInt64) : Bool :=
  u.reads p 32 && decide ((u.request p).capabilityCount ≤ ipcMessageCaps) &&
    decide ((u.request p).grantCount ≤ ipcMessageGrants)

end Surroundings

/-! ## The checks of the handlers -/

def pageAligned (a : UInt64) : Bool := a &&& 0xFFF == 0

/-- `page_align_size`: the size in whole pages, unless it is 0 or too large to be rounded up. -/
def pageAlignSize (size : UInt64) : Option UInt64 :=
  if size = 0 ∨ size > 0xFFFFFFFFFFFFFFFF - 0xFFF then none
  else some ((size + 0xFFF) &&& ~~~0xFFF)

/-- The checks that `shm_export` and `shm_import` make of a range. -/
def shmRange (va length : UInt64) : Bool :=
  length != 0 && pageAligned va && pageAligned length && decide (va ≤ va + length)

variable (cfg : Config) (n : Nucleus) (caller : Addr)

/-- `validate_admin`. -/
def validateAdmin (token : CapToken) : Bool :=
  (n.world.capValidateGenericFor token adminRight (n.world.header caller).id).isOk &&
    (n.world.validateSlot token adminRight 0 false).isOk && token.type == CapType.domain

/-- `nc_mem_free`, `nc_mem_unmap` and `nc_mem_protect`. -/
def memRangeChecks (op : OperationKind) (va size : UInt64) : Bool :=
  va != 0 && (pageAlignSize size).any fun length => decide (va ≤ va + length) &&
    authorizeCall n caller caller op
      { requestedRights := .map, targetVaStart := va, targetVaEnd := va + length }

/-- `nc_mem_map`: the extent in `a0` is mapped from the offset `a2` on, over `a3` bytes from `a1`,
with the protection bits `a4`. -/
def memMapChecks (a : Args) : Bool :=
  let token : CapToken := ⟨a.a0⟩
  let self := (n.world.header caller).id
  token.type == CapType.memoryExtent && a.a1 != 0 && pageAligned a.a2 &&
    (pageAlignSize a.a3).any fun length => decide (a.a1 ≤ a.a1 + length) &&
      (n.world.capValidateGenericFor token mapRight self).isOk &&
      (match n.world.capResolve token mapRight with
        | .error _ => false
        | .ok extent => (n.world.header extent).type == .memoryExtent &&
          (n.memoryObject extent).ownerDomain == self && decide (a.a2 ≤ a.a2 + length) &&
          decide (a.a2 + length ≤ (n.memoryObject extent).rangeLength)) &&
      authorizeCall n caller caller .memMap
        { requestedRights := .map, targetVaStart := a.a1, targetVaEnd := a.a1 + length } &&
      -- some protection, and not write together with execute
      a.a4 &&& 7 != 0 && a.a4 &&& 6 != 6

/-- `nc_io_unbind`, `nc_io_submit` and `nc_io_irq_bind` read the right off the token. -/
def ioTokenChecks (op : OperationKind) (token : CapToken) (right : CapRights) (gateId : Nat) :
    Bool :=
  token.isValid && token.type == CapType.ioDevice && token.rights &&& right != 0 &&
    authorizeCall n caller caller op { requestedRights := .io, gateId := gateId }

/-- `nc_io_dma_extent` and `nc_io_completion_dequeue` have the token validated. -/
def ioReadChecks (op : OperationKind) (token : CapToken) : Bool :=
  token.isValid && token.type == CapType.ioDevice &&
    (n.world.capValidateGenericFor token CapRights.read (n.world.header caller).id).isOk &&
    authorizeCall n caller caller op { requestedRights := .io }

/-- The peer of an endpoint that the caller owns. -/
def endpointPeer (id : Nat) : Option Addr :=
  (endpointFind cfg n id).bind fun endpoint =>
    if (n.endpoint endpoint).ownerDomain = (n.world.header caller).id then
      domainFind cfg n (n.endpoint endpoint).peerDomain
    else none

/-- The domain that the handler acts on, if its checks let it act. -/
def handlerDomain (op : OperationKind) (a : Args) : Option Addr :=
  match op with
  | .domainDestroy => domainFind cfg n (low32 a.a1)
  | .domainQuery => selfOr cfg n caller (low32 a.a0)
  -- `gate_create` attaches the gate to the domain in `a3`
  | .gateCreate => domainFind cfg n (low32 a.a3)
  -- the domain that the gate in `a1` is attached to
  | .gateDestroy =>
    (gateFind cfg n (low32 a.a1)).bind fun gate => domainFind cfg n (n.gate gate).targetDomain
  | .portalCreate => domainFind cfg n (low32 a.a1)
  -- the domain that holds the portal in `a1`
  | .portalDestroy =>
    (portalFind cfg n (low32 a.a1)).bind fun portal =>
      domainFind cfg n (n.portal portal).sourceDomain
  | .signalSend => domainFind cfg n (low32 a.a0)
  -- the peer, for which `sys::ipc` authorizes the caller
  | .ipcEndpointCreate => domainFind cfg n (low32 a.a0)
  | .ipcEndpointDestroy | .ipcSend => endpointPeer cfg n caller (low32 a.a0)
  -- the domain that the exported grant is for
  | .shmExport => domainFind cfg n (low32 a.a2)
  | _ => some caller

variable (u : Surroundings)

/-- What the handler checks itself, up to the call that does the work. -/
def handlerChecks (op : OperationKind) (a : Args) : Bool :=
  let self := (n.world.header caller).id
  let token : CapToken := ⟨a.a0⟩
  -- most handlers repeat the authorization of the caller for itself
  let own (r : IsolationRights) := authorizeCall n caller caller op { requestedRights := r }
  -- some authorize the caller for the domain that they act on
  let cross (data : AuthorizationMetadata) := (handlerDomain cfg n caller op a).any fun target =>
    authorizeCall n caller target op data
  match op with
  | .domainCreate => validateAdmin n caller token && own .lifecycle && u.reads a.a1 63
  -- `domain_destroy` refuses the nucleus
  | .domainDestroy => validateAdmin n caller token && own .lifecycle && low32 a.a1 != self &&
    low32 a.a1 != 0
  | .domainExit | .domainInfo => own .none
  | .domainQuery => own .debug
  -- `a1` is the CPU, `a2` the owner, which must be the caller
  | .strandCreate => validateAdmin n caller token && own (.lifecycle ||| .sched) &&
    decide ((a.a1 &&& 0xFFFF).toNat < configMaxCpus) && (low32 a.a2 == 0 || low32 a.a2 == self)
  -- the primary strand of the caller only
  | .strandSetPolicy => validateAdmin n caller token && own .sched && low32 a.a1 == 0 &&
    u.readable a.a2 64
  | .strandSetAffinity => validateAdmin n caller token && own .sched && low32 a.a1 == 0
  | .strandQueryState => validateAdmin n caller token && own (.sched ||| .debug) && low32 a.a1 == 0
  | .memAlloc => (pageAlignSize a.a0).isSome && own .map
  | .memFree | .memUnmap | .memProtect => memRangeChecks n caller op a.a0 a.a1
  | .memMap => memMapChecks n caller a
  -- `nc_mem_share` is retired
  | .memShare => false
  -- the type is one of two, the authority one of three
  | .gateCreate => own .lifecycle && decide (a.a1.toNat % 256 ≤ 1) &&
    decide (a.a2.toNat % 256 ≤ 2) && cross { requestedRights := .lifecycle }
  | .gateDestroy => own .lifecycle && (gateFind cfg n (low32 a.a1)).isSome
  | .portalCreate => pageAligned a.a2 && pageAligned a.a3 &&
    cross { requestedRights := .lifecycle ||| .share,
            targetVaStart := a.a2, targetVaEnd := a.a3 } &&
    cross { requestedRights := .share ||| .map, targetVaStart := a.a2, targetVaEnd := a.a3 }
  | .portalDestroy => own .lifecycle && (portalFind cfg n (low32 a.a1)).isSome
  | .ioBind => self != 0 && own .io
  | .ioUnbind => ioTokenChecks n caller op token CapRights.destroy 0
  | .ioSubmit => ioTokenChecks n caller op token CapRights.exec 0 && u.reads a.a1 16
  | .ioIrqBind => ioTokenChecks n caller op token CapRights.write (low32 a.a1)
  | .ioDmaExtent => ioReadChecks n caller op token
  | .ioCompletionDequeue => a.a1 != 0 && ioReadChecks n caller op token
  | .signalRegister | .signalPoll | .signalAck | .signalMaskSet | .signalMaskGet | .signalWait =>
    own .signal
  | .signalSend => cross { requestedRights := .signal }
  | .capAcquire => own .none
  | .capRelease => own .none && (n.world.capValidateGenericFor token CapRights.none self).isOk
  | .capValidate => own .none &&
    (n.world.capValidateGenericFor token (a.a1 &&& 0xFFFF).toUInt16 self).isOk
  | .capRevoke => own .delegate && (n.world.capValidateGenericFor token CapRights.none self).isOk
  | .timeYield | .timeNow => true
  | .timeDeadline => a.a0 != 0
  | .consoleWrite => a.a1 != 0 && decide (a.a1 ≤ 256) && own .console && u.readable a.a0 a.a1.toNat
  | .registerService => own .service && u.reads a.a1 63
  | .lookupService => own .service && u.reads a.a0 63
  | .unregisterService => own (.service ||| .lifecycle)
  | .ipcEndpointCreate | .ipcEndpointDestroy => cross { requestedRights := .signal }
  | .ipcSend => u.sends a.a1 && cross { requestedRights := .signal }
  -- the receiver is not authorized: it has to be the peer
  | .ipcReceive => a.a1 != 0 && u.receives a.a2 &&
    (endpointFind cfg n (low32 a.a0)).any fun endpoint =>
    (n.endpoint endpoint).peerDomain == self
  | .shmExport => shmRange a.a0 a.a1 &&
    cross { requestedRights := .share, targetVaStart := a.a0, targetVaEnd := a.a0 + a.a1 }
  -- the owner of the grant is authorized for the caller
  | .shmImport | .shmMap => shmRange a.a1 a.a2 && token.type == CapType.memory &&
    (n.world.capValidateGenericFor token mapRight self).isOk &&
    (match n.world.capResolve token mapRight with
      | .error _ => false
      | .ok grant => (n.world.header grant).type == .grant &&
        (n.memoryObject grant).rangeLength == a.a2 &&
        (domainFind cfg n (n.memoryObject grant).ownerDomain).any fun source =>
          authorizeCall n source caller .shmImport
            { requestedRights := .map, targetVaStart := a.a1, targetVaEnd := a.a1 + a.a2 })
  | .policyServerRegister => decide (a.a0.toNat % 256 < 8) && own .service &&
    (endpointFind cfg n (low32 a.a1)).any fun endpoint => (n.endpoint endpoint).ownerDomain == self
  | .policyServerUnregister => own .service
  -- no call is registered with these
  | .none | .addressSpaceCreate | .gateEntry => false

def handlerActs (op : OperationKind) (a : Args) : Bool :=
  handlerChecks cfg n caller u op a && u.carriedOut

/-- The domain that the handler acts on, if it acts. -/
def handlerTarget (op : OperationKind) (a : Args) : Option Addr :=
  if handlerActs cfg n caller u op a then handlerDomain cfg n caller op a else none

/-! ## What is to be guaranteed -/

section Call

variable (nr : Nat) (e : Entry) (a : Args)

/-- What `dispatch` is to guarantee about a call. -/
structure Faithful : Prop where
  /-- An accepted call was authorized for the domain that its handler acts on. -/
  authorized : (validateCall cfg n nr a e caller).1 = true →
    ∀ d, handlerTarget cfg n caller u e.opKind a = some d →
      targetDomainForOp cfg n caller e.opKind a = some d
  /-- A call on the caller's own objects is not refused for a domain that it does not concern. -/
  admitted : handlerTarget cfg n caller u e.opKind a = some caller →
    (validateCallOn cfg n nr a e caller (some caller)).1 = true →
      (validateCall cfg n nr a e caller).1 = true

/-- The gates and the capability do not refuse the call. -/
def Admitted : Prop :=
  (e.auth = .none ∨ GateAdmits cfg n nr e.auth caller) ∧ capCheck n e.auth caller a = true

/-- The domain is registered and active. -/
def domainActive (id : Nat) : Bool :=
  (domainFind cfg n id).any fun d => (n.world.header d).state == .active

/-- The words have both decoders arrive at one domain, operation by operation. -/
def SameReading (op : OperationKind) (a : Args) : Prop :=
  let self := (n.world.header caller).id
  match op with
  -- the CPU number is taken for the owner
  | .strandCreate => low32 (a.a1 &&& 0xFFFF) = 0 ∨ low32 (a.a1 &&& 0xFFFF) = self
  -- the target is taken to be the caller
  | .gateCreate => low32 a.a3 = self
  | .gateDestroy => ∀ gate ∈ gateFind cfg n (low32 a.a1),
    (domainFind cfg n (n.gate gate).targetDomain).isSome → (n.gate gate).targetDomain = self
  | .ipcEndpointCreate => low32 a.a0 = self
  | .ipcEndpointDestroy | .ipcSend => ∀ endpoint ∈ endpointFind cfg n (low32 a.a0),
    (n.endpoint endpoint).peerDomain = self
  | .shmExport => low32 a.a2 = self
  -- the portal is taken for a domain: for its own one, or for none while it is not the caller's
  | .portalDestroy => ∀ portal ∈ portalFind cfg n (low32 a.a1),
    (domainFind cfg n (n.portal portal).sourceDomain).isSome →
      if domainActive cfg n (low32 a.a1) then low32 a.a1 = (n.portal portal).sourceDomain
      else (n.portal portal).sourceDomain ≠ self
  | _ => True

/-! ## A handler that acts is authorized -/

variable {cfg n caller u nr e a}

/-- The operations whose target `target_domain_for_op` does not read where the handler does. -/
def misread : List OperationKind :=
  [.strandCreate, .gateCreate, .gateDestroy, .portalDestroy, .ipcEndpointCreate,
    .ipcEndpointDestroy, .ipcSend, .shmExport]

theorem authorizeCall_retarget {target target' : Addr} {op : OperationKind}
    {data data' : AuthorizationMetadata} (h : authorizeCall n caller target op data = true)
    (hwf : WellFormed op data → WellFormed op data') (hrights : data'.requestedRights = .none)
    (hactive : (n.world.header target').state = .active) :
    authorizeCall n caller target' op data' = true := by
  obtain ⟨⟨hcaller, -⟩, hdata, hgranted⟩ := authorizeCall_iff.mp h
  refine authorizeCall_iff.mpr ⟨⟨hcaller, hactive⟩, hwf hdata, hgranted.imp_right fun hall => ?_⟩
  rw [hrights, hasAllRights_or]
  exact ⟨hasAllRights_none, (hasAllRights_or.mp hall).2⟩

theorem caller_active_of_authorizeCall {target : Addr} {op : OperationKind}
    {data : AuthorizationMetadata} (h : authorizeCall n caller target op data = true) :
    (n.world.header caller).state = .active :=
  (authorizeCall_iff.mp h).1.1

/-- For a misread operation, the checks of the handler contain an authorization with the range that
`metadata_for_op` reads. -/
theorem exists_authorized_of_checks {op : OperationKind} (hop : op ∈ misread)
    (h : handlerChecks cfg n caller u op a = true) :
    ∃ target data, authorizeCall n caller target op data = true ∧
      (WellFormed op data → WellFormed op (metadataForOp op a)) ∧
        (metadataForOp op a).requestedRights = .none := by
  have hplain : ∀ {op' : OperationKind}, op' ∉ rangeOps → op' ∉ gateOps →
      ∀ data, WellFormed op' data := fun hr hg _ => ⟨fun h => absurd h hr, fun h => absurd h hg⟩
  have hcross : ∀ {data}, ((handlerDomain cfg n caller op a).any fun target =>
      authorizeCall n caller target op data) = true →
        ∃ target, authorizeCall n caller target op data = true := by
    intro data hany
    obtain ⟨target, -, htarget⟩ := Option.any_eq_true _ _ |>.mp hany
    exact ⟨target, htarget⟩
  simp only [misread, List.mem_cons, List.not_mem_nil, or_false] at hop
  rcases hop with rfl | rfl | rfl | rfl | rfl | rfl | rfl | rfl
  all_goals simp only [handlerChecks, Bool.and_eq_true] at h
  case inl => exact ⟨_, _, h.1.1.2, fun _ => hplain (by decide) (by decide) _, rfl⟩
  case inr.inl => exact ⟨_, _, h.1.1.1, fun _ => hplain (by decide) (by decide) _, rfl⟩
  case inr.inr.inl | inr.inr.inr.inl =>
    exact ⟨_, _, h.1, fun _ => hplain (by decide) (by decide) _, rfl⟩
  case inr.inr.inr.inr.inl | inr.inr.inr.inr.inr.inl =>
    obtain ⟨target, htarget⟩ := hcross h
    exact ⟨_, _, htarget, fun _ => hplain (by decide) (by decide) _, rfl⟩
  case inr.inr.inr.inr.inr.inr.inl =>
    obtain ⟨target, htarget⟩ := hcross h.2
    exact ⟨_, _, htarget, fun _ => hplain (by decide) (by decide) _, rfl⟩
  case inr.inr.inr.inr.inr.inr.inr =>
    obtain ⟨target, htarget⟩ := hcross h.2
    exact ⟨_, _, htarget, fun hwf => ⟨hwf.range, hwf.gate⟩, rfl⟩

theorem gateCheck_eq_true : (gateCheck cfg n nr e.auth caller).1 = true ↔
    e.auth = .none ∨ GateAdmits cfg n nr e.auth caller := by
  by_cases hauth : e.auth = .none
  · refine iff_of_true ?_ (.inl hauth)
    rw [hauth]
    rfl
  · rw [gateCheck_iff hauth]
    exact (or_iff_right hauth).symm

/-- With the handler's checks behind it, `validate_call` decides by no more of the target than its
state. -/
theorem validateCallOn_iff_of_checks (hop : e.opKind ∈ misread)
    (h : handlerChecks cfg n caller u e.opKind a = true) {target : Option Addr} :
    (validateCallOn cfg n nr a e caller target).1 = true ↔
      (∃ t, target = some t ∧ (n.world.header t).state = .active) ∧
        Admitted cfg n caller nr e a := by
  cases target with
  | none => exact iff_of_false nofun fun ⟨⟨_, ht, _⟩, _⟩ => nomatch ht
  | some t =>
  obtain ⟨_, data, hauth, hwf, hrights⟩ := exists_authorized_of_checks hop h
  have hactive : authorizeCall n caller t e.opKind (metadataForOp e.opKind a) = true ↔
      (n.world.header t).state = .active :=
    ⟨fun hok => (authorizeCall_iff.mp hok).1.2, authorizeCall_retarget hauth hwf hrights⟩
  rw [validateCallOn_some, Bool.and_eq_true, Bool.and_eq_true, hactive, gateCheck_eq_true]
  simp only [Option.some.injEq, exists_eq_left', Admitted]

/-! ## Two readings of the target -/

variable (n caller) in
/-- A call authorized for `target` whose handler acts on `d` is treated as it should be: an active
target is `d`, and there is one if `d` is the caller. -/
def Meets (target : Option Addr) (d : Addr) : Prop :=
  (∀ t, target = some t → (n.world.header t).state = .active → t = d) ∧
    (d = caller → ∃ t, target = some t ∧ (n.world.header t).state = .active)

theorem meets_caller (hactive : (n.world.header caller).state = .active) {d : Addr} :
    Meets n caller (some caller) d ↔ d = caller :=
  ⟨fun h => (h.1 caller rfl hactive).symm,
    fun h => ⟨fun _ ht _ => (Option.some.inj ht).symm.trans h.symm,
      fun _ => ⟨caller, rfl, hactive⟩⟩⟩

theorem handlerTarget_eq_some {op : OperationKind} (h : handlerActs cfg n caller u op a = true)
    {d : Addr} : handlerTarget cfg n caller u op a = some d ↔
      handlerDomain cfg n caller op a = some d := by
  unfold handlerTarget
  rw [if_pos h]

theorem faithful_iff_of_acts (hop : e.opKind ∈ misread)
    (h : handlerActs cfg n caller u e.opKind a = true) :
    Faithful cfg n caller u nr e a ↔ (Admitted cfg n caller nr e a →
      ∀ d, handlerDomain cfg n caller e.opKind a = some d →
        Meets n caller (targetDomainForOp cfg n caller e.opKind a) d) := by
  have hchecks := (Bool.and_eq_true _ _ ▸ h :
    handlerChecks cfg n caller u e.opKind a = true ∧ u.carriedOut = true).1
  have haccept : ∀ {target}, (validateCallOn cfg n nr a e caller target).1 = true ↔ _ :=
    validateCallOn_iff_of_checks hop hchecks
  obtain ⟨_, data, hauth, -⟩ := exists_authorized_of_checks hop hchecks
  have hactive := caller_active_of_authorizeCall hauth
  constructor
  · intro hfaithful hadmitted d hd
    constructor
    · intro t ht hstate
      have htarget := hfaithful.authorized (haccept.mpr ⟨⟨t, ht, hstate⟩, hadmitted⟩) d
        ((handlerTarget_eq_some h).mpr hd)
      exact Option.some.inj (ht.symm.trans htarget)
    · rintro rfl
      exact (haccept.mp (hfaithful.admitted ((handlerTarget_eq_some h).mpr hd)
        (haccept.mpr ⟨⟨d, rfl, hactive⟩, hadmitted⟩))).1
  · intro hmeets
    constructor
    · intro hok d hd
      obtain ⟨⟨t, ht, hstate⟩, hadmitted⟩ := haccept.mp hok
      rw [ht, (hmeets hadmitted d ((handlerTarget_eq_some h).mp hd)).1 t ht hstate]
    · intro hself hok
      have hadmitted := (haccept.mp hok).2
      exact haccept.mpr
        ⟨(hmeets hadmitted caller ((handlerTarget_eq_some h).mp hself)).2 rfl, hadmitted⟩

/-! ## Reading the words -/

section Registered

variable {x : Addr → Nat} (hwf : WF cfg n.world x)
  (hself : domainFind cfg n (n.world.header caller).id = some caller)
include hwf hself

omit hself in
theorem id_of_domainFind {id : Nat} {d : Addr} (h : domainFind cfg n id = some d) :
    (n.world.header d).id = id := by
  obtain ⟨_, -, -, hid⟩ := hwf.books.slot (findRaw_eq_some h).2
  exact hid

theorem eq_caller_iff {id : Nat} {d : Addr} (h : domainFind cfg n id = some d) :
    d = caller ↔ id = (n.world.header caller).id := by
  constructor
  · rintro rfl
    exact (id_of_domainFind hwf h).symm
  · rintro rfl
    exact Option.some.inj (h.symm.trans hself)

/-- The owner that `target_domain_for_op` reads is the CPU number. -/
theorem meets_strandCreate (hactive : (n.world.header caller).state = .active) (id : Nat) :
    Meets n caller (selfOr cfg n caller id) caller ↔ id = 0 ∨ id = (n.world.header caller).id := by
  unfold selfOr
  split_ifs with hid
  · exact iff_of_true ((meets_caller hactive).mpr rfl) hid
  refine iff_of_false (fun hmeets => ?_) hid
  obtain ⟨t, ht, hstate⟩ := hmeets.2 rfl
  obtain rfl := hmeets.1 t ht hstate
  exact hid (.inr ((eq_caller_iff hwf hself ht).mp rfl))

/-- The domain that `target_domain_for_op` reads is the one with the portal's id. -/
theorem meets_portalDestroy {source id : Nat} {d : Addr} (hd : domainFind cfg n source = some d) :
    Meets n caller (domainFind cfg n id) d ↔
      if domainActive cfg n id then id = source else source ≠ (n.world.header caller).id := by
  have hiff : domainActive cfg n id = true ↔
      ∃ t, domainFind cfg n id = some t ∧ (n.world.header t).state = .active := by
    simp only [domainActive, Option.any_eq_true, beq_iff_eq]
  split_ifs with hid
  · obtain ⟨t, ht, hstate⟩ := hiff.mp hid
    constructor
    · intro hmeets
      obtain rfl := hmeets.1 t ht hstate
      exact (id_of_domainFind hwf ht).symm.trans (id_of_domainFind hwf hd)
    · rintro rfl
      exact ⟨fun t' ht' _ => Option.some.inj (ht'.symm.trans hd), fun _ => ⟨t, ht, hstate⟩⟩
  · have hnone : ¬ ∃ t, domainFind cfg n id = some t ∧ (n.world.header t).state = .active :=
      fun h => hid (hiff.mpr h)
    rw [ne_eq, ← eq_caller_iff hwf hself hd]
    exact ⟨fun hmeets hcaller => hnone (hmeets.2 hcaller),
      fun hne => ⟨fun t ht hstate => absurd ⟨t, ht, hstate⟩ hnone, fun h => absurd h hne⟩⟩

variable (hboot : n.nucleusPtr = domainFind cfg n 0)

omit hwf hself in
include hboot in
theorem crossDomain_eq (id : Nat) : crossDomain cfg n id = domainFind cfg n id := by
  unfold crossDomain
  split_ifs with hid
  · rw [hid, hboot]
  · rfl

include hboot in
/-- The two decodings meet iff the words say so. One case for each misread operation. -/
theorem meets_iff_sameReading {op : OperationKind} (hop : op ∈ misread)
    (hactive : (n.world.header caller).state = .active) {d : Addr}
    (hd : handlerDomain cfg n caller op a = some d) :
    Meets n caller (targetDomainForOp cfg n caller op a) d ↔ SameReading cfg n caller op a := by
  simp only [misread, List.mem_cons, List.not_mem_nil, or_false] at hop
  rcases hop with rfl | rfl | rfl | rfl | rfl | rfl | rfl | rfl
  case inl =>
    obtain rfl := Option.some.inj hd
    exact meets_strandCreate hwf hself hactive _
  case inr.inl | inr.inr.inr.inr.inl | inr.inr.inr.inr.inr.inr.inr =>
    exact (meets_caller hactive).trans (eq_caller_iff hwf hself hd)
  case inr.inr.inl =>
    obtain ⟨gate, hgate, hd⟩ := Option.bind_eq_some_iff.mp hd
    refine ((meets_caller hactive).trans (eq_caller_iff hwf hself hd)).trans ?_
    simp only [SameReading, hgate, Option.mem_def, Option.some.injEq, forall_eq', hd,
      Option.isSome_some, true_imp_iff]
  case inr.inr.inr.inl =>
    obtain ⟨portal, hportal, hd⟩ := Option.bind_eq_some_iff.mp hd
    show Meets n caller (crossDomain cfg n (low32 a.a1)) d ↔ _
    rw [crossDomain_eq hboot, meets_portalDestroy hwf hself hd]
    simp only [SameReading, hportal, Option.mem_def, Option.some.injEq, forall_eq', hd,
      Option.isSome_some, true_imp_iff]
  case inr.inr.inr.inr.inr.inl | inr.inr.inr.inr.inr.inr.inl =>
    obtain ⟨endpoint, hendpoint, hd⟩ := Option.bind_eq_some_iff.mp hd
    split_ifs at hd
    refine ((meets_caller hactive).trans (eq_caller_iff hwf hself hd)).trans ?_
    simp only [SameReading, hendpoint, Option.mem_def, Option.some.injEq, forall_eq']

end Registered

/-- A handler that acts on no domain leaves nothing to read: that can be a gate or a portal whose
domain is gone. -/
theorem sameReading_of_none {op : OperationKind} (hop : op ∈ misread)
    (h : handlerChecks cfg n caller u op a = true) (hd : handlerDomain cfg n caller op a = none) :
    SameReading cfg n caller op a := by
  simp only [misread, List.mem_cons, List.not_mem_nil, or_false] at hop
  rcases hop with rfl | rfl | rfl | rfl | rfl | rfl | rfl | rfl
  case inl => cases hd
  case inr.inr.inl =>
    intro gate hgate hsome
    rw [show handlerDomain cfg n caller .gateDestroy a = domainFind cfg n
      (n.gate gate).targetDomain by
      simp only [handlerDomain, Option.mem_def.mp hgate, Option.bind_some]] at hd
    rw [hd] at hsome
    cases hsome
  case inr.inr.inr.inl =>
    intro portal hportal hsome
    rw [show handlerDomain cfg n caller .portalDestroy a =
        domainFind cfg n (n.portal portal).sourceDomain by
      simp only [handlerDomain, Option.mem_def.mp hportal, Option.bind_some]] at hd
    rw [hd] at hsome
    cases hsome
  -- the other handlers authorize the caller for the domain that they found
  all_goals simp [handlerChecks, hd] at h

/-- Outside the eight operations the two decodings agree, once the nucleus domain is in slot 0. -/
theorem faithful_of_not_misread (hboot : n.nucleusPtr = domainFind cfg n 0)
    (h : e.opKind ∉ misread) : Faithful cfg n caller u nr e a := by
  have hsame : handlerChecks cfg n caller u e.opKind a = true →
      targetDomainForOp cfg n caller e.opKind a = handlerDomain cfg n caller e.opKind a := by
    intro hchecks
    cases hop : e.opKind
    case memShare =>
      rw [hop] at hchecks
      cases hchecks
    case portalCreate | signalSend | domainDestroy => exact crossDomain_eq hboot _
    all_goals
      first
      | rfl
      | exact absurd (by rw [hop]; decide) h
  have halike : ∀ {d}, handlerTarget cfg n caller u e.opKind a = some d →
      targetDomainForOp cfg n caller e.opKind a = some d := by
    intro d hd
    unfold handlerTarget at hd
    split_ifs at hd with hacts
    exact (hsame ((Bool.and_eq_true _ _).mp hacts).1).trans hd
  constructor
  · exact fun _ d hd => halike hd
  · intro hd hok
    unfold validateCall
    rwa [halike hd]

/-- **A call is authorized for what its handler does** unless it is one of the eight misread
operations, the handler's own checks let it act, neither a gate nor the capability refuses it, and
its words do not have both decoders arrive at one domain. -/
theorem dispatch_faithful_iff {x : Addr → Nat} (hwf : WF cfg n.world x)
    (hself : domainFind cfg n (n.world.header caller).id = some caller)
    (hboot : n.nucleusPtr = domainFind cfg n 0) :
    Faithful cfg n caller u nr e a ↔
      (handlerActs cfg n caller u e.opKind a = true → Admitted cfg n caller nr e a →
        SameReading cfg n caller e.opKind a) := by
  by_cases hop : e.opKind ∈ misread
  case neg =>
    refine iff_of_true (faithful_of_not_misread hboot hop) fun _ _ => ?_
    unfold SameReading
    split <;> first | exact trivial | exact absurd (by simp [misread, *]) hop
  by_cases hacts : handlerActs cfg n caller u e.opKind a = true
  case neg =>
    have hnone : handlerTarget cfg n caller u e.opKind a = none := if_neg hacts
    refine iff_of_true ⟨fun _ d hd => ?_, fun hd => ?_⟩ fun h => absurd h hacts
    all_goals
      rw [hnone] at hd
      cases hd
  have hchecks := ((Bool.and_eq_true _ _).mp hacts).1
  obtain ⟨_, data, hauth, -⟩ := exists_authorized_of_checks hop hchecks
  have hmeets := @meets_iff_sameReading cfg n caller a x hwf hself hboot _ hop
    (caller_active_of_authorizeCall hauth)
  rw [faithful_iff_of_acts hop hacts]
  cases hd : handlerDomain cfg n caller e.opKind a with
  | none =>
    exact iff_of_true (fun _ d hd' => nomatch hd') fun _ _ => sameReading_of_none hop hchecks hd
  | some d =>
    simp only [Option.some.injEq, forall_eq', hmeets hd, hacts, true_imp_iff]

end Call

/-! ## A strand on CPU 1 -/

/-- All user memory can be read, and nothing is missing. -/
def plentiful : Surroundings := ⟨fun _ _ => true, fun _ => {}, true⟩

/-- The call `strand_create` with the administrator's token, for a strand of the caller on CPU 0. -/
def strandOnCpu0 : Args where
  a0 := 0x0020000100010001

/-- The same for CPU 1. -/
def strandOnCpu1 : Args where
  a0 := 0x0020000100010001
  a1 := 1

/-- In the booted nucleus with an administrator's capability, a strand on CPU 0 is created as it
should be: 0 stands for the caller. -/
theorem dispatch_faithful_iff_cpu0 : ∃ n, (Domain.nucleusMachine smallConfig).Reachable n ∧
    handlerTarget smallConfig n 1000 plentiful .strandCreate strandOnCpu0 = some 1000 ∧
    (validateCall smallConfig n 5 strandOnCpu0 ⟨.dom, 5, .admin, .strandCreate⟩ 1000).1 = true ∧
    Faithful smallConfig n 1000 plentiful 5 ⟨.dom, 5, .admin, .strandCreate⟩ strandOnCpu0 := by
  obtain ⟨n, hreach, hboot, hself, htarget, haccept⟩ := Domain.reachable_with
    (Q := fun n => n.nucleusPtr = domainFind smallConfig n 0 ∧
      domainFind smallConfig n (n.world.header 1000).id = some 1000 ∧
      handlerTarget smallConfig n 1000 plentiful .strandCreate strandOnCpu0 = some 1000 ∧
      (validateCall smallConfig n 5 strandOnCpu0 ⟨.dom, 5, .admin, .strandCreate⟩ 1000).1 = true)
    adminBoot (by decide +kernel)
  refine ⟨n, hreach, htarget, haccept, ?_⟩
  exact (dispatch_faithful_iff (Domain.wf_of_reachable hreach) hself hboot).mpr
    fun _ _ => .inl rfl

/-- The CPU number is taken for a domain id. Without a domain 1 the call is refused; with one, the
call is authorized for domain 1 while the strand is created in the caller. -/
theorem strand_create_misread :
    (∃ n, (Domain.nucleusMachine smallConfig).Reachable n ∧
      handlerTarget smallConfig n 1000 plentiful .strandCreate strandOnCpu1 = some 1000 ∧
      (validateCall smallConfig n 5 strandOnCpu1 ⟨.dom, 5, .admin, .strandCreate⟩ 1000).1 = false ∧
      (validateCallOn smallConfig n 5 strandOnCpu1 ⟨.dom, 5, .admin, .strandCreate⟩ 1000
        (some 1000)).1 = true) ∧
    ∃ n, (Domain.nucleusMachine smallConfig).Reachable n ∧
      handlerTarget smallConfig n 1000 plentiful .strandCreate strandOnCpu1 = some 1000 ∧
      targetDomainForOp smallConfig n 1000 .strandCreate strandOnCpu1 = some 2000 ∧
      (validateCall smallConfig n 5 strandOnCpu1 ⟨.dom, 5, .admin, .strandCreate⟩ 1000).1 =
        true := by
  constructor
  · exact Domain.reachable_with adminBoot (by decide +kernel)
  · exact Domain.reachable_with (adminBoot ++ [.domainCreate (some "init") Domain.plenty])
      (by decide +kernel)

end ZXFoundation.Dgp.Gate
