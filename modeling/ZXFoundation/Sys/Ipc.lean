import ZXFoundation.Dgp.Gate.Core
import ZXFoundation.Scoms.Generations

/-!
# Endpoints and messages

`zxfoundation/sys/ipc.zcomponent`. An endpoint leads from its owner to one peer domain and queues
the ids of at most `IPC_QUEUE_DEPTH` messages, which are objects of a second table.

The calls hold the component's lock, but `destroy_for_domain` does not take it, and the domains that
the leases depend on move without it. Each call is therefore three sections: finding the endpoint,
up to the point where everything is checked, and from there on. What is local to the call in between
stands in `System.lockHolder`. The accesses of `destroy_for_domain` to one endpoint are steps of
their own; where its runs are stands in `System.cleanups`. The outcomes of the calls to other
components are arguments.
-/

namespace ZXFoundation.Sys.Ipc

open Scoms Dgp Dgp.Cap Isolation Function

def ipcQueueDepth : Nat := 64

def ipcMessageBytes : Nat := 256

def ipcMessageCaps : Nat := 8

def ipcMessageGrants : Nat := 8

/-! ## Objects -/

/-- `message_body`. The rights next to each attachment are written and never read. -/
structure MessageBody where
  payload : Nat → UInt8
  capabilities : Nat → CapToken
  grants : Nat → MemoryObjectRef

/-- `message_object` behind its header. -/
structure MessageObject where
  senderDomain : Nat
  length : Nat
  capabilityCount : Nat
  grantCount : Nat
  body : MessageBody

/-- `endpoint_object` behind its header. `queue` is a pointer. `serial` counts the endpoints in the
order of their creation, since ids are used again. -/
structure EndpointObject where
  ownerDomain : Nat
  peerDomain : Nat
  queueHead : Nat := 0
  queueTail : Nat := 0
  queueCount : Nat := 0
  queue : Option (Nat → Nat)
  serial : Nat

/-- What a message carries from the sender to the receiver. -/
structure Delivery where
  payload : List UInt8
  capabilities : List CapToken
  grants : List MemoryObjectRef
  deriving DecidableEq, Repr

def MessageObject.delivery (msg : MessageObject) : Delivery where
  payload := (List.range msg.length).map msg.body.payload
  capabilities := (List.range msg.capabilityCount).map msg.body.capabilities
  grants := (List.range msg.grantCount).map msg.body.grants

/-! ## The component -/

/-- The capacities that `message_receive` is called with. -/
structure ReceiveBuffers where
  /-- None of the three pointers is null. -/
  present : Bool := true
  payloadCapacity : Nat
  capabilityCount : Nat
  grantCount : Nat

/-- The arguments of `message_send`; `payload` is a pointer. -/
structure SendRequest where
  payload : Option (Nat → UInt8)
  length : Nat
  capabilityCount : Nat
  grantCount : Nat

/-- The outcomes of the calls that `message_send` makes. `delegate i` stands for resolving, checking
and delegating the grant `i`. -/
structure SendAnswers where
  slot : Except KernelError Nat
  body : Bool
  duplicate : Nat → Except KernelError CapToken
  delegate : Nat → Except KernelError MemoryObjectRef

/-- A call on an endpoint, with its arguments. -/
inductive Call where
  | messageSend (caller : Addr) (endpoint : Nat) (req : SendRequest) (answers : SendAnswers)
  | messageReceive (caller : Addr) (endpoint : Nat) (buffers : ReceiveBuffers)
  | endpointDestroy (caller : Addr) (endpoint : Nat)

def Call.endpoint : Call → Nat
  | .messageSend _ endpoint _ _ => endpoint
  | .messageReceive _ endpoint _ => endpoint
  | .endpointDestroy _ endpoint => endpoint

/-- The call that holds the lock, with its local variables. -/
inductive Pending where
  /-- The endpoint has been looked up. -/
  | found (call : Call)
  | send (endpoint message : Nat) (lease : AuthorizationLease) (content : Delivery)
  | receive (endpoint message : Nat) (buffers : ReceiveBuffers)
  | destroy (endpoint : Nat) (lease : AuthorizationLease)

def Pending.endpoint : Pending → Nat
  | .found call => call.endpoint
  | .send endpoint _ _ _ => endpoint
  | .receive endpoint _ _ => endpoint
  | .destroy endpoint _ => endpoint

/-- The lease that the call consumes when it goes on. -/
def Pending.lease : Pending → Option AuthorizationLease
  | .send _ _ lease _ => some lease
  | .destroy _ lease => some lease
  | _ => none

/-- Where a run of `destroy_for_domain` is with an endpoint. -/
inductive Cleanup where
  /-- At the head of the loop. -/
  | drain
  /-- The oldest message has been looked up. -/
  | pop (m : Nat)
  /-- The head and the count have been written. -/
  | free (m : Nat)
  /-- The queue has been freed. -/
  | release
  deriving DecidableEq, Repr

/-- The two tables, the lock, and the rest of the nucleus. `cleanups` lists, for each slot, the runs
of `destroy_for_domain` that are at work on the endpoint in it. `sent` and `received` list, for each
endpoint by its serial, what the calls that returned success have handed in and out. -/
structure System where
  nucleus : Nucleus
  endpoints : Nat → Option EndpointObject := fun _ => none
  messages : Nat → Option MessageObject := fun _ => none
  lockHolder : Option Pending := none
  cleanups : Nat → List Cleanup := fun _ => []
  opened : Nat := 0
  sent : Nat → List Delivery := fun _ => []
  received : Nat → List Delivery := fun _ => []

variable (cfg : Config) (S : System)

namespace System

def setEndpoint (i : Nat) (ep : Option EndpointObject) : System :=
  { S with endpoints := update S.endpoints i ep }

def setMessage (m : Nat) (msg : Option MessageObject) : System :=
  { S with messages := update S.messages m msg }

def openEndpoint (i ownerDomain peerDomain : Nat) : System :=
  { S.setEndpoint i (some
      { ownerDomain := ownerDomain
        peerDomain := peerDomain
        queue := some fun _ => 0
        serial := S.opened }) with opened := S.opened + 1 }

def suspend (p : Pending) : System := { S with lockHolder := some p }

def unlock : System := { S with lockHolder := none }

def logSent (serial : Nat) (d : Delivery) : System :=
  { S with sent := update S.sent serial (S.sent serial ++ [d]) }

def logReceived (serial : Nat) (d : Delivery) : System :=
  { S with received := update S.received serial (S.received serial ++ [d]) }

end System

/-- The authorization of an operation on an endpoint. -/
def authorizeIpc (n : Nucleus) (caller peer : Addr) (op : OperationKind) :
    Except KernelError AuthorizationLease :=
  authorize n.world (n.domain caller).grantedRights caller peer op
    { requestedRights := IsolationRights.signal }

/-! ## Creating an endpoint -/

/-- The outcomes of the calls that `endpoint_create` makes. -/
structure CreateAnswers where
  slot : Except KernelError Nat
  queue : Bool
  attached : Bool

/-- `endpoint_create`. A lease that is no longer valid at the end makes the call fail with the
endpoint in place. -/
def endpointCreate (owner : Addr) (peerDomain : Nat)
    (answers : CreateAnswers) : Except Trap (Except KernelError Nat × System) :=
  match Gate.domainFind cfg S.nucleus peerDomain with
  | none => return (.error (.generic .notFound), S)
  | some peer =>
    match authorizeIpc S.nucleus owner peer .ipcEndpointCreate with
    | .error e => return (.error e, S)
    | .ok lease =>
      match answers.slot with
      | .error e => return (.error e, S)
      | .ok id =>
        if (S.endpoints id).isSome then .error .allocatorOverlap
        else if !answers.queue then return (.error (.memory .outOfMemory), S)
        else if !answers.attached then return (.error (.generic .invalidArg), S)
        else
          let S := S.openEndpoint id (S.nucleus.world.header owner).id peerDomain
          if (lease.consume S.nucleus.world).1 then return (.ok id, S)
          else return (.error (.generic .invalidArg), S)

/-! ## Sending -/

/-- The loop that fills an array of attachments. -/
def attachments {α : Type} (answer : Nat → Except KernelError α) :
    Nat → (Nat → α) → Except KernelError (Nat → α)
  | 0, a => .ok a
  | k + 1, a => do
    let a ← attachments answer k a
    let v ← answer k
    return update a k v

/-- The message that a request asks for, when every attachment can be made. -/
def SendRequest.content (req : SendRequest) (payload : Nat → UInt8) (answers : SendAnswers) :
    Delivery where
  payload := (List.range req.length).map payload
  capabilities := (List.range req.capabilityCount).filterMap fun i => (answers.duplicate i).toOption
  grants := (List.range req.grantCount).filterMap fun i => (answers.delegate i).toOption

variable (caller : Addr) (endpointId : Nat)

/-- `message_send` up to the activation of the message. A message that cannot be completed is
released again. -/
def messageSendPrepare (req : SendRequest) (answers : SendAnswers) :
    Except Trap (Except KernelError Unit × System) :=
  match req.payload with
  | none => return (.error (.generic .invalidArg), S)
  | some payload =>
    if req.length > ipcMessageBytes ∨ req.capabilityCount > ipcMessageCaps ∨
        req.grantCount > ipcMessageGrants then return (.error (.generic .invalidArg), S)
    else match S.endpoints endpointId with
    | none => return (.error (.generic .invalidArg), S)
    | some ep =>
      if ep.ownerDomain ≠ (S.nucleus.world.header caller).id then
        return (.error (.generic .invalidArg), S)
      else match Gate.domainFind cfg S.nucleus ep.peerDomain with
      | none => return (.error (.driver .busy), S)
      | some peer =>
        if ep.queueCount ≥ ipcQueueDepth then return (.error (.driver .busy), S)
        else match authorizeIpc S.nucleus caller peer .ipcSend, answers.slot with
        | .error e, _ => return (.error e, S)
        | .ok _, .error e => return (.error e, S)
        | .ok lease, .ok m =>
          if (S.messages m).isSome then .error .allocatorOverlap
          else if !answers.body then return (.error (.memory .outOfMemory), S)
          else
            match attachments answers.duplicate req.capabilityCount (fun _ => ⟨0⟩),
              attachments answers.delegate req.grantCount
                (fun _ => ⟨.none, kobjectIdInvalid, 0⟩) with
            | .error e, _ => return (.error e, S)
            | .ok _, .error e => return (.error e, S)
            | .ok capabilities, .ok grants =>
              let msg : MessageObject :=
                { senderDomain := (S.nucleus.world.header caller).id
                  length := req.length
                  capabilityCount := req.capabilityCount
                  grantCount := req.grantCount
                  body := ⟨payload, capabilities, grants⟩ }
              return (.ok (), (S.setMessage m (some msg)).suspend
                (.send endpointId m lease (req.content payload answers)))

/-- The end of `message_send`: the id goes into the queue, then the lease is consumed. -/
def messageSendCommit (endpointId m : Nat) (lease : AuthorizationLease)
    (content : Delivery) : Except Trap (Except KernelError Unit × System) :=
  match S.endpoints endpointId with
  | none => .error .danglingPointer
  | some ep =>
    match ep.queue with
    | none => .error .nullDereference
    | some ids =>
      let S := (S.setEndpoint endpointId (some { ep with
        queue := some (update ids ep.queueTail m)
        queueTail := Ring.slot ipcQueueDepth ep.queueTail 1
        queueCount := ep.queueCount + 1 })).unlock
      if (lease.consume S.nucleus.world).1 then return (.ok (), S.logSent ep.serial content)
      else return (.error (.generic .invalidArg), S)

/-! ## Receiving -/

/-- `message_receive` up to the first look at the message. -/
def messageReceiveLocate (buffers : ReceiveBuffers) :
    Except Trap (Except KernelError Unit × System) :=
  if !buffers.present then return (.error (.generic .invalidArg), S)
  else match S.endpoints endpointId with
  | none => return (.error (.generic .notFound), S)
  | some ep =>
    if ep.peerDomain ≠ (S.nucleus.world.header caller).id ∨ ep.queueCount = 0 then
      return (.error (.generic .notFound), S)
    else match ep.queue with
    | none => .error .nullDereference
    | some ids =>
      match S.messages (ids ep.queueHead) with
      | none => return (.error (.generic .invalidArg), S)
      | some msg =>
        if buffers.payloadCapacity < msg.length then return (.error (.generic .invalidArg), S)
        else return (.ok (), S.suspend (.receive endpointId (ids ep.queueHead) buffers))

/-- The rest of `message_receive`. The payload is copied out before the other capacities are looked
at; the attachments are taken over by setting their counts to zero before the message is
released. -/
def messageReceiveTake (endpointId m : Nat) (buffers : ReceiveBuffers) :
    Except Trap (Except KernelError Unit × System) :=
  match S.endpoints endpointId, S.messages m with
  | none, _ => .error .danglingPointer
  | some _, none => .error .danglingPointer
  | some ep, some msg =>
    if buffers.capabilityCount < msg.capabilityCount ∨ buffers.grantCount < msg.grantCount then
      return (.error (.generic .invalidArg), S.unlock)
    else
      let S := ((S.setEndpoint endpointId (some { ep with
        queueHead := Ring.slot ipcQueueDepth ep.queueHead 1
        queueCount := ep.queueCount - 1 })).setMessage m none).unlock
      return (.ok (), S.logReceived ep.serial msg.delivery)

/-! ## Destroying endpoints -/

/-- The loop that releases the queued messages. -/
def drain (ids : Nat → Nat) : Nat → Nat → (Nat → Option MessageObject) → Nat → Option MessageObject
  | 0, _, messages => messages
  | count + 1, head, messages =>
    drain ids count (Ring.slot ipcQueueDepth head 1) (update messages (ids head) none)

/-- The messages that are left when the queue of an endpoint has been emptied. -/
def EndpointObject.drained (ep : EndpointObject) (messages : Nat → Option MessageObject) :
    Nat → Option MessageObject :=
  match ep.queue with
  | none => messages
  | some ids => drain ids ep.queueCount ep.queueHead messages

/-- `endpoint_destroy` up to the authorization. -/
def endpointDestroyAuthorize : Except Trap (Except KernelError Unit × System) :=
  match S.endpoints endpointId with
  | none => return (.error (.generic .invalidArg), S)
  | some ep =>
    if ep.ownerDomain ≠ (S.nucleus.world.header caller).id then
      return (.error (.generic .invalidArg), S)
    else match Gate.domainFind cfg S.nucleus ep.peerDomain with
    | none => return (.error (.generic .notFound), S)
    | some peer =>
      match authorizeIpc S.nucleus caller peer .ipcEndpointDestroy with
      | .error e => return (.error e, S)
      | .ok lease => return (.ok (), S.suspend (.destroy endpointId lease))

/-- The end of `endpoint_destroy`. A lease that is no longer valid leaves the endpoint in its slot,
without a queue. -/
def endpointDestroyRelease (lease : AuthorizationLease) :
    Except Trap (Except KernelError Unit × System) :=
  match S.endpoints endpointId with
  | none => .error .danglingPointer
  | some ep =>
    if ep.queue.isNone ∧ ep.queueCount ≠ 0 then .error .nullDereference
    else
      let S := { S with messages := ep.drained S.messages }.unlock
      if (lease.consume S.nucleus.world).1 then return (.ok (), S.setEndpoint endpointId none)
      else return (.error (.generic .invalidArg),
        S.setEndpoint endpointId (some { ep with
          queue := none
          queueHead := Ring.slot ipcQueueDepth ep.queueHead ep.queueCount
          queueCount := 0 }))

def EndpointObject.names (ep : EndpointObject) (domain : Nat) : Bool :=
  ep.ownerDomain == domain || ep.peerDomain == domain

/-- `destroy_for_domain` comes to the slot `i`. It does not look at the lock, and an endpoint that
names the domain stays in its slot until it has been emptied. -/
def destroyForDomain (domain i : Nat) : System :=
  match S.endpoints i with
  | none => S
  | some ep =>
    if ep.names domain then
      { S with cleanups := update S.cleanups i (S.cleanups i ++ [.drain]) }
    else S

/-- The next accesses of `destroy_for_domain` to the endpoint in slot `i`, and where it is then,
unless it is done with the slot. -/
def Cleanup.next (i : Nat) (c : Cleanup) : Except Trap (Option Cleanup × System) :=
  match S.endpoints i with
  | none => .error .danglingPointer
  | some ep =>
    match c with
    | .drain =>
      match ep.queue with
      | none => return (some .release, S)
      | some ids =>
        if ep.queueCount ≠ 0 then return (some (.pop (ids ep.queueHead)), S)
        else return (some .release, S.setEndpoint i (some { ep with queue := none }))
    | .pop m =>
      return (some (.free m), S.setEndpoint i (some { ep with
        queueHead := Ring.slot ipcQueueDepth ep.queueHead 1
        queueCount := ep.queueCount - 1 }))
    | .free m => return (some .drain, S.setMessage m none)
    | .release => return (none, S.setEndpoint i none)

/-- The run `k` of `destroy_for_domain` on slot `i` goes on. -/
def cleanUp (i k : Nat) : Option System :=
  (S.cleanups i)[k]?.bind fun c => (c.next S i).toOption.map fun r =>
    { r.2 with cleanups := update S.cleanups i (match r.1 with
      | some c' => (S.cleanups i).set k c'
      | none => (S.cleanups i).eraseIdx k) }

/-!
## Delivery over whole runs

A run interleaves the sections of the calls with one another, with the accesses of
`destroy_for_domain` and with everything else the nucleus does.

Two things go wrong in such a run. A message is in the queue before the lease of its `message_send`
is consumed, and a lease that has run out makes the call report a failure without taking the message
back; in the same way `endpoint_destroy` leaves an endpoint without a queue in its slot. And
`destroy_for_domain` empties and frees the queue and the endpoint under the hands of a call, or of
another run of itself. In all other runs what has been received on an endpoint is a beginning of
what has been sent on it.
-/

open Runs Ring List Option Outcome

/-! ## Runs -/

inductive IpcOp where
  /-- Something else happens in the nucleus. -/
  | nucleus (n : Nucleus)
  | endpointCreate (owner : Addr) (peerDomain : Nat) (answers : CreateAnswers)
  /-- A call takes the lock and looks its endpoint up. -/
  | call (c : Call)
  /-- The holder of the lock goes on. -/
  | resume
  /-- `destroy_for_domain` comes to the slot `i`. -/
  | destroyForDomain (domain i : Nat)
  /-- The run `k` of `destroy_for_domain` on slot `i` goes on. -/
  | cleanUp (i k : Nat)

/-- The checks of a call. -/
def Call.check (cfg : Config) (S : System) : Call → Except Trap (Except KernelError Unit × System)
  | .messageSend caller endpoint req answers => messageSendPrepare cfg S caller endpoint req answers
  | .messageReceive caller endpoint buffers => messageReceiveLocate S caller endpoint buffers
  | .endpointDestroy caller endpoint => endpointDestroyAuthorize cfg S caller endpoint

/-- The next section of a call. What was looked up is used without another look at the table. -/
def Pending.resume (cfg : Config) (S : System) :
    Pending → Except Trap (Except KernelError Unit × System)
  | .found call => if (S.endpoints call.endpoint).isSome then call.check cfg S.unlock
      else .error .danglingPointer
  | .send endpoint m lease content => messageSendCommit S endpoint m lease content
  | .receive endpoint m buffers => messageReceiveTake S endpoint m buffers
  | .destroy endpoint lease => endpointDestroyRelease S endpoint lease

/-- The state after a section that ran to its end. -/
def after {α : Type} (r : Except Trap (α × System)) : Option System :=
  r.toOption.map Prod.snd

def System.whenFree (S : System) (next : Option System) : Option System :=
  if S.lockHolder.isNone then next else none

def IpcOp.next (cfg : Config) (S : System) : IpcOp → Option System
  | .nucleus n => some { S with nucleus := n }
  | .endpointCreate owner peerDomain answers =>
    S.whenFree (after (Ipc.endpointCreate cfg S owner peerDomain answers))
  | .call c =>
    S.whenFree (some (if (S.endpoints c.endpoint).isSome then S.suspend (.found c) else S))
  | .resume => S.lockHolder.bind fun p => after (p.resume cfg S)
  | .destroyForDomain domain i => some (Ipc.destroyForDomain S domain i)
  | .cleanUp i k => Ipc.cleanUp S i k

/-- Every interleaving, from a component without endpoints. -/
def ipcMachine (cfg : Config) : Machine System IpcOp where
  start := fun S => ∃ n, S = { nucleus := n }
  step := fun S op S' => op.next cfg S = some S'

/-- The condition on a step: a lease that is about to be consumed is valid, a call looks no endpoint
up that `destroy_for_domain` is at work on, and `destroy_for_domain` comes to no endpoint that a
call or another run of it is at work on. -/
def Undisturbed (S : System) : IpcOp → Prop
  | .call c => S.cleanups c.endpoint = []
  | .resume => ∀ lease ∈ S.lockHolder.bind Pending.lease, lease.valid S.nucleus.world = true
  | .destroyForDomain _ i => S.cleanups i = [] ∧ ∀ p ∈ S.lockHolder, p.endpoint ≠ i
  | _ => True

instance (S : System) (op : IpcOp) : Decidable (Undisturbed S op) := by
  cases op <;> unfold Undisturbed <;> infer_instance

/-! ## What the queues hold -/

def contents (messages : Nat → Option MessageObject) (l : List Nat) : List Delivery :=
  l.filterMap fun m => (messages m).map MessageObject.delivery

/-- The ring of an endpoint, if there is one, holds the ids. -/
def EndpointObject.Queues (ep : EndpointObject) (l : List Nat) : Prop :=
  match ep.queue with
  | some ids => Holds ipcQueueDepth ids ep.queueHead ep.queueTail ep.queueCount l
  | none => ep.queueCount = 0 ∧ l = []

/-- The message that has left the ring and is about to be released. -/
def Cleanup.popped : Cleanup → List Nat
  | .free m => [m]
  | _ => []

def System.popped (S : System) (i : Nat) : List Nat := (S.cleanups i).flatMap Cleanup.popped

/-- The endpoint is there, and `destroy_for_domain` is not at work on it. -/
def System.Ready (S : System) (e : Nat) : Prop := (S.endpoints e).isSome = true ∧ S.cleanups e = []

/-- The local variables of the suspended call are in order. -/
def Pending.InOrder (S : System) (q : Nat → List Nat) : Pending → Prop
  | .send endpoint m _ content => S.Ready endpoint ∧
      (∃ msg, S.messages m = some msg ∧ msg.delivery = content) ∧
      (∀ i, m ∉ q i) ∧ ∀ ep, S.endpoints endpoint = some ep → ep.queueCount < ipcQueueDepth
  | .receive endpoint m _ => S.Ready endpoint ∧ ∃ l, q endpoint = m :: l
  | p => S.Ready p.endpoint

/-- Where `destroy_for_domain` is fits the endpoint and the messages that belong to it. -/
def Cleanup.Fits (ep : EndpointObject) (l : List Nat) : Cleanup → Prop
  | .drain => ep.queue.isSome = true
  | .pop m => ep.queue.isSome = true ∧ ∃ rest, l = m :: rest
  | .free _ => ep.queue.isSome = true
  | .release => ep.queue = none

/-- The messages `q i` belong to the endpoint in slot `i`: its ring holds them, but for the one that
`destroy_for_domain` has taken out and not released yet. Every id belongs to one message and to one
endpoint. What has been sent on an endpoint is what has been received and what is queued, until
`destroy_for_domain` comes to it. -/
structure Queued (S : System) (q : Nat → List Nat) : Prop where
  queues : ∀ i ep, S.endpoints i = some ep → ∃ l, q i = S.popped i ++ l ∧ ep.Queues l
  vacant : ∀ i, S.endpoints i = none → q i = []
  present : ∀ i m, m ∈ q i → (S.messages m).isSome = true
  nodup : ∀ i, (q i).Nodup
  apart : ∀ i j m, m ∈ q i → m ∈ q j → i = j
  whole : ∀ i ep, S.endpoints i = some ep → S.cleanups i = [] → ep.queue.isSome = true
  log : ∀ i ep, S.endpoints i = some ep → S.cleanups i = [] →
    S.sent ep.serial = S.received ep.serial ++ contents S.messages (q i)
  prefixes : ∀ s, S.received s <+: S.sent s
  serial_lt : ∀ i ep, S.endpoints i = some ep → ep.serial < S.opened
  serial_inj : ∀ i j ep ep', S.endpoints i = some ep → S.endpoints j = some ep' →
    ep.serial = ep'.serial → i = j
  unopened : ∀ s, S.opened ≤ s → S.sent s = [] ∧ S.received s = []

/-- At most one run of `destroy_for_domain` is at work on a slot, and it fits what is there. -/
def Tidy (S : System) (q : Nat → List Nat) : Prop :=
  ∀ i, S.cleanups i ≠ [] → ∃ c ep, S.cleanups i = [c] ∧ S.endpoints i = some ep ∧ c.Fits ep (q i)

/-- The queues hold `q`, and the suspended call and the runs of `destroy_for_domain` can go on. -/
structure Delivers (S : System) (q : Nat → List Nat) : Prop extends Queued S q where
  tidy : Tidy S q
  pending : ∀ p, S.lockHolder = some p → p.InOrder S q

/-! ## Lists of ids -/

section Contents

variable {messages messages' : Nat → Option MessageObject} {l : List Nat}

theorem contents_congr (h : ∀ m ∈ l, messages' m = messages m) :
    contents messages' l = contents messages l := by
  unfold contents
  apply filterMap_congr
  intro m hm
  rw [h m hm]

variable {msg : MessageObject}

theorem contents_cons {m : Nat} (h : messages m = some msg) :
    contents messages (m :: l) = msg.delivery :: contents messages l := by
  simp [contents, h]

theorem contents_concat {m : Nat} (h : messages m = some msg) :
    contents messages (l ++ [m]) = contents messages l ++ [msg.delivery] := by
  simp [contents, h]

theorem drain_eq {ids : Nat → Nat} : ∀ {count head tail : Nat} {l : List Nat}
    (_ : Holds ipcQueueDepth ids head tail count l) (messages : Nat → Option MessageObject)
    (m : Nat),
    drain ids count head messages m = if m ∈ l then none else messages m := by
  intro count
  -- induction on the count, with the head moving along the ring
  induction count with
  | zero =>
    intro head tail l h messages m
    have hnil : l = [] := length_eq_zero_iff.mp h.count_eq.symm
    simp [drain, hnil]
  | succ count ih =>
    intro head tail l h messages m
    cases l with
    | nil => exact absurd h.count_eq (Nat.succ_ne_zero _)
    | cons first rest =>
    have hpop := h.pop (fun _ _ => rfl : ∀ j, j ≠ head → ids j = ids j)
    rw [drain, ih hpop, h.front]
    by_cases hm : m = first
    · simp [hm]
    · simp [hm]

theorem EndpointObject.queues_of_some {ep : EndpointObject} {ids : Nat → Nat}
    (h : ep.queue = some ids) :
    ep.Queues l ↔ Holds ipcQueueDepth ids ep.queueHead ep.queueTail ep.queueCount l := by
  rw [EndpointObject.Queues, h]

theorem EndpointObject.queues_of_none {ep : EndpointObject} (h : ep.queue = none) :
    ep.Queues l ↔ ep.queueCount = 0 ∧ l = [] := by
  rw [EndpointObject.Queues, h]

/-- The first id leaves the ring. -/
theorem EndpointObject.Queues.pop {ep : EndpointObject} {m : Nat} (h : ep.Queues (m :: l))
    (hsome : ep.queue.isSome = true) :
    ({ ep with
      queueHead := slot ipcQueueDepth ep.queueHead 1
      queueCount := ep.queueCount - 1 } : EndpointObject).Queues l := by
  obtain ⟨ids, hids⟩ := isSome_iff_exists.mp hsome
  refine (queues_of_some ?_).mpr (((queues_of_some hids).mp h).pop fun _ _ => rfl)
  exact hids

theorem EndpointObject.drained_eq {ep : EndpointObject} (h : ep.Queues l)
    (messages : Nat → Option MessageObject) (m : Nat) :
    ep.drained messages m = if m ∈ l then none else messages m := by
  unfold EndpointObject.drained
  cases hqueue : ep.queue with
  | none => simp [((queues_of_none hqueue).mp h).2]
  | some ids => exact drain_eq ((queues_of_some hqueue).mp h) messages m

end Contents

variable {α : Type}

theorem attachments_eq_ok {answer : Nat → Except KernelError α} {a a' : Nat → α} :
    ∀ {k : Nat}, attachments answer k a = .ok a' →
      (range k).map a' = (range k).filterMap fun i => (answer i).toOption := by
  intro k
  induction k generalizing a' with
  | zero => intro _; rfl
  | succ k ih =>
    intro h
    rw [attachments] at h
    cases hrest : attachments answer k a with
    | error e => simp [hrest, bind, Except.bind] at h
    | ok b =>
    cases hlast : answer k with
    | error e => simp [hrest, hlast, bind, Except.bind] at h
    | ok v =>
    simp only [hrest, hlast, bind, Except.bind, pure, Except.pure, Except.ok.injEq] at h
    subst h
    -- the last write is behind the entries of the shorter loop
    have hkeep : (range k).map (update b k v) = (range k).map b := by
      apply map_congr_left
      intro i hi
      exact update_of_ne (Nat.ne_of_lt (mem_range.mp hi)) ..
    rw [range_succ, map_append, filterMap_append, hkeep, ih hrest]
    simp [hlast, Except.toOption]

/-! ## Steps on the queues -/

variable {ep : EndpointObject} {new : Option EndpointObject} {i : Nat} {S : System}

theorem popped_clear (hclear : S.cleanups i = []) : S.popped i = [] := by
  rw [System.popped, hclear, flatMap_nil]

theorem owned_clear {l : List Nat} (hclear : S.cleanups i = []) (h : ep.Queues l) :
    ∃ l', l = S.popped i ++ l' ∧ ep.Queues l' :=
  ⟨l, by rw [popped_clear hclear, nil_append], h⟩

namespace Queued

variable {S : System} {q : Nat → List Nat} (h : Queued S q)
include h

theorem unlock (htidy : Tidy S q) : Delivers S.unlock q where
  toQueued := { h with }
  tidy := htidy
  pending := fun _ hp => nomatch hp

theorem suspend (htidy : Tidy S q) {p : Pending} (hp : p.InOrder S q) :
    Delivers (S.suspend p) q where
  toQueued := { h with }
  tidy := htidy
  pending := by
    rintro p' ⟨rfl⟩
    cases p <;> exact hp

theorem setMessage {m : Nat} (hfree : S.messages m = none) {msg : MessageObject} :
    Queued (S.setMessage m (some msg)) q ∧ ∀ i, m ∉ q i := by
  have hnot : ∀ i, m ∉ q i := by
    intro i hm
    have hsome := h.present i m hm
    rw [hfree] at hsome
    cases hsome
  have hkeep : ∀ i, ∀ m' ∈ q i, (S.setMessage m (some msg)).messages m' = S.messages m' := by
    intro i m' hm'
    have hne : m' ≠ m := by
      rintro rfl
      exact hnot i hm'
    exact update_of_ne hne ..
  refine ⟨⟨h.queues, h.vacant, ?_, h.nodup, h.apart, h.whole, ?_, h.prefixes, h.serial_lt,
    h.serial_inj, h.unopened⟩, hnot⟩
  · intro i m' hm'
    rw [hkeep i m' hm']
    exact h.present i m' hm'
  · intro i ep hep hclear
    rw [contents_congr (hkeep i)]
    exact h.log i ep hep hclear

theorem serial_ne (hep : S.endpoints i = some ep) (j : Nat) (ep' : EndpointObject)
    (hj : j ≠ i) (hep' : S.endpoints j = some ep') :
    ep'.serial ≠ ep.serial := fun heq => hj (h.serial_inj j i ep' ep hep' hep heq)

/-- The slot `i` changes, together with its queue and the log of `serial`. -/
theorem replace {S' : System} {serial : Nat} {l : List Nat}
    (hserial : ∀ j ep', j ≠ i → S.endpoints j = some ep' → ep'.serial ≠ serial)
    (hend : S'.endpoints = update S.endpoints i new)
    (hclean : ∀ j, j ≠ i → S'.cleanups j = S.cleanups j)
    (hnew : ∀ ep', new = some ep' → ep'.serial = serial ∧
      (∃ l', l = S'.popped i ++ l' ∧ ep'.Queues l') ∧
      (S'.cleanups i = [] → ep'.queue.isSome = true ∧
        S'.sent serial = S'.received serial ++ contents S'.messages l))
    (hgone : new = none → l = [])
    (hahead : S'.received serial <+: S'.sent serial) (hnodup : l.Nodup)
    (hl : ∀ m ∈ l, (S'.messages m).isSome = true ∧ ∀ j, j ≠ i → m ∉ q j)
    (hmessages : ∀ j, j ≠ i → ∀ m ∈ q j, S'.messages m = S.messages m)
    (hlogs : ∀ s, s ≠ serial → S'.sent s = S.sent s ∧ S'.received s = S.received s)
    (hlt : serial < S'.opened) (hopened : S.opened ≤ S'.opened) : Queued S' (update q i l) := by
  have hthis : S'.endpoints i = new := hend ▸ update_self ..
  replace hnew := hthis ▸ hnew
  have hothers : ∀ j, j ≠ i → S'.endpoints j = S.endpoints j :=
    fun j hj => hend ▸ update_of_ne hj ..
  have hself : update q i l i = l := update_self ..
  have hq : ∀ {j}, j ≠ i → update q i l j = q j := fun hj => update_of_ne hj ..
  constructor
  · refine (forall_update_iff q fun j l => ∀ ep', S'.endpoints j = some ep' →
      ∃ l', l = S'.popped j ++ l' ∧ ep'.Queues l').mpr ⟨fun ep' hep' => (hnew ep' hep').2.1, ?_⟩
    intro j hj ep' hep'
    unfold System.popped
    rw [hclean j hj]
    exact h.queues j ep' (hothers j hj ▸ hep')
  · exact (forall_update_iff q fun j l => S'.endpoints j = none → l = []).mpr
      ⟨hthis ▸ hgone, fun j hj hnone => h.vacant j (hothers j hj ▸ hnone)⟩
  · exact (forall_update_iff q fun j l => ∀ m, m ∈ l → (S'.messages m).isSome = true).mpr
      ⟨fun m hm => (hl m hm).1, fun j hj m hm => (hmessages j hj m hm).symm ▸ h.present j m hm⟩
  · exact (forall_update_iff q fun _ l => l.Nodup).mpr ⟨hnodup, fun j _ => h.nodup j⟩
  · intro j k m hm hm'
    -- only a pair with the changed slot is new
    by_cases hj : j = i <;> by_cases hk : k = i
    · rw [hj, hk]
    · subst hj
      rw [hself] at hm
      rw [hq hk] at hm'
      exact absurd hm' ((hl m hm).2 k hk)
    · subst hk
      rw [hq hj] at hm
      rw [hself] at hm'
      exact absurd hm ((hl m hm').2 j hj)
    · rw [hq hj] at hm
      rw [hq hk] at hm'
      exact h.apart j k m hm hm'
  · intro j ep' hep' hclear
    by_cases hj : j = i
    · subst hj
      exact ((hnew ep' hep').2.2 hclear).1
    · exact h.whole j ep' (hothers j hj ▸ hep') (hclean j hj ▸ hclear)
  · intro j ep' hep' hclear
    by_cases hj : j = i
    · subst hj
      obtain ⟨heq, -, hlog⟩ := hnew ep' hep'
      rw [hself, heq]
      exact (hlog hclear).2
    · have hold : S.endpoints j = some ep' := hothers j hj ▸ hep'
      obtain ⟨hsent, hreceived⟩ := hlogs _ (hserial j ep' hj hold)
      rw [hq hj, hsent, hreceived, contents_congr (hmessages j hj)]
      exact h.log j ep' hold (hclean j hj ▸ hclear)
  · intro s
    by_cases hs : s = serial
    · subst hs
      exact hahead
    · obtain ⟨hsent, hreceived⟩ := hlogs s hs
      rw [hsent, hreceived]
      exact h.prefixes s
  · intro j ep' hep'
    by_cases hj : j = i
    · subst hj
      rw [(hnew ep' hep').1]
      exact hlt
    · exact Nat.lt_of_lt_of_le (h.serial_lt j ep' (hothers j hj ▸ hep')) hopened
  · intro j k ep₁ ep₂ hep₁ hep₂ heq
    by_cases hj : j = i <;> by_cases hk : k = i
    · rw [hj, hk]
    · subst hj
      rw [(hnew ep₁ hep₁).1] at heq
      exact absurd heq.symm (hserial k ep₂ hk (hothers k hk ▸ hep₂))
    · subst hk
      rw [(hnew ep₂ hep₂).1] at heq
      exact absurd heq (hserial j ep₁ hj (hothers j hj ▸ hep₁))
    · exact h.serial_inj j k ep₁ ep₂ (hothers j hj ▸ hep₁) (hothers k hk ▸ hep₂) heq
  · intro s hs
    obtain ⟨hsent, hreceived⟩ := hlogs s (Nat.ne_of_gt (Nat.lt_of_lt_of_le hlt hs))
    rw [hsent, hreceived]
    exact h.unopened s (Nat.le_trans hopened hs)

/-- An endpoint is created in a free slot, with a serial that nothing has been logged for. -/
theorem openEndpoint (hfree : S.endpoints i = none) (hclear : S.cleanups i = [])
    {ownerDomain peerDomain : Nat} : Queued (S.openEndpoint i ownerDomain peerDomain) q := by
  have hq : update q i [] = q := by rw [← h.vacant i hfree, update_eq_self]
  obtain ⟨hsent, hreceived⟩ := h.unopened S.opened (Nat.le_refl _)
  rw [← hq]
  refine h.replace (fun j ep' _ hep' => Nat.ne_of_lt (h.serial_lt j ep' hep')) rfl
    (fun _ _ => rfl) ?_
    (fun _ => rfl) (h.prefixes _) nodup_nil (fun m hm => absurd hm not_mem_nil) (fun _ _ _ _ => rfl)
    (fun _ _ => ⟨rfl, rfl⟩) (Nat.lt_succ_self _) (Nat.le_succ _)
  rintro ep' ⟨rfl⟩
  refine ⟨rfl, owned_clear hclear (holds_nil (by decide)), fun _ => ⟨rfl, ?_⟩⟩
  show S.sent S.opened = S.received S.opened ++ contents S.messages []
  rw [hsent, hreceived]
  rfl

section Endpoint

variable {e m : Nat} {ep : EndpointObject} {ids : Nat → Nat} {msg : MessageObject} {l : List Nat}
  (hep : S.endpoints e = some ep) (hclear : S.cleanups e = [])
include hep hclear

theorem queues_clear : ep.Queues (q e) := by
  obtain ⟨l, hq, hqueues⟩ := h.queues e ep hep
  rw [popped_clear hclear, nil_append] at hq
  rwa [hq]

theorem holds (hids : ep.queue = some ids) :
    Holds ipcQueueDepth ids ep.queueHead ep.queueTail ep.queueCount (q e) :=
  (EndpointObject.queues_of_some hids).mp (h.queues_clear hep hclear)

/-- The id of a new message goes to the end of the ring, and the send is logged. -/
theorem push (hids : ep.queue = some ids)
    (hroom : ep.queueCount < ipcQueueDepth) (hmsg : S.messages m = some msg) (hnot : ∀ i, m ∉ q i) :
    Queued (((S.setEndpoint e (some { ep with
      queue := some (update ids ep.queueTail m)
      queueTail := slot ipcQueueDepth ep.queueTail 1
      queueCount := ep.queueCount + 1 })).unlock).logSent ep.serial msg.delivery)
      (update q e (q e ++ [m])) := by
  have hholds := h.holds hep hclear hids
  have hlog := h.log e ep hep hclear
  have hsent : (S.logSent ep.serial msg.delivery).sent ep.serial =
      S.sent ep.serial ++ [msg.delivery] := update_self ..
  refine h.replace (h.serial_ne hep) rfl (fun _ _ => rfl) ?_
    (fun hgone => nomatch hgone) ?_ ?_ ?_ ?_ ?_
    (h.serial_lt e ep hep) (Nat.le_refl _)
  · rintro ep' ⟨rfl⟩
    refine ⟨rfl, owned_clear hclear (hholds.push (hholds.count_eq ▸ hroom)), fun _ => ⟨rfl, ?_⟩⟩
    show (S.logSent ep.serial msg.delivery).sent ep.serial =
      S.received ep.serial ++ contents S.messages (q e ++ [m])
    rw [hsent, hlog, contents_concat hmsg, append_assoc]
  · show S.received ep.serial <+: (S.logSent ep.serial msg.delivery).sent ep.serial
    rw [hsent]
    exact (h.prefixes _).trans (List.prefix_append _ _)
  · refine List.Nodup.append (h.nodup e) (nodup_singleton m) ?_
    intro x hx hxm
    rw [mem_singleton.mp hxm] at hx
    exact hnot e hx
  · intro x hx
    rcases mem_append.mp hx with hx | hx
    · exact ⟨h.present e x hx, fun j hj hxj => hj (h.apart j e x hxj hx)⟩
    · rw [mem_singleton.mp hx]
      exact ⟨isSome_iff_exists.mpr ⟨msg, hmsg⟩, fun j _ => hnot j⟩
  · exact fun _ _ _ _ => rfl
  · exact fun s hs => ⟨update_of_ne hs .., rfl⟩

/-- The oldest message is taken out and released, and the receive is logged. -/
theorem take (hmsg : S.messages m = some msg) (hq : q e = m :: l) :
    Queued ((((S.setEndpoint e (some { ep with
      queueHead := slot ipcQueueDepth ep.queueHead 1
      queueCount := ep.queueCount - 1 })).setMessage m none).unlock).logReceived ep.serial
        msg.delivery) (update q e l) := by
  have hlog := h.log e ep hep hclear
  have hnodup := h.nodup e
  rw [hq] at hnodup
  rw [hq, contents_cons hmsg] at hlog
  have hnot : m ∉ l := (nodup_cons.mp hnodup).1
  have hreceived : (S.logReceived ep.serial msg.delivery).received ep.serial =
      S.received ep.serial ++ [msg.delivery] := update_self ..
  have hkeep : ∀ x, x ≠ m → (S.setMessage m none).messages x = S.messages x :=
    fun x hx => update_of_ne hx ..
  have hlist : ∀ x ∈ l, x ≠ m ∧ x ∈ q e := by
    intro x hx
    refine ⟨fun heq => hnot (heq ▸ hx), ?_⟩
    rw [hq]
    exact mem_cons_of_mem _ hx
  refine h.replace (h.serial_ne hep) rfl (fun _ _ => rfl) ?_
    (fun hgone => nomatch hgone) ?_ ?_ ?_ ?_ ?_
    (h.serial_lt e ep hep) (Nat.le_refl _)
  · rintro ep' ⟨rfl⟩
    have hwhole := h.whole e ep hep hclear
    refine ⟨rfl, owned_clear hclear ?_, fun _ => ⟨hwhole, ?_⟩⟩
    · exact (hq ▸ h.queues_clear hep hclear : ep.Queues (m :: l)).pop hwhole
    · show S.sent ep.serial = (S.logReceived ep.serial msg.delivery).received ep.serial ++
        contents (S.setMessage m none).messages l
      rw [hreceived, contents_congr fun x hx => hkeep x (hlist x hx).1, hlog, append_assoc]
      rfl
  · show (S.logReceived ep.serial msg.delivery).received ep.serial <+: S.sent ep.serial
    rw [hreceived, hlog]
    exact ⟨contents S.messages l, by simp⟩
  · exact (nodup_cons.mp hnodup).2
  · intro x hx
    obtain ⟨hxm, hxq⟩ := hlist x hx
    refine ⟨?_, fun j hj hxj => hj (h.apart j e x hxj hxq)⟩
    show ((S.setMessage m none).messages x).isSome = true
    rw [hkeep x hxm]
    exact h.present e x hxq
  · intro j hj x hx
    refine hkeep x fun heq => hj (h.apart j e x hx ?_)
    rw [hq, heq]
    exact mem_cons_self
  · exact fun s hs => ⟨rfl, update_of_ne hs ..⟩

/-- The endpoint goes, with the messages in its queue. -/
theorem close :
    Queued ({ S with messages := ep.drained S.messages }.setEndpoint e none) (update q e []) := by
  refine h.replace (h.serial_ne hep) rfl (fun _ _ => rfl) nofun (fun _ => rfl)
    (h.prefixes _) nodup_nil
    (fun m hm => absurd hm (not_mem_nil)) ?_ (fun _ _ => ⟨rfl, rfl⟩) (h.serial_lt e ep hep)
    (Nat.le_refl _)
  intro j hj m hm
  show ep.drained S.messages m = S.messages m
  rw [EndpointObject.drained_eq (h.queues_clear hep hclear), if_neg]
  exact fun hme => hj (h.apart j e m hm hme)

end Endpoint

end Queued

/-! ## What the sections do -/

section Sections

variable {cfg : Config} {S S' : System} {caller : Addr} {e : Nat}

theorem endpointCreate_cases {peerDomain : Nat} {answers : CreateAnswers}
    {r : Except KernelError Nat}
    (h : endpointCreate cfg S caller peerDomain answers = .ok (r, S')) :
    S' = S ∨ ∃ i ownerDomain, S.endpoints i = none ∧
      S' = S.openEndpoint i ownerDomain peerDomain := by
  unfold endpointCreate at h
  split at h
  · exact .inl (by cases h; rfl)
  split at h
  · exact .inl (by cases h; rfl)
  split at h
  · exact .inl (by cases h; rfl)
  next i _ =>
  split_ifs at h with hused
  · exact .inl (by cases h; rfl)
  · exact .inl (by cases h; rfl)
  -- the endpoint stays, whatever becomes of the lease
  refine .inr ⟨i, (S.nucleus.world.header caller).id, not_isSome_iff_eq_none.mp hused, ?_⟩
  dsimp only at h
  split at h <;> cases h <;> rfl

variable {r : Except KernelError Unit}

theorem messageSendPrepare_cases {req : SendRequest} {answers : SendAnswers}
    (h : messageSendPrepare cfg S caller e req answers = .ok (r, S')) :
    S' = S ∨ ∃ ep m msg lease, S.endpoints e = some ep ∧ ep.queueCount < ipcQueueDepth ∧
      S.messages m = none ∧
      S' = (S.setMessage m (some msg)).suspend (.send e m lease msg.delivery) := by
  unfold messageSendPrepare at h
  split at h
  · exact .inl (by cases h; rfl)
  next payload _ =>
  split at h
  · exact .inl (by cases h; rfl)
  split at h
  · exact .inl (by cases h; rfl)
  next ep hep =>
  split at h
  · exact .inl (by cases h; rfl)
  split at h
  · exact .inl (by cases h; rfl)
  split at h
  · exact .inl (by cases h; rfl)
  next hroom =>
  split at h
  · exact .inl (by cases h; rfl)
  · exact .inl (by cases h; rfl)
  next lease m _ _ =>
  split_ifs at h with hused
  · exact .inl (by cases h; rfl)
  split at h
  · exact .inl (by cases h; rfl)
  · exact .inl (by cases h; rfl)
  next capabilities grants hcaps hgrants =>
  cases h
  -- the message holds what the log will say was sent
  have hcontent : req.content payload answers =
      MessageObject.delivery ⟨(S.nucleus.world.header caller).id, req.length, req.capabilityCount,
        req.grantCount, ⟨payload, capabilities, grants⟩⟩ := by
    rw [SendRequest.content, ← attachments_eq_ok hcaps, ← attachments_eq_ok hgrants]
    rfl
  rw [hcontent]
  exact .inr ⟨ep, m, _, lease, hep, Nat.lt_of_not_le hroom, not_isSome_iff_eq_none.mp hused, rfl⟩

theorem messageReceiveLocate_cases {buffers : ReceiveBuffers}
    (h : messageReceiveLocate S caller e buffers = .ok (r, S')) :
    (∃ err, r = .error err) ∧ S' = S ∨ ∃ ep ids msg, S.endpoints e = some ep ∧ ep.queueCount ≠ 0 ∧
      ep.queue = some ids ∧ S.messages (ids ep.queueHead) = some msg ∧ r = .ok () ∧
      S' = S.suspend (.receive e (ids ep.queueHead) buffers) := by
  unfold messageReceiveLocate at h
  split at h
  · exact .inl (by cases h; exact ⟨⟨_, rfl⟩, rfl⟩)
  split at h
  · exact .inl (by cases h; exact ⟨⟨_, rfl⟩, rfl⟩)
  next ep hep =>
  split at h
  · exact .inl (by cases h; exact ⟨⟨_, rfl⟩, rfl⟩)
  next hnot =>
  split at h
  · cases h
  next ids hids =>
  split at h
  · exact .inl (by cases h; exact ⟨⟨_, rfl⟩, rfl⟩)
  next msg hmsg =>
  split at h
  · exact .inl (by cases h; exact ⟨⟨_, rfl⟩, rfl⟩)
  · cases h
    exact .inr ⟨ep, ids, msg, hep, fun hzero => hnot (.inr hzero), hids, hmsg, rfl, rfl⟩

theorem endpointDestroyAuthorize_cases (h : endpointDestroyAuthorize cfg S caller e = .ok (r, S')) :
    S' = S ∨ ∃ lease, S' = S.suspend (.destroy e lease) := by
  unfold endpointDestroyAuthorize at h
  split at h
  · exact .inl (by cases h; rfl)
  split at h
  · exact .inl (by cases h; rfl)
  split at h
  · exact .inl (by cases h; rfl)
  split at h
  · exact .inl (by cases h; rfl)
  · next lease _ =>
    cases h
    exact .inr ⟨lease, rfl⟩

end Sections

/-! ## Steps of a run -/

section Steps

variable {cfg : Config} {S S' : System} {q : Nat → List Nat} {e m : Nat}

theorem after_eq_some {r : Except Trap (α × System)} (h : after r = some S') :
    ∃ a, r = .ok (a, S') := by
  unfold after at h
  cases r with
  | error t => cases h
  | ok p =>
    cases h
    exact ⟨p.1, rfl⟩

theorem whenFree_eq_some {next : Option System} (h : S.whenFree next = some S') :
    S.lockHolder = none ∧ next = some S' := by
  obtain ⟨hfree, hnext⟩ := ite_none_right_eq_some.mp h
  exact ⟨isNone_iff_eq_none.mp hfree, hnext⟩

theorem consume_of_valid {lease : AuthorizationLease} {w : World} (h : lease.valid w = true) :
    (lease.consume w).1 = true := by
  unfold AuthorizationLease.consume
  rw [if_pos h]

theorem Queued.idle (h : Queued S q) (htidy : Tidy S q) (hfree : S.lockHolder = none) :
    Delivers S q where
  toQueued := h
  tidy := htidy
  pending := by
    intro p hp
    rw [hfree] at hp
    cases hp

/-- What a call does to an endpoint that no `destroy_for_domain` is at work on leaves the others as
they are. -/
theorem Tidy.call {q' : Nat → List Nat} {new : Option EndpointObject} (h : Tidy S q)
    (hclear : S.cleanups e = []) (hclean : S'.cleanups = S.cleanups)
    (hend : S'.endpoints = update S.endpoints e new) (hq : ∀ i, i ≠ e → q' i = q i) :
    Tidy S' q' := by
  intro i hi
  rw [hclean] at hi
  have hne : i ≠ e := by
    rintro rfl
    exact hi hclear
  rw [hclean, hend, update_of_ne hne, hq i hne]
  exact h i hi

theorem Delivers.setNucleus (h : Delivers S q) {n : Nucleus} :
    Delivers { S with nucleus := n } q where
  toQueued := { h with }
  tidy := h.tidy
  pending := by
    intro p hp
    cases p <;> exact h.pending _ hp

theorem Pending.InOrder.ready {p : Pending} (h : p.InOrder S q) : S.Ready p.endpoint := by
  cases p with
  | found call => exact h
  | send e m lease content => exact h.1
  | receive e m buffers => exact h.1
  | destroy e lease => exact h

theorem Pending.resume_found {call : Call} (h : S.Ready call.endpoint) :
    (Pending.found call).resume cfg S = call.check cfg S.unlock :=
  if_pos h.1

/-- One step of the only run of `destroy_for_domain` at work on the slot. -/
theorem cleanUp_eq_some {c : Cleanup} {k : Nat} (hone : S.cleanups i = [c])
    (hstep : Ipc.cleanUp S i k = some S') : ∃ c' S₁, c.next S i = .ok (c', S₁) ∧
      S' = { S₁ with cleanups := update S.cleanups i c'.toList } := by
  unfold Ipc.cleanUp at hstep
  rw [hone] at hstep
  cases k with
  | succ k => cases hstep
  | zero =>
  cases hrun : c.next S i with
  | error t => simp [hrun, Except.toOption] at hstep
  | ok r =>
  obtain ⟨c', S₁⟩ := r
  refine ⟨c', S₁, rfl, ?_⟩
  cases c' <;> simp [hrun, Except.toOption] at hstep <;> exact hstep.symm

variable {r : Except KernelError Unit}

variable (h : Delivers S q)
include h

variable {lease : AuthorizationLease}

theorem Delivers.clear_of_vacant (hvacant : S.endpoints i = none) : S.cleanups i = [] := by
  by_contra hbusy
  obtain ⟨c, ep, -, hep, -⟩ := h.tidy i hbusy
  rw [hvacant] at hep
  cases hep

theorem Delivers.check {call : Call} (hready : S.Ready call.endpoint)
    (hrun : call.check cfg S = .ok (r, S')) : ∃ q', Delivers S' q' := by
  obtain ⟨hsome, hclear⟩ := hready
  cases call with
  | messageSend caller e req answers =>
    rcases messageSendPrepare_cases hrun with rfl | ⟨ep, m, msg, lease, hep, hroom, hvacant, rfl⟩
    · exact ⟨q, h⟩
    obtain ⟨hqueued, hnot⟩ := h.setMessage hvacant
    refine ⟨q, hqueued.suspend h.tidy
      ⟨⟨hsome, hclear⟩, ⟨msg, update_self .., rfl⟩, hnot, fun ep' hep' => ?_⟩⟩
    cases hep.symm.trans hep'
    exact hroom
  | messageReceive caller e buffers =>
    rcases messageReceiveLocate_cases hrun with ⟨-, rfl⟩ | ⟨ep, ids, msg, hep, hcount, hids,
      -, -, rfl⟩
    · exact ⟨q, h⟩
    have hholds := h.holds hep hclear hids
    -- the queue is not empty, and its first entry is the one that was looked up
    obtain ⟨first, l, hq⟩ := exists_cons_of_length_pos
      (Nat.pos_of_ne_zero (hholds.count_eq ▸ hcount))
    rw [hq] at hholds
    exact ⟨q, h.toQueued.suspend h.tidy ⟨⟨hsome, hclear⟩, l, by rw [hq, hholds.front]⟩⟩
  | endpointDestroy caller e =>
    rcases endpointDestroyAuthorize_cases hrun with rfl | ⟨lease, rfl⟩
    · exact ⟨q, h⟩
    · exact ⟨q, h.toQueued.suspend h.tidy (show S.Ready e from ⟨hsome, hclear⟩)⟩

theorem Delivers.messageSendCommit {content : Delivery}
    (hlock : S.lockHolder = some (.send e m lease content))
    (hlease : lease.valid S.nucleus.world = true)
    (hrun : Ipc.messageSendCommit S e m lease content = .ok (r, S')) : ∃ q', Delivers S' q' := by
  obtain ⟨⟨-, hclear⟩, ⟨msg, hmsg, rfl⟩, hnot, hroom⟩ := h.pending _ hlock
  unfold Ipc.messageSendCommit at hrun
  split at hrun
  · cases hrun
  next ep hep =>
  split at hrun
  · cases hrun
  next ids hids =>
  dsimp only at hrun
  split at hrun
  · cases hrun
    exact ⟨_, (h.push hep hclear hids (hroom ep hep) hmsg hnot).idle
      (h.tidy.call hclear rfl rfl fun i hi => update_of_ne hi ..) rfl⟩
  · next hvoid => exact absurd (consume_of_valid hlease) hvoid

theorem Delivers.messageReceiveTake {buffers : ReceiveBuffers}
    (hlock : S.lockHolder = some (.receive e m buffers))
    (hrun : Ipc.messageReceiveTake S e m buffers = .ok (r, S')) : ∃ q', Delivers S' q' := by
  obtain ⟨⟨-, hclear⟩, l, hq⟩ := h.pending _ hlock
  unfold Ipc.messageReceiveTake at hrun
  split at hrun
  · cases hrun
  · cases hrun
  next ep msg hep hmsg =>
  split at hrun
  · cases hrun
    exact ⟨q, h.toQueued.unlock h.tidy⟩
  · cases hrun
    exact ⟨_, (h.take hep hclear hmsg hq).idle
      (h.tidy.call hclear rfl rfl fun i hi => update_of_ne hi ..) rfl⟩

theorem Delivers.endpointDestroyRelease (hlock : S.lockHolder = some (.destroy e lease))
    (hlease : lease.valid S.nucleus.world = true)
    (hrun : Ipc.endpointDestroyRelease S e lease = .ok (r, S')) : ∃ q', Delivers S' q' := by
  obtain ⟨-, hclear⟩ : S.Ready e := h.pending _ hlock
  unfold Ipc.endpointDestroyRelease at hrun
  split at hrun
  · cases hrun
  next ep hep =>
  split_ifs at hrun
  dsimp only at hrun
  split at hrun
  · cases hrun
    exact ⟨_, (h.close hep hclear).unlock
      (h.tidy.call hclear rfl rfl fun i hi => update_of_ne hi ..)⟩
  · next hvoid => exact absurd (consume_of_valid hlease) hvoid

/-! What `destroy_for_domain` does. The suspended call works on another endpoint and keeps what it
needs. -/

theorem Delivers.clean {e : Option EndpointObject} {f : Nat → Option MessageObject}
    {c : Option Cleanup} {l : List Nat} (hep : S.endpoints i = some ep)
    (hfree : ∀ p, S.lockHolder = some p → p.endpoint ≠ i) (hsuffix : l <:+ q i)
    (hmessages : ∀ m, m ∈ l ∨ m ∉ q i → f m = S.messages m)
    (hgone : c = none → e = none ∧ l = [])
    (hnext : ∀ c', c = some c' → ∃ ep' l', e = some ep' ∧ ep'.serial = ep.serial ∧
      l = c'.popped ++ l' ∧ ep'.Queues l' ∧ c'.Fits ep' l) :
    Delivers { S with
      endpoints := update S.endpoints i e
      messages := f
      cleanups := update S.cleanups i c.toList } (update q i l) := by
  have hother : ∀ j, j ≠ i → ∀ m ∈ q j, f m = S.messages m :=
    fun j hj m hm => hmessages m (.inr fun hmi => hj (h.apart j i m hm hmi))
  refine ⟨h.replace (h.serial_ne hep) rfl (fun j hj => update_of_ne hj ..) ?_ ?_ (h.prefixes _)
    (h.nodup i |>.sublist hsuffix.sublist) ?_ hother (fun _ _ => ⟨rfl, rfl⟩) (h.serial_lt i ep hep)
    (Nat.le_refl _), ?_, ?_⟩
  · rintro ep' rfl
    cases c with
    | none => exact nomatch (hgone rfl).1
    | some c' =>
    obtain ⟨_, l', ⟨rfl⟩, hserial, hl, hqueues, -⟩ := hnext c' rfl
    refine ⟨hserial, ⟨l', ?_, hqueues⟩, fun hclear => ?_⟩
    · simp [System.popped, hl]
    · simp at hclear
  · rintro rfl
    cases c with
    | none => exact (hgone rfl).2
    | some c' =>
    obtain ⟨_, _, hnew, -⟩ := hnext c' rfl
    cases hnew
  · intro m hm
    have hmi := hsuffix.subset hm
    refine ⟨?_, fun j hj hmj => hj (h.apart j i m hmj hmi)⟩
    show (f m).isSome = true
    rw [hmessages m (.inl hm)]
    exact h.present i m hmi
  · intro j
    by_cases hj : j = i
    · subst hj
      simp only [update_self]
      intro hbusy
      cases c with
      | none => exact absurd rfl hbusy
      | some c' =>
      obtain ⟨ep', _, hnew, -, -, -, hfits⟩ := hnext c' rfl
      exact ⟨c', ep', rfl, hnew, hfits⟩
    · simp only [update_of_ne hj]
      exact h.tidy j
  · intro p hp
    -- what the call has found is in another slot, and none of its messages is released
    have hne := hfree p hp
    have hold := h.pending p hp
    have hready : S.Ready p.endpoint → System.Ready { S with
        endpoints := update S.endpoints i e
        messages := f
        cleanups := update S.cleanups i c.toList } p.endpoint := by
      simp only [System.Ready, update_of_ne hne, imp_self]
    have hsub : ∀ {m}, (∀ j, m ∉ q j) → ∀ j, m ∉ update q i l j :=
      fun hnot j => update_cases (motive := fun _ l => _ ∉ l) j
        (fun hm => hnot i (hsuffix.subset hm)) fun j _ => hnot j
    cases p with
    | found call => exact hready hold
    | destroy e lease => exact hready hold
    | receive e m buffers =>
      refine ⟨hready hold.1, ?_⟩
      rw [show update q i l e = q e from update_of_ne hne ..]
      exact hold.2
    | send e m lease content =>
      obtain ⟨hold, ⟨msg, hmsg, hcontent⟩, hnot, hroom⟩ := hold
      refine ⟨hready hold, ⟨msg, ?_, hcontent⟩, hsub hnot, fun ep' hep' => hroom ep' ?_⟩
      · exact (hmessages m (.inr (hnot i))).trans hmsg
      · exact (update_of_ne (f := S.endpoints) hne _).symm.trans hep'

theorem Delivers.destroyForDomain {domain : Nat} (hclear : S.cleanups i = [])
    (hfree : ∀ p, S.lockHolder = some p → p.endpoint ≠ i) :
    ∃ q', Delivers (Ipc.destroyForDomain S domain i) q' := by
  unfold Ipc.destroyForDomain
  split
  · exact ⟨q, h⟩
  next ep hep =>
  split_ifs
  · have hclean := h.clean (e := some ep) (f := S.messages) (c := some .drain) hep hfree
      (List.suffix_refl _) (fun _ _ => rfl) nofun (by
        rintro c' ⟨rfl⟩
        exact ⟨ep, q i, rfl, rfl, rfl, h.queues_clear hep hclear, h.whole i ep hep hclear⟩)
    rw [← hep, update_eq_self] at hclean
    rw [hclear]
    exact ⟨_, hclean⟩
  · exact ⟨q, h⟩

theorem Delivers.cleanUp {k : Nat} (hstep : Ipc.cleanUp S i k = some S') :
    ∃ q', Delivers S' q' := by
  have hbusy : S.cleanups i ≠ [] := by
    intro hclear
    simp [Ipc.cleanUp, hclear] at hstep
  obtain ⟨c, ep, hone, hep, hfits⟩ := h.tidy i hbusy
  obtain ⟨l, hq, hqueues⟩ := h.queues i ep hep
  obtain ⟨c', S₁, hrun, rfl⟩ := cleanUp_eq_some hone hstep
  have hfree : ∀ p, S.lockHolder = some p → p.endpoint ≠ i := by
    rintro p hp rfl
    exact hbusy (h.pending p hp).ready.2
  rw [System.popped, hone, flatMap_singleton] at hq
  unfold Cleanup.next at hrun
  rw [hep] at hrun
  have hsame : update S.endpoints i (some ep) = S.endpoints := by rw [← hep, update_eq_self]
  cases c with
  | drain =>
    obtain ⟨ids, hids⟩ := isSome_iff_exists.mp hfits
    have hholds : Holds ipcQueueDepth ids ep.queueHead ep.queueTail ep.queueCount (q i) :=
      hq ▸ (EndpointObject.queues_of_some hids).mp hqueues
    simp only [hids] at hrun
    split_ifs at hrun with hcount
    · cases hrun
      obtain ⟨first, rest, hcons⟩ := exists_cons_of_length_pos
        (Nat.pos_of_ne_zero (hholds.count_eq ▸ hcount))
      have hfront : ids ep.queueHead = first := (hcons ▸ hholds).front
      have hclean := h.clean (e := some ep) (f := S.messages)
        (c := some (.pop (ids ep.queueHead))) hep hfree (List.suffix_refl _)
        (fun _ _ => rfl) nofun (by
          rintro c' ⟨rfl⟩
          exact ⟨ep, q i, rfl, rfl, rfl, hq ▸ hqueues, hfits, rest, by rw [hcons, hfront]⟩)
      rw [hsame] at hclean
      exact ⟨_, hclean⟩
    · cases hrun
      have hnil : q i = [] := length_eq_zero_iff.mp (hholds.count_eq ▸ not_not.mp hcount)
      refine ⟨_, h.clean (c := some .release) hep hfree (List.suffix_refl _)
        (fun _ _ => rfl) nofun ?_⟩
      rintro c' ⟨rfl⟩
      exact ⟨_, [], rfl, rfl, hnil, ⟨not_not.mp hcount, rfl⟩, rfl⟩
  | pop m =>
    obtain ⟨hsome, rest, hcons⟩ := hfits
    cases hrun
    refine ⟨_, h.clean (c := some (.free m)) hep hfree (List.suffix_refl _)
      (fun _ _ => rfl) nofun ?_⟩
    rintro c' ⟨rfl⟩
    refine ⟨_, rest, rfl, rfl, hcons, ?_, hsome⟩
    have hl : l = m :: rest := hq.symm.trans hcons
    exact (hl ▸ hqueues).pop hsome
  | free m =>
    cases hrun
    have hnodup := h.nodup i
    rw [hq] at hnodup
    have hclean := h.clean (e := some ep) (f := update S.messages m none)
      (c := some .drain) (l := l) hep hfree (hq ▸ List.suffix_cons m l) (by
        intro m' hm'
        refine update_of_ne ?_ ..
        rintro rfl
        rcases hm' with hm' | hm'
        · exact (nodup_cons.mp hnodup).1 hm'
        · exact hm' (hq ▸ mem_cons_self)) nofun (by
        rintro c' ⟨rfl⟩
        exact ⟨ep, l, rfl, rfl, rfl, hqueues, hfits⟩)
    rw [hsame] at hclean
    exact ⟨_, hclean⟩
  | release =>
    cases hrun
    exact ⟨_, h.clean (c := none) hep hfree (List.nil_suffix) (fun m hm => rfl)
      (fun _ => ⟨rfl, rfl⟩) nofun⟩

/-! Nothing that a call or `destroy_for_domain` is about to follow has gone. -/

theorem Delivers.queue_of_ready (hready : S.Ready e) :
    ∃ ep ids, S.endpoints e = some ep ∧ ep.queue = some ids := by
  obtain ⟨ep, hep⟩ := isSome_iff_exists.mp hready.1
  obtain ⟨ids, hids⟩ := isSome_iff_exists.mp (h.whole e ep hep hready.2)
  exact ⟨ep, ids, hep, hids⟩

theorem Delivers.check_safe {call : Call} (hready : S.Ready call.endpoint) :
    Post (· = .allocatorOverlap) (fun _ => True) (call.check cfg S) := by
  cases call with
  | messageSend caller e req answers =>
    show Post _ _ (messageSendPrepare cfg S caller e req answers)
    unfold messageSendPrepare
    repeat' split
    all_goals trivial
  | messageReceive caller e buffers =>
    obtain ⟨ep, ids, hep, hids⟩ := h.queue_of_ready (e := e) hready
    show Post _ _ (messageReceiveLocate S caller e buffers)
    unfold messageReceiveLocate
    simp only [hep, hids]
    repeat' split
    all_goals trivial
  | endpointDestroy caller e =>
    show Post _ _ (endpointDestroyAuthorize cfg S caller e)
    unfold endpointDestroyAuthorize
    repeat' split
    all_goals trivial

theorem Delivers.resume_safe {p : Pending} (hlock : S.lockHolder = some p) :
    Post (· = .allocatorOverlap) (fun _ => True) (p.resume cfg S) := by
  have hready := (h.pending p hlock).ready
  obtain ⟨ep, ids, hep, hids⟩ := h.queue_of_ready hready
  cases p with
  | found call =>
    rw [Pending.resume_found hready]
    exact (h.toQueued.unlock h.tidy).check_safe hready
  | send e m lease content =>
    show Post _ _ (Ipc.messageSendCommit S e m lease content)
    unfold Ipc.messageSendCommit
    rw [show S.endpoints e = some ep from hep]
    simp only [hids]
    split <;> trivial
  | receive e m buffers =>
    obtain ⟨-, l, hq⟩ := h.pending _ hlock
    obtain ⟨msg, hmsg⟩ := isSome_iff_exists.mp (h.present e m (hq ▸ mem_cons_self))
    show Post _ _ (Ipc.messageReceiveTake S e m buffers)
    unfold Ipc.messageReceiveTake
    rw [show S.endpoints e = some ep from hep, hmsg]
    dsimp only
    split <;> trivial
  | destroy e lease =>
    show Post _ _ (Ipc.endpointDestroyRelease S e lease)
    unfold Ipc.endpointDestroyRelease
    rw [show S.endpoints e = some ep from hep]
    simp only [hids, Option.isNone_some, Bool.false_eq_true, false_and, if_false]
    split <;> trivial

theorem Delivers.cleanUp_safe {c : Cleanup} (hc : c ∈ S.cleanups i) :
    Post (fun _ => False) (fun _ => True) (c.next S i) := by
  obtain ⟨c', ep, -, hep, -⟩ := h.tidy i (ne_nil_of_mem hc)
  unfold Cleanup.next
  rw [hep]
  dsimp only
  repeat' split
  all_goals trivial

/-- **One step.** Whatever a party does next, the queues hold what was sent and not yet received. -/
theorem Delivers.step {op : IpcOp} (hquiet : Undisturbed S op)
    (hstep : op.next cfg S = some S') : ∃ q', Delivers S' q' := by
  cases op with
  | nucleus n =>
    cases hstep
    exact ⟨q, h.setNucleus⟩
  | endpointCreate owner peerDomain answers =>
    obtain ⟨hfree, hnext⟩ := whenFree_eq_some hstep
    obtain ⟨r, hrun⟩ := after_eq_some hnext
    rcases endpointCreate_cases hrun with rfl | ⟨i, ownerDomain, hvacant, rfl⟩
    · exact ⟨q, h⟩
    · have hclear := h.clear_of_vacant hvacant
      exact ⟨q, (h.openEndpoint hvacant hclear).idle
        (h.tidy.call hclear rfl rfl fun _ _ => rfl) hfree⟩
  | call c =>
    obtain ⟨-, hnext⟩ := whenFree_eq_some hstep
    cases hnext
    split_ifs with hsome
    · exact ⟨q, h.toQueued.suspend h.tidy (show S.Ready c.endpoint from ⟨hsome, hquiet⟩)⟩
    · exact ⟨q, h⟩
  | resume =>
    obtain ⟨p, hlock, hnext⟩ := bind_eq_some_iff.mp hstep
    obtain ⟨r, hrun⟩ := after_eq_some hnext
    unfold Undisturbed at hquiet
    rw [hlock] at hquiet
    cases p with
    | found call =>
      have hready := (h.pending _ hlock).ready
      rw [Pending.resume_found hready] at hrun
      exact (h.toQueued.unlock h.tidy).check hready hrun
    | send e m lease content => exact h.messageSendCommit hlock (hquiet lease rfl) hrun
    | receive e m buffers => exact h.messageReceiveTake hlock hrun
    | destroy e lease => exact h.endpointDestroyRelease hlock (hquiet lease rfl) hrun
  | destroyForDomain domain i =>
    cases hstep
    exact h.destroyForDomain hquiet.1 hquiet.2
  | cleanUp i k => exact h.cleanUp hstep

end Steps

theorem Delivers.start {n : Nucleus} : Delivers { nucleus := n } fun _ => [] where
  queues := fun _ _ h => nomatch h
  vacant := fun _ _ => rfl
  present := fun _ _ h => nomatch h
  nodup := fun _ => nodup_nil
  apart := fun _ _ _ h => nomatch h
  whole := fun _ _ h => nomatch h
  log := fun _ _ h => nomatch h
  prefixes := fun _ => List.prefix_refl _
  serial_lt := fun _ _ h => nomatch h
  serial_inj := fun _ _ _ _ h => nomatch h
  unopened := fun _ _ => ⟨rfl, rfl⟩
  tidy := fun _ h => absurd rfl h
  pending := fun _ h => nomatch h

/-- **The invariant of a run.** In every state of an undisturbed run the queues hold what was sent
and not yet received. -/
theorem Delivers.of_reachable {cfg : Config} {S : System}
    (hreach : ((ipcMachine cfg).restrict Undisturbed).Reachable S) : ∃ q, Delivers S q := by
  refine hreach.invariant (P := fun S => ∃ q, Delivers S q) ?_ ?_
  · rintro S ⟨n, rfl⟩
    exact ⟨_, .start⟩
  · rintro S op S' ⟨q, h⟩ ⟨hquiet, hstep⟩
    exact h.step hquiet hstep

theorem Queued.count_le {q : Nat → List Nat} (h : Queued S q) (hep : S.endpoints i = some ep) :
    ep.queueCount ≤ ipcQueueDepth := by
  obtain ⟨l, -, hqueues⟩ := h.queues i ep hep
  unfold EndpointObject.Queues at hqueues
  split at hqueues
  · rw [hqueues.count_eq]
    exact hqueues.length_le
  · rw [hqueues.1]
    exact Nat.zero_le _

/-- **Messages arrive once and in order.** In every interleaving in which the leases hold until they
are consumed and `destroy_for_domain` does not meet a call or itself on an endpoint, what has been
received on an endpoint is a beginning of what has been sent on it, and no queue holds more than
`IPC_QUEUE_DEPTH` messages. No call and no run of `destroy_for_domain` then follows a pointer to
something that is gone. -/
theorem received_prefix_of_undisturbed {cfg : Config} {S : System}
    (hreach : ((ipcMachine cfg).restrict Undisturbed).Reachable S) :
    (∀ serial, S.received serial <+: S.sent serial) ∧
      (∀ i ep, S.endpoints i = some ep → ep.queueCount ≤ ipcQueueDepth) ∧
      (∀ p, S.lockHolder = some p → Post (· = .allocatorOverlap) (fun _ => True) (p.resume cfg S)) ∧
      ∀ i c, c ∈ S.cleanups i → Post (fun _ => False) (fun _ => True) (c.next S i) := by
  obtain ⟨q, h⟩ := Delivers.of_reachable hreach
  exact ⟨h.prefixes, fun i ep hep => h.count_le hep, fun p hp => h.resume_safe hp,
    fun i c hc => h.cleanUp_safe hc⟩

/-- In such an interleaving no message is lost: what has been sent on an endpoint is what has been
received, followed by what its ring holds, until `destroy_for_domain` comes to it; and the rings
hold different messages. -/
theorem messages_conserved {cfg : Config} {S : System}
    (hreach : ((ipcMachine cfg).restrict Undisturbed).Reachable S) :
    ∃ q : Nat → List Nat, (∀ i, (q i).Nodup) ∧ (∀ i j m, m ∈ q i → m ∈ q j → i = j) ∧
      ∀ i ep, S.endpoints i = some ep → S.cleanups i = [] → ep.queue.isSome = true ∧
        ep.Queues (q i) ∧
        S.sent ep.serial = S.received ep.serial ++ contents S.messages (q i) := by
  obtain ⟨q, h⟩ := Delivers.of_reachable hreach
  exact ⟨q, h.nodup, h.apart, fun i ep hep hclear =>
    ⟨h.whole i ep hep hclear, h.queues_clear hep hclear, h.log i ep hep hclear⟩⟩

/-! ## A send and a receive -/

def greeting : SendRequest where
  payload := some fun i => UInt8.ofNat (i + 1)
  length := 4
  capabilityCount := 0
  grantCount := 0

def greetingAnswers : SendAnswers where
  slot := .ok 0
  body := true
  duplicate := fun _ => .error (.generic .notFound)
  delegate := fun _ => .error (.generic .notFound)

/-- Domain 1 opens an endpoint to the nucleus domain and sends; before the send goes on, the nucleus
is in the state `n`. The nucleus domain then receives. -/
def sendAndReceive (n : Nucleus) : List IpcOp :=
  [.endpointCreate 2000 0 ⟨.ok 0, true, true⟩, .call (.messageSend 2000 0 greeting greetingAnswers),
    .resume, .nucleus n, .resume, .call (.messageReceive 1000 0 ⟨true, 256, 8, 8⟩),
    .resume, .resume]

/-- Two messages are sent and one is received, then `destroy_for_domain` empties the endpoint. -/
def sendAndDestroy (n : Nucleus) : List IpcOp :=
  (sendAndReceive n).take 5 ++
    [.call (.messageSend 2000 0 greeting { greetingAnswers with slot := .ok 1 }), .resume,
      .resume] ++
    (sendAndReceive n).drop 5 ++ .destroyForDomain 1 0 :: List.replicate 5 (.cleanUp 0 0)

theorem received_prefix_of_undisturbed_greeting : ∃ S,
    ((ipcMachine smallConfig).restrict Undisturbed).Reachable S ∧
      S.received 0 = [⟨[1, 2, 3, 4], [], []⟩] ∧ (S.sent 0).length = 2 ∧
        (S.endpoints 0).isNone = true ∧
      S.received 0 <+: S.sent 0 := by
  obtain ⟨n, -, hrun⟩ := Domain.reachable_with
    (Q := fun n => ((sendAndDestroy (Gate.granted n)).foldlM
      (fun S op => if Undisturbed S op then IpcOp.next smallConfig S op else none)
      ({ nucleus := Gate.granted n } : System)).any
      (fun S => S.received 0 = [⟨[1, 2, 3, 4], [], []⟩] ∧ (S.sent 0).length = 2 ∧
        (S.endpoints 0).isNone = true) = true) Gate.twoDomains (by decide +kernel)
  obtain ⟨S, hrun, hS⟩ := (Option.any_eq_true _ _).mp hrun
  obtain ⟨hreceived, hsent, hgone⟩ := of_decide_eq_true hS
  have hreach : ((ipcMachine smallConfig).restrict Undisturbed).Reachable S :=
    ⟨_, _, ⟨_, rfl⟩, .of_foldlM (fun _ _ _ h => Option.ite_none_right_eq_some.mp h) hrun⟩
  exact ⟨S, hreach, hreceived, hsent, hgone, (received_prefix_of_undisturbed hreach).1 0⟩

theorem messages_conserved_greeting : ∃ S, ∃ q : Nat → List Nat,
    ((ipcMachine smallConfig).restrict Undisturbed).Reachable S ∧
      contents S.messages (q 0) = [⟨[1, 2, 3, 4], [], []⟩] := by
  obtain ⟨n, -, hrun⟩ := Domain.reachable_with
    (Q := fun n => (((sendAndReceive (Gate.granted n)).take 5).foldlM
      (fun S op => if Undisturbed S op then IpcOp.next smallConfig S op else none)
      ({ nucleus := Gate.granted n } : System)).any (fun S =>
        ∃ ep ∈ S.endpoints 0, S.cleanups 0 = [] ∧
        S.sent ep.serial = [⟨[1, 2, 3, 4], [], []⟩] ∧ S.received ep.serial = []) = true)
    Gate.twoDomains (by decide +kernel)
  obtain ⟨S, hrun, hS⟩ := (Option.any_eq_true _ _).mp hrun
  have hreach : ((ipcMachine smallConfig).restrict Undisturbed).Reachable S :=
    ⟨_, _, ⟨_, rfl⟩, .of_foldlM (fun _ _ _ h => Option.ite_none_right_eq_some.mp h) hrun⟩
  obtain ⟨ep, hep, hclear, hsent, hnone⟩ := of_decide_eq_true hS
  obtain ⟨q, -, -, h⟩ := messages_conserved hreach
  obtain ⟨-, -, hlog⟩ := h 0 ep hep hclear
  rw [hsent, hnone] at hlog
  exact ⟨S, q, hreach, hlog.symm⟩

/-- Another strand of domain 1 leaves the domain with `nc_domain_exit` while the send is under way:
the send reports a failure, and the message is received all the same. -/
theorem received_without_send : ∃ n n' S, (Domain.nucleusMachine smallConfig).Reachable n ∧
    Domain.ncDomainExit (Gate.granted n) = .ok (0, n') ∧
    (ipcMachine smallConfig).Exec { nucleus := Gate.granted n } (sendAndReceive n') S ∧
    S.received 0 = [⟨[1, 2, 3, 4], [], []⟩] ∧ S.sent 0 = [] ∧ ¬ S.received 0 <+: S.sent 0 := by
  obtain ⟨n, hreach, hexit⟩ := Domain.reachable_with
    (Q := fun n => Outcome.Post (fun _ => False) (fun r => r.1 = 0 ∧
      ((sendAndReceive r.2).foldlM (fun S op => IpcOp.next smallConfig S op)
        ({ nucleus := Gate.granted n } : System)).any (fun S =>
        S.received 0 = [⟨[1, 2, 3, 4], [], []⟩] ∧ S.sent 0 = []) = true)
      (Domain.ncDomainExit (Gate.granted n))) Gate.twoDomains (by decide +kernel)
  obtain ⟨⟨_, n'⟩, hexit, rfl, hrun⟩ := hexit.total
  obtain ⟨S, hrun, hlogs⟩ := (Option.any_eq_true _ _).mp hrun
  obtain ⟨hreceived, hsent⟩ := of_decide_eq_true hlogs
  refine ⟨n, n', S, hreach, hexit, .of_foldlM (fun _ _ _ h => h) hrun, hreceived, hsent, ?_⟩
  rw [hreceived, hsent]
  exact fun h => absurd (List.prefix_nil.mp h) (List.cons_ne_nil _ _)

end ZXFoundation.Sys.Ipc
