import ZXFoundation.Lib.Ring
import ZXFoundation.Lib.Run
import ZXFoundation.Sys.ChannelProgram

/-!
# Requests on an I/O binding

`submit`, `completion_dequeue`, the completion sink and the fence of `sys/zxio.zcomponent/core.cxx`,
over `io/css.zcomponent/subchannel.cxx`. The binding says what it waits for and the subchannel entry
for whom it is busy; each has a lock of its own.

A section under a lock is one step. `start_io` takes the lock of the subchannel table twice, so
`submit` is two steps with `submitting` between them. The interrupt handler drops that lock before
it calls the sink: what it carries is in `inflight` meanwhile. Several calls of `unbind` may be
under way, and each is counted where it is between two sections. The model has one slot of the
binding table and one subchannel.
-/

namespace ZXFoundation.Sys.Zxio

open Runs

inductive IoSubstate where
  | bound | pending | error | revoking
  deriving DecidableEq, Repr

inductive SubchannelState where
  | free | probing | idle | active | halting
  deriving DecidableEq, Repr

/-- What is read of an `irb`. -/
structure Irb where
  primary : Bool := false
  secondary : Bool := false
  schActive : Bool := false
  deviceActive : Bool := false
  devStatus : UInt8 := 0
  schStatus : UInt8 := 0
  count : UInt16 := 0
  deriving DecidableEq, Repr

namespace Irb

def terminal (s : Irb) : Bool := s.primary || s.secondary

def inactive (s : Irb) : Bool := !s.schActive && !s.deviceActive

/-- `has_device_error`: unit check and unit exception. -/
def hasDeviceError (s : Irb) : Bool := s.devStatus &&& 0x03 != 0

/-- `has_sch_error`: the six checks. -/
def hasSchError (s : Irb) : Bool := s.schStatus &&& 0x3F != 0

def failed (s : Irb) : Bool := s.hasDeviceError || s.hasSchError

end Irb

structure IoCompletion where
  requestId : UInt64 := 0
  residualCount : UInt32 := 0
  deviceStatus : UInt8 := 0
  subchannelStatus : UInt8 := 0
  flags : UInt16 := 0
  deriving DecidableEq, Repr

def ioCompletionDepth : Nat := 32

def ioFencePollLimit : Nat := 65_536

/-- `io_binding`, less its authority. `active` is the state of its header. -/
structure IoBinding where
  id : Nat
  generation : Nat
  area : DmaArea
  active : Bool := true
  opState : IoSubstate := .bound
  pendingRequestId : UInt64 := 0
  teardownStarted : Bool := false
  completions : Nat → IoCompletion := fun _ => {}
  completionHead : Nat := 0
  completionTail : Nat := 0
  completionCount : Nat := 0
  completionDropped : UInt32 := 0

/-- `subchannel_entry`. No binding is `~0U`. -/
structure SubchannelEntry where
  state : SubchannelState := .idle
  bindingId : Option Nat := none
  bindingGeneration : Nat := 0
  activeBindingId : Option Nat := none
  deriving DecidableEq, Repr

/-- What the interrupt handler hands to the sink. -/
structure Delivery where
  bindingId : Nat
  generation : Nat
  status : Irb
  deriving DecidableEq, Repr

/-- Where a call of `fence_binding_io` is. -/
inductive FencePhase where
  | halting
  | clearing
  | polling (attempt : Nat)
  /-- The poll has found the subchannel inactive. -/
  | closing (status : Irb)
  /-- The poll has not. -/
  | checking (attempt : Nat)
  deriving DecidableEq, Repr

/-- What a step of the fence leads to. -/
inductive FenceNext where
  | goes (phase : FencePhase)
  | returns (ok : Bool)
  deriving DecidableEq, Repr

/-- Whether the next step of the fence takes the lock of the binding. -/
def FencePhase.closes : FencePhase → Bool
  | .closing _ => true
  | _ => false

/-- How a record left the ring. -/
inductive Fate where
  | dequeued | dropped
  deriving DecidableEq, Repr

/-- The binding, its subchannel and the calls in progress. The last three are logs of this
generation that the source does not keep: the requests whose `submit` has succeeded, the records
with the generation they were made for, and the records that have left the ring. -/
structure IoSystem where
  binding : IoBinding
  entry : SubchannelEntry
  submitting : Bool := false
  inflight : List Delivery := []
  /-- The `prior_state` of an `unbind` that is retiring the DMA extent. -/
  retiring : Option IoSubstate := none
  /-- The calls of `unbind` that come to the fence next. -/
  passed : Nat := 0
  fences : List FencePhase := []
  /-- Those that come to `release_binding` next. -/
  fenced : Nat := 0
  /-- Those that have given the subchannel back. -/
  unclaimed : Nat := 0
  accepted : List UInt64 := []
  completed : List (Nat × IoCompletion) := []
  taken : List (Fate × IoCompletion) := []

/-! ## Completions -/

namespace IoBinding

def completion (b : IoBinding) (status : Irb) : IoCompletion where
  requestId := b.pendingRequestId
  residualCount := status.count.toUInt32
  deviceStatus := status.devStatus
  subchannelStatus := status.schStatus
  flags := if status.failed then 1 else 0

/-- A full ring loses its oldest record. -/
def makeRoom (b : IoBinding) : IoBinding :=
  if b.completionCount = ioCompletionDepth then
    { b with
      completionHead := Ring.slot ioCompletionDepth b.completionHead 1
      completionCount := b.completionCount - 1
      completionDropped := b.completionDropped + 1 }
  else b

/-- The record goes to the tail and the binding is done with the request. -/
def finish (b : IoBinding) (status : Irb) : IoBinding :=
  { b with
    completions := Function.update b.completions b.completionTail (b.completion status)
    completionTail := Ring.slot ioCompletionDepth b.completionTail 1
    completionCount := b.completionCount + 1
    pendingRequestId := 0
    opState := if b.teardownStarted then b.opState else if status.failed then .error else .bound }

/-- What `enqueue_completion` asks. -/
def awaits (b : IoBinding) : Bool :=
  b.active && b.pendingRequestId != 0 && (b.opState == .pending || b.opState == .revoking)

end IoBinding

namespace IoSystem

variable (S : IoSystem)

/-- `enqueue_completion`, for a status that was raised for the generation. -/
def enqueueCompletion (generation : Nat) (status : Irb) : IoSystem :=
  if S.binding.awaits then
    { S with
      binding := S.binding.makeRoom.finish status
      completed := S.completed ++ [(generation, S.binding.completion status)]
      taken :=
        if S.binding.completionCount = ioCompletionDepth then
          S.taken ++ [(.dropped, S.binding.completions S.binding.completionHead)]
        else S.taken }
  else S

/-- `css_completion_sink`. `lookup_binding` finds the binding of the generation or nothing. -/
def completionSink (d : Delivery) : IoSystem :=
  if S.binding.active ∧ d.bindingId = S.binding.id ∧ d.generation = S.binding.generation then
    S.enqueueCompletion d.generation d.status
  else S

def completionDequeue : Except KernelError IoCompletion × IoSystem :=
  if S.binding.completionCount = 0 then (.error (.driver .notReady), S)
  else
    let result := S.binding.completions S.binding.completionHead
    (.ok result,
      { S with
        binding :=
          { S.binding with
            completionHead := Ring.slot ioCompletionDepth S.binding.completionHead 1
            completionCount := S.binding.completionCount - 1 }
        taken := S.taken ++ [(.dequeued, result)] })

/-! ## Submission -/

/-- `submit` up to the start of the channel program, with the first section of `start_io`. -/
def submitBegin (request : IoRequest) (reads : Nat → CcwReads) :
    Except KernelError Unit × IoSystem :=
  let b := S.binding
  if b.teardownStarted ∨ b.opState ≠ .bound then (.error (.driver .busy), S)
  else
    match verifyAndStageCcws b.area request reads with
    | .error e => (.error e, S)
    | .ok _ =>
      let refused := { S with binding := { b with opState := .bound, pendingRequestId := 0 } }
      if S.entry.bindingId ≠ some b.id then (.error (.generic .invalidArg), refused)
      else if S.entry.state ≠ .idle then (.error (.driver .busy), refused)
      else
        (.ok (),
          { S with
            binding := { b with opState := .pending, pendingRequestId := request.requestId }
            entry := { S.entry with state := .active, activeBindingId := S.entry.bindingId }
            submitting := true })

/-- The rest of `submit`, with the condition code of the start. -/
def submitEnd (cc : Nat) : Except KernelError Unit × IoSystem :=
  if cc = 0 then
    (.ok (), { S with submitting := false, accepted := S.accepted ++ [S.binding.pendingRequestId] })
  else
    let entry :=
      if S.entry.state = .active ∧ S.entry.activeBindingId = S.entry.bindingId then
        { S.entry with state := .idle, activeBindingId := none }
      else S.entry
    (.error (if cc = 1 then .driver .notReady else if cc = 2 then .driver .busy
      else .driver .notFound),
      { S with
        binding := { S.binding with opState := .bound, pendingRequestId := 0 }
        entry, submitting := false })

/-! ## Interrupts -/

/-- Whether the subchannel is busy for the binding that has claimed it. -/
def owned : Bool :=
  (S.entry.state == .active || S.entry.state == .halting) && S.entry.bindingId.isSome &&
    S.entry.activeBindingId == S.entry.bindingId

/-- The section of `io_interrupt`, for a status that was pending. -/
def ioInterrupt (status : Irb) : IoSystem :=
  if status.terminal && status.inactive then
    { S with
      entry := { S.entry with state := .idle, activeBindingId := none }
      inflight :=
        if S.owned then S.inflight ++
          [⟨S.entry.bindingId.getD 0, S.entry.bindingGeneration, status⟩]
        else S.inflight }
  else S

/-! ## Teardown -/

def setBinding (b : IoBinding) : IoSystem := { S with binding := b }

def setState (state : SubchannelState) : IoSystem := { S with entry := { S.entry with state } }

/-- The first section of `unbind`. Where a teardown is under way the call goes on with its fence, or
is refused. -/
def unbindBegin : IoSystem :=
  if S.binding.teardownStarted then
    if S.binding.opState ≠ .revoking then S else { S with passed := S.passed + 1 }
  else
    { S with
      binding := { S.binding with teardownStarted := true, opState := .revoking }
      retiring := some S.binding.opState }

/-- The first section of `fence_binding_io`. -/
def fenceBegin : IoSystem :=
  if S.binding.pendingRequestId = 0 then { S with passed := S.passed - 1, fenced := S.fenced + 1 }
  else { S with passed := S.passed - 1, fences := S.fences ++ [.halting] }

/-- The section of `test_io`. -/
def testIo (cc : Nat) (status : Irb) : IoSystem :=
  if cc = 0 ∧ status.primary ∧ status.secondary ∧ status.schActive ∧ status.deviceActive then
    S.setState .idle
  else S

/-- One step of a call of `fence_binding_io`, with the answer of the channel subsystem. -/
def fenceStep (cc : Nat) (status : Irb) : FencePhase → FenceNext × IoSystem
  | .halting => (.goes .clearing, if cc = 0 then S.setState .halting else S)
  | .clearing => (.goes (.polling 0), if cc = 0 then S.setState .halting else S)
  | .polling attempt =>
    if cc = 3 then (.returns false, S)
    else if cc = 0 ∧ status.inactive then (.goes (.closing status), S.testIo cc status)
    else (.goes (.checking attempt), S.testIo cc status)
  | .closing found => (.returns true, S.enqueueCompletion S.binding.generation found)
  | .checking attempt =>
    if S.entry.state = .idle then (.returns true, S)
    else if attempt + 1 < ioFencePollLimit then (.goes (.polling (attempt + 1)), S)
    else (.returns false, S)

/-- The fence `i` has made a step. -/
def fenceTo (i : Nat) : FenceNext → IoSystem
  | .goes phase => { S with fences := S.fences.set i phase }
  | .returns ok => { S with fences := S.fences.eraseIdx i, fenced := S.fenced + ok.toNat }

def releaseBinding : Except KernelError Unit × IoSystem :=
  if S.entry.bindingId ≠ some S.binding.id ∨ S.entry.bindingGeneration ≠ S.binding.generation then
    (.error (.generic .notFound), S)
  else if S.entry.state ≠ .idle then (.error (.driver .busy), S)
  else
    (.ok (), { S with entry :=
      { S.entry with bindingId := none, bindingGeneration := 0, activeBindingId := none } })

/-- The generation, of 32 bits, that the slot gets after some calls of `bind` that have failed. -/
def nextGeneration (failed : Nat) : Nat := (S.binding.generation + failed + 1) % 2 ^ 32

/-- `bind` takes the slot of the binding table again and claims the subchannel. -/
def bind (failed : Nat) : IoSystem where
  binding := { id := S.binding.id, generation := S.nextGeneration failed, area := S.binding.area }
  entry :=
    { S.entry with
      bindingId := some S.binding.id
      bindingGeneration := S.nextGeneration failed
      activeBindingId := none }
  inflight := S.inflight
  passed := S.passed
  fences := S.fences
  fenced := S.fenced
  unclaimed := S.unclaimed

end IoSystem

/-! ## The machine -/

inductive IoOp where
  | submit (request : IoRequest) (reads : Nat → CcwReads)
  | started (cc : Nat)
  | interrupt (status : Irb)
  | deliver (d : Delivery)
  | dequeue
  | unbind
  | retireFails
  | retired
  | fence
  | fenceStep (i : Nat) (cc : Nat) (status : Irb)
  | releaseBinding
  /-- The slot of the binding table is released. -/
  | release
  | bind (failed : Nat)

namespace IoOp

open IoSystem in
def next (S : IoSystem) : IoOp → Option IoSystem
  | .submit request reads =>
    if S.submitting ∨ !S.binding.active then none else some (S.submitBegin request reads).2
  | .started cc => if S.submitting then some (S.submitEnd cc).2 else none
  | .interrupt status => some (S.ioInterrupt status)
  | .deliver d =>
    if S.submitting ∨ d ∉ S.inflight then none
    else some ({ S with inflight := S.inflight.erase d }.completionSink d)
  | .dequeue => if S.submitting ∨ !S.binding.active then none else some S.completionDequeue.2
  | .unbind => if S.submitting ∨ !S.binding.active then none else some S.unbindBegin
  | .retireFails =>
    if S.submitting then none
    else S.retiring.map fun prior =>
      { S with
        binding := { S.binding with teardownStarted := false, opState := prior }, retiring := none }
  | .retired => S.retiring.map fun _ => { S with retiring := none, passed := S.passed + 1 }
  | .fence => if S.submitting ∨ S.passed = 0 then none else some S.fenceBegin
  | .fenceStep i cc status =>
    S.fences[i]?.bind fun phase =>
      if S.submitting ∧ phase.closes then none
      else
        let (next, S') := S.fenceStep cc status phase
        some (S'.fenceTo i next)
  | .releaseBinding =>
    if S.fenced = 0 then none
    else
      match S.releaseBinding with
      | (.ok (), S') => some { S' with fenced := S.fenced - 1, unclaimed := S.unclaimed + 1 }
      | (.error _, S') => some { S' with fenced := S.fenced - 1 }
  | .release =>
    if S.unclaimed = 0 then none
    else
      some { S with binding := { S.binding with active := false }, unclaimed := S.unclaimed - 1 }
  | .bind failed => if S.binding.active ∨ S.entry.bindingId ≠ none then none
    else some (S.bind failed)

end IoOp

/-- A device has just been bound. -/
def freshlyBound (id generation : Nat) (area : DmaArea) : IoSystem where
  binding := { id, generation, area }
  entry := { bindingId := some id, bindingGeneration := generation }

def ioMachine : Machine IoSystem IoOp :=
  .ofNext (fun S => ∃ id generation area, S = freshlyBound id generation area) IoOp.next

end ZXFoundation.Sys.Zxio
