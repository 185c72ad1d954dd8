import ZXFoundation.Sys.IoRequests
import ZXFoundation.Sys.Ipc

/-!
# Receiving into user memory

`nc_ipc_receive` and `nc_io_completion_dequeue` take the message or the record out of its queue and
only then copy it to user memory. A copy that fails ends the call with the error value, and what was
taken is gone. The result below says for which outcomes of the copies this does not happen.
-/

namespace ZXFoundation.Dgp.Gate

open Scoms Outcome Function Isolation Sys.Ipc
open Sys.Zxio (IoCompletion IoSystem ioCompletionDepth)

structure UserMessageResult where
  payload : Nat := 0
  capabilities : Nat := 0
  grants : Nat := 0
  length : Nat := 0
  capabilityCount : Nat := 0
  grantCount : Nat := 0

/-- What a call copies to user memory. -/
inductive Out where
  | payload (bytes : List UInt8)
  | capabilities (tokens : List Cap.CapToken)
  | grants (refs : List MemoryObjectRef)
  | result (r : UserMessageResult)
  | completion (c : IoCompletion)

/-- How a `copy_to_user` ends: whether it returns 0, and whether all bytes are in place. -/
structure Copied where
  ok : Bool
  stored : Bool

/-- What a call returns: the value unless it is the error value, the state, and what it has
stored. -/
structure Returned (σ : Type) where
  value : Option Nat
  state : σ
  stored : List (Nat × Out) := []

variable {σ : Type}

/-- The end of a call. The first copy that fails ends it with an error, and so does a null
pointer. -/
def copyOut (copy : Nat → Out → Copied) (outs : List (Nat × Out)) (value : Option Nat) (s : σ) :
    Returned σ :=
  if outs.all fun o => o.1 != 0 && (copy o.1 o.2).ok then
    ⟨value, s, outs.filter fun o => (copy o.1 o.2).stored⟩
  else ⟨none, s, []⟩

/-- **Nothing is lost**: after an error the queue is as it was, and a success has stored what was
first. -/
structure Lossless (kept : σ → Prop) (taken : Option (List (Nat × Out))) (r : Returned σ) :
    Prop where
  failed : r.value = none → kept r.state
  stored : r.value ≠ none → ∃ outs, taken = some outs ∧ ∀ o ∈ outs, o ∈ r.stored

def AllCopied (copy : Nat → Out → Copied) (outs : List (Nat × Out)) : Prop :=
  ∀ o ∈ outs, o.1 ≠ 0 ∧ (copy o.1 o.2).ok = true ∧ (copy o.1 o.2).stored = true

section

variable {kept : σ → Prop} {taken : Option (List (Nat × Out))} {copy : Nat → Out → Copied}
  {outs : List (Nat × Out)} {value : Option Nat} {s : σ}

theorem lossless_of_kept (h : kept s) : Lossless kept taken ⟨none, s, []⟩ :=
  ⟨fun _ => h, fun hne => absurd rfl hne⟩

theorem lossless_copyOut (hlost : ¬ kept s) :
    Lossless kept (some outs) (copyOut copy outs value s) ↔ AllCopied copy outs ∧ value ≠ none := by
  unfold copyOut
  split
  · rename_i hall
    simp only [List.all_eq_true, Bool.and_eq_true, bne_iff_ne] at hall
    constructor
    · intro h
      have hvalue : value ≠ none := fun hnone => hlost (h.failed hnone)
      obtain ⟨_, ⟨rfl⟩, hstored⟩ := h.stored hvalue
      exact ⟨fun o ho => ⟨(hall o ho).1, (hall o ho).2, (List.mem_filter.mp (hstored o ho)).2⟩,
        hvalue⟩
    · rintro ⟨hcopied, hvalue⟩
      exact ⟨fun hnone => absurd hnone hvalue,
        fun _ => ⟨outs, rfl, fun o ho => List.mem_filter.mpr ⟨ho, (hcopied o ho).2.2⟩⟩⟩
  · rename_i hnot
    refine iff_of_false (fun h => hlost (h.failed rfl)) fun h => hnot ?_
    simp only [List.all_eq_true, Bool.and_eq_true, bne_iff_ne]
    exact fun o ho => ⟨(h.1 o ho).1, (h.1 o ho).2.1⟩

end

/-! ## Messages -/

/-- `message_receive`, with what it hands out. -/
def messageReceive (S : System) (caller : Addr) (endpointId : Nat) (buffers : ReceiveBuffers) :
    Except Trap (Option Delivery × System) := do
  match ← messageReceiveLocate S caller endpointId buffers with
  | (.ok _, S₁) =>
    match S₁.lockHolder with
    | some (.receive e m buffers) =>
      match ← messageReceiveTake S₁ e m buffers with
      | (.ok _, S₂) => return ((S₁.messages m).map (·.delivery), S₂)
      | (.error _, S₂) => return (none, S₂)
    | _ => return (none, S₁)
  | (.error _, S₁) => return (none, S₁)

/-- A call of `nc_ipc_receive`; `read` is what `copy_from_user` finds at `a2`, unless it fails. -/
structure ReceiveCall where
  system : System
  current : Option Addr
  a0 : Nat
  a1 : Nat
  a2 : Nat
  read : Option UserMessageResult
  copy : Nat → Out → Copied

namespace ReceiveCall

variable (C : ReceiveCall)

/-- The checks before `message_receive`. -/
def request : Option UserMessageResult :=
  if C.a1 = 0 ∨ C.a2 = 0 then none
  else C.read.filter fun r => r.capabilityCount ≤ ipcMessageCaps ∧ r.grantCount ≤ ipcMessageGrants

def receive (d : Addr) (requested : UserMessageResult) : Except Trap (Option Delivery × System) :=
  messageReceive C.system d (C.a0 % 2 ^ 32)
    ⟨true, ipcMessageBytes, requested.capabilityCount, requested.grantCount⟩

/-- The copies, in their order. -/
def outs (requested : UserMessageResult) (d : Delivery) : List (Nat × Out) :=
  [(C.a1, .payload d.payload)] ++
  (if d.capabilities = [] then [] else [(requested.capabilities, .capabilities d.capabilities)]) ++
  (if d.grants = [] then [] else [(requested.grants, .grants d.grants)]) ++
  [(C.a2, .result { requested with
    payload := C.a1
    length := d.payload.length
    capabilityCount := d.capabilities.length
    grantCount := d.grants.length })]

def ncIpcReceive : Except Trap (Returned System) :=
  match C.current, C.request with
  | some d, some requested => do
    match ← C.receive d requested with
    | (none, S) => return ⟨none, S, []⟩
    | (some content, S) =>
      return copyOut C.copy (C.outs requested content) (some content.payload.length) S
  | _, _ => return ⟨none, C.system, []⟩

def first (S : System) : Option (Nat × MessageObject) :=
  (S.endpoints (C.a0 % 2 ^ 32)).bind fun ep => if ep.queueCount = 0 then none else
    ep.queue.bind fun ids => (S.messages (ids ep.queueHead)).map (ids ep.queueHead, ·)

def LosesNothing : Prop :=
  Post (fun _ => True) (Lossless (fun S => C.first S = C.first C.system)
    (C.read.bind fun requested => (C.first C.system).map fun p => C.outs requested p.2.delivery))
    C.ncIpcReceive

/-- Whatever `message_receive` hands out can be copied. -/
def Copies : Prop :=
  ∀ d ∈ C.current, ∀ requested ∈ C.request, Post (fun _ => True)
    (fun p => ∀ content ∈ p.1, AllCopied C.copy (C.outs requested content)) (C.receive d requested)

variable {C} {d : Addr} {requested : UserMessageResult} {S : System}

theorem receive_cases {r : Option Delivery} (h : C.receive d requested = .ok (r, S)) :
    r = none ∧ C.first S = C.first C.system ∨ ∃ m msg, r = some msg.delivery ∧
      C.first C.system = some (m, msg) ∧ C.first S ≠ some (m, msg) := by
  obtain ⟨⟨r₁, S₁⟩, hlocate, hrest⟩ := bind_eq_ok h
  rcases messageReceiveLocate_cases hlocate with ⟨⟨_, rfl⟩, rfl⟩ | ⟨ep, ids, msg, hep, hcount, hids,
    hmsg, rfl, rfl⟩
  · cases hrest
    exact .inl ⟨rfl, rfl⟩
  obtain ⟨⟨r₂, S₂⟩, htake, hrest⟩ := bind_eq_ok hrest
  simp only [messageReceiveTake, System.suspend, hep, hmsg] at htake
  split at htake <;> cases htake <;> cases hrest
  · exact .inl ⟨rfl, rfl⟩
  refine .inr ⟨ids ep.queueHead, msg, congrArg _ hmsg, ?_, ?_⟩
  · simp only [first, hep, hcount, hids, hmsg, Option.bind_some, if_false, Option.map_some]
  -- another id comes first, or this one without its message
  simp only [first, System.logReceived, System.unlock, System.setMessage, System.setEndpoint,
    update_self,
    Option.bind_some, hids]
  split
  · simp
  intro heq
  obtain ⟨msg', hmsg', heq⟩ := Option.map_eq_some_iff.mp heq
  rw [(Prod.mk.inj heq).1, update_self] at hmsg'
  cases hmsg'

theorem losesNothing_iff : C.LosesNothing ↔ C.Copies := by
  unfold LosesNothing ncIpcReceive Copies
  cases C.current with
  | none => exact iff_of_true (lossless_of_kept rfl) nofun
  | some d =>
  cases hrequest : C.request with
  | none => exact iff_of_true (lossless_of_kept rfl) fun _ _ => nofun
  | some requested =>
  have hread : C.read = some requested := by
    unfold request at hrequest
    split at hrequest
    · cases hrequest
    · exact (Option.filter_eq_some_iff.mp hrequest).1
  simp only [Option.mem_some_iff, forall_eq']
  cases hrun : C.receive d requested with
  | error t => exact iff_of_true trivial trivial
  | ok p =>
  obtain ⟨r, S⟩ := p
  rcases receive_cases hrun with ⟨rfl, hsame⟩ | ⟨m, msg, rfl, hfirst, hnext⟩
  · exact iff_of_true (lossless_of_kept (s := S) hsame) nofun
  · rw [hread, hfirst]
    exact (lossless_copyOut (s := S) hnext).trans (by simp)

end ReceiveCall

/-! ## Completions -/

/-- A call of `nc_io_completion_dequeue`. `owner` tells whether the token passes its checks here and
in `completion_dequeue`, and the caller consumes its lease in the world `later`. -/
structure DequeueCall where
  system : IoSystem
  world : World
  later : World
  granted : IsolationRights
  current : Option Addr
  owner : Bool
  a1 : Nat
  copy : Nat → Out → Copied

namespace DequeueCall

variable (C : DequeueCall)

def lease : Option AuthorizationLease :=
  C.current.bind fun d => if C.a1 = 0 ∨ !C.owner then none
    else (authorize C.world C.granted d d .ioCompletionDequeue
      { requestedRights := IsolationRights.io }).toOption

def ncIoCompletionDequeue : Returned IoSystem :=
  match C.lease, C.system.completionDequeue with
  | some lease, (.ok c, I) =>
    copyOut C.copy [(C.a1, .completion c)] (if (lease.consume C.later).1 then some 0 else none) I
  | _, _ => ⟨none, C.system, []⟩

def queued (I : IoSystem) : List IoCompletion :=
  (List.range I.binding.completionCount).map fun i =>
    I.binding.completions (Ring.slot ioCompletionDepth I.binding.completionHead i)

def LosesNothing : Prop :=
  Lossless (fun I => queued I = queued C.system)
    (if C.system.binding.completionCount = 0 then none
      else
        some [(C.a1, .completion (C.system.binding.completions C.system.binding.completionHead))])
    C.ncIoCompletionDequeue

/-- A record that is there can be copied, and then the lease is still good. -/
def Copies : Prop :=
  ∀ lease ∈ C.lease, C.system.binding.completionCount ≠ 0 →
    AllCopied C.copy
      [(C.a1, .completion (C.system.binding.completions C.system.binding.completionHead))] ∧
    (lease.consume C.later).1 = true

variable {C}

theorem losesNothing_iff : C.LosesNothing ↔ C.Copies := by
  unfold LosesNothing ncIoCompletionDequeue Copies IoSystem.completionDequeue
  cases C.lease with
  | none => exact iff_of_true (lossless_of_kept rfl) nofun
  | some lease =>
  simp only [Option.mem_some_iff, forall_eq']
  by_cases hcount : C.system.binding.completionCount = 0
  · simp only [if_pos hcount]
    exact iff_of_true (lossless_of_kept rfl) (absurd hcount)
  simp only [if_neg hcount]
  -- one record fewer is queued
  refine (lossless_copyOut fun h => ?_).trans (by simp [hcount])
  have hlen := congrArg List.length h
  simp only [queued, List.length_map, List.length_range] at hlen
  omega

end DequeueCall

/-- **No receive loses anything** if and only if the copies that follow the dequeue succeed, and for
a completion the lease is still good after them. -/
theorem receive_lossless_iff (C : ReceiveCall) (D : DequeueCall) :
    (C.LosesNothing ↔ C.Copies) ∧ (D.LosesNothing ↔ D.Copies) :=
  ⟨ReceiveCall.losesNothing_iff, DequeueCall.losesNothing_iff⟩

/-- Domain 0 receives a message of one byte into a buffer that cannot be written. -/
theorem receive_loses :
    ¬ ReceiveCall.LosesNothing
      { system :=
          { nucleus := .boot fun _ => { id := 0 }
            endpoints := fun _ => some
              { ownerDomain := 1, peerDomain := 0, queueCount := 1, queue := some fun _ => 0,
                serial := 0 }
            messages := fun _ =>
              some ⟨1, 1, 0, 0, fun _ => 7, fun _ => ⟨0⟩, fun _ => ⟨.none, 0, 0⟩⟩ }
        current := some 0, a0 := 0, a1 := 4096, a2 := 8192, read := some {}
        copy := fun a _ => ⟨a ≠ 4096, a ≠ 4096⟩ } := by
  rw [ReceiveCall.losesNothing_iff]
  intro h
  exact absurd (h 0 rfl {} rfl _ rfl _ (.head _)).2.1 (by decide)

end ZXFoundation.Dgp.Gate
