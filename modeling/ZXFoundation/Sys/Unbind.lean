import ZXFoundation.Sys.IoRequests

/-!
# Taking a binding down

`unbind` and `destroy_for_domain` of `sys/zxio.zcomponent/core.cxx`, with the part of
`memory/objects.zcomponent` and of `dgp/cap.zcomponent` that they use: the DMA extent with its count
of mappings, the storage it lies in, and the capabilities of the binding and of the extent. A call
that fails leaves what it has done, and a later call starts again at the fence.

A call is refused at the retirement as long as the extent is mapped. Once the extent is retired
nothing behind `release_binding` can fail. What is in the way of a later call is the fence: it takes
the final status with its own `tsch`, and `test_io` may leave the subchannel halting, so that
`release_binding` refuses it from then on.
-/

namespace ZXFoundation.Sys.Zxio

open Runs

/-- The binding with what `unbind` takes down. -/
structure Device where
  io : IoSystem
  /-- `active_mappings` and `extent_retiring` of the extent. -/
  mappings : Nat := 0
  retiring : Bool := false
  bindingCaps : Bool := true
  extentCaps : Bool := true
  extent : Bool := true
  storage : Bool := true
  /-- How often the DMA pages were freed. -/
  freed : Nat := 0

inductive FenceEvent where
  /-- The fence goes on, with the answer of the channel subsystem. -/
  | answer (cc : Nat) (status : Irb)
  | interrupt (status : Irb)
  | deliver (d : Delivery)

/-- A call of `unbind`: by the owner, or by `destroy_for_domain` with a capability that `cap_issue`
may have no room for; and what happens during its fence. -/
structure UnbindCall where
  byOwner : Bool := false
  issued : Bool := true
  fence : List FenceEvent := []

namespace IoSystem

variable (S : IoSystem)

/-- The loop of `fence_binding_io`; nothing if it is still running after these events. -/
def fenceRun (S : IoSystem) : FencePhase → List FenceEvent → Option (Bool × IoSystem)
  | _, [] => none
  | phase, .answer cc status :: rest =>
    match S.fenceStep cc status phase with
    | (.goes phase', S') => fenceRun S' phase' rest
    | (.returns ok, S') => some (ok, S')
  | phase, .interrupt status :: rest => fenceRun (S.ioInterrupt status) phase rest
  | phase, .deliver d :: rest =>
    if d ∈ S.inflight then
      fenceRun ({ S with inflight := S.inflight.erase d }.completionSink d) phase rest
    else none

def fence (events : List FenceEvent) : Option (Bool × IoSystem) :=
  if S.binding.pendingRequestId = 0 then some (true, S) else S.fenceRun .halting events

/-- The subchannel is associated with the binding. -/
def Claimed : Prop :=
  S.entry.bindingId = some S.binding.id ∧ S.entry.bindingGeneration = S.binding.generation

instance : Decidable S.Claimed := by unfold Claimed; infer_instance

end IoSystem

namespace Device

variable (D : Device)

/-! ## The objects -/

/-- `memory_extent_acquire_mapping`. -/
def acquireMapping : Option Device :=
  if !D.extent ∨ D.retiring then none else some { D with mappings := D.mappings + 1 }

/-- `memory_extent_release_mapping`. -/
def releaseMapping : Option Device :=
  if !D.extent ∨ D.mappings = 0 then none else some { D with mappings := D.mappings - 1 }

/-- `memory_extent_retire`. The flag is set only where nothing is mapped. -/
def extentRetire : Option Device :=
  if !D.extent ∨ D.mappings ≠ 0 ∨ D.retiring then none else some { D with retiring := true }

/-- `memory_object_destroy` of the extent, which has no dependents. -/
def destroyExtent : Option Device :=
  if !D.extent ∨ D.mappings ≠ 0 then none else some { D with retiring := true, extent := false }

/-- `memory_object_destroy` of the storage, which the extent depends on. -/
def destroyStorage : Option Device :=
  if !D.storage ∨ D.extent then none else some { D with storage := false }

/-! ## The call -/

/-- `unbind` after `release_binding`. `cap_revoke_target` does not fail. -/
def releaseObjects : Bool × Device :=
  let D := { D with bindingCaps := false }
  if !D.extent then (false, D)
  else
    let D := { D with extentCaps := false }
    match D.destroyExtent with
    | none => (false, D)
    | some D =>
      match D.destroyStorage with
      | none => (false, D)
      | some D =>
        (true, { D with
          freed := D.freed + 1
          io := D.io.setBinding { D.io.binding with active := false } })

/-- `unbind` after the fence. -/
def release : Bool × Device :=
  match D.io.releaseBinding with
  | (.error _, io) => (false, { D with io })
  | (.ok (), io) => { D with io }.releaseObjects

/-- `destroy_for_domain` gets itself a capability of a binding that it finds. -/
def issue (a : UnbindCall) : Device :=
  if a.byOwner ∨ !a.issued ∨ !D.io.binding.active then D else { D with bindingCaps := true }

/-- `binding_for_owner` accepts the token. -/
def entitled (a : UnbindCall) : Bool := if a.byOwner then D.bindingCaps else a.issued

/-- The binding is being torn down. -/
def revoking : Device :=
  { D with
    io := D.io.setBinding { D.io.binding with teardownStarted := true, opState := .revoking } }

/-- The first section of `unbind` and the retirement; where that fails, the section is taken
back. -/
def begin : Option Device :=
  if D.io.binding.teardownStarted then
    if D.io.binding.opState ≠ .revoking then none else some D
  else D.revoking.extentRetire

/-- `unbind`, from `binding_for_owner` on. It waits for a `submit` that holds the lock of the
binding. -/
def unbindWith (a : UnbindCall) : Option (Bool × Device) :=
  if D.io.submitting then none
  else if !D.io.binding.active ∨ !D.entitled a then some (false, D)
  else
    match D.begin with
    | none => some (false, D)
    | some E =>
      (E.io.fence a.fence).map fun (ok, io) => if ok then { E with io }.release
      else (false, { E with io })

def unbind (a : UnbindCall) : Option (Bool × Device) := (D.issue a).unbindWith a

end Device

/-! ## Runs -/

/-- The steps that are no part of a teardown. -/
def IoOp.plain : IoOp → Bool
  | .submit .. | .started _ | .interrupt _ | .deliver _ | .dequeue => true
  | _ => false

inductive UnbindOp where
  | io (op : IoOp)
  | acquireMapping
  | releaseMapping
  /-- Another binding takes the subchannel. -/
  | claim (id generation : Nat)
  | unbind (a : UnbindCall)

def UnbindOp.next (D : Device) : UnbindOp → Option Device
  | .io op => if op.plain then (op.next D.io).map fun io => { D with io } else none
  | .acquireMapping => D.acquireMapping
  | .releaseMapping => D.releaseMapping
  | .claim id generation =>
    if D.io.entry.bindingId = none ∧
      (id, generation) ≠ (D.io.binding.id, D.io.binding.generation) then
      some { D with io := { D.io with
        entry := { D.io.entry with
          bindingId := some id, bindingGeneration := generation, activeBindingId := none } } }
    else none
  | .unbind a => (D.unbind a).map Prod.snd

/-- Nothing of the binding is left. -/
structure Device.Gone (D : Device) : Prop where
  released : ¬ D.io.Claimed
  caps : D.bindingCaps = false ∧ D.extentCaps = false
  objects : D.extent = false ∧ D.storage = false
  freed : D.freed = 1
  slot : D.io.binding.active = false

/-- The extent is mapped nowhere any more. -/
def Device.unmapped (D : Device) : Device := { D with mappings := 0 }

/-- The caller is entitled, and the fence does not fail. -/
def UnbindCall.Good (D : Device) (a : UnbindCall) : Prop :=
  D.entitled a = true ∧ ∀ io, D.revoking.io.fence a.fence ≠ some (false, io)

/-- Whatever the order of events, one of the calls that are made once the cause of a failure is gone
succeeds. -/
inductive Recovers : Device → Prop where
  | call {D : Device} (h : ∀ a, a.Good D → ∀ D', D.unmapped.unbind a = some (false, D') →
    Recovers D') :
    Recovers D

namespace IoSystem

/-- Binding and subchannel are the same ones, in the same part of their life. -/
structure Same (S S' : IoSystem) : Prop where
  id : S'.binding.id = S.binding.id
  generation : S'.binding.generation = S.binding.generation
  active : S'.binding.active = S.binding.active
  started : S'.binding.teardownStarted = S.binding.teardownStarted
  opState : S.binding.teardownStarted = true → S'.binding.opState = S.binding.opState
  bindingId : S'.entry.bindingId = S.entry.bindingId
  bindingGeneration : S'.entry.bindingGeneration = S.entry.bindingGeneration
  submitting : S.binding.teardownStarted = true → S'.submitting = S.submitting

variable {S S' S₁ : IoSystem}

theorem Same.refl : Same S S := ⟨rfl, rfl, rfl, rfl, fun _ => rfl, rfl, rfl, fun _ => rfl⟩

theorem Same.trans (h : Same S S₁) (h' : Same S₁ S') : Same S S' where
  id := h'.id.trans h.id
  generation := h'.generation.trans h.generation
  active := h'.active.trans h.active
  started := h'.started.trans h.started
  opState := fun ht => (h'.opState (h.started.trans ht)).trans (h.opState ht)
  bindingId := h'.bindingId.trans h.bindingId
  bindingGeneration := h'.bindingGeneration.trans h.bindingGeneration
  submitting := fun ht => (h'.submitting (h.started.trans ht)).trans (h.submitting ht)

theorem Same.claimed_iff (h : Same S S') : S'.Claimed ↔ S.Claimed := by
  unfold Claimed
  rw [h.id, h.generation, h.bindingId, h.bindingGeneration]

theorem same_enqueueCompletion {generation : Nat} {status : Irb} :
    Same S (S.enqueueCompletion generation status) := by
  unfold enqueueCompletion
  split
  · have hroom : S.binding.makeRoom.id = S.binding.id ∧
        S.binding.makeRoom.generation = S.binding.generation ∧
        S.binding.makeRoom.active = S.binding.active ∧
        S.binding.makeRoom.teardownStarted = S.binding.teardownStarted ∧
        S.binding.makeRoom.opState = S.binding.opState := by
      unfold IoBinding.makeRoom
      split_ifs <;> exact ⟨rfl, rfl, rfl, rfl, rfl⟩
    obtain ⟨hid, hgeneration, hactive, hstarted, hstate⟩ := hroom
    refine ⟨hid, hgeneration, hactive, hstarted, fun ht => ?_, rfl, rfl, fun _ => rfl⟩
    show (if S.binding.makeRoom.teardownStarted then _ else _) = _
    rw [hstarted, if_pos ht, hstate]
  · exact .refl

theorem same_ioInterrupt {status : Irb} : Same S (S.ioInterrupt status) := by
  unfold ioInterrupt
  split
  · exact ⟨rfl, rfl, rfl, rfl, fun _ => rfl, rfl, rfl, fun _ => rfl⟩
  · exact .refl

theorem same_deliver {d : Delivery} :
    Same S ({ S with inflight := S.inflight.erase d }.completionSink d) := by
  have herase : Same S { S with inflight := S.inflight.erase d } :=
    ⟨rfl, rfl, rfl, rfl, fun _ => rfl, rfl, rfl, fun _ => rfl⟩
  unfold completionSink
  split
  · exact herase.trans same_enqueueCompletion
  · exact herase

theorem same_setState {state : SubchannelState} : Same S (S.setState state) :=
  ⟨rfl, rfl, rfl, rfl, fun _ => rfl, rfl, rfl, fun _ => rfl⟩

theorem same_fenceStep (S : IoSystem) (cc : Nat) (status : Irb) (phase : FencePhase) :
    Same S (S.fenceStep cc status phase).2 := by
  have htest : Same S (S.testIo cc status) := by
    unfold testIo
    split_ifs
    · exact same_setState
    · exact .refl
  cases phase with
  | halting | clearing =>
    simp only [fenceStep]
    split_ifs
    · exact same_setState
    · exact .refl
  | polling attempt =>
    simp only [fenceStep]
    split_ifs
    · exact .refl
    · exact htest
    · exact htest
  | closing found => exact same_enqueueCompletion
  | checking attempt =>
    simp only [fenceStep]
    split_ifs <;> exact .refl

theorem same_fenceRun {phase : FencePhase} {events : List FenceEvent} {ok : Bool}
    (h : S.fenceRun phase events = some (ok, S')) : Same S S' := by
  induction events generalizing S phase with
  | nil => cases h
  | cons event rest ih =>
    cases event with
    | answer cc status =>
      have hstep := same_fenceStep S cc status phase
      unfold fenceRun at h
      cases hres : S.fenceStep cc status phase with
      | mk next S₂ =>
        rw [hres] at h hstep
        cases next with
        | goes phase' => exact hstep.trans (ih h)
        | returns ok =>
          cases h
          exact hstep
    | interrupt status => exact same_ioInterrupt.trans (ih h)
    | deliver d =>
      unfold fenceRun at h
      split_ifs at h
      exact same_deliver.trans (ih h)

theorem same_fence {events : List FenceEvent} {ok : Bool} (h : S.fence events = some (ok, S')) :
    Same S S' := by
  unfold fence at h
  split_ifs at h
  · cases h
    exact .refl
  · exact same_fenceRun h

end IoSystem

/-! ## The invariant -/

namespace Device

variable {D D' E : Device} {a : UnbindCall}

/-- As long as the binding is there, so is everything of it; it is retired with the teardown. -/
structure Kept (D : Device) : Prop where
  whole : D.io.binding.active = true → D.io.Claimed ∧ D.extent = true ∧ D.storage = true ∧
    D.freed = 0
  once : D.freed ≤ 1
  gone : D.io.binding.active = false → D.extent = false ∧ D.io.binding.teardownStarted = true ∧
    ¬ D.io.Claimed
  retired : D.retiring = D.io.binding.teardownStarted
  unmapped : D.io.binding.teardownStarted = true → D.mappings = 0
  revoking : D.io.binding.teardownStarted = true → D.io.binding.opState = .revoking
  submitting : D.io.submitting = true → D.io.binding.teardownStarted = false

theorem Kept.io (h : Kept D) {S : IoSystem} (hsame : IoSystem.Same D.io S)
    (hsub : S.submitting = true → S.binding.teardownStarted = false) : Kept { D with io := S } where
  whole := fun ha => by
    rw [hsame.claimed_iff]
    exact h.whole (hsame.active.symm.trans ha)
  once := h.once
  gone := fun ha => by
    rw [hsame.claimed_iff, hsame.started]
    exact h.gone (hsame.active.symm.trans ha)
  retired := h.retired.trans hsame.started.symm
  unmapped := fun ht => h.unmapped (hsame.started.symm.trans ht)
  revoking := fun ht => by
    have ht' := hsame.started.symm.trans ht
    exact (hsame.opState ht').trans (h.revoking ht')
  submitting := hsub

theorem Kept.issue (h : Kept D) (a : UnbindCall) : Kept (D.issue a) := by
  unfold Device.issue
  split
  · exact h
  · exact { h with }

/-- A call that comes past the retirement has begun a teardown or goes on with one. -/
theorem begin_eq_some (h : D.begin = some E) : E.io.binding.active = D.io.binding.active ∧
    E.io.binding.teardownStarted = true ∧ E.io.submitting = D.io.submitting ∧
      E.freed = D.freed := by
  unfold begin at h
  split_ifs at h with ht
  · cases h
    exact ⟨rfl, ht, rfl, rfl⟩
  · obtain ⟨-, rfl⟩ := of_guard h
    exact ⟨rfl, rfl, rfl, rfl⟩

theorem Kept.begin (h : Kept D) (hsub : D.io.submitting = false) (hbegin : D.begin = some E) :
    Kept E := by
  unfold Device.begin at hbegin
  split_ifs at hbegin with ht
  · cases hbegin
    exact h
  obtain ⟨hguard, rfl⟩ := of_guard hbegin
  push Not at hguard
  exact
    { h with
      gone := fun ha => ⟨(h.gone ha).1, rfl, (h.gone ha).2.2⟩
      retired := rfl
      unmapped := fun _ => hguard.2.1
      revoking := fun _ => rfl
      submitting := fun hs => by
        rw [show D.io.submitting = true from hs] at hsub
        cases hsub }

theorem releaseBinding_eq {S : IoSystem} (hc : S.Claimed) (hidle : S.entry.state = .idle) :
    S.releaseBinding = (.ok (), { S with
      entry := { S.entry with
        bindingId := none, bindingGeneration := 0, activeBindingId := none } }) := by
  unfold IoSystem.releaseBinding
  rw [if_neg (fun hne => hne.elim (fun h => h hc.1) (fun h => h hc.2)),
    if_neg (fun hne => hne hidle)]

theorem not_claimed_of_none {S : IoSystem} (h : S.entry.bindingId = none) : ¬ S.Claimed := by
  intro hc
  rw [hc.1] at h
  cases h

/-- What a call has done to a device whose pages were freed so often: a failure leaves what was
kept, success leaves nothing, and pages are freed behind the idle subchannel. -/
structure Call (freed : Nat) (r : Bool × Device) : Prop where
  kept : Kept r.2
  gone : r.1 = true → Gone r.2
  idle : r.2.freed ≠ freed → r.2.io.entry.state = .idle ∧ r.2.io.entry.bindingId = none

theorem Kept.refused (h : Kept D) : Call D.freed (false, D) := ⟨h, nofun, absurd rfl⟩

/-- Behind the fence a call succeeds exactly if the subchannel is idle. -/
theorem Kept.release (h : Kept D) (hactive : D.io.binding.active = true)
    (hstarted : D.io.binding.teardownStarted = true) :
    Call D.freed D.release ∧ (D.release.1 = true ↔ D.io.entry.state = .idle) ∧
      (D.release.1 = false → D.release.2 = D) := by
  obtain ⟨hc, hextent, hstorage, hfreed⟩ := h.whole hactive
  by_cases hidle : D.io.entry.state = .idle
  · have hrun : D.release = (true, { D with
        io := { D.io with
          binding := { D.io.binding with active := false }
          entry := { D.io.entry with
            bindingId := none, bindingGeneration := 0, activeBindingId := none } }
        retiring := true
        bindingCaps := false
        extentCaps := false
        extent := false
        storage := false
        freed := D.freed + 1 }) := by
      unfold Device.release
      rw [releaseBinding_eq hc hidle]
      simp [releaseObjects, destroyExtent, destroyStorage, IoSystem.setBinding, hextent, hstorage,
        h.unmapped hstarted]
    have hone : D.freed + 1 = 1 := by omega
    rw [hrun]
    refine ⟨⟨?_, fun _ => ?_, fun _ => ⟨hidle, rfl⟩⟩, iff_of_true rfl hidle, nofun⟩
    · exact
        { whole := nofun
          once := hone.le
          gone := fun _ => ⟨rfl, hstarted, not_claimed_of_none rfl⟩
          retired := hstarted.symm
          unmapped := h.unmapped
          revoking := h.revoking
          submitting := h.submitting }
    · exact ⟨not_claimed_of_none rfl, ⟨rfl, rfl⟩, ⟨rfl, rfl⟩, hone, rfl⟩
  · have hrun : D.release = (false, D) := by
      unfold Device.release IoSystem.releaseBinding
      rw [if_neg (fun hne => hne.elim (fun h => h hc.1) (fun h => h hc.2)), if_pos hidle]
    rw [hrun]
    exact ⟨h.refused, iff_of_false nofun hidle, fun _ => rfl⟩

/-- The rest of a call, from its fence on. -/
theorem Kept.fenced (h : Kept E) (hactive : E.io.binding.active = true)
    (hstarted : E.io.binding.teardownStarted = true) {ok : Bool} {io : IoSystem}
    (hfence : E.io.fence a.fence = some (ok, io)) : Kept { E with io } ∧ io.binding.active = true ∧
      io.binding.teardownStarted = true := by
  have hsame := IoSystem.same_fence hfence
  refine ⟨h.io hsame fun hs => ?_, hsame.active.trans hactive, hsame.started.trans hstarted⟩
  rw [hsame.submitting hstarted] at hs
  rw [h.submitting hs] at hstarted
  cases hstarted

theorem Kept.unbind (h : Kept D) {r : Bool × Device} (hr : D.unbind a = some r) :
    Call D.freed r := by
  unfold Device.unbind at hr
  have hissue := h.issue a
  have hfreed : (D.issue a).freed = D.freed := by
    unfold Device.issue
    split_ifs <;> rfl
  generalize D.issue a = D₁ at hr hissue hfreed
  rw [← hfreed]
  unfold Device.unbindWith at hr
  split_ifs at hr with hsub hentitled
  · cases hr
    exact hissue.refused
  push Not at hentitled
  have hactive : D₁.io.binding.active = true := by simpa using hentitled.1
  split at hr
  · cases hr
    exact hissue.refused
  next E hbegin =>
  obtain ⟨hsame, hstarted, -, hfreed⟩ := begin_eq_some hbegin
  have hkept := hissue.begin (by simpa using hsub) hbegin
  obtain ⟨⟨ok, io⟩, hfence, rfl⟩ := Option.map_eq_some_iff.mp hr
  obtain ⟨hkept, hactive, hstarted⟩ := hkept.fenced (hsame.trans hactive) hstarted hfence
  rw [← hfreed]
  dsimp only
  split
  · exact (hkept.release hactive hstarted).1
  · exact hkept.refused

end Device

end ZXFoundation.Sys.Zxio
