import ZXFoundation.Dgp.Cap.Preservation
import ZXFoundation.Scoms.Publish

/-!
# Runs of the object store

A run is a sequence of calls to tables, handles, metadata and capabilities, in any order and with
any arguments. A call that ends in a trap has no successor state. `destroy_if` calls back into its
client; the client's cleanup is again a list of calls.

`WF.op` says what one operation preserves and how it may trap, `WF.of_reachable` that the
invariant holds in every state of every run.
-/

namespace ZXFoundation.Scoms

open Runs Outcome Dgp.Cap

/-- The calls of the store, with what the allocator and the metadata answer. -/
inductive Call where
  | init (t : TableId) (mem : Nat → Bool) (type : KobjectType)
  /-- `alloc`; a creator that stores a generation of its own does so before anything else. -/
  | alloc (t : TableId) (type : KobjectType) (faults : AllocFaults) (generation : Option Nat)
  | allocAt (t : TableId) (id : Nat) (faults : AllocFaults) (generation : Option Nat)
  | acquireRef (t : TableId) (id : Nat) (state : LifecycleState)
  | release (t : TableId) (id : Nat)
  | constructHandle (a : Addr)
  | copyHandle (i : Nat)
  | moveHandle (i : Nat)
  | dropHandle (i : Nat)
  | copyAssign (i j : Nat)
  | moveAssign (i j : Nat)
  | changeState (i : Nat) (change : HandleChange)
  | swapStateTo (target : SwapTarget) (a : Addr)
  | setOwner (a : Addr) (ownerDomain : Nat)
  | attach (child parent : Addr)
  | detach (child : Addr)
  | capIssue (mem : Bool) (type : CapType) (objId : UInt16) (rights : CapRights)
      (ownerDomain : Nat)
  | capDuplicate (mem : Bool) (source : CapToken) (rights : CapRights) (ownerDomain : Nat)
  | capAcquire (mem : Bool) (source : CapToken) (rights : CapRights) (ownerDomain : Nat)
  | capDuplicateFor (mem : Bool) (source : CapToken) (rights : CapRights)
      (sourceDomain ownerDomain : Nat)
  | capRelease (token : CapToken)
  | capRevoke (token : CapToken)
  | capRevokeForDomain (domainId : Nat)
  | capRevokeTarget (a : Addr)

inductive Reply where
  | none
  | changed (done : Bool)
  | object (r : Except KernelError Addr)
  | status (r : Except KernelError Unit)
  | token (r : Except KernelError CapToken)
  | count (n : Nat)

def Call.run (cfg : Config) (w : World) : Call → Except Trap (Reply × World)
  | .init t mem type => return (.none, w.initTable cfg t mem type)
  | .alloc t type faults generation => do
    let (r, w) ← w.alloc t type faults
    return (.object r, w.overwriteGeneration r generation)
  | .allocAt t id faults generation => do
    let (r, w) ← w.allocAt cfg t id faults
    return (.object r, w.overwriteGeneration r generation)
  | .acquireRef t id state => do
    let (p, w) ← w.acquireRef cfg t id state
    return (.changed p.isSome, w.pushHandle p)
  | .release t id => do
    let (r, w) ← w.release cfg t id
    return (.status r, w)
  | .constructHandle a => return (.none, ← w.constructHandle a)
  | .copyHandle i => return (.none, ← w.copyHandle i)
  | .moveHandle i => return (.none, ← w.moveHandle i)
  | .dropHandle i => return (.none, ← w.dropHandle cfg i)
  | .copyAssign i j => return (.none, ← w.copyAssign cfg i j)
  | .moveAssign i j => return (.none, ← w.moveAssign cfg i j)
  | .changeState i change => return (.none, ← w.changeState i change)
  | .swapStateTo target a => do
    let (done, w) ← w.swapStateTo target a
    return (.changed done, w)
  | .setOwner a d => do
    let (r, w) ← w.setOwner a d
    return (.status r, w)
  | .attach child parent => do
    let (r, w) ← w.attach child parent
    return (.status r, w)
  | .detach child => do
    let (r, w) ← w.detach child
    return (.status r, w)
  | .capIssue mem type objId rights owner => do
    let (r, w) ← w.capIssue cfg mem type objId rights owner
    return (.token r, w)
  | .capDuplicate mem source rights owner => do
    let (r, w) ← World.capDuplicate cfg w mem source rights owner
    return (.token r, w)
  | .capAcquire mem source rights owner => do
    let (r, w) ← World.capAcquire cfg w mem source rights owner
    return (.token r, w)
  | .capDuplicateFor mem source rights sourceDomain owner => do
    let (r, w) ← w.capDuplicateFor cfg mem source rights sourceDomain owner
    return (.token r, w)
  | .capRelease token => do
    let (r, w) ← World.capRelease cfg w token
    return (.status r, w)
  | .capRevoke token => do
    let (r, w) ← World.capRevoke cfg w token
    return (.status r, w)
  | .capRevokeForDomain d => do
    let (n, w) ← w.capRevokeForDomain cfg d
    return (.count n, w)
  | .capRevokeTarget a => do
    let (n, w) ← w.capRevokeTarget cfg a
    return (.count n, w)

/-- A list of calls, as a cleanup makes them. -/
def runCalls (cfg : Config) : List Call → World → Except Trap World
  | [], w => return w
  | c :: cs, w => do
    let (_, w) ← c.run cfg w
    runCalls cfg cs w

/-- An operation of the machine: one call, or a `destroy_if` with what its cleanup does for each
id. -/
inductive Op where
  | call (c : Call)
  | destroyIf (t : TableId) (pred : Nat → Bool) (cleanup : Nat → List Call)

def Op.run (cfg : Config) (w : World) : Op → Except Trap (Reply × World)
  | .call c => c.run cfg w
  | .destroyIf t pred cleanup => do
    let (n, w) ← w.destroyIf cfg t pred fun i => runCalls cfg (cleanup i)
    return (.count n, w)

/-- The object store, from the state in which no table is initialized. -/
def storeMachine (cfg : Config) : Machine World Op where
  start := fun w => ∃ heap, w = .boot heap
  step := fun w op w' => ∃ reply, op.run cfg w = .ok (reply, w')

/-! ## The invariant in every run -/

variable {cfg : Config} {w w' : World} {x : Addr → Nat}

theorem WF.boot {heap : Addr → Bobject} : WF cfg (.boot heap) fun _ => 0 := by
  refine ⟨⟨CoreInv.boot, ?_, ?_, ?_, ?_, ?_, ?_, ?_⟩, ⟨?_, fun {a} _ => ?_⟩, ?_,
    ⟨?_, ?_, List.nodup_nil, ?_, ?_⟩⟩
  all_goals simp [World.boot, ScomsTable.objectPtr, World.references, World.published,
    World.capReferences, ObjectCore.boot, CapsOk]

/-- Every call keeps the books, and no trap but a benign one stops it. -/
theorem WF.call (h : WF cfg w x) {c : Call} :
    Post Trap.IsBenign (fun r => WF cfg r.2 x) (c.run cfg w) := by
  cases c with
  | init t mem type => exact h.initTable
  | alloc t type faults generation =>
    exact (alloc_outcome h t type faults).bind fun r hr => hr.overwrite h generation
  | allocAt t id faults generation =>
    exact (allocAt_outcome h).bind fun r hr => hr.overwrite h generation
  | acquireRef t id state => exact h.acquireRef.bind fun r hr => hr.pushHandle
  | release t id => exact h.release.bind fun r hr => hr
  | constructHandle a => exact h.constructHandle.bind fun r hr => hr
  | copyHandle i => exact h.copyHandle.bind fun r hr => hr
  | moveHandle i => exact h.moveHandle.bind fun r hr => hr
  | dropHandle i => exact (h.dropHandle i).bind fun r hr => hr
  | copyAssign i j => exact h.copyAssign.bind fun r hr => hr
  | moveAssign i j => exact h.moveAssign.bind fun r hr => hr
  | changeState i change => exact (h.changeState i change).bind fun r hr => hr
  | swapStateTo target a => exact h.swapStateTo.bind fun r hr => hr
  | setOwner a d => exact (h.setOwner a d).bind fun r hr => hr
  | attach child parent => exact h.attach.bind fun r hr => hr
  | detach child => exact (h.detach child).bind fun r hr => hr
  | capIssue mem type objId rights owner =>
    exact (issue_outcome h mem type objId rights owner).bind fun r hr => hr.wf h
  | capDuplicate mem source rights owner =>
    exact h.derive.bind fun r hr => hr
  | capAcquire mem source rights owner =>
    exact h.derive.bind fun r hr => hr
  | capDuplicateFor mem source rights sourceDomain owner =>
    exact h.capDuplicateFor.bind fun r hr => hr
  | capRelease token => exact h.vacateToken.bind fun r hr => hr
  | capRevoke token => exact h.vacateToken.bind fun r hr => hr
  | capRevokeForDomain d => exact h.capRevokeForDomain.bind fun r hr => hr
  | capRevokeTarget a => exact h.capRevokeTarget.bind fun r hr => hr

variable {cs : List Call}

theorem WF.runCalls : ∀ {w : World} {x : Addr → Nat}, WF cfg w x →
    Post Trap.IsBenign (fun w' => WF cfg w' x) (runCalls cfg cs w) := by
  induction cs with
  | nil => exact fun h => h
  | cons c cs ih => exact fun h => h.call.bind fun r hr => ih hr

/-- `destroy_if` runs its clean-up calls between its own steps. -/
theorem WF.op (h : WF cfg w x) {op : Op} :
    Post Trap.IsBenign (fun r => WF cfg r.2 x) (op.run cfg w) := by
  cases op with
  | call c => exact h.call
  | destroyIf t pred cleanup =>
    exact (h.destroyIf fun i {_ _} hw => hw.runCalls).bind fun r hr => hr

/-- **The invariant holds in every reachable state**, with no reference in flight. -/
theorem WF.of_reachable (h : (storeMachine cfg).Reachable w) : WF cfg w fun _ => 0 := by
  refine h.invariant (P := fun w => WF cfg w fun _ => 0) (fun w hw => ?_) fun w op w' hw hstep => ?_
  · obtain ⟨heap, rfl⟩ := hw
    exact WF.boot
  · obtain ⟨reply, hrun⟩ := hstep
    exact hw.op.result hrun

/-! ## Observers -/

section Observed

variable {L : Type} (cfg : Config) (blank : L) (record : L → World → Call → Reply → World → L)

/-- The object store with an observer, who writes down what each call did. -/
def observedMachine : Machine (World × L) Call where
  start := fun s => (∃ heap, s.1 = .boot heap) ∧ s.2 = blank
  step := fun s c s' =>
    ∃ reply, c.run cfg s.1 = .ok (reply, s'.1) ∧ s'.2 = record s.2 s.1 c reply s'.1

/-- The observed run of a list of calls. -/
def observeCalls : List Call → World × L → Except Trap (World × L)
  | [], s => return s
  | c :: cs, s => do
    let (reply, w) ← c.run cfg s.1
    observeCalls cs (w, record s.2 s.1 c reply w)

variable {cfg blank record} {s : World × L}

/-- What the notes say holds in every run if each call keeps it. -/
theorem observed_invariant {P : World → L → Prop} (hboot : ∀ heap, P (.boot heap) blank)
    (hcall : ∀ w l c, WF cfg w (fun _ => 0) → P w l →
      Ensures (fun r => P r.2 (record l w c r.1 r.2)) (c.run cfg w))
    (h : (observedMachine cfg blank record).Reachable s) : WF cfg s.1 (fun _ => 0) ∧ P s.1 s.2 := by
  refine h.invariant (P := fun s => WF cfg s.1 (fun _ => 0) ∧ P s.1 s.2) (fun s hs => ?_)
    fun s c s' hs hstep => ?_
  · obtain ⟨w, l⟩ := s
    obtain ⟨⟨heap, rfl⟩, rfl⟩ := hs
    exact ⟨WF.boot, hboot heap⟩
  obtain ⟨hwf, hinv⟩ := hs
  obtain ⟨reply, hrun, hrec⟩ := hstep
  rw [hrec]
  exact ⟨hwf.call.result hrun, (hcall s.1 s.2 c hwf hinv).result hrun⟩

/-- What the evaluator computes is a run of the machine. -/
theorem exec_of_observeCalls {s' : World × L} (h : observeCalls cfg record cs s = .ok s') :
    (observedMachine cfg blank record).Exec s cs s' := by
  induction cs generalizing s with
  | nil =>
    cases h
    exact .nil _
  | cons c cs ih =>
    rw [observeCalls] at h
    cases hc : c.run cfg s.1 with
    | error e => simp [hc, bind, Except.bind] at h
    | ok r =>
      simp only [hc, bind, Except.bind] at h
      exact .cons ⟨r.1, hc, rfl⟩ (ih h)

theorem reachable_of_observeCalls {heap : Addr → Bobject}
    (h : observeCalls cfg record cs (.boot heap, blank) = .ok s) :
    (observedMachine cfg blank record).Reachable s :=
  ⟨_, _, ⟨⟨_, rfl⟩, rfl⟩, exec_of_observeCalls h⟩

end Observed

/-! ## Concrete runs -/

/-- A small configuration: three ids in every table, and one callback, which looks domains up in
table 0. -/
def smallConfig : Config where
  capacity := fun _ => ⟨3, by decide, by decide⟩
  lookup := fun idx => if idx = CapType.domain.toNat then some ⟨0, fun _ => true⟩ else none
  fits := fun _ => by decide

theorem exec_of_runCalls (h : runCalls cfg cs w = .ok w') :
    (storeMachine cfg).Exec w (cs.map .call) w' := by
  induction cs generalizing w with
  | nil =>
    cases h
    exact .nil _
  | cons c cs ih =>
    rw [Scoms.runCalls] at h
    cases hc : c.run cfg w with
    | error e => simp [hc, bind, Except.bind] at h
    | ok r =>
      simp only [hc, bind, Except.bind] at h
      exact .cons ⟨r.1, hc⟩ (ih h)

theorem reachable_of_runCalls {heap : Addr → Bobject} (h : runCalls cfg cs (.boot heap) = .ok w) :
    (storeMachine cfg).Reachable w :=
  ⟨_, _, ⟨heap, rfl⟩, exec_of_runCalls h⟩

/-!
## What the calls leave alone

* `Persist`: no object appeared, the surviving ones are still who they were, and no generation
  counter moved.
* `Carried`: besides, no capability slot was touched. This is `release`.
* `SlotStep`: objects persist and every table slot shows what it showed. These are the capability
  calls.
* `Quiet`: all of it. These are the calls to handles and metadata.

* `Grows`: at most one object is new, and no slot lost its object. These are `init` and the two
  allocating calls.
-/

open Function World

variable {cfg : Config} {w w' w'' : World}

/-- No object is made: what is live was live before, with the same identity. -/
structure Persist (w w' : World) : Prop where
  serial : w'.serial = w.serial
  generation : ∀ t, (w'.table t).generation = (w.table t).generation
  initialized : ∀ t, (w'.table t).initialized = (w.table t).initialized
  live : ∀ {b bl}, w'.allocation b = some bl → w.allocation b = some bl ∧
    (w.header b).SameIdentity (w'.header b)

/-- The capability table is as it was. -/
structure Carried (w w' : World) : Prop extends Persist w w' where
  caps : w'.caps = w.caps
  vacated : w'.vacated = w.vacated

/-- The object tables are as they were. -/
structure SlotStep (w w' : World) : Prop extends Persist w w' where
  objectPtr : ∀ t id, (w'.table t).objectPtr id = (w.table t).objectPtr id
  count : ∀ t, (w'.table t).count = (w.table t).count

structure Quiet (w w' : World) : Prop extends Carried w w', SlotStep w w'

variable {o : Bobject}

theorem Bobject.SameIdentity.refl : o.SameIdentity o := ⟨rfl, rfl, rfl, rfl⟩

theorem Bobject.SameIdentity.trans {o' o'' : Bobject} (h : o.SameIdentity o')
    (h' : o'.SameIdentity o'') :
    o.SameIdentity o'' :=
  ⟨h'.1.trans h.1, h'.2.1.trans h.2.1, h'.2.2.1.trans h.2.2.1, h'.2.2.2.trans h.2.2.2⟩

theorem Persist.refl : Persist w w :=
  ⟨rfl, fun _ => rfl, fun _ => rfl, fun hbl => ⟨hbl, .refl⟩⟩

theorem Persist.trans (h : Persist w w') (h' : Persist w' w'') : Persist w w'' where
  serial := h'.serial.trans h.serial
  generation := fun t => (h'.generation t).trans (h.generation t)
  initialized := fun t => (h'.initialized t).trans (h.initialized t)
  live := fun hbl => by
    obtain ⟨hbl', hsame'⟩ := h'.live hbl
    obtain ⟨hbl₀, hsame⟩ := h.live hbl'
    exact ⟨hbl₀, hsame.trans hsame'⟩

theorem Carried.trans (h : Carried w w') (h' : Carried w' w'') : Carried w w'' :=
  ⟨h.toPersist.trans h'.toPersist, h'.caps.trans h.caps, h'.vacated.trans h.vacated⟩

theorem SlotStep.refl : SlotStep w w := ⟨.refl, fun _ _ => rfl, fun _ => rfl⟩

theorem SlotStep.trans (h : SlotStep w w') (h' : SlotStep w' w'') : SlotStep w w'' :=
  ⟨h.toPersist.trans h'.toPersist, fun t id => (h'.objectPtr t id).trans (h.objectPtr t id),
    fun t => (h'.count t).trans (h.count t)⟩

theorem Quiet.trans (h : Quiet w w') (h' : Quiet w' w'') : Quiet w w'' :=
  ⟨h.toCarried.trans h'.toCarried, (h.toSlotStep.trans h'.toSlotStep).objectPtr,
    (h.toSlotStep.trans h'.toSlotStep).count⟩

theorem Quiet.refl : Quiet w w :=
  ⟨⟨.refl, rfl, rfl⟩, fun _ _ => rfl, fun _ => rfl⟩

/-- Counting references up and down is quiet. -/
theorem RefStep.quiet (h : RefStep w w') : Quiet w w' := by
  refine ⟨⟨⟨h.serial, h.generation, fun t => (h.objects t).initialized, fun {b bl} hbl => ?_⟩,
    h.caps,
    h.vacated⟩, fun t => (h.objects t).objectPtr, fun t => (h.objects t).count⟩
  obtain ⟨hbl', heq⟩ := h.live hbl
  refine ⟨hbl', ?_⟩
  rw [heq]
  exact ⟨rfl, rfl, rfl, rfl⟩

/-- The handles of the callers are no part of the store. -/
theorem Quiet.handles {l : List (Option Addr)} : Quiet w { w with handle := l } :=
  ⟨⟨⟨rfl, fun _ => rfl, fun _ => rfl, fun hbl => ⟨hbl, .refl⟩⟩, rfl, rfl⟩, fun _ _ => rfl,
    fun _ => rfl⟩

variable {a : Addr} {c : Call} {t : TableId} {id : Nat} {core : ObjectCore} {type : KobjectType}
    {x : Addr → Nat} {T : ScomsTable}

/-- A header may change its state and its count, and keeps its identity. -/
theorem Quiet.setHeader (h : (w.header a).SameIdentity o) : Quiet w (w.setHeader a o) := by
  refine ⟨⟨⟨rfl, fun _ => rfl, fun _ => rfl, fun {b bl} hbl => ⟨hbl, ?_⟩⟩, rfl, rfl⟩,
    fun _ _ => rfl, fun _ => rfl⟩
  by_cases hba : b = a
  · rw [hba, header_setHeader_self]
    exact h
  · rw [header_setHeader_of_ne _ _ hba]
    exact .refl

theorem Quiet.transition {target : LifecycleState} :
    Quiet w (w.setHeader a ((w.header a).transition target).1) := by
  rw [Bobject.transition_fst]
  exact .setHeader ⟨rfl, rfl, rfl, rfl⟩

theorem Quiet.setCore {c : ObjectCore} (h : c.heap = w.core.heap) :
    Quiet w { w with core := c } := by
  refine ⟨⟨⟨rfl, fun _ => rfl, fun _ => rfl, fun {b bl} hbl => ⟨hbl, ?_⟩⟩, rfl, rfl⟩,
    fun _ _ => rfl, fun _ => rfl⟩
  have hheader : header { w with core := c } b = w.header b := congrFun h b
  rw [hheader]
  exact .refl

theorem quiet_put : Ensures (Quiet w) (w.put cfg a) :=
  .of_ok fun _ h => (refStep_put h).quiet

variable {p : Option Addr}

theorem quiet_putPtr : Ensures (Quiet w) (w.putPtr cfg p) :=
  .of_ok fun _ h => (refStep_putPtr h).quiet

theorem quiet_acquire : Ensures (fun r => Quiet w r.2) (w.acquire p) :=
  .of_ok fun _ h => (refStep_acquire h).quiet

theorem post_any {α : Type} {r : Except Trap α} : Ensures (fun _ => True) r :=
  .of_ok fun _ _ => trivial

/-- The calls that move references, states and links only. -/
def Call.IsQuiet : Call → Prop
  | .acquireRef .. | .constructHandle _ | .copyHandle _ | .moveHandle _ | .dropHandle _
  | .copyAssign .. | .moveAssign .. | .changeState .. | .swapStateTo .. | .setOwner ..
  | .attach .. | .detach _ => True
  | _ => False

theorem quiet_acquireRef {state : LifecycleState} :
    Ensures (fun r => Quiet w r.2) (w.acquireRef cfg t id state) := by
  unfold acquireRef
  split_ifs
  · trivial
  split
  · exact .refl
  split_ifs
  · exact .refl
  · exact quiet_acquire

variable {i : Nat}

open Quiet

theorem quiet_copyAssign {j : Nat} : Ensures (Quiet w) (w.copyAssign cfg i j) := by
  unfold copyAssign
  split_ifs
  · exact .refl
  refine post_any.bind fun old _ => post_any.bind fun src _ => ?_
  refine quiet_putPtr.bind fun w₁ h₁ => quiet_acquire.bind fun r h₂ => ?_
  exact (handles.trans h₁).trans (h₂.trans .handles)

theorem quiet_moveAssign {j : Nat} : Ensures (Quiet w) (w.moveAssign cfg i j) := by
  unfold moveAssign
  split_ifs
  · exact .refl
  refine post_any.bind fun old _ => post_any.bind fun src _ => ?_
  refine quiet_putPtr.bind fun w₁ h₁ => ?_
  exact (handles.trans h₁).trans (handles.trans .handles)

theorem quiet_dropHandle : Ensures (Quiet w) (w.dropHandle cfg i) :=
  post_any.bind fun _ _ => quiet_putPtr.mono fun _ hr => handles.trans hr

theorem quiet_changeState {change : HandleChange} : Ensures (Quiet w) (w.changeState i change) := by
  refine post_any.bind fun p _ => ?_
  cases p with
  | none => trivial
  | some a =>
    dsimp only
    split_ifs
    · exact transition.trans (handles.trans .handles)
    · exact .handles

theorem Quiet.commitCore {r : Except KernelError ObjectCore}
    (h : ∀ c, r = .ok c → c.heap = w.core.heap) : Quiet w (w.commitCore r).2 := by
  cases r with
  | ok c => exact .setCore (h c rfl)
  | error e => exact .refl

theorem quiet_setOwner {d : Nat} : Ensures (fun r => Quiet w r.2) (w.setOwner a d) := by
  refine post_any.bind fun _ _ => .commitCore fun c hc => ?_
  obtain ⟨i, -, rfl⟩ := ObjectCore.setOwner_eq_ok hc
  rfl

theorem quiet_attach {child parent : Addr} :
    Ensures (fun r => Quiet w r.2) (w.attach child parent) := by
  refine post_any.bind fun _ _ => post_any.bind fun _ _ => .commitCore fun c hc => ?_
  obtain ⟨i, p, -, -, -, -, rfl⟩ := ObjectCore.attach_eq_ok hc
  rfl

theorem quiet_detach {child : Addr} : Ensures (fun r => Quiet w r.2) (w.detach child) := by
  refine post_any.bind fun _ _ => .commitCore fun c hc => ?_
  obtain ⟨i, -, rfl⟩ := ObjectCore.detach_eq_ok hc
  exact ObjectCore.clearParentLocked_heap _ _

theorem quiet_swapStateTo {target : SwapTarget} :
    Ensures (fun r => Quiet w r.2) (w.swapStateTo target a) :=
  post_any.bind fun _ _ => transition

/-- **Handle and metadata calls are quiet.** -/
theorem Call.IsQuiet.run (h : c.IsQuiet) : Ensures (fun r => Quiet w r.2) (c.run cfg w) := by
  cases c with
  | acquireRef t id state =>
    exact quiet_acquireRef.bind fun r hr => hr.trans .handles
  | constructHandle a =>
    refine Post.bind (Q := Quiet w) ?_ fun _ hr => hr
    exact post_any.bind fun _ _ => quiet_acquire.bind fun r hr => hr.trans .handles
  | copyHandle i =>
    refine Post.bind (Q := Quiet w) ?_ fun _ hr => hr
    exact post_any.bind fun _ _ => quiet_acquire.bind fun r hr => hr.trans .handles
  | moveHandle i =>
    refine Post.bind (Q := Quiet w) ?_ fun _ hr => hr
    exact post_any.bind fun _ _ => handles.trans .handles
  | dropHandle i => exact quiet_dropHandle.bind fun _ hr => hr
  | copyAssign i j => exact quiet_copyAssign.bind fun _ hr => hr
  | moveAssign i j => exact quiet_moveAssign.bind fun _ hr => hr
  | changeState i change => exact quiet_changeState.bind fun _ hr => hr
  | swapStateTo target a => exact quiet_swapStateTo.bind fun _ hr => hr
  | setOwner a d => exact quiet_setOwner.bind fun _ hr => hr
  | attach child parent => exact quiet_attach.bind fun _ hr => hr
  | detach child => exact quiet_detach.bind fun _ hr => hr
  | _ => exact h.elim

/-! ## Release -/

/-- The write of `release` that takes the object out of its table. -/
theorem Carried.retired (hun : w.core.unregisterObject a = .ok core)
    (hdying : (w.header a).state = .dying) :
    Carried w (w.retired t id a core) := by
  have htable : ∀ t', (w.retired t id a core).table t' = w.table t' ∨ t' = t ∧
      (w.retired t id a core).table t' =
        { (w.table t).setSlot id none with count := pred32 (w.table t).count } := by
    intro t'
    by_cases ht : t' = t
    · subst ht
      exact .inr ⟨rfl, update_self ..⟩
    · exact .inl (update_of_ne ht ..)
  refine ⟨⟨rfl, fun t' => ?_, fun t' => ?_, fun {b bl} hbl => ⟨hbl, ?_⟩⟩, rfl, rfl⟩
  iterate 2
    · rcases htable t' with heq | ⟨rfl, heq⟩
      · rw [heq]
      · rw [heq]
        rfl
  · rw [header_retired hun hdying]
    split_ifs with hba
    · rw [hba]
      exact ⟨rfl, rfl, rfl, rfl⟩
    · exact .refl

/-- A release, whether it goes through or not. -/
theorem carried_release : Ensures (fun r => Carried w r.2) (w.release cfg t id) := by
  unfold release
  split_ifs
  · exact refl.toCarried
  split
  · exact refl.toCarried
  next a _ =>
  obtain ⟨o, moved, ho, hquiet⟩ : ∃ o moved,
      (if releasable (w.header a).state then (w.header a).transition .dying
        else (w.header a, true)) = (o, moved) ∧ Quiet w (w.setHeader a o) := by
    split_ifs
    · exact ⟨_, _, Prod.eta _, .transition⟩
    · exact ⟨_, _, rfl, .setHeader .refl⟩
  rw [ho]
  dsimp only
  split_ifs with hmoved hstate
  · exact refl.toCarried
  · exact hquiet.toCarried
  split
  · exact hquiet.toCarried
  next core hun =>
  have hdying : ((w.setHeader a o).header a).state = .dying := by
    rw [header_setHeader_self]
    exact not_not.mp hstate
  have hret : Carried _ ((w.setHeader a o).retired t id a core) := .retired hun hdying
  refine quiet_put.bind fun w' hput => ?_
  exact (hquiet.toCarried.trans hret).trans hput.toCarried

/-! ## Capability calls -/

theorem SlotStep.setCaps {caps : Option (Nat → CapabilitySlot)} {v : Nat → Nat} :
    SlotStep w { w with caps := caps, vacated := v } :=
  ⟨⟨rfl, fun _ => rfl, fun _ => rfl, fun hbl => ⟨hbl, .refl⟩⟩, fun _ _ => rfl, fun _ => rfl⟩

variable {rights : CapRights}

/-- An issue writes a capability slot and a count. -/
theorem IssueOutcome.slotStep {type : CapType} {objId : UInt16} {ownerDomain : Nat}
    {r : Except KernelError CapToken × World}
    (hr : IssueOutcome cfg w type objId rights ownerDomain r) :
    SlotStep w r.2 := by
  cases hr with
  | refused idle =>
    rcases idle with rfl | ⟨-, rfl⟩
    · exact .refl
    · exact .setCaps
  | @issued l a i =>
    have href : Quiet w (w.setHeader a { w.header a with ref := (w.header a).ref + 1 }) :=
      .setHeader ⟨rfl, rfl, rfl, rfl⟩
    exact href.toSlotStep.trans .setCaps

theorem slotStep_vacateToken {token : CapToken} :
    Ensures (fun r => SlotStep w r.2) (w.vacateToken cfg token) := by
  unfold vacateToken
  split_ifs
  · exact .refl
  split
  · split
    · trivial
    · exact quiet_put.bind fun w' hw' => SlotStep.setCaps.trans hw'.toSlotStep
  · exact .refl

/-- The loop over the slots, by induction on the slots that are left. -/
theorem slotStep_revokeLoop {select : World → CapabilitySlot → Bool} {fuel n : Nat} :
    Ensures (fun r => SlotStep w r.2) (revokeLoop cfg select fuel i n w) := by
  induction fuel generalizing i n w with
  | zero => exact .refl
  | succ fuel ih =>
    rw [revokeLoop]
    split
    · trivial
    split_ifs
    · refine quiet_putPtr.bind fun w₁ h₁ => ih.mono fun r hr => ?_
      exact (SlotStep.setCaps.trans h₁.toSlotStep).trans hr
    · exact ih

/-- The calls of the capability table. -/
def Call.IsCap : Call → Prop
  | .capIssue .. | .capDuplicate .. | .capAcquire .. | .capDuplicateFor .. | .capRelease _
  | .capRevoke _ | .capRevokeForDomain _ | .capRevokeTarget _ => True
  | _ => False

variable {source : CapToken} {mem : Bool}

theorem slotStep_deriveOwn (h : WF cfg w x) {owner : Nat} :
    Ensures (fun r => SlotStep w r.2) (w.deriveOwn cfg mem source rights owner) := by
  unfold deriveOwn
  split
  · exact .refl
  split
  · trivial
  · exact (issue_outcome h ..).forget.mono fun r hr => hr.slotStep

theorem slotStep_capDuplicateFor (h : WF cfg w x) {sourceDomain owner : Nat} :
    Ensures (fun r => SlotStep w r.2)
      (w.capDuplicateFor cfg mem source rights sourceDomain owner) := by
  unfold capDuplicateFor
  split
  · exact .refl
  split
  · trivial
  split_ifs
  · exact .refl
  · exact (issue_outcome h ..).forget.mono fun r hr => hr.slotStep

/-- **Capability calls touch no table slot and no identity.** -/
theorem Call.IsCap.run (hc : c.IsCap) (h : WF cfg w x) :
    Ensures (fun r => SlotStep w r.2) (c.run cfg w) := by
  cases c with
  | capIssue mem type objId rights owner =>
    exact (issue_outcome h mem type objId rights owner).forget.bind fun _ hr => hr.slotStep
  | capDuplicate mem source rights owner =>
    exact (slotStep_deriveOwn h).bind fun _ hr => hr
  | capAcquire mem source rights owner =>
    exact (slotStep_deriveOwn h).bind fun _ hr => hr
  | capDuplicateFor mem source rights sourceDomain owner =>
    exact (slotStep_capDuplicateFor h).bind fun _ hr => hr
  | capRelease token => exact slotStep_vacateToken.bind fun _ hr => hr
  | capRevoke token => exact slotStep_vacateToken.bind fun _ hr => hr
  | capRevokeForDomain d =>
    refine Post.bind (Q := fun r => SlotStep w r.2) (α := Nat × World) ?_ fun _ hr => hr
    unfold World.capRevokeForDomain
    split
    · exact SlotStep.refl
    · exact slotStep_revokeLoop
  | capRevokeTarget a =>
    refine Post.bind (Q := fun r => SlotStep w r.2) (α := Nat × World) ?_ fun _ hr => hr
    exact post_any.bind fun _ _ => slotStep_revokeLoop
  | _ => exact hc.elim

/-! ## Initialization and allocation -/

/-- Objects may be added, and the capability table is as it was. -/
structure Grows (w w' : World) : Prop where
  caps : w'.caps = w.caps
  vacated : w'.vacated = w.vacated
  live : ∀ {b bl}, w'.allocation b = some bl →
    w.allocation b = some bl ∧ (w.header b).SameIdentity (w'.header b) ∨
      w.allocation b = none ∧ bl.serial = w.serial
  slots : ∀ {t id a}, (w.table t).objectPtr id = some a → (w'.table t).objectPtr id = some a

theorem Quiet.grows (h : Quiet w w') : Grows w w' :=
  ⟨h.caps, h.vacated, fun hbl => .inl (h.live hbl), fun hptr => (h.objectPtr ..).trans hptr⟩

/-- An initialization adds an empty table. -/
theorem grows_initTable {mem : Nat → Bool} : Grows w (w.initTable cfg t mem type) := by
  unfold initTable
  split_ifs
  · exact refl.grows
  refine ⟨rfl, rfl, fun hbl => .inl ⟨hbl, .refl⟩, fun {t' id a} hptr => ?_⟩
  change ((w.setTable t _).table t').objectPtr id = some a
  by_cases ht : t' = t
  · subst ht
    rw [table_setTable_self, ScomsTable.objectPtr_init, hptr]
  · rw [table_setTable_of_ne ht, hptr]

/-- What a failed allocation leaves as it was. -/
structure Untouched (w w' : World) : Prop where
  allocation : w'.allocation = w.allocation
  header : ∀ {a al}, w.allocation a = some al → w'.header a = w.header a
  handle : w'.handle = w.handle
  caps : w'.caps = w.caps
  vacated : w'.vacated = w.vacated
  serial : w'.serial = w.serial
  objectPtr : ∀ t id, (w'.table t).objectPtr id = (w.table t).objectPtr id
  count : ∀ t, (w'.table t).count = (w.table t).count

/-- The storage of the failed object may be written; no allocated object lives there. -/
theorem AllocOutcome.untouched {e : KernelError} (hr : AllocOutcome cfg w t (.error e, w')) :
    Untouched w w' ∧ ∀ t', (w'.table t').initialized = (w.table t').initialized := by
  rcases hr with ⟨e, hsame⟩ | ⟨id, T, type, hc, -, hout⟩
  · cases hsame
    exact ⟨⟨rfl, fun _ => rfl, rfl, rfl, rfl, rfl, fun _ _ => rfl, fun _ => rfl⟩, fun _ => rfl⟩
  cases hout with
  | @failed _ w₀ T' storage same next head gen =>
    have hsame := hc.same.trans same
    -- `w₀` differs from `w` in one header that belongs to no object
    obtain ⟨hheader, hrest⟩ : (∀ {a al}, w.allocation a = some al → w₀.header a = w.header a) ∧
        w₀ = { w with core := w₀.core } := by
      rcases storage with rfl | ⟨a, o, hnew, rfl⟩
      · exact ⟨fun _ => rfl, rfl⟩
      · exact ⟨fun hbl => header_setHeader_of_ne _ _ (ne_of_unallocated hnew hbl), rfl⟩
    have htable : ∀ t', (w₀.setTable t T').table t' = if t' = t then T' else w.table t' := by
      intro t'
      rw [hrest]
      exact update_apply ..
    refine ⟨⟨?_, hheader, ?_, ?_, ?_, ?_, fun t' id => ?_, fun t' => ?_⟩, fun t' => ?_⟩
    iterate 5
      · rw [hrest]
        rfl
    all_goals
      rw [htable]
      split_ifs with ht
    · rw [ht, hsame.objectPtr]
    · rfl
    · rw [ht, hsame.count]
    · rfl
    · rw [ht, hsame.initialized]
    · rfl

/-- The object at `a` is new under the id, and one handle refers to it. -/
structure Born (w w' : World) (t : TableId) (id : Nat) (a : Addr) : Prop where
  ready : (w.table t).initialized = true
  vacant : (w.table t).objectPtr id = none
  new : w.allocation a = none
  named : (w'.header a).id = id
  state : (w'.header a).state = .embryo
  ref : (w'.header a).ref = 2
  header : ∀ {b}, b ≠ a → w'.header b = w.header b
  objectPtr : ∀ t' j, (w'.table t').objectPtr j =
    if t' = t ∧ j = id then some a else (w.table t').objectPtr j
  count : ∀ t', (w'.table t').count =
    if t' = t then succ32 (w.table t').count else (w.table t').count
  generation : ∀ t' j, (w'.table t').generation j =
    if t' = t ∧ j = id then succ32 ((w.table t').generation j) else (w.table t').generation j
  initialized : ∀ t', (w'.table t').initialized = (w.table t').initialized
  allocation : w'.allocation = update w.allocation a (some ⟨w.serial, t⟩)
  handle : w'.handle = w.handle ++ [some a]
  caps : w'.caps = w.caps
  vacated : w'.vacated = w.vacated

theorem Born.setGeneration (h : Born w w' t id a) {g : Nat} :
    Born w (w'.setHeader a { w'.header a with generation := g }) t id a := by
  have hself := header_setHeader_self w' a { w'.header a with generation := g }
  exact { h with
    named := by rw [hself]; exact h.named
    state := by rw [hself]; exact h.state
    ref := by rw [hself]; exact h.ref
    header := fun {b} hba => (header_setHeader_of_ne _ _ hba).trans (h.header hba) }

section

variable
    (hreg : Registered (w.setHeader a (newHeader (succ32 (T.generation id)) id type)).core core a t)
include hreg

theorem header_newObject : ∃ i, (w.newObject t T id type a core).header a =
      { newHeader (succ32 (T.generation id)) id type with objectFlags := i + 1 } := by
  obtain ⟨i, hi⟩ := hreg.header
  refine ⟨i, hi.trans ?_⟩
  rw [show (w.setHeader a _).core.heap a = _ from header_setHeader_self ..]

theorem acquire_newObject : (w.newObject t T id type a core).acquire (some a) =
      .ok (some a, (w.newObject t T id type a core).setHeader a
        { (w.newObject t T id type a core).header a with ref := 2 }) := by
  obtain ⟨i, hi⟩ := header_newObject hreg
  have href : ((w.newObject t T id type a core).header a).ref = 1 := by
    rw [hi]
    rfl
  have hget := tryGet_eq (w := w.newObject t T id type a core) (a := a) (by rw [href]; decide)
    (by rw [href]; decide)
  rw [href] at hget
  rw [acquire, hget]
  rfl

/-- The new object, from a claimed id to the handle that the caller gets. -/
theorem born_newObject (h : WF cfg w x) (hc : Claimed cfg w t id T)
    (hT : T.generation = (w.table t).generation) (hnew : w.allocation a = none)
    (hblock : T.slotBlock (id / tableBlockSize) = true) :
    Born w (((w.newObject t T id type a core).setHeader a
      { (w.newObject t T id type a core).header a with ref := 2 }).pushHandle (some a)) t id a := by
  obtain ⟨i, hheader⟩ := header_newObject hreg
  have htable : ∀ t', (w.newObject t T id type a core).table t' = if t' = t then
      T.withObject id a (succ32 (T.generation id)) else w.table t' := table_withObject _ _ _ _ _
  have hself : header (((w.newObject t T id type a core).setHeader a
      { (w.newObject t T id type a core).header a with ref := 2 }).pushHandle (some a)) a =
      { (w.newObject t T id type a core).header a with ref := 2 } := header_setHeader_self ..
  constructor
  case ready => exact hc.ready
  case vacant => exact objectPtr_none_of_vacant h.books hc.vacant
  case new => exact hnew
  case named => rw [hself, hheader]; rfl
  case state => rw [hself, hheader]; rfl
  case ref => rw [hself]
  case header =>
    intro b hba
    have hold : (w.newObject t T id type a core).header b = w.header b :=
      (hreg.heap hba).trans (ObjectCore.setObject_heap_of_ne _ _ hba)
    exact (header_setHeader_of_ne _ _ hba).trans hold
  case objectPtr =>
    intro t' j
    change ((w.newObject t T id type a core).table t').objectPtr j = _
    rw [htable]
    by_cases ht : t' = t
    · subst ht
      rw [if_pos rfl, ScomsTable.objectPtr_withObject hblock, hc.same.objectPtr]
      simp
    · rw [if_neg ht, if_neg fun hand => ht hand.1]
  case count =>
    intro t'
    change ((w.newObject t T id type a core).table t').count = _
    rw [htable]
    split_ifs with ht
    · subst ht
      exact congrArg succ32 hc.same.count
    · rfl
  case generation =>
    intro t' j
    change ((w.newObject t T id type a core).table t').generation j = _
    rw [htable]
    by_cases ht : t' = t
    · subst ht
      rw [if_pos rfl, ← hT]
      by_cases hj : j = id
      · subst hj
        rw [if_pos ⟨rfl, rfl⟩]
        exact update_self ..
      · rw [if_neg fun hand => hj hand.2]
        exact update_of_ne hj ..
    · rw [if_neg ht, if_neg fun hand => ht hand.1]
  case initialized =>
    intro t'
    change ((w.newObject t T id type a core).table t').initialized = _
    rw [htable]
    split_ifs with ht
    · subst ht
      exact hc.same.initialized
    · rfl
  case allocation => rfl
  case handle => rfl
  case caps => rfl
  case vacated => rfl

end

/-- A successful allocation, with the generation that the caller wants. -/
theorem AllocOutcome.born (hr : AllocOutcome cfg w t (.ok a, w')) (h : WF cfg w x)
    (generation : Option Nat) :
    ∃ id, Born w (w'.overwriteGeneration (.ok a) generation) t id a := by
  rcases hr with ⟨e, hsame⟩ | ⟨id, T, type, hc, hT, hout⟩
  · cases hsame
  cases hout with
  | @published T' _ core p w₁ new same next head gen block registered handle =>
    rw [acquire_newObject registered] at handle
    cases handle
    have hborn := born_newObject registered h (hc.congr same next head) (gen.trans hT) new block
    cases generation with
    | none => exact ⟨id, hborn⟩
    | some g => exact ⟨id, hborn.setGeneration⟩

theorem Untouched.grows (h : Untouched w w') : Grows w w' := by
  refine ⟨h.caps, h.vacated, fun {b bl} hbl => .inl ?_, fun hptr => (h.objectPtr ..).trans hptr⟩
  rw [h.allocation] at hbl
  rw [h.header hbl]
  exact ⟨hbl, .refl⟩

theorem Born.grows (h : Born w w' t id a) : Grows w w' := by
  refine ⟨h.caps, h.vacated, fun {b bl} hbl => ?_, fun {t' j b} hptr => ?_⟩
  · rw [h.allocation] at hbl
    by_cases hba : b = a
    · subst hba
      rw [update_self] at hbl
      cases hbl
      exact .inr ⟨h.new, rfl⟩
    · rw [update_of_ne hba] at hbl
      rw [h.header hba]
      exact .inl ⟨hbl, .refl⟩
  · rw [h.objectPtr, if_neg, hptr]
    rintro ⟨rfl, rfl⟩
    rw [h.vacant] at hptr
    cases hptr

/-- An allocation adds one object, or none if it fails. -/
theorem AllocOutcome.grows {r : Except KernelError Addr × World}
    (hr : AllocOutcome cfg w t r) (h : WF cfg w x) {generation : Option Nat} :
    Grows w (r.2.overwriteGeneration r.1 generation) := by
  obtain ⟨res, w'⟩ := r
  cases res with
  | error e => exact hr.untouched.1.grows
  | ok a =>
    obtain ⟨id, hborn⟩ := hr.born h generation
    exact hborn.grows

def Call.IsGrowing : Call → Prop
  | .init .. | .alloc .. | .allocAt .. => True
  | _ => False

theorem Call.IsGrowing.run (hc : c.IsGrowing) (h : WF cfg w x) :
    Ensures (fun r => Grows w r.2) (c.run cfg w) := by
  cases c with
  | init t mem type => exact grows_initTable
  | alloc t type faults generation =>
    exact (alloc_outcome h t type faults).forget.bind fun r hr => hr.grows h
  | allocAt t id faults generation =>
    exact (allocAt_outcome h).forget.bind fun r hr => hr.grows h
  | _ => exact hc.elim

theorem Call.IsQuiet.not_growing (h : c.IsQuiet) : ¬ c.IsGrowing := by
  cases c <;> first | exact fun hg => hg | exact h.elim

theorem Call.IsCap.not_growing (h : c.IsCap) : ¬ c.IsGrowing := by
  cases c <;> first | exact fun hg => hg | exact h.elim

/-- Every call is of one of four kinds; `release` is one by itself. -/
theorem Call.kind (c : Call) : c.IsQuiet ∨ c.IsCap ∨ c.IsGrowing ∨ ∃ t id, c = .release t id := by
  cases c <;> simp [Call.IsQuiet, Call.IsCap, Call.IsGrowing]

end ZXFoundation.Scoms
