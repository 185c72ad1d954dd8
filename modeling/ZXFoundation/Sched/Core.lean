import ZXFoundation.Lib.Outcome
import ZXFoundation.Lib.Run
import ZXFoundation.Sched.Admission
import ZXFoundation.Sched.Classed

/-!
# The scheduler's entry points

`sched/core.cxx` and `balance_dispatch` of `sched/balance.zcomponent/core.cxx`: `enqueue_strand`,
`dequeue_strand`, `schedule` with the work stealing inside it, the two ticks, the balancer, and what
the mutexes do to a strand's substate.

A section under a run-queue lock is one step. `try_steal_strand_locked` returns with the local lock
dropped (`Sched.Locks`), so the rest of `schedule` after a steal is a step of its own,
`finishSchedule`. Which CPU a scan finds busiest is an argument: it is read without the lock.
-/

namespace ZXFoundation.Sched

variable (S : System) (s : StrandId)

def enqueueStrand : Except Halt System :=
  match Classed.enqueue S (S.strand s).cpu s with
  | .error _ => .error .fatal
  | .ok S' => .ok S'

def dequeueStrand : System := Classed.dequeue S (S.strand s).cpu s

/-! ## Selection -/

variable (cpu : CpuId)

def requeues (prev : StrandId) : Bool :=
  (S.strand prev).owner.isSome && S.canAdmitDomain (S.strand prev).owner &&
    ((S.strand prev).substate == .running || (S.strand prev).substate == .runnable) &&
    !(S.strand prev).onRq && (S.rq cpu).idleStrand != some prev

/-- The requeue at the head of `schedule`. -/
def requeuePrev : Except Halt System :=
  match (S.rq cpu).curr with
  | none => .ok S
  | some prev =>
    if requeues S cpu prev then
      let S := S.setStrand prev { S.strand prev with substate := .runnable }
      match Classed.enqueue S cpu prev with
      | .error _ => .error .fatal
      | .ok S' => .ok S'
    else .ok S

theorem onRq_of_requeues {S : System} {cpu : CpuId} {s : StrandId} (h : requeues S cpu s = true) :
    (S.strand s).onRq = false := by
  simp only [requeues, Bool.and_eq_true, Bool.not_eq_true'] at h
  exact h.1.2

theorem requeuePrev_ok {S S' : System} {cpu : CpuId} (h : requeuePrev S cpu = .ok S') :
    S' = S ∨ ∃ prev, (S.rq cpu).curr = some prev ∧ requeues S cpu prev = true ∧
      Classed.enqueue (S.setStrand prev { S.strand prev with substate := .runnable }) cpu prev =
        .ok S' := by
  unfold requeuePrev at h
  split at h
  · cases h
    exact .inl rfl
  rename_i prev hprev
  split at h
  · rename_i hre
    simp only at h
    split at h
    · cases h
    · rename_i henq
      cases h
      exact .inr ⟨prev, hprev, hre, henq⟩
  · cases h
    exact .inl rfl

/-- `select_next`, with the idle strand as none. -/
def selectWork : Option StrandId :=
  match Classed.selectNext S cpu with
  | none => none
  | some s => if (S.rq cpu).idleStrand = some s then none else some s

theorem selectWork_mem {S : System} {cpu : CpuId} {s : StrandId} (h : selectWork S cpu = some s) :
    s ∈ (S.rq cpu).linked := by
  unfold selectWork at h
  split at h
  · cases h
  rename_i t hsel
  split at h
  · cases h
  · rename_i hne
    cases h
    exact (Classed.selectNext_mem hsel).resolve_right hne

/-- A selected strand whose owner has a revocation pending is taken off the queue. -/
def parkRevoked (next : StrandId) : System :=
  let S := Classed.dequeue S cpu next
  S.setStrand next { S.strand next with substate := .idle }

def revokePending : Bool :=
  match (S.strand s).owner with
  | none => false
  | some d => (S.domain d).pendingRightsRevoke != 0

/-- The checks between selection and switch: the strand to run and the state after them. -/
def vetNext (idle : StrandId) (next : Option StrandId) : StrandId × System :=
  match next with
  | none => (idle, S)
  | some s =>
    if !S.canAdmitDomain (S.strand s).owner then (idle, S)
    else if revokePending S s then (idle, parkRevoked S cpu s)
    else (s, S)

/-- The switch: `next` leaves the queue, gets a slice and becomes current. -/
def switchTo (idle next : StrandId) : System :=
  let S :=
    if next = idle then S
    else
      let S := if (S.strand next).onRq then Classed.dequeue S cpu next else S
      S.setStrand next { S.strand next with
        substate := .running
        se := { (S.strand next).se with
          slice := Fair.schedSlice (S.strand next).se (S.rq cpu).nrRunning } }
  S.setRq cpu { S.rq cpu with curr := some next }

/-- `schedule` from the fallback to the idle strand on. A strand that is selected again keeps its
place in the queue. -/
def runNext (prev next : Option StrandId) : Except Halt System :=
  match (S.rq cpu).idleStrand with
  | none => .error .noIdleStrand
  | some idle =>
    let (next, S) := vetNext S cpu idle next
    if prev = some next then
      .ok (if next = idle then S else S.setStrand next { S.strand next with substate := .running })
    else .ok (switchTo S cpu idle next)

/-- The CPU goes on with a strand: it runs it already, or it switches to it. -/
def Resumes (S S' : System) (cpu : CpuId) (prev : Option StrandId) (idle n : StrandId) : Prop :=
  prev = some n ∧ S' = (if n = idle then S else
    S.setStrand n { S.strand n with substate := .running }) ∨
    prev ≠ some n ∧ S' = switchTo S cpu idle n

theorem runNext_ok {S S' : System} {cpu : CpuId} {prev next : Option StrandId}
    (h : runNext S cpu prev next = .ok S') :
    ∃ idle, (S.rq cpu).idleStrand = some idle ∧
      (Resumes S S' cpu prev idle idle ∨
        (∃ s, next = some s ∧ revokePending S s = true ∧
          Resumes (parkRevoked S cpu s) S' cpu prev idle idle) ∨
        ∃ s, next = some s ∧ Resumes S S' cpu prev idle s) := by
  unfold runNext at h
  split at h
  · cases h
  rename_i idle hidle
  simp only at h
  have hres : Resumes (vetNext S cpu idle next).2 S' cpu prev idle (vetNext S cpu idle next).1 := by
    split at h <;> cases h
    · exact .inl ⟨by assumption, rfl⟩
    · exact .inr ⟨by assumption, rfl⟩
  refine ⟨idle, hidle, ?_⟩
  unfold vetNext at hres
  split at hres
  · exact .inl hres
  split at hres
  · exact .inl hres
  split at hres
  · exact .inr (.inl ⟨_, rfl, by assumption, hres⟩)
  · exact .inr (.inr ⟨_, rfl, hres⟩)

/-! ## Work stealing -/

/-- What `try_steal_strand_locked` takes from the busiest queue: the rightmost strand of its
tree. -/
def stealCandidate (cpu busiest : CpuId) : Option StrandId :=
  if !S.online busiest || decide ((S.rq busiest).nrRunning ≤ 1) then none
  else
    match (S.rq busiest).fairTree.getLast? with
    | none => none
    | some s =>
      if (S.strand s).cpu ≠ busiest ∨ !(S.strand s).onRq ∨ !S.canAdmitDomain (S.strand s).owner ∨
          !S.placeable s cpu then none
      else some s

/-- The locked part of `try_steal_strand_locked`. -/
def trySteal (cpu busiest : CpuId) : System × Option StrandId :=
  match stealCandidate S cpu busiest with
  | none => (S, none)
  | some s =>
    let srcMin := (S.rq busiest).minVruntime
    let S := Fair.dequeue S busiest s
    (S.setStrand s { S.strand s with
      cpu := cpu
      se := Fair.migrateEntity (S.strand s).se srcMin (S.rq cpu).minVruntime }, some s)

/-- `schedule`. With a busiest CPU of a smaller id the second lock is the local one, which is
held. -/
def schedule (busiest : Option CpuId) : Except Halt System := do
  let prev := (S.rq cpu).curr
  let S ← requeuePrev S cpu
  match selectWork S cpu with
  | some next => runNext S cpu prev (some next)
  | none =>
    if !S.initialized then runNext S cpu prev none
    else
      match busiest with
      | none => runNext S cpu prev none
      | some b =>
        if b < cpu then throw .deadlock
        let (S, stolen) := trySteal S cpu b
        pure { S with stealing := Function.update S.stealing cpu (some (prev, stolen)) }

theorem schedule_ok {S S' : System} {cpu : CpuId} {busiest : Option CpuId}
    (h : schedule S cpu busiest = .ok S') : ∃ S₁, requeuePrev S cpu = .ok S₁ ∧
      (runNext S₁ cpu (S.rq cpu).curr (selectWork S₁ cpu) = .ok S' ∨
        ∃ b ∈ busiest, selectWork S₁ cpu = none ∧ S₁.initialized = true ∧
          S' = { (trySteal S₁ cpu b).1 with
          stealing := Function.update (trySteal S₁ cpu b).1.stealing cpu
            (some ((S.rq cpu).curr, (trySteal S₁ cpu b).2)) }) := by
  obtain ⟨S₁, hreq, h⟩ := Outcome.bind_eq_ok h
  refine ⟨S₁, hreq, ?_⟩
  split at h
  · rename_i next hsel
    rw [hsel]
    exact .inl h
  rename_i hsel
  split at h
  · rw [hsel]
    exact .inl h
  rename_i hinit
  cases busiest with
  | none =>
    rw [hsel]
    exact .inl h
  | some b =>
  by_cases hb : b < cpu
  · simp only [if_pos hb] at h
    cases h
  · simp only [if_neg hb] at h
    cases h
    exact .inr ⟨b, rfl, hsel, by simpa using hinit, rfl⟩

/-- The rest of `schedule` after a steal, without the lock. -/
def finishSchedule : Except Halt System :=
  match S.stealing cpu with
  | none => .ok S
  | some (prev, stolen) => do
    let S := { S with stealing := Function.update S.stealing cpu none }
    match stolen with
    | none => runNext S cpu prev none
    | some s =>
      match Classed.enqueue S cpu s with
      | .error _ => throw .fatal
      | .ok S => runNext S cpu prev (selectWork S cpu)

/-! ## The balancer -/

/-- The strand `balance_dispatch` moves from `src` to `cpu`. `attachOk` is the answer of the
attachment checks for an owner that wants isolation. -/
def balanceCandidate (cpu src : CpuId) (attachOk : Bool) : Option StrandId :=
  if !S.online src || decide ((S.rq src).nrRunning ≤ 1) then none
  else
    match (S.rq src).fairTree.getLast? with
    | none => none
    | some s =>
      if (S.strand s).cpu ≠ src ∨ !(S.strand s).onRq then none
      else if !S.placeable s cpu ∨ !S.canAdmitDomain (S.strand s).owner ∨ !attachOk then none
      else some s

/-- `balance_dispatch` under its two locks. Both counters are changed here once more after
`fair::dequeue` and `fair::enqueue` changed them. -/
def balanceDispatch (cpu src : CpuId) (attachOk : Bool) : System :=
  match balanceCandidate S cpu src attachOk with
  | none => S
  | some s =>
    let srcMin := (S.rq src).minVruntime
    let S := Fair.dequeue S src s
    let S := S.setRq src { S.rq src with nrRunning := Fair.decNrRunning (S.rq src).nrRunning }
    let S := S.setStrand s { S.strand s with
      cpu := cpu, se := Fair.migrateEntity (S.strand s).se srcMin (S.rq cpu).minVruntime }
    match Fair.enqueue S cpu s with
    | .ok S => S.setRq cpu { S.rq cpu with nrRunning := (S.rq cpu).nrRunning + 1 }
    | .error _ =>
      let S := S.setStrand s { S.strand s with
        cpu := src, se := Fair.migrateEntity (S.strand s).se (S.rq cpu).minVruntime srcMin }
      match Fair.enqueue S src s with
      | .ok S => S
      | .error _ => S

/-! ## Ticks -/

def currentWork : Option StrandId :=
  match (S.rq cpu).curr with
  | none => none
  | some s => if (S.rq cpu).idleStrand = some s then none else some s

def schedulerTick : System :=
  if !S.initialized then S
  else
    match currentWork S cpu with
    | none => S
    | some s =>
      let S := Classed.tick S cpu s
      if revokePending S s then parkRevoked S cpu s else S

/-- `cpu_timer_tick`, with the time that has passed on the CPU timer. -/
def cpuTimerTick (elapsed : Nat) : System :=
  if !S.initialized then S
  else
    match currentWork S cpu with
    | none => S
    | some s =>
      let se := (S.strand s).se
      let vruntime := se.vruntime + elapsed * 1024 / se.weight
      let floor := if vruntime > (S.rq cpu).minVruntime then vruntime else (S.rq cpu).minVruntime
      let S := S.setRq cpu { S.rq cpu with minVruntime := floor }
      let se := if vruntime ≥ se.deadline then
          { se with
            vruntime
            deadline := vruntime + se.slice * 1024 / se.weight
            slice := Fair.schedSlice { se with vruntime } (S.rq cpu).nrRunning }
        else { se with vruntime }
      S.setStrand s { S.strand s with se }

/-! ## Blocking, waking and the strand table -/

/-- What `mutex::slow_lock` (`idle`) and `rtmutex::slow_lock` (`blocked`) do to the running strand
before they call `schedule`. -/
def blockCurrent (substate : SchedSubstate) : System :=
  match (S.rq cpu).curr with
  | none => S
  | some s =>
    let S := if substate = .blocked ∧ (S.strand s).onRq then dequeueStrand S s else S
    S.setStrand s { S.strand s with substate }

/-- The wakeup of `mutex::unlock` and `rt::task_wake_pi`. -/
def wakeStrand : Except Halt System :=
  enqueueStrand (S.setStrand s { S.strand s with substate := .runnable }) s

/-- `strand_create`: a slot of the strand table becomes a runnable strand of the domain. -/
def strandCreate (owner : DomainId) (cpu : CpuId) : System :=
  { S.setStrand s { owner := some owner, substate := .runnable, cpu } with live := s :: S.live }

/-- `strand_trampoline_exit` before its first `schedule`. -/
def trampolineExit : System :=
  match (S.rq cpu).curr with
  | none => S
  | some s => S.setStrand s { S.strand s with onRq := false }

/-- `strand_destroy`: a queued or running strand is busy. Nothing releases its admission. -/
def strandDestroy : System :=
  if (S.strand s).onRq || (S.strand s).substate == .running || (S.strand s).owner.isNone then S
  else { S with live := S.live.erase s }

/-!
## The scheduler as a machine

Every locked section of the scheduler, the writes of mutexes and rt-mutexes to a strand, strand
creation and the changes the rest of the kernel may make between two steps, in any order and on any
CPUs.
-/

open Runs

/-- What the scheduler asks of others. -/
structure Answers where
  isolationReady : Bool := true
  online : CpuId → Bool := fun _ => true
  smtDenied : StrandId → CpuId → Bool := fun _ _ => false
  placeable : StrandId → CpuId → Bool := fun _ _ => true
  tod : Nat := 0

inductive SchedOp where
  | enqueueStrand (s : StrandId)
  | dequeueStrand (s : StrandId)
  | schedule (cpu : CpuId) (busiest : Option CpuId)
  | finishSchedule (cpu : CpuId)
  | balance (cpu src : CpuId) (attachOk : Bool)
  | tick (cpu : CpuId)
  | cpuTimerTick (cpu : CpuId) (elapsed : Nat)
  | block (cpu : CpuId) (substate : SchedSubstate)
  | wake (s : StrandId)
  | boost (s : StrandId) (prio : Nat)
  | unboost (s : StrandId)
  | setPolicy (here : CpuId) (s : StrandId) (p : SchedPolicy)
  | create (s : StrandId) (owner : DomainId) (cpu : CpuId)
  | exit (cpu : CpuId)
  | domain (d : DomainId) (v : SchedDomain)
  | answers (a : Answers)

/-- A step on a CPU needs a CPU that is not between the two halves of a `schedule`. -/
def System.onCpu (S : System) (cpu : CpuId) (r : Except Halt System) : Option System :=
  if cpu ∈ S.cpus ∧ (S.stealing cpu).isNone then r.toOption else none

namespace SchedOp

def next (S : System) : SchedOp → Option System
  | .enqueueStrand s => (Sched.enqueueStrand S s).toOption
  | .dequeueStrand s => some (Sched.dequeueStrand S s)
  | .schedule cpu busiest => S.onCpu cpu (Sched.schedule S cpu busiest)
  | .finishSchedule cpu => (Sched.finishSchedule S cpu).toOption
  | .balance cpu src attachOk => S.onCpu cpu (.ok (balanceDispatch S cpu src attachOk))
  | .tick cpu => S.onCpu cpu (.ok (schedulerTick S cpu))
  | .cpuTimerTick cpu elapsed => S.onCpu cpu (.ok (Sched.cpuTimerTick S cpu elapsed))
  | .block cpu substate => S.onCpu cpu (.ok (blockCurrent S cpu substate))
  | .wake s => (wakeStrand S s).toOption
  | .boost s prio => some (S.setStrand s (Rt.boostPrio (S.strand s) prio))
  | .unboost s => some (S.setStrand s (Rt.unboostPrio (S.strand s)))
  | .setPolicy here s p => some (strandSetPolicy S here s p).2
  | .create s owner cpu => some (strandCreate S s owner cpu)
  | .exit cpu => S.onCpu cpu (.ok (trampolineExit S cpu))
  | .domain d v => some (S.setDomain d v)
  | .answers a => some { S with
      isolationReady := a.isolationReady, online := a.online, smtDenied := a.smtDenied
      placeable := a.placeable, tod := a.tod }

end SchedOp

/-- After `sched_init` and `sched_init_ap`: the queues are empty and every CPU runs its idle
strand. -/
structure Booted (S : System) : Prop where
  queues : ∀ c, (S.rq c).linked = [] ∧ (S.rq c).nrRunning = 0 ∧ (S.rq c).curr = (S.rq c).idleStrand
  idles : ∀ c i, (S.rq c).idleStrand = some i → (S.strand i).idle = true
  offline : ∀ c, c ∉ S.cpus → (S.rq c).curr = none
  strands : ∀ s, (S.strand s).onRq = false ∧ (S.strand s).body.boostedPrio = 0 ∧
    (S.strand s).policy.classId = (S.strand s).admission.classId
  stealing : ∀ c, S.stealing c = none

def schedMachine : Machine System SchedOp := .ofNext Booted SchedOp.next

end ZXFoundation.Sched
