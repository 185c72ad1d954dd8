import ZXFoundation.Dgp.Isolation

/-!
# Strands, run queues and the scheduling fields of a domain

`sched/policy.cxxm`, `sched/entity.cxxm`, `sched/rq.cxxm`, `sched/cbs.zcomponent/core.cxxm`,
`sched/rt.zcomponent/bandwidth.cxxm`, `sys/timer.zcomponent/types.cxxm` and the scheduler's part of
`dgp/domain.zcomponent/types.cxxm`.

A run queue links strands by their ids, and the fair tree is its in-order sequence. Times, budgets
and counters are unbounded numbers. What the scheduler asks of the rest of the kernel is part of the
state and may change between any two steps.
-/

namespace ZXFoundation.Sched

open Function

abbrev CpuId := Nat
abbrev StrandId := Nat
abbrev DomainId := Nat

/-- How a field of a CPU's topology record is known. -/
inductive TopologyEvidence where
  | absent | loader | loaderStsi | kernelStsi | verified | degraded
  deriving DecidableEq, Repr

/-! ## Policies and entities -/

inductive SchedSubstate where
  | idle | runnable | running | blocked
  deriving DecidableEq, Repr

inductive SchedClassId where
  | idle | fair | rt | deadline
  deriving DecidableEq, Repr

/-- `sched_policy`, less the fields nothing below reads. -/
structure SchedPolicy where
  classId : SchedClassId := .fair
  rtPriority : Nat := 0
  runtimeNs : Nat := 0
  deadlineNs : Nat := 0
  periodNs : Nat := 0
  allowedCpus : UInt64 := 0
  allowedNumaNodes : UInt64 := 0
  allowSmtSibling : Bool := true
  userVisible : Bool := false
  deriving DecidableEq, Repr

structure SchedAdmissionResult where
  admittedRuntimeNs : Nat := 0
  admittedPeriodNs : Nat := 0
  preferredCpu : CpuId := 0
  remoteNodeAllowed : Bool := true
  smtSiblingAllowed : Bool := true
  classId : SchedClassId := .fair
  deriving DecidableEq, Repr

/-- `sched_entity`, less its tree node. -/
structure SchedEntity where
  vruntime : Nat := 0
  deadline : Nat := 0
  slice : Nat := 0
  lag : Int := 0
  weight : Nat := 1024
  relCount : Nat := 0
  deriving DecidableEq, Repr

/-! ## Timers -/

/-- `kernel_timer`. The callback is known from where the timer lives, so only its presence
counts. -/
structure KernelTimer where
  deadlineTod : Nat := 0
  intervalTod : Nat := 0
  callback : Bool := false
  periodic : Bool := false
  armed : Bool := false
  cpu : CpuId := 0
  deriving DecidableEq, Repr

/-- The timers this model follows: a deadline strand's server and a CPU's real-time period. -/
inductive TimerName where
  | cbs (s : StrandId)
  | rtPeriod (cpu : CpuId)
  deriving DecidableEq, Repr

def cbsPeriodDefaultNs : Nat := 100_000_000

def cbsRuntimeDefaultNs : Nat := 10_000_000

structure CbsReplen where
  periodNs : Nat := cbsPeriodDefaultNs
  runtimeNs : Nat := cbsRuntimeDefaultNs
  usedRuntimeNs : Nat := 0
  periodDeadline : Nat := 0
  timer : KernelTimer := {}
  deriving DecidableEq, Repr

/-! ## Strands -/

/-- `strand_body`, the fields the scheduler reads. -/
structure StrandBody where
  rtRuntimeUsedNs : Nat := 0
  rtPeriodStartNs : Nat := 0
  deadlineRuntimeUsedNs : Nat := 0
  absoluteDeadlineNs : Nat := 0
  cbs : CbsReplen := {}
  boostedPrio : Nat := 0
  savedClass : SchedClassId := .fair
  savedPrio : Nat := 0
  deriving DecidableEq, Repr

/-- `strand`. `idle` is `strand_flags::idle`; an idle strand is also one without a body.
`lastQueued` and `lastRq` are not in the source: they remember the class and the run queue of the
strand's last enqueue. -/
structure Strand where
  owner : Option DomainId := none
  substate : SchedSubstate := .idle
  cpu : CpuId := 0
  onRq : Bool := false
  idle : Bool := false
  se : SchedEntity := {}
  body : StrandBody := {}
  policy : SchedPolicy := {}
  admission : SchedAdmissionResult := {}
  lastQueued : SchedClassId := .idle
  lastRq : CpuId := 0
  deriving DecidableEq, Repr

/-! ## Run queues -/

def rtPeriodDefaultNs : Nat := 1_000_000_000

def rtRuntimeDefaultNs : Nat := 950_000_000

structure RtBandwidth where
  rtPeriodNs : Nat := rtPeriodDefaultNs
  rtRuntimeNs : Nat := rtRuntimeDefaultNs
  rtTimeNs : Nat := 0
  rtPeriodStartNs : Nat := 0
  rtPeriodTimer : KernelTimer := {}
  rtThrottled : Bool := false
  deriving DecidableEq, Repr

/-- `run_queue`, less the locks, the load averages and the lockless view of the balancers. -/
structure RunQueue where
  nrRunning : Nat := 0
  curr : Option StrandId := none
  idleStrand : Option StrandId := none
  fairTree : List StrandId := []
  minVruntime : Nat := 0
  avgVruntimeAcc : Int := 0
  avgWeightAcc : Nat := 0
  rtQueue : List StrandId := []
  deadlineQueue : List StrandId := []
  rtBw : RtBandwidth := {}
  deriving DecidableEq, Repr

namespace RunQueue

/-- The structure that holds the strands queued under a class. -/
def members (rq : RunQueue) : SchedClassId → List StrandId
  | .idle => []
  | .fair => rq.fairTree
  | .rt => rq.rtQueue
  | .deadline => rq.deadlineQueue

def linked (rq : RunQueue) : List StrandId := rq.fairTree ++ rq.rtQueue ++ rq.deadlineQueue

theorem mem_linked {rq : RunQueue} {s : StrandId} :
    s ∈ rq.linked ↔ s ∈ rq.fairTree ∨ s ∈ rq.rtQueue ∨ s ∈ rq.deadlineQueue := by
  simp [linked]

theorem linked_congr {rq rq' : RunQueue} (h : ∀ k, rq'.members k = rq.members k) :
    rq'.linked = rq.linked := by
  have hf := h .fair
  have hr := h .rt
  have hd := h .deadline
  simp only [members] at hf hr hd
  rw [linked, linked, hf, hr, hd]

end RunQueue

/-! ## Domains -/

/-- What a domain keeps for one of the two admitted classes: `rt_period_ns`, `rt_budget_ns` and
`rt_reserved_ns`, or their deadline counterparts. -/
structure Reservation where
  periodNs : Nat := 100_000_000
  budgetNs : Nat
  reservedNs : Nat := 0
  deriving DecidableEq, Repr

/-- The fields of `domain` that admission and the admission gate read. -/
structure SchedDomain where
  state : LifecycleState := .active
  idle : Bool := false
  rootPhys : UInt64 := 0
  asce : UInt64 := 0
  pendingRightsRevoke : Nat := 0
  grantedRights : Dgp.Isolation.IsolationRights := .none
  adminToken : Nat := 0
  rtCapabilityToken : Nat := 0
  rt : Reservation := { budgetNs := 20_000_000 }
  deadline : Reservation := { budgetNs := 10_000_000 }
  allowedCpus : UInt64 := 0
  allowedNumaNodes : UInt64 := 0

/-! ## The scheduler's state -/

/-- How a step of the scheduler can end other than by returning. -/
inductive Halt where
  /-- `syschk_fatal`. -/
  | fatal
  /-- A CPU takes a lock it holds and spins for ever. -/
  | deadlock
  /-- The run queue has no idle strand and its null pointer is followed. -/
  | noIdleStrand
  deriving DecidableEq, Repr

/-- The run queues, strands and domains of the machine, with what the scheduler asks of others. -/
structure System where
  strand : StrandId → Strand := fun _ => {}
  /-- The strands that exist: the domains' primary strands and those of the strand table. -/
  live : List StrandId := []
  /-- The CPUs the scheduler runs on. -/
  cpus : List CpuId := []
  rq : CpuId → RunQueue := fun _ => {}
  domain : DomainId → SchedDomain := fun _ => {}
  /-- `g_sched_initialized`. -/
  initialized : Bool := true
  /-- `g_isolation_initialized`. -/
  isolationReady : Bool := true
  /-- `cpu_online`. -/
  online : CpuId → Bool := fun _ => true
  /-- What `smt::isolation_violation` answers. -/
  smtDenied : StrandId → CpuId → Bool := fun _ _ => false
  /-- What `validate_cpu_for_strand` answers. -/
  placeable : StrandId → CpuId → Bool := fun _ _ => true
  /-- `stck` and `g_boot_tod`. -/
  tod : Nat := 0
  bootTod : Nat := 0
  /-- `g_heaps`: the timers of each CPU. -/
  heap : CpuId → List TimerName := fun _ => []
  /-- The CPUs inside `schedule` after `try_steal_strand_locked` dropped their lock, with the
  strand they came from and the strand they stole. -/
  stealing : CpuId → Option (Option StrandId × Option StrandId) := fun _ => none

theorem toOption_ok {ε : Type} {S : System} {r : Except ε System} (h : r.toOption = some S) :
    r = .ok S := by
  cases r with
  | error e => cases h
  | ok S₁ =>
    cases h
    rfl

variable (S : System) (s : StrandId) (d : DomainId) (cpu : CpuId) (v : SchedDomain)

namespace System

def setStrand (v : Strand) : System :=
  { S with strand := update S.strand s v }

def setRq (v : RunQueue) : System :=
  { S with rq := update S.rq cpu v }

def setDomain : System :=
  { S with domain := update S.domain d v }

@[simp] theorem setStrand_strand {v : Strand} :
    (S.setStrand s v).strand = update S.strand s v := rfl

theorem setStrand_self {v : Strand} : (S.setStrand s v).strand s = v := update_self ..

@[simp] theorem setStrand_rq {v : Strand} : (S.setStrand s v).rq = S.rq := rfl

@[simp] theorem setRq_rq {v : RunQueue} : (S.setRq cpu v).rq = update S.rq cpu v := rfl

@[simp] theorem setRq_strand {v : RunQueue} : (S.setRq cpu v).strand = S.strand := rfl

@[simp] theorem setDomain_strand : (S.setDomain d v).strand = S.strand := rfl

@[simp] theorem setDomain_rq : (S.setDomain d v).rq = S.rq := rfl

def monotonicNow : Nat := (S.tod - S.bootTod) * 1000 / 4096

end System

/-- `admit::can_admit_domain`. A strand without an owner passes. -/
def System.canAdmitDomain (owner : Option DomainId) : Bool :=
  match owner with
  | none => true
  | some d =>
    (S.domain d).idle || (S.isolationReady && (S.domain d).state == .active &&
      (S.domain d).rootPhys != 0 && (S.domain d).asce != 0)

end ZXFoundation.Sched
