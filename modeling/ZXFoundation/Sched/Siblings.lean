import Mathlib.Data.Finset.Basic
import ZXFoundation.Sched.Whereabouts

/-!
# CPUs of one core

`sched/topology.zcomponent/core.cxx` and `sched/smt.zcomponent/core.cxx`: the topology record of
each CPU, the masks of CPUs that share a core, and `isolation_violation`, which is asked before a
strand that wants no sibling is queued.

The scheduler takes that answer from its state (`System.smtDenied`); here it is computed and put
there before every step of the scheduler. Which domain is attached to a CPU is written by `schedule`
after it has dropped the queue's lock, so that write is a step of its own. Records may be refreshed
at any time. A policy is set by `nc_dom_strand_set_policy` alone, which serves the primary strands
of the domains that have the right to scheduling.
-/

namespace ZXFoundation.Sched

open Runs Function
open Dgp.Isolation (IsolationRights hasAllRights)

/-! ## Topology -/

inductive CpuSchedulingState where
  | offline | online | draining | isolated
  deriving DecidableEq, Repr

inductive CpuRelation where
  | self | sameSmtCore | sameCoreGroup | sameNumaNode | remoteNumaNode | unavailable
  deriving DecidableEq, Repr

/-- `cpu_topology_record`, what relations and masks are computed from. -/
structure CpuTopologyRecord where
  numaNode : UInt8 := 0
  coreId : UInt8 := 0
  smtId : UInt8 := 0
  coreEvidence : TopologyEvidence := .absent
  smtEvidence : TopologyEvidence := .absent
  state : CpuSchedulingState := .offline
  deriving DecidableEq, Repr

/-- The part of a CPU's `percpu` block that the boot protocol fills in. -/
structure PercpuTopology where
  drawerId : UInt8 := 0
  coreId : UInt8 := 0
  smtId : UInt8 := 0
  topologyEvidence : UInt8 := 0
  deriving DecidableEq, Repr

def zxflCpuEvidenceStsi : UInt8 := 2

def zxflCpuEvidenceFallback : UInt8 := 4

def maxNumaNodes : UInt8 := 16

def hasFlag (flags flag : UInt8) : Bool := flags &&& flag != 0

def stsiOrDegradedFromFlags (flags : UInt8) : TopologyEvidence :=
  if hasFlag flags zxflCpuEvidenceStsi then .loaderStsi
  else if hasFlag flags zxflCpuEvidenceFallback then .degraded
  else .absent

variable (T : SmtSystem) (s : StrandId) (cpu : CpuId)

def initialRecord : CpuTopologyRecord :=
  { coreId := UInt8.ofNat cpu, coreEvidence := .degraded, smtEvidence := .degraded }

/-- `apply_percpu_evidence`. Without evidence the CPU counts as a core of its own. -/
def applyPercpuEvidence (pcp : Option PercpuTopology) (r : CpuTopologyRecord) : CpuTopologyRecord :=
  match pcp with
  | none => r
  | some pcp =>
    let evidence := stsiOrDegradedFromFlags pcp.topologyEvidence
    let r := { r with
      numaNode := pcp.drawerId, coreId := pcp.coreId, smtId := pcp.smtId
      coreEvidence := evidence, smtEvidence := evidence }
    if r.coreEvidence = .absent then
      { r with
        coreId := UInt8.ofNat cpu, smtId := 0
        coreEvidence := .degraded, smtEvidence := .degraded }
    else r

/-- The scheduler with the topology and the attached domains. `percpu` is null for a CPU that was
never brought up; `attachedDomainId` is zero on a CPU nothing was attached to. `switching` marks a
CPU in `schedule` between the switch of `curr` and the attachment, with the owners of the strands it
leaves and enters. -/
structure SmtSystem where
  sched : System := {}
  primaryStrand : DomainId → Option StrandId := fun _ => none
  percpu : CpuId → Option PercpuTopology := fun _ => none
  attachedDomainId : CpuId → DomainId := fun _ => 0
  record : CpuId → CpuTopologyRecord := initialRecord
  nodeMask : UInt8 → Finset CpuId := fun _ => ∅
  coreSiblings : CpuId → Finset CpuId := fun _ => ∅
  switching : CpuId → Option (Option DomainId × Option DomainId) := fun _ => none

namespace SmtSystem

def recordFor : Option CpuTopologyRecord :=
  if configMaxCpus ≤ cpu then none else some (T.record cpu)

def refreshCpuRecord (online : Bool) : SmtSystem :=
  if configMaxCpus ≤ cpu then T
  else
    let r := { T.record cpu with state := if online then .online else .offline }
    { T with record := update T.record cpu (applyPercpuEvidence cpu (T.percpu cpu) r) }

def relationBetween (fromCpu toCpu : CpuId) : CpuRelation :=
  match T.recordFor fromCpu, T.recordFor toCpu with
  | some source, some dest =>
    if dest.state ≠ .online then .unavailable
    else if fromCpu = toCpu then .self
    else
      let coreVerified := source.coreEvidence != .degraded && dest.coreEvidence != .degraded
      let smtVerified := source.smtEvidence != .degraded && dest.smtEvidence != .degraded
      if coreVerified ∧ smtVerified ∧ source.coreId = dest.coreId ∧ source.smtId ≠ dest.smtId then
        .sameSmtCore
      else if coreVerified ∧ source.coreId = dest.coreId then .sameCoreGroup
      else if source.numaNode = dest.numaNode then .sameNumaNode
      else .remoteNumaNode
  | _, _ => .unavailable

/-- The CPUs that `topology_online_cpu` links with a new one: those of its node on the same core. -/
def newSiblings : Finset CpuId :=
  let r := T.record cpu
  if r.coreEvidence ≠ .degraded ∧ r.numaNode < maxNumaNodes then
    (T.nodeMask r.numaNode).filter fun y => y ≠ cpu ∧ y < configMaxCpus ∧
      (T.record y).coreEvidence ≠ .degraded ∧ (T.record y).coreId = r.coreId
  else ∅

def topologyOnlineCpu : SmtSystem :=
  if configMaxCpus ≤ cpu then T
  else
    let node := (T.record cpu).numaNode
    { T with
      coreSiblings := fun c =>
        if c = cpu then T.coreSiblings c ∪ T.newSiblings cpu
        else if c ∈ T.newSiblings cpu then insert cpu (T.coreSiblings c)
        else T.coreSiblings c
      nodeMask :=
        if node < maxNumaNodes then update T.nodeMask node (insert cpu (T.nodeMask node))
        else T.nodeMask }

def topologyOfflineCpu : SmtSystem :=
  if configMaxCpus ≤ cpu then T
  else
    let node := (T.record cpu).numaNode
    { T with
      nodeMask :=
        if node < maxNumaNodes then update T.nodeMask node ((T.nodeMask node).erase cpu)
        else T.nodeMask
      coreSiblings := fun c =>
        if c = cpu then ∅
        else if c ∈ T.coreSiblings cpu then (T.coreSiblings c).erase cpu
        else T.coreSiblings c }

/-! ## Isolation -/

/-- Whether a strand's owner wants isolation: it has no right to scheduling. -/
def wantsIsolation : Bool :=
  match (T.sched.strand s).owner with
  | none => false
  | some d => !hasAllRights (T.sched.domain d).grantedRights IsolationRights.sched

def attachedElsewhere : Bool :=
  match (T.sched.strand s).owner with
  | none => false
  | some d => (T.percpu cpu).isSome && T.attachedDomainId cpu != 0 && T.attachedDomainId cpu != d

/-- `isolation_violation`. Neither whether a sibling is online nor what runs on it is asked. -/
def isolationViolation (target : CpuId) : Bool :=
  match T.recordFor target with
  | none => true
  | some r =>
    (r.smtEvidence == .degraded && T.wantsIsolation s) ||
      decide (∃ y ∈ T.coreSiblings target, T.attachedElsewhere s y = true)

/-- The scheduler's state, with the answers of `isolation_violation` at this moment. -/
def view : System := { T.sched with smtDenied := T.isolationViolation }

/-- The scheduler's state after a step. A CPU whose `curr` has changed is left before its
attachment. -/
def after (S' : System) : SmtSystem :=
  { T with
    sched := S'
    switching := fun c =>
      if (S'.rq c).curr = (T.sched.rq c).curr then T.switching c
      else some ((T.sched.rq c).curr.bind fun s => (S'.strand s).owner,
        (S'.rq c).curr.bind fun s => (S'.strand s).owner) }

/-- The attachment in `schedule`: `record_asce_attachment` if the address space changes. -/
def attach : Option SmtSystem :=
  match T.switching cpu with
  | none => none
  | some (prevOwner, nextOwner) =>
    let T := { T with switching := update T.switching cpu none }
    match nextOwner with
    | none => some T
    | some d =>
      let asce := (T.sched.domain d).asce
      let same := prevOwner.any fun p => (T.sched.domain p).asce == asce
      if asce ≠ 0 ∧ !same then
        some { T with attachedDomainId := update T.attachedDomainId cpu d }
      else some T

end SmtSystem

/-! ## The machine -/

/-- The CPU a step of the scheduler runs on, where it runs on one. -/
def SchedOp.cpu? : SchedOp → Option CpuId
  | .schedule cpu _ | .finishSchedule cpu | .balance cpu _ _ | .tick cpu | .cpuTimerTick cpu _
  | .block cpu _
  | .exit cpu => some cpu
  | _ => none

inductive SmtOp where
  | sched (op : SchedOp)
  | attach (cpu : CpuId)
  | percpu (cpu : CpuId) (v : PercpuTopology)
  | refresh (cpu : CpuId) (isOnline : Bool)
  | online (cpu : CpuId)
  | offline (cpu : CpuId)

/-- The checks of `nc_dom_strand_set_policy`: the domain has the right to scheduling, and the strand
is its primary one. -/
def SmtSystem.allows : SchedOp → Bool
  | .setPolicy _ s _ =>
    match (T.sched.strand s).owner with
    | none => false
    | some d => T.primaryStrand d == some s &&
        hasAllRights (T.sched.domain d).grantedRights IsolationRights.sched
  | _ => true

/-- One step. A CPU attaches what it switched to before it does anything else. -/
def SmtOp.next : SmtOp → Option SmtSystem
  | .sched op =>
    if !T.allows op || op.cpu?.any fun c => (T.switching c).isSome then none
    else (op.next T.view).map T.after
  | .attach cpu => T.attach cpu
  | .percpu cpu v => some { T with percpu := update T.percpu cpu (some v) }
  | .refresh cpu isOnline => some (T.refreshCpuRecord cpu isOnline)
  | .online cpu => some (T.topologyOnlineCpu cpu)
  | .offline cpu => some (T.topologyOfflineCpu cpu)

/-- After `topology_init` and the boot of the scheduler: no policy was set, no CPU has a sibling. -/
structure SmtBooted (T : SmtSystem) : Prop where
  sched : Booted T.sched
  policies : ∀ s, (T.sched.strand s).policy = {} ∧ (T.sched.strand s).admission = {}
  record : T.record = initialRecord
  nodeMask : ∀ n, T.nodeMask n = ∅
  coreSiblings : ∀ c, T.coreSiblings c = ∅
  attached : ∀ c, T.attachedDomainId c = 0
  switching : ∀ c, T.switching c = none

def smtMachine : Machine SmtSystem SmtOp := .ofNext SmtBooted SmtOp.next

/-!
## Strands that want no sibling

A policy may say that its strand shares no core with another domain. Two things depend on it:
whether the strand can be queued at all, and what runs on the other CPUs of the core.

The first is asked at every enqueue of a fair and of a real-time strand, and a refusal stops the
kernel. The second is asked nowhere else: not when a strand is dispatched, not by the deadline
class, not of the strand that moves in next door.
-/

/-! ## Admitted strands have a budget -/

/-- What was admitted to the real-time or the deadline class has a runtime. -/
def Funded (st : Strand) : Prop :=
  st.admission.classId = .rt ∨ st.admission.classId = .deadline → st.admission.admittedRuntimeNs ≠ 0

variable {p : SchedPolicy} {r : SchedAdmissionResult}

theorem validateSchedulerPolicy_funded {state : LifecycleState} {authority : Bool}
    (h : validateSchedulerPolicy state p authority = .ok r)
    (hclass : p.classId = .rt ∨ p.classId = .deadline) : r.admittedRuntimeNs ≠ 0 := by
  unfold validateSchedulerPolicy at h
  split at h
  · cases h
  rcases hclass with hp | hp <;> simp only [hp] at h <;> split_ifs at h with _ hzero <;> cases h <;>
    simp only [Bool.or_eq_true, beq_iff_eq, not_or] at hzero
  · exact hzero.1.1
  · exact hzero.1.1.1.1

variable {S : System} {s : StrandId} {T : SmtSystem} {cpu c : CpuId}

theorem admitPolicy_funded {here : CpuId} {d : DomainId}
    (h : (Classed.admitPolicy S here d s p).1 = .ok r)
    (hclass : p.classId = .rt ∨ p.classId = .deadline) : r.admittedRuntimeNs ≠ 0 := by
  have hvalid : ∃ state authority, validateSchedulerPolicy state p authority = .ok r := by
    rcases hclass with hp | hp
    all_goals
      simp only [Classed.admitPolicy, hp, Rt.admitStrand, Deadline.admitStrand] at h
      split_ifs at h
      split at h
      · cases h
      · rename_i hv
        split at h <;> cases h
        exact ⟨_, _, hv⟩
  obtain ⟨_, _, hv⟩ := hvalid
  exact validateSchedulerPolicy_funded hv hclass

theorem strandSetPolicy_policy {here : CpuId} :
    (((strandSetPolicy S here s p).2.strand s).policy = p ∨
      ((strandSetPolicy S here s p).2.strand s).policy = {}) ∧
      Funded ((strandSetPolicy S here s p).2.strand s) := by
  obtain ⟨_, hok⟩ := strandAdmitPolicy_edit (s := s) (p := p)
    (S := S.setStrand s { S.strand s with policy := p, admission := {} })
  unfold strandSetPolicy
  simp only
  split
  · refine ⟨.inr (by simp), fun h => ?_⟩
    simp at h
  rename_i r S₁ hadm
  rw [hadm] at hok
  obtain ⟨hclass, hpolicy⟩ := hok r rfl
  refine ⟨.inl (by simpa using hpolicy), fun h => ?_⟩
  simp only [System.setStrand_strand, update_self] at h ⊢
  rw [hclass] at h
  unfold strandAdmitPolicy at hadm
  split at hadm
  · cases hadm
  · split at hadm
    · cases hadm
    · exact admitPolicy_funded (congrArg Prod.fst hadm) h

variable {op : SchedOp} {S' : System}

theorem funded_step (h : ∀ s, Funded (S.strand s)) (hnext : op.next S = some S') :
    ∀ s, Funded (S'.strand s) := by
  have hsteady : ∀ {moving}, Steady S S' moving → ∀ s, Funded (S'.strand s) := fun hs s => by
    unfold Funded
    rw [hs.admission s]
    exact h s
  cases hq : op.quiet with
  | true => exact hsteady (SchedOp.steady_of_quiet hq hnext)
  | false =>
  cases op with
  | schedule cpu busiest => exact hsteady (schedule_steady (onCpu_ok hnext).2)
  | finishSchedule cpu => exact hsteady (finishSchedule_steady (toOption_ok hnext))
  | setPolicy here s p =>
    cases hnext
    intro t
    by_cases ht : t = s
    · subst ht
      exact strandSetPolicy_policy.2
    · rw [strandSetPolicy_edit.other t ht]
      exact h t
  | create s owner cpu =>
    cases hnext
    intro t
    by_cases ht : t = s
    · subst ht
      simp [strandCreate, Funded]
    · simpa [strandCreate, update_of_ne ht] using h t
  | _ => cases hq

variable {T' : SmtSystem}

theorem SmtOp.next_cases {op : SmtOp} (h : op.next T = some T') :
    (∃ o S', op = .sched o ∧ o.next T.view = some S' ∧ T' = T.after S') ∨
      T'.sched = T.sched ∧ (T'.record = T.record ∨
        ∃ cpu isOnline, op = .refresh cpu isOnline ∧ T' = T.refreshCpuRecord cpu isOnline) := by
  cases op with
  | sched o =>
    simp only [SmtOp.next] at h
    split at h
    · cases h
    · obtain ⟨S', hS, rfl⟩ := Option.map_eq_some_iff.mp h
      exact .inl ⟨o, S', rfl, hS, rfl⟩
  | attach cpu =>
    simp only [SmtOp.next, SmtSystem.attach] at h
    repeat' split at h
    all_goals cases h; try exact .inr ⟨rfl, .inl rfl⟩
  | percpu cpu v =>
    cases h
    exact .inr ⟨rfl, .inl rfl⟩
  | refresh cpu isOnline =>
    cases h
    refine .inr ⟨?_, .inr ⟨cpu, isOnline, rfl, rfl⟩⟩
    unfold SmtSystem.refreshCpuRecord
    split <;> rfl
  | online cpu =>
    cases h
    unfold SmtSystem.topologyOnlineCpu
    split <;> exact .inr ⟨rfl, .inl rfl⟩
  | offline cpu =>
    cases h
    unfold SmtSystem.topologyOfflineCpu
    split <;> exact .inr ⟨rfl, .inl rfl⟩

theorem funded_of_reachable (h : smtMachine.Reachable T) : ∀ s, Funded (T.sched.strand s) := by
  refine h.invariant (P := fun T => ∀ s, Funded (T.sched.strand s)) (fun T₀ h₀ s hclass => ?_) ?_
  · rw [(h₀.policies s).2] at hclass
    rcases hclass with hrt | hdl
    · cases hrt
    · cases hdl
  · intro T₁ op T₂ hinv hnext
    rcases SmtOp.next_cases hnext with ⟨o, S', -, hS, rfl⟩ | ⟨hsame, -⟩
    · exact funded_step (S := T₁.view) hinv hS
    · rw [hsame]
      exact hinv

/-! ## When an enqueue stops the kernel -/

/-- The class of the strand asks, the strand wants no sibling and the answer is no. -/
def Barred (S : System) (cpu : CpuId) (s : StrandId) : Prop :=
  (classOf (S.strand s) = .fair ∨ classOf (S.strand s) = .rt ∧ (S.strand s).onRq = false) ∧
    (S.strand s).policy.allowSmtSibling = false ∧ S.smtDenied s cpu = true

theorem enqueue_error_iff (hfunded : Funded (S.strand s)) :
    (∃ e, Classed.enqueue S cpu s = .error e) ↔ Barred S cpu s := by
  unfold Classed.enqueue Barred
  cases hk : classOf (S.strand s) with
  | idle => simp
  | fair =>
    unfold Fair.enqueue
    split_ifs with hdenied
    · simpa using hdenied
    · simpa using hdenied
  | rt =>
    obtain ⟨hp, ha⟩ := classOf_admitted hk (.inl rfl)
    have hnone : ¬ ((S.strand s).policy.classId ≠ .rt ∨ (S.strand s).admission.classId ≠ .rt ∨
        (S.strand s).admission.admittedRuntimeNs = 0) := by
      simp [hp, ha, hfunded (.inl ha)]
    simp only [Rt.enqueue, if_neg hnone]
    split_ifs with hq hdenied
    · simp [hq]
    · simpa [hq] using hdenied
    · simpa [hq] using hdenied
  | deadline =>
    -- this class does not ask
    obtain ⟨hp, ha⟩ := classOf_admitted hk (.inr rfl)
    have hnone : ¬ ((S.strand s).policy.classId ≠ .deadline ∨
      (S.strand s).admission.classId ≠ .deadline ∨
        (S.strand s).admission.admittedRuntimeNs = 0) := by
      simp [hp, ha, hfunded (.inr ha)]
    simp only [Deadline.enqueue, if_neg hnone]
    split_ifs <;> simp

theorem enqueueStrand_fatal_iff (hfunded : Funded (S.strand s)) :
    enqueueStrand S s = .error .fatal ↔ Barred S (S.strand s).cpu s := by
  rw [← enqueue_error_iff hfunded]
  unfold enqueueStrand
  split <;> simp [*]

theorem requeuePrev_fatal_iff (hfunded : ∀ s, Funded (S.strand s)) :
    requeuePrev S cpu = .error .fatal ↔
      ∃ prev, (S.rq cpu).curr = some prev ∧ requeues S cpu prev = true ∧ Barred S cpu prev := by
  unfold requeuePrev
  cases hcurr : (S.rq cpu).curr with
  | none => simp
  | some prev =>
  cases hre : requeues S cpu prev with
  | false => simp [hre]
  | true =>
  -- the write of the substate changes nothing the enqueue asks
  have hfunded' :
    Funded ((S.setStrand prev { S.strand prev with substate := .runnable }).strand prev) := by
    rw [System.setStrand_self]
    exact hfunded prev
  have hbarred : Barred (S.setStrand prev { S.strand prev with substate := .runnable }) cpu prev ↔
      Barred S cpu prev := by
    unfold Barred
    rw [System.setStrand_self]
    rfl
  have hiff :
    (∃ e, Classed.enqueue (S.setStrand prev { S.strand prev with substate := .runnable }) cpu prev =
      .error e) ↔ Barred S cpu prev := (enqueue_error_iff hfunded').trans hbarred
  simp only [if_true, Option.some.injEq, exists_eq_left', hre, true_and]
  rw [← hiff]
  split <;> simp [*]

theorem runNext_not_fatal {prev next : Option StrandId} :
    runNext S cpu prev next ≠ .error .fatal := by
  unfold runNext
  split
  · simp
  · simp only
    split_ifs <;> simp

theorem schedule_fatal_iff {busiest : Option CpuId}
    (hfunded : ∀ s, Funded (S.strand s)) : schedule S cpu busiest = .error .fatal ↔
      ∃ prev, (S.rq cpu).curr = some prev ∧ requeues S cpu prev = true ∧ Barred S cpu prev := by
  rw [← requeuePrev_fatal_iff hfunded]
  unfold schedule
  cases hreq : requeuePrev S cpu with
  | error e => simp [bind, Except.bind]
  | ok S₁ =>
  simp only [bind, Except.bind, reduceCtorEq, iff_false]
  split
  · exact runNext_not_fatal
  split
  · exact runNext_not_fatal
  cases busiest with
  | none => exact runNext_not_fatal
  | some b =>
    by_cases hb : b < cpu
    · simp [hb, throw, throwThe, MonadExceptOf.throw]
    · simp [hb, pure, Except.pure]

theorem finishSchedule_fatal_iff (hfunded : ∀ s, Funded (S.strand s)) :
    finishSchedule S cpu = .error .fatal ↔
      ∃ prev s, S.stealing cpu = some (prev, some s) ∧ Barred S cpu s := by
  unfold finishSchedule
  cases hst : S.stealing cpu with
  | none => simp
  | some pair =>
  obtain ⟨prev, stolen⟩ := pair
  cases stolen with
  | none => simpa using runNext_not_fatal
  | some s =>
  have hiff : (∃ e, Classed.enqueue { S with stealing := update S.stealing cpu none } cpu s =
      .error e) ↔ _ := enqueue_error_iff (hfunded s)
  have hone : (∃ prev' s', some (prev, some s) = some (prev', some s') ∧ Barred S cpu s') ↔
    Barred S cpu s := by
    constructor
    · rintro ⟨_, _, heq, hbarred⟩
      cases heq
      exact hbarred
    · exact fun hbarred => ⟨prev, s, rfl, hbarred⟩
  rw [hone, show Barred S cpu s ↔ _ from hiff.symm]
  dsimp only
  split
  · rename_i e herr
    simp [herr, throw, throwThe, MonadExceptOf.throw]
  · rename_i S₁ hok
    simpa [hok] using runNext_not_fatal

/-- The strand is queued by a class that asks, its policy wants no sibling, and the CPU is unknown,
has only degraded evidence while the owner has no right to scheduling, or shares its core with a CPU
that another domain is attached to. -/
structure SmtSystem.Refused (T : SmtSystem) (cpu : CpuId) (s : StrandId) : Prop where
  asked : classOf (T.sched.strand s) = .fair ∨
    classOf (T.sched.strand s) = .rt ∧ (T.sched.strand s).onRq = false
  alone : (T.sched.strand s).policy.allowSmtSibling = false
  reason : configMaxCpus ≤ cpu ∨ (T.record cpu).smtEvidence = .degraded ∧
    T.wantsIsolation s = true ∨
    ∃ y ∈ T.coreSiblings cpu, T.attachedElsewhere s y = true

theorem SmtSystem.isolationViolation_iff (T : SmtSystem) (s : StrandId) (cpu : CpuId) :
    T.isolationViolation s cpu = true ↔ configMaxCpus ≤ cpu ∨
      (T.record cpu).smtEvidence = .degraded ∧ T.wantsIsolation s = true ∨
      ∃ y ∈ T.coreSiblings cpu, T.attachedElsewhere s y = true := by
  unfold isolationViolation recordFor
  by_cases hcpu : configMaxCpus ≤ cpu
  · simp [hcpu]
  · simp [hcpu]

theorem SmtSystem.barred_view (T : SmtSystem) (cpu : CpuId) (s : StrandId) :
    Barred T.view cpu s ↔ T.Refused cpu s := by
  have hdenied : T.view.smtDenied s cpu = true ↔ _ := T.isolationViolation_iff s cpu
  constructor
  · rintro ⟨hasked, halone, hno⟩
    exact ⟨hasked, halone, hdenied.mp hno⟩
  · rintro ⟨hasked, halone, hreason⟩
    exact ⟨hasked, halone, hdenied.mpr hreason⟩

/-- In every reachable state the fatal branches of `enqueue_strand` and `schedule` are taken exactly
for the strands that are refused. -/
theorem enqueue_stops_iff {T : SmtSystem} (h : smtMachine.Reachable T) :
    (∀ s, enqueueStrand T.view s = .error .fatal ↔ T.Refused (T.sched.strand s).cpu s) ∧
    (∀ cpu busiest, schedule T.view cpu busiest = .error .fatal ↔
      ∃ prev, (T.sched.rq cpu).curr = some prev ∧ requeues T.view cpu prev = true ∧
        T.Refused cpu prev) ∧
    ∀ cpu, finishSchedule T.view cpu = .error .fatal ↔
      ∃ prev s, T.sched.stealing cpu = some (prev, some s) ∧ T.Refused cpu s := by
  have hfunded : ∀ s, Funded (T.view.strand s) := funded_of_reachable h
  refine ⟨fun s => ?_, fun cpu busiest => ?_, fun cpu => ?_⟩
  · rw [enqueueStrand_fatal_iff (hfunded s), T.barred_view]
    rfl
  · rw [schedule_fatal_iff hfunded]
    simp only [T.barred_view]
    rfl
  · rw [finishSchedule_fatal_iff hfunded]
    simp only [T.barred_view]
    rfl

/-! ## Who runs next to whom -/

/-- A strand that allows siblings bears any company, and every strand that of its own domain. -/
def Tolerates (a b : Strand) : Prop :=
  a.policy.allowSmtSibling = true ∨ a.owner = none ∨ b.owner = none ∨ a.owner = b.owner

instance (a b : Strand) : Decidable (Tolerates a b) := inferInstanceAs (Decidable (_ ∨ _))

namespace SmtSystem

/-- The strands running on two CPUs: the first bears the second. -/
def Shielded (T : SmtSystem) (c c' : CpuId) : Prop :=
  ∀ s ∈ currentWork T.sched c, ∀ t ∈ currentWork T.sched c', Tolerates (T.sched.strand s)
    (T.sched.strand t)

instance (T : SmtSystem) (c c' : CpuId) : Decidable (T.Shielded c c') :=
  inferInstanceAs (Decidable (∀ s ∈ currentWork T.sched c, ∀ t ∈ currentWork T.sched c', _))

/-- No strand that wants no sibling runs on a core with a strand of another domain. -/
def Apart (T : SmtSystem) : Prop := ∀ c c', T.relationBetween c c' = .sameSmtCore → T.Shielded c c'

/-- What a dispatch would have to ask: the strand fits with what runs on the other CPUs of the
core. -/
def FitsIn (T : SmtSystem) (cpu : CpuId) (n : StrandId) : Prop :=
  ∀ c ∈ T.sched.cpus, c ≠ cpu → ∀ t ∈ currentWork T.sched c,
    (T.relationBetween cpu c = .sameSmtCore → Tolerates (T.sched.strand n) (T.sched.strand t)) ∧
    (T.relationBetween c cpu = .sameSmtCore → Tolerates (T.sched.strand t) (T.sched.strand n))

instance (T : SmtSystem) (cpu : CpuId) (n : StrandId) : Decidable (T.FitsIn cpu n) :=
  inferInstanceAs (Decidable (∀ c ∈ T.sched.cpus, c ≠ cpu → ∀ t ∈ currentWork T.sched c, _ ∧ _))

/-- What a `schedule` on the CPU can leave running: a queued strand, the one that runs, or one
stolen from another CPU. -/
def candidates (T : SmtSystem) (cpu : CpuId) : List StrandId :=
  (T.sched.rq cpu).linked ++ (currentWork T.sched cpu).toList ++
    ((T.sched.stealing cpu).bind Prod.snd).toList

/-- The record is online and says what the boot protocol says. -/
def UpToDate (T : SmtSystem) (cpu : CpuId) : Prop :=
  (T.record cpu).state = .online ∧
    applyPercpuEvidence cpu (T.percpu cpu) (T.record cpu) = T.record cpu

instance (T : SmtSystem) (cpu : CpuId) : Decidable (T.UpToDate cpu) :=
  inferInstanceAs (Decidable (_ ∧ _))

end SmtSystem

/-- A CPU is scheduled only while every strand it may come to run fits with what the other CPUs of
the core run at that moment. A strand that asks for no sibling has none of another domain, a slot of
the strand table is not reused while its strand runs, and the record of a CPU that runs a strand is
refreshed only if it is up to date. -/
def SmtOp.KeepsApart (T : SmtSystem) : SmtOp → Prop
  | .sched (.schedule cpu _) | .sched (.finishSchedule cpu) =>
    ∀ n ∈ T.candidates cpu, T.FitsIn cpu n
  | .sched (.setPolicy _ s p) => ∀ c ∈ T.sched.cpus, s ∈ currentWork T.sched c →
      ∀ c' ∈ T.sched.cpus, T.relationBetween c c' = .sameSmtCore → ∀ t ∈ currentWork T.sched c',
        Tolerates { T.sched.strand s with policy := p } (T.sched.strand t)
  | .sched (.create s _ _) => ∀ c ∈ T.sched.cpus, s ∉ currentWork T.sched c
  | .refresh cpu _ => currentWork T.sched cpu = none ∨ T.UpToDate cpu
  | _ => True

instance (T : SmtSystem) : DecidablePred (SmtOp.KeepsApart T) := fun op => by
  unfold SmtOp.KeepsApart
  split <;> infer_instance

/-- `Apart`, with what says that only the CPUs of the scheduler run anything. -/
structure Separate (T : SmtSystem) : Prop where
  apart : T.Apart
  offline : ∀ c, c ∉ T.sched.cpus → (T.sched.rq c).curr = none
  stealing : ∀ c, c ∉ T.sched.cpus → T.sched.stealing c = none

theorem currentWork_congr (hcurr : (S'.rq c).curr = (S.rq c).curr)
    (hidle : (S'.rq c).idleStrand = (S.rq c).idleStrand) : currentWork S' c = currentWork S c := by
  unfold currentWork
  rw [hcurr, hidle]

theorem currentWork_of_none (h : (S.rq c).curr = none) : currentWork S c = none := by
  unfold currentWork
  rw [h]

theorem currentWork_eq_some {n : StrandId} :
    currentWork S c = some n ↔ (S.rq c).curr = some n ∧ (S.rq c).idleStrand ≠ some n := by
  unfold currentWork
  split
  · simp [*]
  · rename_i s hs
    rw [hs]
    split_ifs with hidle
    · simp only [false_iff, not_and, not_not]
      rintro ⟨⟩
      exact hidle
    · constructor
      · rintro ⟨⟩
        exact ⟨rfl, hidle⟩
      · exact fun h => h.1

/-- After the selection the CPU runs what it ran, the selected strand or its idle strand. -/
theorem runNext_work {prev next : Option StrandId} {n : StrandId}
    (h : runNext S cpu prev next = .ok S')
    (hn : currentWork S' cpu = some n) : currentWork S cpu = some n ∨ next = some n := by
  have hidle := (runNext_steady h).idleStrand cpu
  obtain ⟨hcurr, hwork⟩ := currentWork_eq_some.mp hn
  rw [hidle] at hwork
  have hres : ∀ {S₁ : System} {idle m : StrandId}, Resumes S₁ S' cpu prev idle m →
      (S₁.rq cpu).curr = (S.rq cpu).curr → (S.rq cpu).curr = some n ∨ m = n := by
    rintro S₁ idle m (⟨_, rfl⟩ | ⟨_, rfl⟩) hsame
    · left
      rw [← hsame, ← hcurr]
      split <;> rfl
    · right
      simpa [switchTo] using hcurr
  have hran : (S.rq cpu).curr = some n → currentWork S cpu = some n ∨ next = some n := fun hc =>
    .inl (currentWork_eq_some.mpr ⟨hc, hwork⟩)
  obtain ⟨idle, hi, h₁ | ⟨s, _, _, h₁⟩ | ⟨s, hs, h₁⟩⟩ := runNext_ok h
  · exact (hres h₁ rfl).elim hran fun heq => absurd (heq ▸ hi) hwork
  · have hpark : Steady S (parkRevoked S cpu s) none := parkRevoked_steady
    exact (hres h₁ (hpark.curr cpu nofun)).elim hran fun heq => absurd (heq ▸ hi) hwork
  · exact (hres h₁ rfl).elim hran fun heq => .inr (heq ▸ hs)

theorem schedule_candidates {busiest : Option CpuId} {n : StrandId}
    (h : schedule T.view cpu busiest = .ok S') (hn : currentWork S' cpu = some n) :
    n ∈ T.candidates cpu := by
  have hmem : n ∈ (T.sched.rq cpu).linked ∨ currentWork T.sched cpu = some n := by
    have hwork := (schedule_steady h).idleStrand cpu
    obtain ⟨-, hne⟩ := currentWork_eq_some.mp hn
    rw [hwork] at hne
    obtain ⟨S₁, hreq, hrun | ⟨b, _, _, _, rfl⟩⟩ := schedule_ok h
    all_goals have hfirst : Steady T.view S₁ none := requeuePrev_steady hreq
    all_goals have hsame : currentWork S₁ cpu = currentWork T.sched cpu :=
      currentWork_congr (hfirst.curr cpu nofun) (hfirst.idleStrand cpu)
    · rcases runNext_work hrun hn with hold | hsel
      · exact .inr (hsame ▸ hold)
      · rcases requeuePrev_linked hreq (selectWork_mem hsel) with hl | hc
        · exact .inl hl
        · exact .inr (currentWork_eq_some.mpr ⟨hc, hne⟩)
    · right
      rw [← hsame, ← hn]
      have hsteal : Steady S₁ (trySteal S₁ cpu b).1 none := trySteal_steady
      exact (currentWork_congr (hsteal.curr cpu nofun) (hsteal.idleStrand cpu)).symm
  rcases hmem with hl | hc
  · simp [SmtSystem.candidates, hl]
  · simp [SmtSystem.candidates, hc]

theorem finishSchedule_candidates {n : StrandId} (h : finishSchedule T.view cpu = .ok S')
    (hn : currentWork S' cpu = some n) : n ∈ T.candidates cpu := by
  have hran : currentWork T.sched cpu = some n → n ∈ T.candidates cpu := fun hc => by
    simp [SmtSystem.candidates, hc]
  unfold finishSchedule at h
  split at h
  · cases h
    exact hran hn
  rename_i prev stolen hst
  simp only at h
  split at h
  · rcases runNext_work h hn with hc | hsel
    · exact hran hc
    · cases hsel
  rename_i s
  split at h
  · cases h
  rename_i S₁ henq
  have hfirst : Steady { T.view with stealing := update T.view.stealing cpu none } S₁ none :=
    enqueue_steady henq
  rcases runNext_work h hn with hc | hsel
  · have hsame : currentWork S₁ cpu = currentWork T.sched cpu :=
      currentWork_congr (hfirst.curr cpu nofun) (hfirst.idleStrand cpu)
    exact hran (hsame ▸ hc)
  · -- the stolen strand was put on the queue before the selection
    have hl := selectWork_mem hsel
    have hst' : T.sched.stealing cpu = some (prev, some s) := hst
    rcases Classed.enqueue_ok henq with ⟨rfl, _⟩ | ⟨_, he⟩
    · simp [SmtSystem.candidates, show n ∈ (T.sched.rq cpu).linked from hl]
    · rcases he.mem_linked.mp hl with hl | ⟨_, rfl⟩
      · simp [SmtSystem.candidates, show n ∈ (T.sched.rq cpu).linked from hl]
      · simp [SmtSystem.candidates, hst']

theorem Tolerates.congr {a a' b b' : Strand} (ha : a'.owner = a.owner)
    (hallow : a'.policy.allowSmtSibling = a.policy.allowSmtSibling) (hb : b'.owner = b.owner)
    (h : Tolerates a b) : Tolerates a' b' := by
  unfold Tolerates at h ⊢
  rw [ha, hallow, hb]
  exact h

namespace Separate

variable {T : SmtSystem}

theorem mem_cpus (h : Separate T) {c : CpuId} {s : StrandId} (hs : s ∈ currentWork T.sched c) :
    c ∈ T.sched.cpus := by
  by_contra hc
  rw [currentWork_of_none (h.offline c hc)] at hs
  cases hs

variable {S' : System}

theorem steady (h : Separate T) (hs : Steady T.view S' none) : Separate (T.after S') where
  apart c c' hrel s hc t hc' := by
    have hwork : ∀ c, currentWork S' c = currentWork T.sched c := fun c =>
      currentWork_congr (hs.curr c nofun) (hs.idleStrand c)
    have hold := h.apart c c' hrel s (by rw [← hwork]; exact hc) t (by rw [← hwork]; exact hc')
    exact hold.congr (hs.owner s) (hs.allow s) (hs.owner t)
  offline c hc := (hs.curr c nofun).trans
    (h.offline c (by rw [show T.sched.cpus = S'.cpus from hs.cpus.symm]; exact hc))
  stealing c hc :=
    (hs.stealing c nofun).trans
    (h.stealing c (by rw [show T.sched.cpus = S'.cpus from hs.cpus.symm]; exact hc))

theorem dispatch (h : Separate T) {cpu : CpuId} (hs : Steady T.view S' (some cpu))
    (hcpu : cpu ∈ T.sched.cpus) (hfits : ∀ n ∈ currentWork S' cpu, T.FitsIn cpu n) :
    Separate (T.after S') where
  apart c c' hrel s hc t hc' := by
    have hwork : ∀ c, c ≠ cpu → currentWork S' c = currentWork T.sched c := fun c hne =>
      currentWork_congr (hs.curr c fun heq => hne (Option.some.inj heq).symm) (hs.idleStrand c)
    have hne : c ≠ c' := by
      -- a CPU is no sibling of itself
      rintro rfl
      have hself : T.relationBetween c c ≠ .sameSmtCore := by
        unfold SmtSystem.relationBetween
        repeat' split
        all_goals simp_all
      exact hself hrel
    by_cases hcc : c = cpu
    · subst hcc
      rw [show currentWork (T.after S').sched c' = _ from hwork c' hne.symm] at hc'
      exact (((hfits s hc) c' (h.mem_cpus hc') hne.symm t hc').1 hrel).congr (hs.owner s)
        (hs.allow s) (hs.owner t)
    rw [show currentWork (T.after S').sched c = _ from hwork c hcc] at hc
    by_cases hcc' : c' = cpu
    · subst hcc'
      exact (((hfits t hc') c (h.mem_cpus hc) hcc s hc).2 hrel).congr (hs.owner s) (hs.allow s)
        (hs.owner t)
    · rw [show currentWork (T.after S').sched c' = _ from hwork c' hcc'] at hc'
      exact (h.apart c c' hrel s hc t hc').congr (hs.owner s) (hs.allow s) (hs.owner t)
  offline c hc := by
    rw [show (T.after S').sched.cpus = T.sched.cpus from hs.cpus] at hc
    exact (hs.curr c fun heq => hc (Option.some.inj heq ▸ hcpu)).trans (h.offline c hc)
  stealing c hc := by
    rw [show (T.after S').sched.cpus = T.sched.cpus from hs.cpus] at hc
    exact (hs.stealing c fun heq => hc (Option.some.inj heq ▸ hcpu)).trans (h.stealing c hc)

theorem schedStep (h : Separate T) (hop : (SmtOp.sched op).KeepsApart T)
    (hnext : op.next T.view = some S') : Separate (T.after S') := by
  cases hq : op.quiet with
  | true => exact h.steady (SchedOp.steady_of_quiet hq hnext)
  | false =>
  cases op with
  | schedule cpu busiest =>
    obtain ⟨hcpu, hok⟩ := onCpu_ok hnext
    exact h.dispatch (schedule_steady hok) hcpu fun n hn => hop n (schedule_candidates hok hn)
  | finishSchedule cpu =>
    have hok := toOption_ok hnext
    by_cases hcpu : cpu ∈ T.sched.cpus
    · exact h.dispatch (finishSchedule_steady hok) hcpu fun n hn =>
        hop n (finishSchedule_candidates hok hn)
    -- such a CPU is not in the middle of a `schedule`
    unfold finishSchedule at hok
    rw [show T.view.stealing cpu = none from h.stealing cpu hcpu] at hok
    cases hok
    exact h.steady .refl
  | setPolicy here s p =>
    cases hnext
    have hedit : PolicyEdit T.view (strandSetPolicy T.view here s p).2 s := strandSetPolicy_edit
    have howner : ∀ t, ((strandSetPolicy T.view here s p).2.strand t).owner =
      (T.sched.strand t).owner := by
      intro t
      by_cases ht : t = s
      · rw [ht]
        exact hedit.place.owner
      · rw [hedit.other t ht]
        rfl
    have hwork : ∀ c, currentWork (strandSetPolicy T.view here s p).2 c = currentWork T.sched c :=
      fun c =>
      currentWork_congr (by rw [hedit.rq]; rfl) (by rw [hedit.rq]; rfl)
    refine ⟨fun c c' hrel a hc t hc' => ?_, fun c hc => ?_, fun c hc => ?_⟩
    · rw [show currentWork (T.after _).sched c = _ from hwork c] at hc
      rw [show currentWork (T.after _).sched c' = _ from hwork c'] at hc'
      by_cases ha : a = s
      · subst ha
        -- the policy in force is the one asked for or the default, which allows siblings
        rcases strandSetPolicy_policy.1 with hp | hp
        · exact Tolerates.congr (a := { T.sched.strand a with policy := p }) (howner a)
            (congrArg SchedPolicy.allowSmtSibling hp) (howner t)
            (hop c (h.mem_cpus hc) hc c' (h.mem_cpus hc') hrel t hc')
        · exact .inl (congrArg SchedPolicy.allowSmtSibling hp)
      · exact (h.apart c c' hrel a hc t hc').congr (howner a)
          (congrArg (·.policy.allowSmtSibling) (hedit.other a ha)) (howner t)
    · rw [show (T.after _).sched.cpus = T.sched.cpus from hedit.cpus] at hc
      exact (congrArg RunQueue.curr (congrFun hedit.rq c)).trans (h.offline c hc)
    · rw [show (T.after _).sched.cpus = T.sched.cpus from hedit.cpus] at hc
      exact (congrFun hedit.stealing c).trans (h.stealing c hc)
  | create s owner cpu =>
    cases hnext
    refine ⟨fun c c' hrel a hc t hc' => ?_, h.offline, h.stealing⟩
    have hother : ∀ {c : CpuId} {u : StrandId}, u ∈ currentWork T.sched c →
        (strandCreate T.view s owner cpu).strand u = T.sched.strand u := by
      intro c u hu
      have hne : u ≠ s := fun heq => hop c (h.mem_cpus hu) (heq ▸ hu)
      exact update_of_ne hne _ _
    have hold := h.apart c c' hrel a hc t hc'
    rw [← hother hc, ← hother hc'] at hold
    exact hold
  | _ => cases hq

end Separate

theorem SmtSystem.relationBetween_refresh {c' : CpuId} {isOnline : Bool} (hc : c ≠ cpu)
    (hc' : c' ≠ cpu) : (T.refreshCpuRecord cpu isOnline).relationBetween c c' =
      T.relationBetween c c' := by
  unfold refreshCpuRecord
  split
  · rfl
  · simp only [relationBetween, recordFor, update_of_ne hc, update_of_ne hc']

theorem applyPercpuEvidence_state (pcp : Option PercpuTopology) (r : CpuTopologyRecord)
    (state : CpuSchedulingState) : applyPercpuEvidence cpu pcp { r with state := state } =
      { applyPercpuEvidence cpu pcp r with state := state } := by
  unfold applyPercpuEvidence
  cases pcp with
  | none => rfl
  | some v =>
    dsimp only
    split <;> rfl

/-- Refreshing a record that is up to date can only take the CPU offline. -/
theorem SmtSystem.UpToDate.refresh {c' : CpuId} {isOnline : Bool} (h : T.UpToDate cpu)
    (hrel : (T.refreshCpuRecord cpu isOnline).relationBetween c c' = .sameSmtCore) :
    T.relationBetween c c' = .sameSmtCore := by
  obtain ⟨honline, hsame⟩ := h
  unfold refreshCpuRecord at hrel
  split at hrel
  · exact hrel
  rename_i hmax
  simp only [applyPercpuEvidence_state, hsame] at hrel
  cases isOnline with
  | true =>
    have hrec : { T.record cpu with state := .online } = T.record cpu := by rw [← honline]
    simpa [hrec] using hrel
  | false =>
    simp only [relationBetween, recordFor, Bool.false_eq_true, if_false] at hrel ⊢
    by_cases hc' : c' = cpu
    · subst hc'
      simp only [if_neg hmax, update_self] at hrel
      split at hrel
      · rename_i hdest
        cases hdest
        simp at hrel
      · cases hrel
    · by_cases hc : c = cpu
      · subst hc
        simp only [if_neg hmax, update_self, update_of_ne hc'] at hrel ⊢
        by_cases hmax' : configMaxCpus ≤ c'
        · simp only [if_pos hmax'] at hrel
          cases hrel
        · simp only [if_neg hmax'] at hrel ⊢
          exact hrel
      · simpa [update_of_ne hc', update_of_ne hc] using hrel

theorem Separate.step {op : SmtOp} (h : Separate T) (hop : op.KeepsApart T)
    (hnext : op.next T = some T') :
    Separate T' := by
  rcases SmtOp.next_cases hnext with ⟨o, S', rfl, hS, rfl⟩ | ⟨hsched,
    hrecord | ⟨cpu, isOnline, rfl, rfl⟩⟩
  · exact h.schedStep hop hS
  · obtain ⟨sched', primary', percpu', attached', record', nodes', siblings', switching'⟩ := T'
    obtain rfl := hsched
    obtain rfl := hrecord
    exact { h with }
  · refine ⟨fun c c' hrel s hc t hc' => ?_, by rw [hsched]; exact h.offline, by
      rw [hsched]; exact h.stealing⟩
    rw [hsched] at hc hc' ⊢
    rcases hop with hnone | hcurrent
    · have hother : ∀ {c : CpuId} {u : StrandId}, u ∈ currentWork T.sched c → c ≠ cpu := by
        rintro c u hu rfl
        rw [hnone] at hu
        cases hu
      rw [SmtSystem.relationBetween_refresh (hother hc) (hother hc')] at hrel
      exact h.apart c c' hrel s hc t hc'
    · exact h.apart c c' (hcurrent.refresh hrel) s hc t hc'

/-- Two CPUs, each running its idle strand, and two domains with an address space and a primary
strand each: strand 2 of domain 1, which has the right to scheduling, on the first CPU, and strand 3
of domain 2 on the second. -/
def twoThreads : SmtSystem where
  sched := { twoCpus with
    strand := fun s => { idle := decide (s ≤ 1)
                         owner := if s = 2 then some 1 else if s = 3 then some 2 else none
                         cpu := if s = 3 then 1 else 0 }
    domain := fun d => { rootPhys := 0x10000, asce := UInt64.ofNat d + 1
                         grantedRights := if d = 1 then .sched else .none } }
  primaryStrand := fun d => if d = 1 then some 2 else if d = 2 then some 3 else none

theorem smtBooted_twoThreads : SmtBooted twoThreads where
  sched := { booted_twoCpus with }
  policies _ := ⟨rfl, rfl⟩
  record := rfl
  nodeMask _ := rfl
  coreSiblings _ := rfl
  attached _ := rfl
  switching _ := rfl

def alonePolicy : SchedPolicy := { allowSmtSibling := false }

/-- The boot protocol proves that the two CPUs are the threads of one core. -/
def provenCore : List SmtOp :=
  [SmtOp.percpu 0 { coreId := 3, smtId := 0, topologyEvidence := 2 },
    .percpu 1 { coreId := 3, smtId := 1, topologyEvidence := 2 },
    .refresh 0 true, .online 0, .refresh 1 true, .online 1]

/-- The primary strand of domain 1 runs on the first CPU and asks for no sibling. -/
def aloneOnFirst : List SmtOp :=
  [SmtOp.sched (.enqueueStrand 2), .sched (.schedule 0 none), .attach 0,
    .sched (.setPolicy 0 2 alonePolicy)]

/-- The primary strand of domain 2 comes to run on the second CPU. -/
def moveIn : List SmtOp :=
  [SmtOp.sched (.enqueueStrand 3), .sched (.schedule 1 none), .attach 1]

theorem enqueue_stops_iff_movedIn :
    ∃ T, smtMachine.Reachable T ∧ T.Refused 0 2 ∧ schedule T.view 0 none = .error .fatal := by
  obtain ⟨T, hexec, hclass, halone, hnext, hcurr, hre⟩ : ∃ T,
      smtMachine.Exec twoThreads (provenCore ++ aloneOnFirst ++ moveIn) T ∧
      classOf (T.sched.strand 2) = .fair ∧ (T.sched.strand 2).policy.allowSmtSibling = false ∧
      (1 ∈ T.coreSiblings 0 ∧ T.attachedElsewhere 2 1 = true) ∧ (T.sched.rq 0).curr = some 2 ∧
      requeues T.view 0 2 = true :=
    Machine.exists_exec_ofNext (by decide +kernel)
  have hreach : smtMachine.Reachable T := ⟨twoThreads, _, smtBooted_twoThreads, hexec⟩
  have hrefused : T.Refused 0 2 := ⟨.inl hclass, halone, .inr (.inr ⟨1, hnext⟩)⟩
  exact ⟨T, hreach, hrefused, ((enqueue_stops_iff hreach).2.1 0 none).mpr ⟨2, hcurr, hre, hrefused⟩⟩

/-- A strand that may ask for a core of its own does so. As soon as another domain has moved in next
door, the next `schedule` on its CPU stops the kernel. -/
theorem policy_stops_kernel_counterexample :
    ∃ T, smtMachine.Exec twoThreads (provenCore ++ aloneOnFirst ++ moveIn) T ∧
      (T.sched.strand 2).owner = some 1 ∧ T.primaryStrand 1 = some 2 ∧
        (T.sched.domain 1).state = .active ∧
      (T.sched.domain 1).grantedRights = .sched ∧ schedule T.view 0 none = .error .fatal := by
  obtain ⟨T, hexec, howner, hprimary, hactive, hrights, hstops⟩ : ∃ T,
      smtMachine.Exec twoThreads (provenCore ++ aloneOnFirst ++ moveIn) T ∧
      (T.sched.strand 2).owner = some 1 ∧ T.primaryStrand 1 = some 2 ∧
        (T.sched.domain 1).state = .active ∧
      (T.sched.domain 1).grantedRights = .sched ∧
      (match schedule T.view 0 none with | .error .fatal => true | _ => false) = true :=
    Machine.exists_exec_ofNext (by decide +kernel)
  refine ⟨T, hexec, howner, hprimary, hactive, hrights, ?_⟩
  split at hstops
  · assumption
  · cases hstops

end ZXFoundation.Sched
