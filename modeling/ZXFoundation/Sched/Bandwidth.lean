import ZXFoundation.Sched.Core
import ZXFoundation.Sched.PolicyEdits
import ZXFoundation.Sched.Queueing

/-!
# What admitted strands consume

One CPU with strands of every class, from the moment they are admitted. A `Meter` keeps what the
budgets are about and the source does not store: how many ticks were charged to real-time strands
since the last `bw_replenish`, when each strand was admitted, and how many ticks it was charged in
its present period.

The ticks of the real-time and the deadline class find out that a strand has used up its runtime,
but they can only take it off the queue, and a running strand is not on it. Nothing ever sets the
used runtime back at the end of a period. So the budgets are kept in every run of the CPU only where
no strand of the class is admitted: one tick, charged in one period and looked at in the next, is
enough to break them.
-/

namespace ZXFoundation.Sched

open Runs Function Sched.System

/-! ## Budgets -/

/-- The length of an accounting tick: `RT_ACCOUNTING_TICK_NS` and `DEADLINE_ACCOUNTING_TICK_NS`. -/
def tickNs : Nat := 1_000_000

/-- The number of accounting ticks in a runtime, rounded up. -/
def ticksIn (runtime : Nat) : Nat := (runtime + tickNs - 1) / tickNs

def metered (st : Strand) : Bool := classOf st == .rt || classOf st == .deadline

def usedNs (st : Strand) : Nat :=
  match classOf st with
  | .rt => st.body.rtRuntimeUsedNs
  | .deadline => st.body.deadlineRuntimeUsedNs
  | _ => 0

def exhausted (st : Strand) : Bool :=
  metered st && decide (st.admission.admittedRuntimeNs ≤ usedNs st)

theorem usedNs_rt {st : Strand} (h : classOf st = .rt) : usedNs st = st.body.rtRuntimeUsedNs := by
  rw [usedNs, h]

theorem usedNs_deadline {st : Strand} (h : classOf st = .deadline) :
    usedNs st = st.body.deadlineRuntimeUsedNs := by
  rw [usedNs, h]

theorem metered_of_class {st : Strand} (h : classOf st = .rt ∨ classOf st = .deadline) :
    metered st = true := by
  rcases h with h | h <;> simp [metered, h]

/-! ## The machine -/

structure Meter where
  sys : System
  /-- Accounting ticks charged to real-time strands since the last `bw_replenish`. -/
  charges : Nat := 0
  /-- Ticks charged to each strand in its current period. -/
  spent : StrandId → Nat := fun _ => 0
  admittedAt : StrandId → Nat := fun _ => 0

namespace Meter

variable (M : Meter) (cpu : CpuId)

/-- How many periods of its admission the strand has behind it. -/
def period (s : StrandId) : Nat :=
  (M.sys.monotonicNow - M.admittedAt s) / (M.sys.strand s).admission.admittedPeriodNs

/-- Who is charged a tick. -/
def payer : Option StrandId :=
  if M.sys.initialized then (currentWork M.sys cpu).filter fun s => metered (M.sys.strand s)
  else none

/-- The timers that are due have run. -/
def Settled : Prop :=
  ∀ name, M.sys.nextTimer cpu = some name → M.sys.tod < (M.sys.timer name).deadlineTod

instance : Decidable (M.Settled cpu) :=
  decidable_of_iff ((M.sys.nextTimer cpu).all fun name =>
      decide (M.sys.tod < (M.sys.timer name).deadlineTod)) (by
    unfold Settled
    cases M.sys.nextTimer cpu <;> simp)

end Meter

/-- What happens on the CPU between the admission of its strands and their release. -/
inductive CpuOp where
  | tick
  | schedule
  | block (substate : SchedSubstate)
  | wake (s : StrandId)
  /-- One turn of the loop of `timer_interrupt`. -/
  | fire
  | pass (dt : Nat)

def CpuOp.next (cpu : CpuId) (M : Meter) : CpuOp → Option Meter
  | .tick =>
    let M' := { M with sys := schedulerTick M.sys cpu }
    match M.payer cpu with
    | none => some M'
    | some s => some { M' with
        charges := if classOf (M.sys.strand s) = .rt then M.charges + 1 else M.charges
        spent := update M.spent s (M.spent s + 1) }
  | .schedule => (Sched.schedule M.sys cpu none).toOption.map fun S => { M with sys := S }
  | .block substate => some { M with sys := blockCurrent M.sys cpu substate }
  | .wake s =>
    if (M.sys.strand s).cpu = cpu then
      (wakeStrand M.sys s).toOption.map fun S => { M with sys := S }
    else none
  | .fire =>
    match M.sys.nextTimer cpu with
    | none => none
    | some name =>
      if M.sys.tod < (M.sys.timer name).deadlineTod then none
      else some { M with
        sys := M.sys.fireTimer cpu name
        charges := if name = .rtPeriod cpu ∧ (M.sys.timer name).callback then 0 else M.charges }
  | .pass dt =>
    let M' := { M with sys := { M.sys with tod := M.sys.tod + dt } }
    some { M' with spent := fun s => if M'.period s = M.period s then M.spent s else 0 }

def meterMachine (cpu : CpuId) (M₀ : Meter) :
    Machine Meter CpuOp := .ofNext (· = M₀) (CpuOp.next cpu)

/-- An admitted strand that sleeps and may be woken. -/
structure Dormant (S : System) (cpu : CpuId) (s : StrandId) : Prop where
  home : (S.strand s).cpu = cpu
  off : (S.strand s).onRq = false
  budget : 0 < (S.strand s).admission.admittedRuntimeNs ∧
    0 < (S.strand s).admission.admittedPeriodNs
  owned : (S.strand s).owner.isSome = true ∧ S.canAdmitDomain (S.strand s).owner = true
  kept : revokePending S s = false
  smt : (S.strand s).policy.allowSmtSibling = true ∨ S.smtDenied s cpu = false

/-- The CPU runs its idle strand, nothing is queued, and what is admitted has used nothing yet. -/
structure Quiet (cpu : CpuId) (M : Meter) : Prop where
  initialized : M.sys.initialized = true
  idle : ∃ i, (M.sys.rq cpu).idleStrand = some i ∧ (M.sys.rq cpu).curr = some i ∧
    (M.sys.strand i).idle = true
  empty : (M.sys.rq cpu).linked = []
  dormant : ∀ s, metered (M.sys.strand s) = true → Dormant M.sys cpu s
  clock : M.sys.bootTod ≤ M.sys.tod
  charges : M.charges = 0
  fresh : ∀ s, M.spent s = 0 ∧ usedNs (M.sys.strand s) = 0 ∧ M.admittedAt s ≤ M.sys.monotonicNow

/-! ## What the budgets promise -/

/-- `rt_runtime_ns` bounds the ticks charged between two replenishments, no strand is selected that
has used up its runtime in its current period, and the counter is the use in that period: it starts
again with every period, once the timers that are due have run. -/
structure RtEnforced (cpu : CpuId) (M : Meter) : Prop where
  charges : M.charges ≤ ticksIn (M.sys.rq cpu).rtBw.rtRuntimeNs
  renewed : M.Settled cpu → ∀ s, classOf (M.sys.strand s) = .rt →
    (M.sys.strand s).body.rtRuntimeUsedNs = M.spent s * tickNs
  selected : ∀ M', CpuOp.schedule.next cpu M = some M' →
    ∀ s, (M'.sys.rq cpu).curr = some s → classOf (M'.sys.strand s) = .rt →
      M'.spent s * tickNs < (M'.sys.strand s).admission.admittedRuntimeNs

/-- A deadline strand is charged at most its own runtime, rounded up to a tick, in each period; once
the timers that are due have run its counter starts again with every period and with runtime left in
its period it counts as exhausted no more; and the queued strand of least absolute deadline comes
first. -/
structure ServerKept (cpu : CpuId) (M : Meter) : Prop where
  within : ∀ s, classOf (M.sys.strand s) = .deadline →
    M.spent s ≤ ticksIn (M.sys.strand s).policy.runtimeNs
  renewed : M.Settled cpu → ∀ s, classOf (M.sys.strand s) = .deadline →
    (M.sys.strand s).body.deadlineRuntimeUsedNs = M.spent s * tickNs
  again : M.Settled cpu → ∀ s, classOf (M.sys.strand s) = .deadline →
    M.spent s * tickNs < (M.sys.strand s).policy.runtimeNs → exhausted (M.sys.strand s) = false
  least : ∀ s, Deadline.pickNext M.sys cpu = some s → s ∈ (M.sys.rq cpu).deadlineQueue ∧
    ∀ t ∈ (M.sys.rq cpu).deadlineQueue,
      (M.sys.strand s).body.absoluteDeadlineNs ≤ (M.sys.strand t).body.absoluteDeadlineNs

/-! ## What a step leaves alone -/

/-- No strand has changed its policy or its admission. -/
def SamePolicies (S S' : System) : Prop :=
  ∀ t, (S'.strand t).idle = (S.strand t).idle ∧ (S'.strand t).policy = (S.strand t).policy ∧
    (S'.strand t).admission = (S.strand t).admission

/-- Policies, admissions and what has been charged are as before; only strands and queues have been
written. -/
structure Kept (S S' : System) : Prop where
  policies : SamePolicies S S'
  strand : ∀ t, (S'.strand t).body = (S.strand t).body ∧ (S'.strand t).owner = (S.strand t).owner ∧
    (S'.strand t).cpu = (S.strand t).cpu
  frame : ∃ strand rq, S' = { S with strand, rq }

section

variable {S S₁ S' : System} {cpu c : CpuId} {s : StrandId} {st : Strand} {k : SchedClassId}

namespace SamePolicies

theorem refl : SamePolicies S S := fun _ => ⟨rfl, rfl, rfl⟩

theorem trans (h : SamePolicies S S₁) (h' : SamePolicies S₁ S') : SamePolicies S S' := fun t =>
  ⟨(h' t).1.trans (h t).1, (h' t).2.1.trans (h t).2.1, (h' t).2.2.trans (h t).2.2⟩

theorem classOf_eq (h : SamePolicies S S') (t : StrandId) :
    classOf (S'.strand t) = classOf (S.strand t) := by
  obtain ⟨hi, hp, ha⟩ := h t
  unfold classOf
  rw [hi, hp, ha]

theorem setStrand (h : SamePolicies S S₁) (hst : st.idle = (S₁.strand s).idle ∧
    st.policy = (S₁.strand s).policy ∧ st.admission = (S₁.strand s).admission) :
    SamePolicies S (S₁.setStrand s st) := h.trans fun t => by
  by_cases hts : t = s
  · subst hts
    simpa using hst
  · simp [update_of_ne hts]

theorem setRq {v : RunQueue} (h : SamePolicies S S₁) : SamePolicies S (S₁.setRq c v) := h

end SamePolicies

namespace Kept

theorem refl : Kept S S := ⟨.refl, fun _ => ⟨rfl, rfl, rfl⟩, _, _, rfl⟩

theorem trans (h : Kept S S₁) (h' : Kept S₁ S') : Kept S S' where
  policies := h.policies.trans h'.policies
  strand t :=
    ⟨(h'.strand t).1.trans (h.strand t).1, (h'.strand t).2.1.trans (h.strand t).2.1,
      (h'.strand t).2.2.trans (h.strand t).2.2⟩
  frame := by
    obtain ⟨strand, rq, rfl⟩ := h.frame
    obtain ⟨strand', rq', rfl⟩ := h'.frame
    exact ⟨strand', rq', rfl⟩

theorem usedNs_eq (h : Kept S S') : usedNs (S'.strand s) = usedNs (S.strand s) := by
  unfold usedNs
  rw [h.policies.classOf_eq, (h.strand s).1]

theorem setStrand {substate : SchedSubstate} {se : SchedEntity} :
    Kept S (S.setStrand s { S.strand s with substate, se }) where
  policies := .setStrand .refl ⟨rfl, rfl, rfl⟩
  strand t := by
    by_cases hts : t = s
    · subst hts
      simp
    · simp [update_of_ne hts]
  frame := ⟨_, _, rfl⟩

theorem setRq {v : RunQueue} : Kept S (S.setRq c v) :=
  ⟨.refl, fun _ => ⟨rfl, rfl, rfl⟩, _, _, rfl⟩

theorem enqueued (h : Enqueued S S' c s k) : Kept S S' where
  policies t := ⟨h.field (·.idle) (fun _ => rfl) t, h.field (·.policy) (fun _ => rfl) t,
    h.field (·.admission) (fun _ => rfl) t⟩
  strand t := ⟨h.field (·.body) (fun _ => rfl) t, h.field (·.owner) (fun _ => rfl) t,
    h.field (·.cpu) (fun _ => rfl) t⟩
  frame := ⟨S'.strand, S'.rq, by
    conv_rhs => rw [← h.frame]⟩

theorem dequeue : Kept S (Classed.dequeue S c s) :=
  Classed.dequeue_rule .refl fun S' h =>
    { policies := fun t => ⟨h.field (·.idle) rfl t, h.field (·.policy) rfl t,
        h.field (·.admission) rfl t⟩
      strand := fun t => ⟨h.field (·.body) rfl t, h.field (·.owner) rfl t, h.field (·.cpu) rfl t⟩
      frame := ⟨S'.strand, S'.rq, by
        conv_rhs => rw [← h.frame]⟩ }

theorem enqueue (h : Classed.enqueue S c s = .ok S') : Kept S S' := by
  rcases Classed.enqueue_ok h with ⟨rfl, _⟩ | ⟨_, he⟩
  · exact .refl
  · exact .enqueued he

theorem requeuePrev (h : requeuePrev S cpu = .ok S') : Kept S S' := by
  rcases requeuePrev_ok h with rfl | ⟨prev, _, _, henq⟩
  · exact .refl
  · exact setStrand.trans (.enqueue henq)

theorem resumes {prev : Option StrandId} {idle n : StrandId} (h : Resumes S S' cpu prev idle n) :
    Kept S S' := by
  rcases h with ⟨_, rfl⟩ | ⟨_, rfl⟩
  · split
    · exact .refl
    · exact .setStrand
  · unfold switchTo
    refine Kept.trans ?_ .setRq
    split
    · exact .refl
    · refine Kept.trans ?_ .setStrand
      split
      · exact .dequeue
      · exact .refl

theorem runNext {prev next : Option StrandId} (h : runNext S cpu prev next = .ok S') :
    Kept S S' := by
  obtain ⟨idle, _, hres | ⟨s, _, _, hres⟩ | ⟨s, _, hres⟩⟩ := runNext_ok h
  · exact .resumes hres
  · exact (dequeue.trans .setStrand).trans (.resumes hres)
  · exact .resumes hres

theorem schedule (h : schedule S cpu none = .ok S') : Kept S S' := by
  obtain ⟨S₁, hreq, hrun | ⟨b, hb, _⟩⟩ := schedule_ok h
  · exact (requeuePrev hreq).trans (.runNext hrun)
  · cases hb

theorem wakeStrand (h : wakeStrand S s = .ok S') : Kept S S' := by
  unfold Sched.wakeStrand enqueueStrand at h
  split at h
  · cases h
  · rename_i henq
    cases h
    exact setStrand.trans (.enqueue henq)

theorem blockCurrent {substate : SchedSubstate} : Kept S (blockCurrent S cpu substate) := by
  unfold Sched.blockCurrent
  split
  · exact .refl
  · refine Kept.trans ?_ .setStrand
    split
    · exact .dequeue
    · exact .refl

end Kept

/-! ## Ticks -/

theorem SamePolicies.rtDequeue (h : SamePolicies S S₁) : SamePolicies S (Rt.dequeue S₁ cpu s) := by
  unfold Rt.dequeue
  split
  · exact h
  · exact .setRq (.setStrand h ⟨rfl, rfl, rfl⟩)

theorem SamePolicies.deadlineDequeue (h : SamePolicies S S₁) :
    SamePolicies S (Deadline.dequeue S₁ cpu s) := by
  unfold Deadline.dequeue
  split
  · exact h
  · exact .setRq (.setStrand h ⟨rfl, rfl, rfl⟩)

theorem samePolicies_tick : SamePolicies S (Classed.tick S cpu s) := by
  unfold Classed.tick
  split
  · unfold Deadline.tick
    simp only
    split_ifs
    · exact .refl
    · exact .deadlineDequeue (.setStrand .refl ⟨rfl, rfl, rfl⟩)
    · exact .setStrand .refl ⟨rfl, rfl, rfl⟩
  · exact .refl
  · unfold Rt.tick
    simp only
    split_ifs
    · exact .refl
    · exact .rtDequeue (.setRq (.setStrand .refl ⟨rfl, rfl, rfl⟩))
    · exact .rtDequeue (.setRq (.setStrand .refl ⟨rfl, rfl, rfl⟩))
    · exact .setRq (.setStrand .refl ⟨rfl, rfl, rfl⟩)
  · exact .setRq (.setStrand .refl ⟨rfl, rfl, rfl⟩)

theorem samePolicies_schedulerTick : SamePolicies S (schedulerTick S cpu) := by
  unfold schedulerTick
  split
  · exact .refl
  split
  · exact .refl
  simp only
  split
  · exact samePolicies_tick.trans (Kept.dequeue.trans .setStrand).policies
  · exact samePolicies_tick

/-- A running strand is charged and stays where it is: it is on no queue to be taken off. -/
theorem tick_charges (hm : metered (S.strand s) = true) (hoff : (S.strand s).onRq = false) :
    ∃ body bw, Classed.tick S cpu s =
        (S.setStrand s { S.strand s with body }).setRq cpu { S.rq cpu with rtBw := bw } ∧
      usedNs { S.strand s with body } = usedNs (S.strand s) + tickNs := by
  cases hk : classOf (S.strand s) with
  | idle => simp [metered, hk] at hm
  | fair => simp [metered, hk] at hm
  | rt =>
    refine ⟨{ (S.strand s).body with
        rtRuntimeUsedNs := (S.strand s).body.rtRuntimeUsedNs + tickNs },
      Rt.bwCharge (S.rq cpu).rtBw tickNs, ?_, ?_⟩
    · have hpolicy := (classOf_admitted hk (.inl rfl)).1
      simp only [Classed.tick, hk, Rt.tick, Rt.dequeue, hpolicy]
      simp [hoff, Rt.accountingTickNs, tickNs]
    · rw [usedNs_rt hk]
      exact usedNs_rt hk
  | deadline =>
    refine ⟨{ (S.strand s).body with
        deadlineRuntimeUsedNs := (S.strand s).body.deadlineRuntimeUsedNs + tickNs
        cbs := { (S.strand s).body.cbs with
          usedRuntimeNs := (S.strand s).body.cbs.usedRuntimeNs + tickNs } },
      (S.rq cpu).rtBw, ?_, ?_⟩
    · have hpolicy := (classOf_admitted hk (.inr rfl)).1
      simp only [Classed.tick, hk, Deadline.tick, Deadline.dequeue, hpolicy]
      simp [hoff, Deadline.accountingTickNs, tickNs, System.setRq, System.setStrand]
    · rw [usedNs_deadline hk]
      exact usedNs_deadline hk

/-! ## Timers -/

/-- Timers, servers and bandwidths have been written, the strands' counters not. -/
structure TimerEdit (S S' : System) : Prop where
  strand : ∀ t, ∃ cbs absoluteDeadlineNs, S'.strand t =
    { S.strand t with body := { (S.strand t).body with cbs, absoluteDeadlineNs } }
  frame : ∃ strand rq heap, S' = { S with strand, rq, heap }

namespace TimerEdit

theorem refl : TimerEdit S S := ⟨fun _ => ⟨_, _, rfl⟩, _, _, _, rfl⟩

theorem trans (h : TimerEdit S S₁) (h' : TimerEdit S₁ S') : TimerEdit S S' where
  strand t := by
    obtain ⟨cbs, abs, heq⟩ := h.strand t
    obtain ⟨cbs', abs', heq'⟩ := h'.strand t
    exact ⟨cbs', abs', by rw [heq', heq]⟩
  frame := by
    obtain ⟨strand, rq, heap, rfl⟩ := h.frame
    obtain ⟨strand', rq', heap', rfl⟩ := h'.frame
    exact ⟨strand', rq', heap', rfl⟩

theorem samePolicies (h : TimerEdit S S') : SamePolicies S S' := fun t => by
  obtain ⟨cbs, abs, heq⟩ := h.strand t
  rw [heq]
  exact ⟨rfl, rfl, rfl⟩

theorem usedNs_eq (h : TimerEdit S S') : usedNs (S'.strand s) = usedNs (S.strand s) := by
  obtain ⟨cbs, abs, heq⟩ := h.strand s
  rw [heq]
  rfl

theorem tod_eq (h : TimerEdit S S') : S'.tod = S.tod := by
  obtain ⟨_, _, _, rfl⟩ := h.frame
  rfl

theorem setStrand {cbs : CbsReplen} {absoluteDeadlineNs : Nat} :
    TimerEdit S (S.setStrand s { S.strand s with
      body := { (S.strand s).body with cbs, absoluteDeadlineNs } }) where
  strand t := by
    by_cases ht : t = s
    · subst ht
      exact ⟨cbs, absoluteDeadlineNs, by simp⟩
    · exact ⟨_, _, by simp [update_of_ne ht]; rfl⟩
  frame := ⟨_, _, _, rfl⟩

theorem setRq {v : RunQueue} : TimerEdit S (S.setRq c v) := ⟨fun _ => ⟨_, _, rfl⟩, _, _, _, rfl⟩

theorem setTimer {name : TimerName} {t : KernelTimer} : TimerEdit S (S.setTimer name t) := by
  cases name with
  | cbs s => exact .setStrand
  | rtPeriod c => exact .setRq

theorem setHeap {heap : CpuId → List TimerName} : TimerEdit S { S with heap } :=
  ⟨fun _ => ⟨_, _, rfl⟩, _, _, _, rfl⟩

end TimerEdit

/-- What a callback may do: no deadline is moved, and no timer comes on the CPU's heap. -/
structure Called (S S' : System) (cpu : CpuId) : Prop where
  edit : TimerEdit S S'
  deadlines : ∀ n, (S'.timer n).deadlineTod = (S.timer n).deadlineTod
  heap : (S'.heap cpu).Sublist (S.heap cpu)

namespace Called

theorem refl : Called S S cpu := ⟨.refl, fun _ => rfl, .refl _⟩

theorem trans (h : Called S S₁ cpu) (h' : Called S₁ S' cpu) : Called S S' cpu :=
  ⟨h.edit.trans h'.edit, fun n => (h'.deadlines n).trans (h.deadlines n), h'.heap.trans h.heap⟩

theorem setTimer {name : TimerName} {t : KernelTimer}
    (ht : t.deadlineTod = (S.timer name).deadlineTod) : Called S (S.setTimer name t) cpu := by
  refine ⟨.setTimer, fun n => ?_, by rw [setTimer_heap]⟩
  rw [timer_setTimer]
  split
  · rename_i hn
    rw [hn, ht]
  · rfl

theorem timerCancel {name : TimerName} : Called S (S.timerCancel c name).2 cpu := by
  unfold System.timerCancel
  split_ifs
  · exact .refl
  · exact .refl
  simp only
  refine Called.trans ?_ (.setTimer rfl)
  refine ⟨.setHeap, fun n => by rw [timer_heap], ?_⟩
  by_cases hc : cpu = c
  · subst hc
    simpa using List.erase_sublist
  · simp [update_of_ne hc]

theorem cbsCancelTimer : Called S (S.cbsCancelTimer c s) cpu := by
  unfold System.cbsCancelTimer
  split
  · exact timerCancel.trans (.setTimer rfl)
  · exact .refl

theorem bwReplenish : Called S (S.bwReplenish c) cpu := by
  refine ⟨.setRq, fun n => ?_, .refl _⟩
  cases n with
  | cbs s => rfl
  | rtPeriod q =>
    by_cases hq : q = c
    · subst hq
      simp [System.bwReplenish, timer]
    · simp [System.bwReplenish, timer, update_of_ne hq]

theorem cbsReplenish : Called S (S.cbsReplenish s) cpu := by
  refine ⟨.setStrand, fun n => ?_, .refl _⟩
  cases n with
  | rtPeriod q => rfl
  | cbs t =>
    by_cases ht : t = s
    · subst ht
      simp [System.cbsReplenish, timer]
    · simp [System.cbsReplenish, timer, update_of_ne ht]

theorem timerCallback {name : TimerName} : Called S (S.timerCallback c name) cpu := by
  cases name with
  | rtPeriod p => exact .bwReplenish
  | cbs s =>
    simp only [System.timerCallback]
    split
    · exact .cbsCancelTimer
    split
    · exact .cbsReplenish
    · exact .cbsCancelTimer

end Called

/-- A timer that fires leaves the heap; a periodic one goes back with a deadline that is not due. -/
structure Fired (S S' : System) (cpu : CpuId) (name : TimerName) : Prop where
  edit : TimerEdit S S'
  deadlines : ∀ n, (S'.timer n).deadlineTod = (S.timer n).deadlineTod ∨
    n = name ∧ S.tod < (S'.timer n).deadlineTod
  heap : ∃ l, l.Sublist ((S.heap cpu).erase name) ∧
    (S'.heap cpu = l ∨ S'.heap cpu = name :: l ∧ S.tod < (S'.timer name).deadlineTod)

theorem fireTimer_fired (S : System) (cpu : CpuId) (name : TimerName) :
    Fired S (S.fireTimer cpu name) cpu name := by
  unfold fireTimer
  simp only
  -- out of the heap, disarmed, called
  generalize hS₀ : ({ S with heap := update S.heap cpu ((S.heap cpu).erase name) } : System) = S₀
  generalize hS₁ : S₀.setTimer name { S₀.timer name with armed := false } = S₁
  have hfirst : Called S₀ S₁ cpu := hS₁ ▸ .setTimer rfl
  generalize hS₂ : (if (S₁.timer name).callback = true then S₁.timerCallback cpu name else S₁) = S₂
  have hcalled : Called S₀ S₂ cpu := by
    rw [← hS₂]
    split
    · exact hfirst.trans .timerCallback
    · exact hfirst
  have hedit : TimerEdit S S₂ := .trans (hS₀ ▸ .setHeap) hcalled.edit
  have hdeadlines : ∀ n, (S₂.timer n).deadlineTod = (S.timer n).deadlineTod := fun n => by
    rw [hcalled.deadlines, ← hS₀, timer_heap]
  have hheap : (S₂.heap cpu).Sublist ((S.heap cpu).erase name) := by
    simpa [← hS₀] using hcalled.heap
  split
  · rename_i hperiodic
    generalize hnext : (if _ ≤ S₂.tod then _ else _ : Nat) = next
    have hlater : S.tod < next := by
      rw [← hnext, ← hedit.tod_eq]
      simp only [Bool.and_eq_true, decide_eq_true_eq] at hperiodic
      split
      · have hdiv := Nat.lt_div_mul_add (a := S₂.tod - (S₂.timer name).deadlineTod) hperiodic.2
        rw [Nat.succ_mul]
        omega
      · omega
    have hmoved : ∀ {S' : System}, (∀ n, (S'.timer n).deadlineTod =
        if n = name then next else (S₂.timer n).deadlineTod) → ∀ n,
        (S'.timer n).deadlineTod = (S.timer n).deadlineTod ∨
          n = name ∧ S.tod < (S'.timer n).deadlineTod := fun hS' n => by
      rw [hS']
      split
      · rename_i hn
        exact .inr ⟨hn, hlater⟩
      · exact .inl (hdeadlines n)
    split
    · refine ⟨hedit.trans .setTimer, hmoved fun n => ?_, _, hheap, .inl (by rw [setTimer_heap])⟩
      rw [timer_setTimer]
      split <;> rfl
    · refine ⟨((hedit.trans .setTimer).trans .setHeap).trans .setTimer, hmoved fun n => ?_,
        _, hheap,
        .inr ⟨by simp [setTimer_heap], by simp [timer_setTimer, timer_heap, hlater]⟩⟩
      by_cases hn : n = name
      · simp [timer_setTimer, timer_heap, hn]
      · simp [timer_setTimer, timer_heap, hn]
  · exact ⟨hedit, fun n => .inl (hdeadlines n), _, hheap, .inl rfl⟩

/-- How many entries of the CPU's heap are due. -/
def dueTimers (S : System) (cpu : CpuId) : Nat :=
  (S.heap cpu).countP fun name => decide ((S.timer name).deadlineTod ≤ S.tod)

/-- The entry that is taken out is due no more, and what comes back in its place is not due. -/
theorem Fired.due_lt {name : TimerName} (h : Fired S S' cpu name) (hmem : name ∈ S.heap cpu)
    (hdue : (S.timer name).deadlineTod ≤ S.tod) : dueTimers S' cpu < dueTimers S cpu := by
  have hcount := (List.perm_cons_erase hmem).countP_eq fun n =>
    decide ((S.timer n).deadlineTod ≤ S.tod)
  rw [List.countP_cons_of_pos (by simpa using hdue)] at hcount
  obtain ⟨l, hl, hheap⟩ := h.heap
  have hrest : dueTimers S' cpu = l.countP fun n => decide ((S'.timer n).deadlineTod ≤ S.tod) := by
    rw [dueTimers, h.edit.tod_eq]
    rcases hheap with hheap | ⟨hheap, hlater⟩
    · rw [hheap]
    · rw [hheap, List.countP_cons_of_neg (by simpa using hlater)]
  have hmono : l.countP (fun n => decide ((S'.timer n).deadlineTod ≤ S.tod)) ≤
      l.countP fun n => decide ((S.timer n).deadlineTod ≤ S.tod) := by
    refine List.countP_mono_left fun n _ hn => ?_
    simp only [decide_eq_true_eq] at hn ⊢
    rcases h.deadlines n with heq | ⟨_, hlater⟩
    · rwa [← heq]
    · omega
  rw [hrest, dueTimers, hcount]
  exact Nat.lt_succ_of_le (hmono.trans hl.countP_le)

theorem nextTimer_mem {name : TimerName} (h : S.nextTimer cpu = some name) : name ∈ S.heap cpu := by
  -- the best so far is one of the names already seen
  suffices ∀ (l : List TimerName) (best : Option TimerName),
      l.foldl (fun best name =>
        match best with
        | none => some name
        | some b => if (S.timer name).deadlineTod < (S.timer b).deadlineTod then some name
          else some b)
        best = some name → best = some name ∨ name ∈ l from
    (this _ _ h).resolve_left nofun
  intro l
  induction l with
  | nil => exact fun best hbest => .inl hbest
  | cons n l ih =>
    intro best hbest
    rw [List.foldl_cons] at hbest
    rcases ih _ hbest with hstep | hin
    · split at hstep
      · cases hstep
        exact .inr (.head _)
      · split at hstep <;> cases hstep
        · exact .inr (.head _)
        · exact .inl rfl
    · exact .inr (.tail _ hin)

/-- The loop of `timer_interrupt` comes to an end, with no counter changed. -/
theorem exists_settled (M₀ M : Meter) : ∃ ops M', (meterMachine cpu M₀).Exec M ops M' ∧
    M'.Settled cpu ∧ TimerEdit M.sys M'.sys ∧ M'.spent = M.spent := by
  generalize hn : dueTimers M.sys cpu = n
  induction n using Nat.strong_induction_on generalizing M with
  | _ n ih =>
    by_cases hsettled : M.Settled cpu
    · exact ⟨[], M, .nil M, hsettled, .refl, rfl⟩
    unfold Meter.Settled at hsettled
    push Not at hsettled
    obtain ⟨name, hname, hdue⟩ := hsettled
    have hfired := fireTimer_fired M.sys cpu name
    obtain ⟨ops, M', hexec, hset, hedit, hspent⟩ := ih _
      (hn ▸ hfired.due_lt (nextTimer_mem hname) hdue) { M with
        sys := M.sys.fireTimer cpu name
        charges := if name = .rtPeriod cpu ∧ (M.sys.timer name).callback then 0 else M.charges } rfl
    refine ⟨.fire :: ops, M', .cons ?_ hexec, hset, hfired.edit.trans hedit, hspent⟩
    show CpuOp.next cpu M .fire = _
    simp only [CpuOp.next, hname, if_neg (Nat.not_lt.mpr hdue)]

/-! ## One tick in one period

A strand that is woken on a quiet CPU is selected, pays for a tick, goes to sleep, and finds its
counter where it was when its next period has begun. -/

theorem Kept.canAdmitDomain (h : Kept S S') (owner : Option DomainId) :
    S'.canAdmitDomain owner = S.canAdmitDomain owner := by
  obtain ⟨_, _, rfl⟩ := h.frame
  rfl

theorem Kept.revokePending (h : Kept S S') : revokePending S' s = revokePending S s := by
  unfold Sched.revokePending
  rw [(h.strand s).2.1]
  obtain ⟨_, _, rfl⟩ := h.frame
  rfl

theorem ne_idle_of_metered {i : StrandId} (hm : metered (S.strand s) = true)
    (hi : (S.strand i).idle = true) : s ≠ i := by
  rintro rfl
  have hclass : classOf (S.strand s) = .idle := if_pos hi
  simp [metered, hclass] at hm

theorem enqueue_admitted (hm : metered (S.strand s) = true)
    (hbudget : 0 < (S.strand s).admission.admittedRuntimeNs)
    (hsmt : (S.strand s).policy.allowSmtSibling = true ∨ S.smtDenied s cpu = false) :
    ∃ S', Classed.enqueue S cpu s = .ok S' := by
  unfold Classed.enqueue
  cases hk : classOf (S.strand s) with
  | idle => exact ⟨_, rfl⟩
  | fair => simp [metered, hk] at hm
  | rt =>
    obtain ⟨hp, ha⟩ := classOf_admitted hk (.inl rfl)
    have hzero : (S.strand s).admission.admittedRuntimeNs ≠ 0 := by omega
    simp only [Rt.enqueue, hp, ha, hzero]
    rcases hsmt with hsmt | hsmt <;> cases (S.strand s).onRq <;> simp [hsmt]
  | deadline =>
    obtain ⟨hp, ha⟩ := classOf_admitted hk (.inr rfl)
    have hzero : (S.strand s).admission.admittedRuntimeNs ≠ 0 := by omega
    simp only [Deadline.enqueue, hp, ha, hzero]
    cases (S.strand s).onRq <;> simp

/-- The only strand on the queue is selected, if it is an admitted one. -/
theorem selectNext_alone (hlinked : (S.rq cpu).linked = [s]) (hk : k = .rt ∨ k = .deadline)
    (hmem : s ∈ (S.rq cpu).members k) : Classed.selectNext S cpu = some s := by
  unfold RunQueue.linked at hlinked
  rcases hk with rfl | rfl
  · have hrt : (S.rq cpu).rtQueue = [s] ∧ (S.rq cpu).deadlineQueue = [] := by
      simp only [RunQueue.members] at hmem
      rcases List.append_eq_singleton_iff.mp hlinked with ⟨hnil, _⟩ | ⟨hone, hdl⟩
      · rw [(List.append_eq_nil_iff.mp hnil).2] at hmem
        cases hmem
      · rcases List.append_eq_singleton_iff.mp hone with ⟨_, hrt⟩ | ⟨_, hrt⟩
        · exact ⟨hrt, hdl⟩
        · rw [hrt] at hmem
          cases hmem
    simp [Classed.selectNext, Deadline.pickNext, Rt.pickNext, hrt, firstBest]
  · have hdl : (S.rq cpu).deadlineQueue = [s] := by
      simp only [RunQueue.members] at hmem
      rcases List.append_eq_singleton_iff.mp hlinked with ⟨_, hdl⟩ | ⟨_, hdl⟩
      · exact hdl
      · rw [hdl] at hmem
        cases hmem
    simp [Classed.selectNext, Deadline.pickNext, hdl, firstBest]

theorem runNext_total {idle : StrandId} (hidle : (S.rq cpu).idleStrand = some idle)
    (prev next : Option StrandId) : ∃ S', runNext S cpu prev next = .ok S' := by
  unfold runNext
  simp only [hidle]
  split <;> exact ⟨_, rfl⟩

theorem requeuePrev_skip (h : ∀ prev, (S.rq cpu).curr = some prev → requeues S cpu prev = false) :
    requeuePrev S cpu = .ok S := by
  unfold requeuePrev
  split
  · rfl
  · rename_i prev hprev
    simp [h prev hprev]

/-- Without a strand to queue again and another CPU to steal from, `schedule` only selects. -/
theorem schedule_eq_runNext
    (h : ∀ prev, (S.rq cpu).curr = some prev → requeues S cpu prev = false) :
    schedule S cpu none = runNext S cpu (S.rq cpu).curr (selectWork S cpu) := by
  unfold schedule
  simp only [requeuePrev_skip h, bind, Except.bind]
  cases selectWork S cpu with
  | some next => rfl
  | none => simp

/-- A strand that is switched to leaves the queue. -/
theorem switchTo_running {idle : StrandId} (hne : s ≠ idle) (hno : (S.strand s).idle = false) :
    ((switchTo S cpu idle s).rq cpu).curr = some s ∧
      ((switchTo S cpu idle s).rq cpu).idleStrand = (S.rq cpu).idleStrand ∧
      ((switchTo S cpu idle s).strand s).onRq = false := by
  unfold switchTo
  simp only [if_neg hne]
  cases hq : (S.strand s).onRq with
  | false => simp [hq]
  | true =>
  rcases @Classed.dequeue_cases S cpu s with ⟨hskip, _⟩ | hd
  · rw [hq, hno] at hskip
    rcases hskip with hskip | hskip <;> cases hskip
  · simp [hd.idleStrand, hd.self]

/-- The strand runs on the CPU, and is not queued at the same time. -/
structure Running (S : System) (cpu : CpuId) (idle s : StrandId) : Prop where
  initialized : S.initialized = true
  idle : (S.rq cpu).idleStrand = some idle ∧ s ≠ idle
  curr : (S.rq cpu).curr = some s
  off : (S.strand s).onRq = false
  metered : metered (S.strand s) = true
  kept : revokePending S s = false

variable {M : Meter}

theorem Quiet.dispatched (h : Quiet cpu M) (M₀ : Meter) (hm : metered (M.sys.strand s) = true) :
    ∃ S idle, (meterMachine cpu M₀).Exec M [.wake s, .schedule] { M with sys := S } ∧
      Kept M.sys S ∧ Running S cpu idle s := by
  have hd := h.dormant s hm
  obtain ⟨i, hidle, hcurr, hflag⟩ := h.idle
  have hne : s ≠ i := ne_idle_of_metered hm hflag
  have hno : (M.sys.strand s).idle = false := by
    cases hi : (M.sys.strand s).idle with
    | false => rfl
    | true => exact absurd rfl (ne_idle_of_metered hm hi)
  -- the wakeup
  obtain ⟨S₁, henq⟩ : ∃ S₁, Classed.enqueue
      (M.sys.setStrand s { M.sys.strand s with substate := .runnable }) cpu s = .ok S₁ := by
    refine enqueue_admitted ?_ ?_ ?_ <;> rw [setStrand_self]
    · exact hm
    · exact hd.budget.1
    · exact hd.smt
  have hwake : wakeStrand M.sys s = .ok S₁ := by
    unfold wakeStrand enqueueStrand
    rw [setStrand_self, hd.home, henq]
  obtain ⟨_, he⟩ := (Classed.enqueue_ok henq).resolve_left fun hskip => by
    rw [setStrand_self, hno, hd.off] at hskip
    rcases hskip.2 with hskip | hskip <;> cases hskip
  have hkept := Kept.wakeStrand hwake
  have hidle₁ : (S₁.rq cpu).idleStrand = some i := he.idleStrand.trans hidle
  have hcurr₁ : (S₁.rq cpu).curr = some i := he.curr.trans hcurr
  -- the selection
  have hlinked : (S₁.rq cpu).linked = [s] := by
    have hperm := he.linked
    rw [setStrand_rq, h.empty] at hperm
    exact List.perm_singleton.mp hperm
  have hclass : classOf (M.sys.strand s) = .rt ∨ classOf (M.sys.strand s) = .deadline := by
    simpa [metered] using hm
  have hselect : selectWork S₁ cpu = some s := by
    have hmem : s ∈ (S₁.rq cpu).members (classOf (M.sys.strand s)) :=
      (he.members _ s).mpr (.inr ⟨by rw [setStrand_self]; rfl, rfl⟩)
    unfold selectWork
    rw [selectNext_alone hlinked hclass hmem, hidle₁]
    simp [Ne.symm hne]
  have hrun : schedule S₁ cpu none = .ok (switchTo S₁ cpu i s) := by
    rw [schedule_eq_runNext fun prev hprev => ?_, hselect, hcurr₁]
    · unfold runNext vetNext
      simp only [hidle₁, hkept.canAdmitDomain, (hkept.strand s).2.1, hd.owned.2,
        hkept.revokePending,
        hd.kept]
      simp [Ne.symm hne]
    · cases hcurr₁.symm.trans hprev
      simp [requeues, hidle₁]
  have hkept' := hkept.trans (.schedule hrun)
  obtain ⟨hon, hstill, hoff⟩ := @switchTo_running _ cpu _ _ hne ((hkept.policies s).1.trans hno)
  have hfirst : CpuOp.next cpu M (.wake s) = some { M with sys := S₁ } := by
    simp [CpuOp.next, hd.home, hwake, Except.toOption]
  have hsecond : CpuOp.next cpu { M with sys := S₁ } .schedule =
      some { M with sys := switchTo S₁ cpu i s } := by
    simp [CpuOp.next, hrun, Except.toOption]
  refine ⟨_, i, .cons hfirst (.single hsecond), hkept', ?_, ⟨hstill.trans hidle₁, hne⟩, hon, hoff,
    ?_, ?_⟩
  · obtain ⟨_, _, heq⟩ := hkept'.frame
    rw [heq]
    exact h.initialized
  · unfold metered
    rw [hkept'.policies.classOf_eq]
    exact hm
  · rw [hkept'.revokePending]
    exact hd.kept

/-- The tick is charged to the strand, which goes on running. -/
theorem Running.ticked {idle : StrandId} (h : Running M.sys cpu idle s) :
    ∃ M', CpuOp.next cpu M .tick = some M' ∧ SamePolicies M.sys M'.sys ∧
      usedNs (M'.sys.strand s) = usedNs (M.sys.strand s) + tickNs ∧ Running M'.sys cpu idle s ∧
      (∃ strand rq, M'.sys = { M.sys with strand, rq }) ∧ M'.admittedAt = M.admittedAt := by
  have hwork : currentWork M.sys cpu = some s := by
    simp [currentWork, h.curr, h.idle.1, Ne.symm h.idle.2]
  obtain ⟨body, bw, htick, hused⟩ := @tick_charges _ cpu _ h.metered h.off
  generalize hS' : (M.sys.setStrand s { M.sys.strand s with body }).setRq cpu
    { M.sys.rq cpu with rtBw := bw } = S' at htick
  have hself : S'.strand s = { M.sys.strand s with body } := by simp [← hS']
  have hrq : S'.rq cpu = { M.sys.rq cpu with rtBw := bw } := by simp [← hS']
  have hframe : ∃ strand rq, S' = { M.sys with strand, rq } := ⟨_, _, hS'.symm⟩
  have hrevoke : revokePending S' s = false := by
    have hkept := h.kept
    unfold revokePending at hkept ⊢
    rw [hself]
    obtain ⟨_, _, rfl⟩ := hframe
    exact hkept
  have hsys : schedulerTick M.sys cpu = S' := by
    simp [schedulerTick, h.initialized, hwork, htick, hrevoke]
  have hpolicies : SamePolicies M.sys S' := hsys ▸ samePolicies_schedulerTick
  have hpay : M.payer cpu = some s := by
    simp [Meter.payer, h.initialized, hwork, Option.filter, h.metered]
  refine ⟨{ M with
      sys := S'
      charges := if classOf (M.sys.strand s) = .rt then M.charges + 1 else M.charges
      spent := update M.spent s (M.spent s + 1) }, by simp only [CpuOp.next, hpay, hsys], hpolicies,
    ?_, ⟨?_, ?_, ?_, ?_, ?_, hrevoke⟩, hframe, rfl⟩
  · exact (congrArg usedNs hself).trans hused
  · obtain ⟨_, _, rfl⟩ := hframe
    exact h.initialized
  · rw [hrq]
    exact h.idle
  · rw [hrq]
    exact h.curr
  · rw [hself]
    exact h.off
  · unfold Sched.metered
    rw [hpolicies.classOf_eq]
    exact h.metered

/-- The strand goes to sleep and the CPU to its idle strand, or to another one. -/
theorem Running.parked {idle : StrandId} (h : Running M.sys cpu idle s) (M₀ : Meter) :
    ∃ S, (meterMachine cpu M₀).Exec M [.block .blocked, .schedule] { M with sys := S } ∧
      Kept M.sys S := by
  have hblock : (blockCurrent M.sys cpu .blocked) =
      M.sys.setStrand s { M.sys.strand s with substate := .blocked } := by
    simp [blockCurrent, h.curr, h.off]
  obtain ⟨S, hrun⟩ : ∃ S, schedule (blockCurrent M.sys cpu .blocked) cpu none = .ok S := by
    rw [hblock, schedule_eq_runNext fun prev hprev => ?_]
    · exact runNext_total (S := M.sys.setStrand s _) h.idle.1 _ _
    · cases h.curr.symm.trans hprev
      simp [requeues]
  have hfirst : CpuOp.next cpu M (.block .blocked) =
      some { M with sys := blockCurrent M.sys cpu .blocked } := rfl
  have hsecond : CpuOp.next cpu { M with sys := blockCurrent M.sys cpu .blocked } .schedule =
      some { M with sys := S } := by
    simp [CpuOp.next, hrun, Except.toOption]
  exact ⟨S, .cons hfirst (.single hsecond), Kept.blockCurrent.trans (.schedule hrun)⟩

/-- In five units of the clock for every nanosecond of its period a strand enters a new period. -/
theorem period_pass (hclock : M.sys.bootTod ≤ M.sys.tod)
    (hadm : M.admittedAt s ≤ M.sys.monotonicNow)
    {P : Nat} (hP : (M.sys.strand s).admission.admittedPeriodNs = P) (hpos : 0 < P) :
    Meter.period { M with sys := { M.sys with tod := M.sys.tod + 5 * P } } s ≠ M.period s := by
  have hlater : M.sys.monotonicNow + P ≤ (M.sys.tod + 5 * P - M.sys.bootTod) * 1000 / 4096 := by
    unfold monotonicNow
    omega
  have hdiv := Nat.add_div_right (M.sys.monotonicNow - M.admittedAt s) hpos
  have hmono := Nat.div_le_div_right (c := P)
    (show M.sys.monotonicNow - M.admittedAt s + P ≤
      (M.sys.tod + 5 * P - M.sys.bootTod) * 1000 / 4096 - M.admittedAt s by omega)
  show ((M.sys.tod + 5 * P - M.sys.bootTod) * 1000 / 4096 - M.admittedAt s) /
    (M.sys.strand s).admission.admittedPeriodNs ≠ _
  unfold Meter.period
  rw [hP]
  omega

/-- **No period renews a budget**: some run ends with all due timers run, the strand in a period in
which it was charged nothing, and its counter where a tick of an earlier period left it. -/
theorem Quiet.exists_unrenewed (h : Quiet cpu M) (hm : metered (M.sys.strand s) = true) :
    ∃ M', (meterMachine cpu M).Reachable M' ∧ M'.Settled cpu ∧ SamePolicies M.sys M'.sys ∧
      M'.spent s = 0 ∧ usedNs (M'.sys.strand s) = tickNs := by
  have hd := h.dormant s hm
  obtain ⟨S₁, idle, hrun₁, hkept₁, hrunning₁⟩ := h.dispatched M hm
  obtain ⟨M₂, hstep₂, hsame₂, hused₂, hrunning₂, hframe₂, hadm₂⟩ :=
    Running.ticked (M := { M with sys := S₁ }) hrunning₁
  obtain ⟨S₃, hrun₃, hkept₃⟩ := hrunning₂.parked M
  have hpolicies : SamePolicies M.sys S₃ := (hkept₁.policies.trans hsame₂).trans hkept₃.policies
  have hclock : S₃.tod = M.sys.tod ∧ S₃.bootTod = M.sys.bootTod := by
    obtain ⟨_, _, h₁⟩ := hkept₁.frame
    obtain ⟨_, _, h₂⟩ := hframe₂
    obtain ⟨_, _, h₃⟩ := hkept₃.frame
    rw [h₃, h₂, h₁]
    exact ⟨rfl, rfl⟩
  generalize hM₃ : ({ M₂ with sys := S₃ } : Meter) = M₃ at hrun₃
  have hsys₃ : M₃.sys = S₃ := hM₃ ▸ rfl
  have hnew := period_pass (M := M₃) (s := s) (P := (M.sys.strand s).admission.admittedPeriodNs)
    (by rw [hsys₃, hclock.1, hclock.2]; exact h.clock)
    (by
      rw [monotonicNow, hsys₃, hclock.1, hclock.2, ← hM₃]
      exact hadm₂ ▸ (h.fresh s).2.2)
    (by rw [hsys₃, (hpolicies s).2.2]) hd.budget.2
  generalize hdt : 5 * (M.sys.strand s).admission.admittedPeriodNs = dt at hnew
  obtain ⟨M₄, hstep₄, hsys₄, hspent₄⟩ : ∃ M₄, CpuOp.next cpu M₃ (.pass dt) = some M₄ ∧
      M₄.sys = { M₃.sys with tod := M₃.sys.tod + dt } ∧ M₄.spent s = 0 :=
    ⟨_, rfl, rfl, if_neg hnew⟩
  obtain ⟨ops, M₅, hrun₅, hsettled, hedit, hspent₅⟩ := @exists_settled cpu M M₄
  refine ⟨M₅, (Machine.Reachable.start rfl).exec
    ((((hrun₁.snoc hstep₂).append hrun₃).snoc hstep₄).append hrun₅), hsettled, ?_, ?_, ?_⟩
  · refine hpolicies.trans (SamePolicies.trans ?_ hedit.samePolicies)
    rw [hsys₄, hsys₃]
    exact .refl
  · rw [hspent₅, hspent₄]
  · rw [hedit.usedNs_eq, hsys₄, hsys₃, hkept₃.usedNs_eq, hused₂, hkept₁.usedNs_eq, (h.fresh s).2.1,
      Nat.zero_add]

/-! ## When the budgets are kept -/

/-- No step of the CPU changes a policy, and only real-time strands are charged to the bandwidth. -/
theorem meterMachine_step {M' : Meter} {op : CpuOp} (hstep : CpuOp.next cpu M op = some M') :
    SamePolicies M.sys M'.sys ∧
      ((∀ s, classOf (M.sys.strand s) ≠ .rt) → M.charges = 0 → M'.charges = 0) := by
  cases op with
  | tick =>
    simp only [CpuOp.next] at hstep
    split at hstep <;> cases hstep
    · exact ⟨samePolicies_schedulerTick, fun _ hzero => hzero⟩
    · exact ⟨samePolicies_schedulerTick, fun hno hzero => (if_neg (hno _)).trans hzero⟩
  | schedule =>
    obtain ⟨S, hok, heq⟩ := Option.map_eq_some_iff.mp hstep
    cases heq
    exact ⟨(Kept.schedule (toOption_ok hok)).policies, fun _ hzero => hzero⟩
  | block substate =>
    cases hstep
    exact ⟨Kept.blockCurrent.policies, fun _ hzero => hzero⟩
  | wake s =>
    obtain ⟨S, hok, heq⟩ := Option.map_eq_some_iff.mp (Option.ite_none_right_eq_some.mp hstep).2
    cases heq
    exact ⟨(Kept.wakeStrand (toOption_ok hok)).policies, fun _ hzero => hzero⟩
  | fire =>
    simp only [CpuOp.next] at hstep
    split at hstep
    · cases hstep
    obtain ⟨_, rfl⟩ := of_guard hstep
    refine ⟨(fireTimer_fired _ _ _).edit.samePolicies, fun _ hzero => ?_⟩
    show (if _ then 0 else M.charges) = 0
    rw [hzero, ite_self]
  | pass dt =>
    cases hstep
    exact ⟨.refl, fun _ hzero => hzero⟩

theorem samePolicies_of_reachable {M' : Meter} (h : (meterMachine cpu M).Reachable M') :
    SamePolicies M.sys M'.sys := by
  refine h.invariant (P := fun M' => SamePolicies M.sys M'.sys) ?_ ?_
  · rintro _ rfl
    exact .refl
  · intro M₁ op M₂ hsame hstep
    exact hsame.trans (meterMachine_step hstep).1

theorem charges_of_reachable {M' : Meter} (hno : ∀ s, classOf (M.sys.strand s) ≠ .rt)
    (hzero : M.charges = 0) (h : (meterMachine cpu M).Reachable M') : M'.charges = 0 := by
  refine (h.invariant (P := fun M' => SamePolicies M.sys M'.sys ∧ M'.charges = 0) ?_ ?_).2
  · rintro _ rfl
    exact ⟨.refl, hzero⟩
  · rintro M₁ op M₂ ⟨hsame, hcharges⟩ hstep
    obtain ⟨hstep, hpaid⟩ := meterMachine_step hstep
    exact ⟨hsame.trans hstep, hpaid (fun s => hsame.classOf_eq s ▸ hno s) hcharges⟩

/-- **Real-time bandwidth is enforced in every run** of a quiet CPU exactly if no strand is admitted
to the real-time class. -/
theorem rt_bandwidth_enforced_iff (h : Quiet cpu M) :
    (∀ M', (meterMachine cpu M).Reachable M' → RtEnforced cpu M') ↔
      ∀ s, classOf (M.sys.strand s) ≠ .rt := by
  constructor
  · intro henforced s hrt
    obtain ⟨M', hreach, hsettled, hsame, hspent, hused⟩ :=
      h.exists_unrenewed (metered_of_class (.inl hrt))
    have hrt' := (hsame.classOf_eq s).trans hrt
    have hrenewed := (henforced M' hreach).renewed hsettled s hrt'
    rw [← usedNs_rt hrt', hused, hspent] at hrenewed
    exact absurd hrenewed (by decide)
  · intro hno M' hreach
    have hsame := samePolicies_of_reachable hreach
    have hno' : ∀ s, classOf (M'.sys.strand s) ≠ .rt := fun s => hsame.classOf_eq s ▸ hno s
    refine ⟨?_, fun _ s hrt => absurd hrt (hno' s), fun M₁ hnext s _ hrt => ?_⟩
    · rw [charges_of_reachable hno h.charges hreach]
      exact Nat.zero_le _
    · rw [(meterMachine_step hnext).1.classOf_eq] at hrt
      exact absurd hrt (hno' s)

/-- **Deadline strands are served as admitted in every run** of a quiet CPU exactly if there are
none. -/
theorem deadline_server_kept_iff (h : Quiet cpu M) :
    (∀ M', (meterMachine cpu M).Reachable M' → ServerKept cpu M') ↔
      ∀ s, classOf (M.sys.strand s) ≠ .deadline := by
  constructor
  · intro hserved s hdl
    obtain ⟨M', hreach, hsettled, hsame, hspent, hused⟩ :=
      h.exists_unrenewed (metered_of_class (.inr hdl))
    have hdl' := (hsame.classOf_eq s).trans hdl
    have hrenewed := (hserved M' hreach).renewed hsettled s hdl'
    rw [← usedNs_deadline hdl', hused, hspent] at hrenewed
    exact absurd hrenewed (by decide)
  · intro hno M' hreach
    have hno' : ∀ s, classOf (M'.sys.strand s) ≠ .deadline := fun s =>
      (samePolicies_of_reachable hreach).classOf_eq s ▸ hno s
    exact ⟨fun s hdl => absurd hdl (hno' s), fun _ s hdl => absurd hdl (hno' s),
      fun _ s hdl => absurd hdl (hno' s),
      fun s hpick => ⟨firstBest_mem hpick, firstBest_least hpick⟩⟩

end

/-! ## Runs -/

/-- CPU 0 with its idle strand 0, and strand 3 of a domain with scheduling rights after it was
admitted. -/
def meterStart (p : SchedPolicy) : Meter where
  sys := (strandSetPolicy
    { strand := fun s => if s = 0 then { idle := true } else { owner := some 1 }
      live := [3]
      rq := fun c => if c = 0 then { curr := some 0, idleStrand := some 0 } else {}
      domain := fun _ =>
        { rootPhys := 0x10000, asce := 0x10000,
          grantedRights := Dgp.Isolation.IsolationRights.sched } }
    0 3 p).2

theorem meterStart_strand {p : SchedPolicy} {s : StrandId} (h : s ≠ 3) :
    (meterStart p).sys.strand s = if s = 0 then { idle := true } else { owner := some 1 } :=
  strandSetPolicy_edit.other s h

theorem meterStart_quiet {p : SchedPolicy} (hclock : (meterStart p).sys.initialized = true ∧
      (meterStart p).sys.bootTod ≤ (meterStart p).sys.tod)
    (hdormant : Dormant (meterStart p).sys 0 3) (hused : usedNs ((meterStart p).sys.strand 3) = 0) :
    Quiet 0 (meterStart p) := by
  have hrq : (meterStart p).sys.rq 0 = { curr := some 0, idleStrand := some 0 } :=
    congrFun strandSetPolicy_edit.rq 0
  have hother : ∀ s, s ≠ 3 → metered ((meterStart p).sys.strand s) = false ∧
      usedNs ((meterStart p).sys.strand s) = 0 := fun s hs => by
    rw [meterStart_strand hs]
    split <;> exact ⟨rfl, rfl⟩
  refine ⟨hclock.1, ⟨0, ?_, ?_, ?_⟩, ?_, fun s hm => ?_, hclock.2, rfl, fun s => ⟨rfl, ?_, ?_⟩⟩
  · rw [hrq]
  · rw [hrq]
  · rw [meterStart_strand (by decide)]
    rfl
  · rw [hrq]
    rfl
  · by_cases hs : s = 3
    · exact hs ▸ hdormant
    · rw [(hother s hs).1] at hm
      cases hm
  · by_cases hs : s = 3
    · exact hs ▸ hused
    · exact (hother s hs).2
  · exact Nat.zero_le _

theorem meterStart_rt : Quiet 0 (meterStart rtMillisecond) :=
  meterStart_quiet (by decide) ⟨by decide, by decide, by decide, by decide, by decide, by decide⟩
    (by decide)

theorem meterStart_deadline : Quiet 0 (meterStart deadlineMillisecond) :=
  meterStart_quiet (by decide) ⟨by decide, by decide, by decide, by decide, by decide, by decide⟩
    (by decide)

/-- On the CPU of a deadline strand no run breaks the real-time bandwidth; on that of a real-time
strand some run does. -/
theorem rt_bandwidth_enforced_iff_millisecond :
    (∀ M, (meterMachine 0 (meterStart deadlineMillisecond)).Reachable M → RtEnforced 0 M) ∧
      ¬ ∀ M, (meterMachine 0 (meterStart rtMillisecond)).Reachable M → RtEnforced 0 M := by
  refine ⟨(rt_bandwidth_enforced_iff meterStart_deadline).mpr fun s => ?_, fun h =>
    (rt_bandwidth_enforced_iff meterStart_rt).mp h 3 (by decide)⟩
  by_cases hs : s = 3
  · subst hs
    decide
  · rw [meterStart_strand hs]
    split <;> decide

/-- After one tick the strand has used up its millisecond and the next `schedule` selects it again;
and its counter survives the end of the period. -/
theorem rt_budget_ignored_counterexample :
    (∃ M, (meterMachine 0 (meterStart rtMillisecond)).Exec (meterStart rtMillisecond)
        [.wake 3, .schedule, .tick] M ∧ ¬ RtEnforced 0 M) ∧
    ∃ M, (meterMachine 0 (meterStart rtMillisecond)).Exec (meterStart rtMillisecond)
        [.wake 3, .schedule, .tick, .block .blocked, .schedule, .pass 409_600_000] M ∧
      M.period 3 = 1 ∧ ¬ RtEnforced 0 M := by
  constructor
  · obtain ⟨M, hexec, hnext⟩ : ∃ M, (meterMachine 0 (meterStart rtMillisecond)).Exec
        (meterStart rtMillisecond) [.wake 3, .schedule, .tick] M ∧
        (CpuOp.schedule.next 0 M).any fun M' => (M'.sys.rq 0).curr = some 3 ∧
          classOf (M'.sys.strand 3) = .rt ∧
          (M'.sys.strand 3).admission.admittedRuntimeNs ≤ M'.spent 3 * tickNs :=
      Machine.exists_exec_ofNext (by decide +kernel)
    obtain ⟨M', hM', hsel⟩ := (Option.any_eq_true _ _).mp hnext
    obtain ⟨hcurr, hrt, hused⟩ := of_decide_eq_true hsel
    exact ⟨M, hexec, fun h => absurd (h.selected M' hM' 3 hcurr hrt) (Nat.not_lt.mpr hused)⟩
  · obtain ⟨M, hexec, hperiod, hsettled, hrt, hspent, hused⟩ : ∃ M,
        (meterMachine 0 (meterStart rtMillisecond)).Exec (meterStart rtMillisecond)
          [.wake 3, .schedule, .tick, .block .blocked, .schedule, .pass 409_600_000] M ∧
        M.period 3 = 1 ∧ M.Settled 0 ∧ classOf (M.sys.strand 3) = .rt ∧ M.spent 3 = 0 ∧
        (M.sys.strand 3).body.rtRuntimeUsedNs = 1_000_000 :=
      Machine.exists_exec_ofNext (by decide +kernel)
    refine ⟨M, hexec, hperiod, fun h => ?_⟩
    have hrenewed := h.renewed hsettled 3 hrt
    rw [hused, hspent] at hrenewed
    exact absurd hrenewed (by decide)

/-- On the CPU of a real-time strand no run breaks a deadline server; on that of a deadline strand
some run does. -/
theorem deadline_server_kept_iff_millisecond :
    (∀ M, (meterMachine 0 (meterStart rtMillisecond)).Reachable M → ServerKept 0 M) ∧
      ¬ ∀ M, (meterMachine 0 (meterStart deadlineMillisecond)).Reachable M → ServerKept 0 M := by
  refine ⟨(deadline_server_kept_iff meterStart_rt).mpr fun s => ?_, fun h =>
    (deadline_server_kept_iff meterStart_deadline).mp h 3 (by decide)⟩
  by_cases hs : s = 3
  · subst hs
    decide
  · rw [meterStart_strand hs]
    split <;> decide

/-- The strand runs on after its millisecond, and at the end of its period nothing renews it: no
timer is on the heap, the counter stays, and the strand is still exhausted. -/
theorem server_never_renews_counterexample :
    (∃ M, (meterMachine 0 (meterStart deadlineMillisecond)).Exec (meterStart deadlineMillisecond)
        [.wake 3, .schedule, .tick, .schedule, .tick] M ∧
      M.spent 3 = 2 ∧ ticksIn (M.sys.strand 3).policy.runtimeNs = 1 ∧ ¬ ServerKept 0 M) ∧
    ∃ M, (meterMachine 0 (meterStart deadlineMillisecond)).Exec (meterStart deadlineMillisecond)
        [.wake 3, .schedule, .tick, .block .blocked, .schedule, .pass 409_600_000] M ∧
      M.period 3 = 1 ∧ M.sys.heap 0 = [] ∧ exhausted (M.sys.strand 3) = true ∧
      ¬ ServerKept 0 M := by
  constructor
  · obtain ⟨M, hexec, hspent, hceil, hdl⟩ : ∃ M,
        (meterMachine 0 (meterStart deadlineMillisecond)).Exec (meterStart deadlineMillisecond)
          [.wake 3, .schedule, .tick, .schedule, .tick] M ∧ M.spent 3 = 2 ∧
        ticksIn (M.sys.strand 3).policy.runtimeNs = 1 ∧ classOf (M.sys.strand 3) = .deadline :=
      Machine.exists_exec_ofNext (by decide +kernel)
    refine ⟨M, hexec, hspent, hceil, fun h => ?_⟩
    have hbound := h.within 3 hdl
    rw [hspent, hceil] at hbound
    omega
  · obtain ⟨M, hexec, hperiod, hheap, hex, hsettled, hdl, hspent, hused⟩ : ∃ M,
        (meterMachine 0 (meterStart deadlineMillisecond)).Exec (meterStart deadlineMillisecond)
          [.wake 3, .schedule, .tick, .block .blocked, .schedule, .pass 409_600_000] M ∧
        M.period 3 = 1 ∧ M.sys.heap 0 = [] ∧ exhausted (M.sys.strand 3) = true ∧ M.Settled 0 ∧
        classOf (M.sys.strand 3) = .deadline ∧ M.spent 3 = 0 ∧
        (M.sys.strand 3).body.deadlineRuntimeUsedNs = 1_000_000 :=
      Machine.exists_exec_ofNext (by decide +kernel)
    refine ⟨M, hexec, hperiod, hheap, hex, fun h => ?_⟩
    have hrenewed := h.renewed hsettled 3 hdl
    rw [hused, hspent] at hrenewed
    exact absurd hrenewed (by decide)

end ZXFoundation.Sched
