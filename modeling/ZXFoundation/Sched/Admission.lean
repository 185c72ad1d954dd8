import ZXFoundation.Sched.Timer

/-!
# Admission to the real-time and deadline classes

`admit` and `release_admission` of `sched/rt.zcomponent/core.cxx` and
`sched/deadline.zcomponent/core.cxx`, `isolation::validate_scheduler_policy`, the class surface
`validate_policy` / `admit_policy` of `sched/classed.zcomponent/core.cxx` and the user's path to
them, `nc_dom_strand_set_policy` of `dgp/gate.zcomponent/nc_dom.cxxm`.
-/

namespace ZXFoundation.Sched

open Dgp.Isolation (IsolationRights hasAllRights)

def configMaxCpus : Nat := 768

def maskIsValid (mask : UInt64) (limit : Nat) : Bool :=
  mask == 0 || decide (64 ≤ limit) || mask &&& ~~~(((1 : UInt64) <<< UInt64.ofNat limit) - 1) == 0

/-- `has_rt_authority` and `has_deadline_authority`, which are one test. -/
def hasRtAuthority (d : SchedDomain) : Bool :=
  (d.rtCapabilityToken != 0 && d.rtCapabilityToken == d.adminToken) ||
    hasAllRights d.grantedRights IsolationRights.sched

def policyMatchesDomainMasks (d : SchedDomain) (p : SchedPolicy) : Bool :=
  !(d.allowedCpus != 0 && p.allowedCpus != 0 && p.allowedCpus &&& ~~~d.allowedCpus != 0) &&
    !(d.allowedNumaNodes != 0 && p.allowedNumaNodes != 0 &&
      p.allowedNumaNodes &&& ~~~d.allowedNumaNodes != 0)

def validateSchedulerPolicy (state : LifecycleState) (p : SchedPolicy) (authority : Bool) :
    Except KernelError SchedAdmissionResult :=
  if state ≠ .active then .error (.generic .invalidArg)
  else
    let result : SchedAdmissionResult :=
      { classId := p.classId, remoteNodeAllowed := true, smtSiblingAllowed := p.allowSmtSibling }
    let admitted : SchedAdmissionResult :=
      { result with admittedRuntimeNs := p.runtimeNs, admittedPeriodNs := p.periodNs }
    let masks := maskIsValid p.allowedCpus configMaxCpus && maskIsValid p.allowedNumaNodes 64
    match p.classId with
    | .idle | .fair => .ok result
    | .rt =>
      if !authority || p.rtPriority == 0 || decide (p.rtPriority > 99) then
        .error (.generic .invalidArg)
      else if p.runtimeNs == 0 || p.periodNs == 0 || decide (p.runtimeNs > p.periodNs) then
        .error (.generic .invalidArg)
      else if !masks then .error (.generic .invalidArg)
      else .ok admitted
    | .deadline =>
      if !authority then .error (.generic .invalidArg)
      else if p.runtimeNs == 0 || p.deadlineNs == 0 || p.periodNs == 0 ||
          decide (p.runtimeNs > p.deadlineNs) || decide (p.deadlineNs > p.periodNs) then
        .error (.generic .invalidArg)
      else if !masks then .error (.generic .invalidArg)
      else .ok admitted

/-! ## Reservations -/

namespace Reservation

/-- `reserve_domain_runtime`. A period of zero is fixed by the first request, even by one that is
then refused. -/
def reserve (R : Reservation) (runtime period : Nat) : Except KernelError Unit × Reservation :=
  let R := if R.periodNs = 0 then { R with periodNs := period } else R
  if R.budgetNs = 0 then (.error (.generic .invalidArg), R)
  else if period ≠ R.periodNs then (.error (.generic .invalidArg), R)
  else if runtime > R.budgetNs ∨ R.reservedNs > R.budgetNs - runtime then
    (.error (.generic .invalidArg), R)
  else (.ok (), { R with reservedNs := R.reservedNs + runtime })

/-- `release_domain_runtime`. -/
def release (R : Reservation) (runtime : Nat) : Reservation :=
  { R with reservedNs := if R.reservedNs > runtime then R.reservedNs - runtime else 0 }

end Reservation

/-- The answer of an admission, with the state it leaves. -/
abbrev Admitted := Except KernelError SchedAdmissionResult × System

variable (S : System) (here : CpuId) (d : DomainId) (s : StrandId)

variable (p : SchedPolicy)

namespace Rt

/-- `rt::admit`. -/
def admitStrand : Admitted :=
  if (S.domain d).state ≠ .active ∨ (S.domain d).idle then (.error (.generic .invalidArg), S)
  else if p.classId ≠ .rt ∨ !policyMatchesDomainMasks (S.domain d) p then
    (.error (.generic .invalidArg), S)
  else
    match validateSchedulerPolicy (S.domain d).state p (hasRtAuthority (S.domain d)) with
    | .error e => (.error e, S)
    | .ok result =>
      let (reserved, R) := (S.domain d).rt.reserve result.admittedRuntimeNs result.admittedPeriodNs
      let S := S.setDomain d { S.domain d with rt := R }
      match reserved with
      | .error e => (.error e, S)
      | .ok () =>
        (.ok result, S.setStrand s { S.strand s with
          policy := p, admission := result
          body := { (S.strand s).body with rtRuntimeUsedNs := 0, rtPeriodStartNs := 0 } })

def releaseAdmission : System :=
  if (S.strand s).policy.classId ≠ .rt then S
  else
    let S₁ := S.setDomain d { S.domain d with
      rt := (S.domain d).rt.release (S.strand s).admission.admittedRuntimeNs }
    S₁.setStrand s { S.strand s with
      policy := {}, admission := {}
      body := { (S.strand s).body with rtRuntimeUsedNs := 0, rtPeriodStartNs := 0 } }

end Rt

namespace Deadline

/-- `cbs::init`, the first period end and `cbs::install_timer`, as `deadline::admit` calls them. The
server keeps the default period and runtime, the timer's deadline is in nanoseconds, and the timer
is marked armed before anything has put it on a heap. -/
def installServer (now : Nat) (cpu : CpuId) : CbsReplen :=
  { periodNs := cbsPeriodDefaultNs, runtimeNs := cbsRuntimeDefaultNs, usedRuntimeNs := 0
    periodDeadline := now + cbsPeriodDefaultNs
    timer :=
      { deadlineTod := now + cbsPeriodDefaultNs, intervalTod := cbsPeriodDefaultNs, callback := true
        periodic := false, armed := true, cpu } }

/-- `deadline::admit`, called on `here`. -/
def admitStrand : Admitted :=
  if (S.domain d).state ≠ .active ∨ (S.domain d).idle ∨ p.classId ≠ .deadline then
    (.error (.generic .invalidArg), S)
  else
    match validateSchedulerPolicy (S.domain d).state p (hasRtAuthority (S.domain d)) with
    | .error e => (.error e, S)
    | .ok result =>
      let (reserved, R) :=
        (S.domain d).deadline.reserve result.admittedRuntimeNs result.admittedPeriodNs
      let S := S.setDomain d { S.domain d with deadline := R }
      match reserved with
      | .error e => (.error e, S)
      | .ok () =>
        let st := S.strand s
        let S := S.setStrand s { st with
          policy := p, admission := result
          se := { st.se with deadline := p.deadlineNs }
          body := { st.body with
            deadlineRuntimeUsedNs := 0, absoluteDeadlineNs := p.deadlineNs
            cbs := installServer S.monotonicNow st.cpu } }
        -- the result of the add is discarded
        (.ok result, (S.timerAdd here (.cbs s)).2)

/-- `deadline::release_admission`, called on `here`. -/
def releaseAdmission : System :=
  if (S.strand s).policy.classId ≠ .deadline then S
  else
    let S := S.cbsCancelTimer here s
    let S₁ := S.setDomain d { S.domain d with
      deadline := (S.domain d).deadline.release (S.strand s).admission.admittedRuntimeNs }
    S₁.setStrand s { S.strand s with
      policy := {}, admission := {}
      body := { (S.strand s).body with deadlineRuntimeUsedNs := 0, absoluteDeadlineNs := 0 } }

end Deadline

namespace Classed

def validatePolicy (d : SchedDomain) (p : SchedPolicy) : Except KernelError SchedAdmissionResult :=
  let result : SchedAdmissionResult :=
    { preferredCpu := 0, remoteNodeAllowed := true, smtSiblingAllowed := p.allowSmtSibling
      classId := p.classId }
  let admitted : SchedAdmissionResult :=
    { result with admittedRuntimeNs := p.runtimeNs, admittedPeriodNs := p.periodNs }
  match p.classId with
  | .idle => if !d.idle || p.userVisible then .error (.generic .invalidArg) else .ok result
  | .fair => if d.idle then .error (.generic .invalidArg) else .ok result
  | .rt =>
    if d.idle then .error (.generic .invalidArg)
    else if p.rtPriority == 0 || p.runtimeNs == 0 || p.periodNs == 0 ||
        decide (p.runtimeNs > p.periodNs) then .error (.generic .invalidArg)
    else .ok admitted
  | .deadline =>
    if d.idle then .error (.generic .invalidArg)
    else if p.runtimeNs == 0 || p.deadlineNs == 0 || p.periodNs == 0 ||
        decide (p.runtimeNs > p.deadlineNs) || decide (p.deadlineNs > p.periodNs) then
      .error (.generic .invalidArg)
    else .ok admitted

def admitPolicy : Admitted :=
  match p.classId with
  | .idle | .fair =>
    match validatePolicy (S.domain d) p with
    | .error e => (.error e, S)
    | .ok result => (.ok result, S.setStrand s { S.strand s with policy := p, admission := result })
  | .rt => Rt.admitStrand S d s p
  | .deadline => Deadline.admitStrand S here d s p

end Classed

def strandAdmitPolicy : Admitted :=
  match (S.strand s).owner with
  | none => (.error (.generic .invalidArg), S)
  | some d =>
    if (S.strand s).onRq then (.error (.generic .invalidArg), S)
    else Classed.admitPolicy S here d s p

/-- `nc_dom_strand_set_policy` between its dequeue and its enqueue: the request overwrites policy
and admission before it is admitted, and a refusal leaves the defaults. Whether it was admitted is
returned too. -/
def strandSetPolicy : Bool × System :=
  let S := S.setStrand s { S.strand s with policy := p, admission := {} }
  match strandAdmitPolicy S here s p with
  | (.error _, S) => (false, S.setStrand s { S.strand s with policy := {}, admission := {} })
  | (.ok result, S) => (true, S.setStrand s { S.strand s with admission := result })

/-- A request for one of every hundred milliseconds, in the real-time class. -/
def rtMillisecond : SchedPolicy :=
  { classId := .rt, rtPriority := 10, runtimeNs := 1_000_000, periodNs := 100_000_000 }

/-- The same in the deadline class. -/
def deadlineMillisecond : SchedPolicy :=
  { classId := .deadline, runtimeNs := 1_000_000, deadlineNs := 50_000_000,
    periodNs := 100_000_000 }

end ZXFoundation.Sched
