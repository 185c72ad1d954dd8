import ZXFoundation.Lib.Ledger
import ZXFoundation.Sched.Core
import ZXFoundation.Sched.PolicyEdits

/-!
# Admission budgets

A domain's reservation for the real-time or the deadline class is meant to be the sum of the
runtimes admitted to its strands. Nothing on the path of a policy change gives a reservation back:
`strand_set_policy` and `admit_policy` overwrite the admission of a strand that has one, and
`strand_destroy` forgets it. A refused policy change resets the strand.

`Accounted` is the condition under which neither happens: requests are made for strands without an
admission, a policy change that is not `Admissible` only for strands with the default policy, and a
strand is destroyed only after its release.
-/

namespace ZXFoundation.Sched

open Runs Function Sched.System Option

/-- The two classes with a budget. -/
inductive BudgetClass where
  | rt | deadline
  deriving DecidableEq, Repr

def BudgetClass.toClassId : BudgetClass → SchedClassId
  | .rt => .rt
  | .deadline => .deadline

def SchedDomain.reservation (d : SchedDomain) : BudgetClass → Reservation
  | .rt => d.rt
  | .deadline => d.deadline

/-- What a strand's admission takes from a domain's budget for a class. -/
def reservedBy (st : Strand) (d : DomainId) (k : BudgetClass) : Nat :=
  if st.owner = some d ∧ st.admission.classId = k.toClassId then st.admission.admittedRuntimeNs
    else 0

def Unreserved (st : Strand) : Prop := st.admission.classId ≠ .rt ∧ st.admission.classId ≠ .deadline

instance (st : Strand) : Decidable (Unreserved st) := inferInstanceAs (Decidable (_ ∧ _))

theorem Unreserved.reservedBy {st : Strand} (h : Unreserved st) {d : DomainId} {k : BudgetClass} :
    reservedBy st d k = 0 := by
  refine if_neg fun hk => ?_
  cases k with
  | rt => exact h.1 hk.2
  | deadline => exact h.2 hk.2

/-- Every reservation is the sum over the domain's admitted strands and within the budget. -/
def Balanced (S : System) : Prop :=
  ∀ d k, ((S.domain d).reservation k).reservedNs =
      Ledger.total (fun s => reservedBy (S.strand s) d k) S.live ∧
    ((S.domain d).reservation k).reservedNs ≤ ((S.domain d).reservation k).budgetNs

/-! ## The machine -/

/-- Calls on strands that exist. `create` is the primary strand of a new domain or one of
`strand_create`. -/
inductive BudgetCall where
  | admitPolicy (here : CpuId) (s : StrandId) (p : SchedPolicy)
  | setPolicy (here : CpuId) (s : StrandId) (p : SchedPolicy)
  | releaseRt (s : StrandId)
  | releaseDeadline (here : CpuId) (s : StrandId)
  | create (s : StrandId) (owner : DomainId) (cpu : CpuId)
  | destroy (s : StrandId)

def BudgetCall.next (S : System) : BudgetCall → Option System
  | .admitPolicy here s p => if s ∈ S.live then some (strandAdmitPolicy S here s p).2 else none
  | .setPolicy here s p => if s ∈ S.live then some (strandSetPolicy S here s p).2 else none
  | .releaseRt s =>
    if s ∈ S.live then (S.strand s).owner.map fun d => Rt.releaseAdmission S d s else none
  | .releaseDeadline here s =>
    if s ∈ S.live then (S.strand s).owner.map fun d => Deadline.releaseAdmission S here d s
      else none
  | .create s owner cpu =>
    if s ∈ S.live then none else some (strandCreate S s owner cpu)
  | .destroy s => if s ∈ S.live then some (strandDestroy S s) else none

def BudgetCall.refused (S : System) : BudgetCall → Bool
  | .admitPolicy here s p => !(strandAdmitPolicy S here s p).1.isOk
  | .setPolicy here s p => !(strandSetPolicy S here s p).1
  | _ => false

def BudgetCall.strand : BudgetCall → StrandId
  | .admitPolicy _ s _ | .setPolicy _ s _ | .releaseRt s | .releaseDeadline _ s | .create s _ _ |
    .destroy s => s

/-- What is left of the budget covers the runtime, for the period of the reservation. -/
def Reservation.HasRoom (R : Reservation) (runtime period : Nat) : Prop :=
  R.budgetNs ≠ 0 ∧ (R.periodNs = 0 ∨ period = R.periodNs) ∧ runtime ≤ R.budgetNs ∧
    R.reservedNs ≤ R.budgetNs - runtime

/-- A policy that an active domain may ask for in a class with a budget. -/
def MayAsk (D : SchedDomain) (p : SchedPolicy) : Prop :=
  D.state = .active ∧ D.idle = false ∧ hasRtAuthority D = true ∧ 0 < p.runtimeNs ∧ 0 < p.periodNs ∧
    maskIsValid p.allowedCpus configMaxCpus = true ∧ maskIsValid p.allowedNumaNodes 64 = true

/-- The requests that a domain can be granted, by what they ask for and what the domain has. -/
def Admissible (D : SchedDomain) (p : SchedPolicy) : Prop :=
  match p.classId with
  | .idle => D.idle = true ∧ p.userVisible = false
  | .fair => D.idle = false
  | .rt => MayAsk D p ∧ policyMatchesDomainMasks D p = true ∧ 0 < p.rtPriority ∧ p.rtPriority ≤ 99 ∧
      p.runtimeNs ≤ p.periodNs ∧ D.rt.HasRoom p.runtimeNs p.periodNs
  | .deadline => MayAsk D p ∧ 0 < p.deadlineNs ∧ p.runtimeNs ≤ p.deadlineNs ∧
      p.deadlineNs ≤ p.periodNs ∧ D.deadline.HasRoom p.runtimeNs p.periodNs

instance (D : SchedDomain) (p : SchedPolicy) : Decidable (Admissible D p) := by
  unfold Admissible MayAsk Reservation.HasRoom
  split <;> infer_instance

/-- No call drops an admission without its release, and no request that its strand's domain cannot
be granted overwrites a policy. -/
def BudgetCall.Accounted (S : System) : BudgetCall → Prop
  | .admitPolicy _ s _ => Unreserved (S.strand s)
  | .setPolicy _ s p => Unreserved (S.strand s) ∧
      ((S.strand s).onRq = false ∧ (∃ d ∈ (S.strand s).owner, Admissible (S.domain d) p) ∨
        (S.strand s).policy = {} ∧ (S.strand s).admission = {})
  | .releaseRt _ => True
  | .releaseDeadline _ _ => True
  | .create _ _ _ => True
  | .destroy s => Unreserved (S.strand s)

instance (S : System) : DecidablePred (BudgetCall.Accounted S) := fun op => by
  cases op <;> unfold BudgetCall.Accounted <;> infer_instance

/-- A refused request leaves the strand's policy and admission and all reservations as they were. -/
def RefusalKeeps (S S' : System) (op : BudgetCall) : Prop :=
  op.refused S = true → (S'.strand op.strand).policy = (S.strand op.strand).policy ∧
    (S'.strand op.strand).admission = (S.strand op.strand).admission ∧
    ∀ d k, ((S'.domain d).reservation k).reservedNs = ((S.domain d).reservation k).reservedNs

/-! ## What a request does to the books -/

/-- The request is granted with `r`. -/
structure Grants (S S' : System) (s : StrandId) (p : SchedPolicy) (r : SchedAdmissionResult) :
    Prop where
  other : ∀ t, t ≠ s → S'.strand t = S.strand t
  owner : (S'.strand s).owner = (S.strand s).owner
  policy : (S'.strand s).policy = p
  admission : (S'.strand s).admission = r
  classId : r.classId = p.classId
  live : S'.live = S.live
  reserved : ∀ d k, ((S'.domain d).reservation k).reservedNs =
    ((S.domain d).reservation k).reservedNs + reservedBy (S'.strand s) d k
  budget : ∀ d k, ((S.domain d).reservation k).reservedNs ≤ ((S.domain d).reservation k).budgetNs →
    ((S'.domain d).reservation k).reservedNs ≤ ((S'.domain d).reservation k).budgetNs

/-- The request is refused. The period of a reservation may have been fixed. -/
structure Refuses (S S' : System) : Prop where
  strand : S'.strand = S.strand
  live : S'.live = S.live
  reserved : ∀ d k, ((S'.domain d).reservation k).reservedNs =
    ((S.domain d).reservation k).reservedNs
  budget : ∀ d k, ((S'.domain d).reservation k).budgetNs = ((S.domain d).reservation k).budgetNs

theorem Refuses.refl {S : System} : Refuses S S := ⟨rfl, rfl, fun _ _ => rfl, fun _ _ => rfl⟩

/-- The answer of an admission with what it did. -/
def AdmitSpec (S : System) (s : StrandId) (p : SchedPolicy) (A : Admitted) : Prop :=
  match A.1 with
  | .ok r => Grants S A.2 s p r
  | .error _ => Refuses S A.2

theorem Reservation.reserve_spec (R : Reservation) (runtime period : Nat) :
    (R.reserve runtime period).2.budgetNs = R.budgetNs ∧
      ((R.reserve runtime period).1.isOk = true →
        (R.reserve runtime period).2.reservedNs = R.reservedNs + runtime ∧
        R.reservedNs + runtime ≤ R.budgetNs) ∧
      ((R.reserve runtime period).1.isOk = false →
        (R.reserve runtime period).2.reservedNs = R.reservedNs) := by
  unfold Reservation.reserve
  -- fixing the period touches neither the budget nor the sum
  generalize hR' : (if R.periodNs = 0 then { R with periodNs := period } else R) = R'
  have hb : R'.budgetNs = R.budgetNs := by
    rw [← hR']
    split <;> rfl
  have hr : R'.reservedNs = R.reservedNs := by
    rw [← hR']
    split <;> rfl
  simp only
  split_ifs with h₁ h₂ h₃
  · exact ⟨hb, nofun, fun _ => hr⟩
  · exact ⟨hb, nofun, fun _ => hr⟩
  · exact ⟨hb, nofun, fun _ => hr⟩
  refine ⟨hb, fun _ => ⟨?_, ?_⟩, nofun⟩
  · show R'.reservedNs + runtime = R.reservedNs + runtime
    rw [hr]
  · omega

variable {S S' : System} {d : DomainId} {s : StrandId} {p : SchedPolicy} {v : SchedDomain}
    {k : BudgetClass}

theorem reservedBy_eq {st : Strand} (howner : st.owner = some d)
    (hclass : st.admission.classId = k.toClassId)
    (e : DomainId) (j : BudgetClass) :
    reservedBy st e j = if e = d ∧ j = k then st.admission.admittedRuntimeNs else 0 := by
  have hj : k.toClassId = j.toClassId ↔ j = k := by cases j <;> cases k <;> decide
  simp only [reservedBy, howner, hclass, hj, some.injEq, eq_comm (a := d)]

section

variable (hkeep : ∀ j, j ≠ k → v.reservation j = (S.domain d).reservation j)
include hkeep

theorem reservation_update (e : DomainId) (j : BudgetClass) : e = d ∧ j = k ∨
    (update S.domain d v e).reservation j = (S.domain e).reservation j ∧ ¬ (e = d ∧ j = k) := by
  by_cases he : e = d
  · subst he
    by_cases hj : j = k
    · exact .inl ⟨rfl, hj⟩
    · exact .inr ⟨by rw [update_self, hkeep j hj], fun h => hj h.2⟩
  · exact .inr ⟨by rw [update_of_ne he], fun h => he h.1⟩

variable {r : SchedAdmissionResult} {u : Unit} {err : KernelError}
  (hk : v.reservation k =
    (((S.domain d).reservation k).reserve r.admittedRuntimeNs r.admittedPeriodNs).2)
include hk

theorem grants_of_reserve (howner : (S.strand s).owner = some d)
    (hclass : r.classId = k.toClassId) (hp : p.classId = k.toClassId)
    (hok : (((S.domain d).reservation k).reserve r.admittedRuntimeNs r.admittedPeriodNs).1 = .ok u)
    {st : Strand} (hown : st.owner = (S.strand s).owner) (hpolicy : st.policy = p)
    (hadm : st.admission = r) :
    Grants S ((S.setDomain d v).setStrand s st) s p r := by
  obtain ⟨hbudget, hsum, -⟩ :=
    ((S.domain d).reservation k).reserve_spec r.admittedRuntimeNs r.admittedPeriodNs
  rw [hok] at hsum
  obtain ⟨hsum, hle⟩ := hsum rfl
  have hst : ((S.setDomain d v).setStrand s st).strand s = st := by simp
  have hdomain : ((S.setDomain d v).setStrand s st).domain = update S.domain d v := rfl
  refine ⟨fun t ht => by simp [update_of_ne ht], ?_, ?_, ?_, hclass.trans hp.symm, rfl,
    fun e j => ?_,
    fun e j hle' => ?_⟩
  · rw [hst, hown]
  · rw [hst, hpolicy]
  · rw [hst, hadm]
  · rw [hst, hdomain, reservedBy_eq (hown.trans howner) (hadm ▸ hclass), hadm]
    rcases reservation_update hkeep e j with ⟨rfl, rfl⟩ | ⟨hsame, hne⟩
    · rw [update_self, hk, hsum, if_pos ⟨rfl, rfl⟩]
    · rw [hsame, if_neg hne, Nat.add_zero]
  · rw [hdomain]
    rcases reservation_update hkeep e j with ⟨rfl, rfl⟩ | ⟨hsame, -⟩
    · rw [update_self, hk, hsum, hbudget]
      exact hle
    · rw [hsame]
      exact hle'

theorem refuses_of_reserve
    (herr : (((S.domain d).reservation k).reserve r.admittedRuntimeNs r.admittedPeriodNs).1 =
      .error err) :
    Refuses S (S.setDomain d v) := by
  obtain ⟨hbudget, -, hsum⟩ :=
    ((S.domain d).reservation k).reserve_spec r.admittedRuntimeNs r.admittedPeriodNs
  rw [herr] at hsum
  refine ⟨rfl, rfl, fun e j => ?_, fun e j => ?_⟩ <;>
    rcases reservation_update hkeep e j with ⟨rfl, rfl⟩ | ⟨hsame, -⟩
  · simp only [setDomain, update_self, hk, hsum rfl]
  · simp only [setDomain, hsame]
  · simp only [setDomain, update_self, hk, hbudget]
  · simp only [setDomain, hsame]

end

theorem Rt.admit_spec (howner : (S.strand s).owner = some d) :
    AdmitSpec S s p (Rt.admitStrand S d s p) := by
  unfold Rt.admitStrand
  split_ifs with h₁ h₂
  · exact .refl
  · exact .refl
  have hp : p.classId = .rt := by
    by_contra hne
    exact h₂ (.inl hne)
  cases hv : validateSchedulerPolicy (S.domain d).state p (hasRtAuthority (S.domain d)) with
  | error e => exact .refl
  | ok result =>
  have hclass := (validateSchedulerPolicy_classId hv).trans hp
  simp only
  cases hres : ((S.domain d).rt.reserve result.admittedRuntimeNs result.admittedPeriodNs).1 with
  | error e => exact refuses_of_reserve (k := .rt) (fun j hj => by cases j <;> trivial) rfl hres
  | ok u =>
    exact grants_of_reserve (k := .rt) (fun j hj => by cases j <;> trivial) rfl howner hclass hp
      hres rfl rfl rfl

theorem Deadline.admit_spec {here : CpuId}
    (howner : (S.strand s).owner = some d) :
    AdmitSpec S s p (Deadline.admitStrand S here d s p) := by
  unfold Deadline.admitStrand
  split_ifs with h₁
  · exact .refl
  have hp : p.classId = .deadline := by
    by_contra hne
    exact h₁ (.inr (.inr hne))
  cases hv : validateSchedulerPolicy (S.domain d).state p (hasRtAuthority (S.domain d)) with
  | error e => exact .refl
  | ok result =>
  have hclass := (validateSchedulerPolicy_classId hv).trans hp
  simp only
  cases hres :
    ((S.domain d).deadline.reserve result.admittedRuntimeNs result.admittedPeriodNs).1 with
  | error e =>
    exact refuses_of_reserve (k := .deadline) (fun j hj => by cases j <;> trivial) rfl hres
  | ok u =>
    rw [timerAdd_armed (by simp [timer, Deadline.installServer])]
    exact grants_of_reserve (k := .deadline) (fun j hj => by cases j <;> trivial) rfl howner hclass
      hp hres rfl rfl rfl

theorem strandAdmitPolicy_spec (S : System) (here : CpuId) (s : StrandId) (p : SchedPolicy) :
    AdmitSpec S s p (strandAdmitPolicy S here s p) := by
  unfold strandAdmitPolicy
  cases howner : (S.strand s).owner with
  | none => exact .refl
  | some d =>
  simp only
  split
  · exact .refl
  by_cases hrt : p.classId = .rt
  · rw [Classed.admitPolicy_rt hrt]
    exact Rt.admit_spec howner
  by_cases hdl : p.classId = .deadline
  · rw [Classed.admitPolicy_deadline hdl]
    exact Deadline.admit_spec howner
  -- the fair and the idle class take nothing from a budget
  rcases Classed.admitPolicy_plain hrt hdl with ⟨e, heq⟩ | ⟨result, hclass, heq⟩
  · rw [heq]
    exact .refl
  rw [heq]
  rw [← hclass] at hrt hdl
  have hun : Unreserved { S.strand s with policy := p, admission := result } := ⟨hrt, hdl⟩
  exact
    { other := fun t ht => by simp [update_of_ne ht]
      owner := by simp
      policy := by simp
      admission := by simp
      classId := hclass
      live := rfl
      reserved := fun e k => by
        rw [setStrand_self, hun.reservedBy]
        rfl
      budget := fun _ _ h => h }

/-! ## Requests that are granted -/

theorem Reservation.reserve_isOk {R : Reservation} {runtime period : Nat}
    (h : R.HasRoom runtime period) :
    (R.reserve runtime period).1 = .ok () := by
  obtain ⟨hbudget, hperiod, hle, hroom⟩ := h
  by_cases hzero : R.periodNs = 0
  · simp [Reservation.reserve, hzero, hbudget, Nat.not_lt.mpr hle, Nat.not_lt.mpr hroom]
  · simp [Reservation.reserve, hzero, hbudget, hperiod.resolve_left hzero, Nat.not_lt.mpr hle,
      Nat.not_lt.mpr hroom]

theorem validateSchedulerPolicy_ok {D : SchedDomain} (h : Admissible D p)
    (hp : p.classId = .rt ∨ p.classId = .deadline) : MayAsk D p ∧
      ∃ r, validateSchedulerPolicy .active p true = .ok r ∧ r.admittedRuntimeNs = p.runtimeNs ∧
        r.admittedPeriodNs = p.periodNs := by
  unfold Admissible at h
  unfold validateSchedulerPolicy
  rcases hp with hp | hp
  · simp only [hp] at h ⊢
    obtain ⟨hask, _, hprio, hmax, hle, _⟩ := h
    refine ⟨hask, ?_⟩
    obtain ⟨_, _, _, hrun, hper, hcpus, hnodes⟩ := hask
    simp [hcpus, hnodes, Nat.ne_of_gt hprio, Nat.not_lt.mpr hmax, Nat.ne_of_gt hrun,
      Nat.ne_of_gt hper, Nat.not_lt.mpr hle]
  · simp only [hp] at h ⊢
    obtain ⟨hask, hdl, hle, hle', _⟩ := h
    refine ⟨hask, ?_⟩
    obtain ⟨_, _, _, hrun, hper, hcpus, hnodes⟩ := hask
    simp [hcpus, hnodes, Nat.ne_of_gt hdl, Nat.ne_of_gt hrun, Nat.ne_of_gt hper,
      Nat.not_lt.mpr hle, Nat.not_lt.mpr hle']

theorem Classed.admitPolicy_isOk {here : CpuId} (h : Admissible (S.domain d) p) :
    ∃ r, (Classed.admitPolicy S here d s p).1 = .ok r := by
  unfold Classed.admitPolicy
  cases hp : p.classId with
  | idle =>
    unfold Admissible at h
    simp only [hp] at h
    simp [Classed.validatePolicy, hp, h]
  | fair =>
    unfold Admissible at h
    simp only [hp] at h
    simp [Classed.validatePolicy, hp, h]
  | rt =>
    obtain ⟨⟨hstate, hidle, hauth, _⟩, r, hv, hrun, hper⟩ := validateSchedulerPolicy_ok h (.inl hp)
    unfold Admissible at h
    simp only [hp] at h
    obtain ⟨_, hmasks, _, _, _, hroom⟩ := h
    simp [Rt.admitStrand, hstate, hidle, hp, hmasks, hauth, hv, hrun, hper,
      Reservation.reserve_isOk hroom]
  | deadline =>
    obtain ⟨⟨hstate, hidle, hauth, _⟩, r, hv, hrun, hper⟩ := validateSchedulerPolicy_ok h (.inr hp)
    unfold Admissible at h
    simp only [hp] at h
    obtain ⟨_, _, _, _, hroom⟩ := h
    simp [Deadline.admitStrand, hstate, hidle, hp, hauth, hv, hrun, hper,
      Reservation.reserve_isOk hroom]

theorem strandSetPolicy_granted {here : CpuId} (hoff : (S.strand s).onRq = false)
    (howner : (S.strand s).owner = some d) (h : Admissible (S.domain d) p) :
    (strandSetPolicy S here s p).1 = true := by
  obtain ⟨r, hr⟩ := @Classed.admitPolicy_isOk
    (S.setStrand s { S.strand s with policy := p, admission := {} }) _ s _ here h
  have hadmitted :
      strandAdmitPolicy (S.setStrand s { S.strand s with policy := p, admission := {} }) here s p =
        Classed.admitPolicy (S.setStrand s { S.strand s with policy := p, admission := {} })
          here d s p := by
    unfold strandAdmitPolicy
    rw [setStrand_self]
    simp only [howner, hoff, Bool.false_eq_true, if_false]
  unfold strandSetPolicy
  simp only
  rw [hadmitted]
  generalize Classed.admitPolicy _ here d s p = A at hr
  obtain ⟨answer, S'⟩ := A
  cases hr
  rfl

theorem strandSetPolicy_spec {here : CpuId} :
    (∃ r S', strandSetPolicy S here s p = (true, S') ∧ Grants S S' s p r) ∨
    ∃ S', strandSetPolicy S here s p = (false, S') ∧
      S'.strand = update S.strand s { S.strand s with policy := {}, admission := {} } ∧
        S'.live = S.live ∧
      ∀ d k, ((S'.domain d).reservation k).reservedNs = ((S.domain d).reservation k).reservedNs ∧
        ((S'.domain d).reservation k).budgetNs = ((S.domain d).reservation k).budgetNs := by
  have hspec := strandAdmitPolicy_spec
    (S.setStrand s { S.strand s with policy := p, admission := {} }) here s p
  rcases hA :
    strandAdmitPolicy (S.setStrand s { S.strand s with policy := p, admission := {} }) here s p
    with ⟨answer, S₂⟩
  rw [hA] at hspec
  cases answer with
  | error e =>
    refine .inr ⟨S₂.setStrand s { S₂.strand s with policy := {}, admission := {} }, ?_, ?_,
      hspec.live,
      fun d k => ⟨hspec.reserved d k, hspec.budget d k⟩⟩
    · simp only [strandSetPolicy, hA]
    · rw [setStrand_strand, hspec.strand, setStrand_strand, update_idem, update_self]
  | ok r =>
    have hsame : (S₂.setStrand s { S₂.strand s with admission := r }).strand = S₂.strand := by
      rw [setStrand_strand]
      refine (congrArg _ ?_).trans (update_eq_self s S₂.strand)
      rw [← hspec.admission]
    refine .inl ⟨r, S₂.setStrand s
      { S₂.strand s with admission := r }, by simp only [strandSetPolicy, hA], ?_⟩
    exact
      { other := fun t ht => by
          rw [hsame, hspec.other t ht, setStrand_strand, update_of_ne ht]
        owner := by rw [hsame, hspec.owner, setStrand_self]
        policy := by rw [hsame, hspec.policy]
        admission := by rw [hsame, hspec.admission]
        classId := hspec.classId
        live := hspec.live
        reserved := fun d k => by rw [hsame]; exact hspec.reserved d k
        budget := hspec.budget }

/-! ## The invariant -/

structure Books (S : System) : Prop where
  nodup : S.live.Nodup
  oneClass : ∀ s ∈ S.live, (S.strand s).policy.classId = (S.strand s).admission.classId
  balanced : Balanced S

section

variable (h : Books S)
include h

theorem Books.edit (hs : s ∈ S.live) (hlive : S'.live = S.live)
    (hother : ∀ t, t ≠ s → S'.strand t = S.strand t)
    (hclass : (S'.strand s).policy.classId = (S'.strand s).admission.classId)
    (hsum : ∀ d k, ((S'.domain d).reservation k).reservedNs + reservedBy (S.strand s) d k =
      ((S.domain d).reservation k).reservedNs + reservedBy (S'.strand s) d k)
    (hle : ∀ d k, ((S'.domain d).reservation k).reservedNs ≤
      ((S'.domain d).reservation k).budgetNs) :
    Books S' := by
  refine ⟨by rw [hlive]; exact h.nodup, fun t ht => ?_, fun d k => ⟨?_, hle d k⟩⟩
  · by_cases hts : t = s
    · subst hts
      exact hclass
    · rw [hother t hts]
      exact h.oneClass t (by rwa [hlive] at ht)
  · have hedit := Ledger.total_edit (f := fun t => reservedBy (S.strand t) d k)
      (g := fun t => reservedBy (S'.strand t) d k) (l := S.live) (.refl _) h.nodup hs
      fun t _ hts => by rw [hother t hts]
    have hbefore := (h.balanced d k).1
    have hafter := hsum d k
    rw [hlive]
    omega

theorem Books.grants {r : SchedAdmissionResult}
    (hs : s ∈ S.live) (hun : Unreserved (S.strand s)) (hg : Grants S S' s p r) : Books S' :=
  h.edit hs hg.live hg.other (by rw [hg.policy, hg.admission, hg.classId])
    (fun d k => by rw [hg.reserved, hun.reservedBy, Nat.add_zero]) fun d k =>
      hg.budget d k (h.balanced d k).2

theorem Books.keep (hlive : S'.live = S.live)
    (hstrand : ∀ t ∈ S.live, (S'.strand t).owner = (S.strand t).owner ∧
      (S'.strand t).policy.classId = (S.strand t).policy.classId ∧
      (S'.strand t).admission = (S.strand t).admission)
    (hdomain : ∀ d k, ((S'.domain d).reservation k).reservedNs =
      ((S.domain d).reservation k).reservedNs ∧
      ((S'.domain d).reservation k).budgetNs = ((S.domain d).reservation k).budgetNs) :
        Books S' := by
  refine ⟨by rw [hlive]; exact h.nodup, fun t ht => ?_, fun d k => ?_⟩
  · rw [hlive] at ht
    rw [(hstrand t ht).2.1, (hstrand t ht).2.2]
    exact h.oneClass t ht
  · rw [(hdomain d k).1, (hdomain d k).2, hlive]
    refine ⟨(h.balanced d k).1.trans (Ledger.total_congr fun t ht => ?_).symm, (h.balanced d k).2⟩
    rw [reservedBy, reservedBy, (hstrand t ht).1, (hstrand t ht).2.2]

theorem Books.releases (hs : s ∈ S.live) (howner : (S.strand s).owner = some d)
    (hclass : (S.strand s).admission.classId = k.toClassId) (hlive : S'.live = S.live)
    (hother : ∀ t, t ≠ s → S'.strand t = S.strand t) (hpolicy : (S'.strand s).policy = {})
    (hadm : (S'.strand s).admission = {}) (hdomain : S'.domain = update S.domain d v)
    (hkeep : ∀ j, j ≠ k → v.reservation j = (S.domain d).reservation j) (hrel : v.reservation k =
      ((S.domain d).reservation k).release (S.strand s).admission.admittedRuntimeNs) :
        Books S' := by
  have hun : Unreserved (S'.strand s) := by
    rw [Unreserved, hadm]
    decide
  have hamount := reservedBy_eq howner hclass
  refine h.edit hs hlive hother (by rw [hpolicy, hadm]) (fun e j => ?_) fun e j => ?_ <;>
    obtain ⟨hsum, hle⟩ := h.balanced e j <;> rw [hdomain] <;>
    rcases reservation_update hkeep e j with ⟨rfl, rfl⟩ | ⟨hsame, hne⟩
  · -- the sum contains the amount, so the subtraction does not stop at zero
    have hpart := Ledger.total_close (f := fun t => reservedBy (S.strand t) e j)
      (List.perm_cons_erase hs) fun _ _ => rfl
    simp only [hamount, and_self, if_true] at hpart
    rw [hun.reservedBy, update_self, hrel, hamount, if_pos ⟨rfl, rfl⟩]
    simp only [Reservation.release]
    split <;> omega
  · rw [hsame, hamount, if_neg hne, hun.reservedBy]
  · rw [update_self, hrel]
    simp only [Reservation.release]
    split <;> omega
  · rw [hsame]
    exact hle

theorem Books.create (hs : s ∉ S.live) {owner : DomainId}
    {cpu : CpuId} : Books (strandCreate S s owner cpu) := by
  have hne : ∀ t ∈ S.live, t ≠ s := fun t ht hts => hs (hts ▸ ht)
  have hold : ∀ t ∈ S.live, (strandCreate S s owner cpu).strand t = S.strand t := fun t ht => by
    simp [strandCreate, update_of_ne (hne t ht)]
  have hnew : (strandCreate S s owner cpu).strand s =
      { owner := some owner, substate := .runnable, cpu } := by
    simp [strandCreate]
  refine ⟨List.nodup_cons.mpr ⟨hs, h.nodup⟩, fun t ht => ?_, fun d k => ?_⟩
  · rcases List.mem_cons.mp ht with rfl | ht
    · rw [hnew]
    · rw [hold t ht]
      exact h.oneClass t ht
  · have hun : Unreserved ((strandCreate S s owner cpu).strand s) := by
      rw [hnew]
      exact ⟨nofun, nofun⟩
    have hopen := Ledger.total_open (f := fun t => reservedBy (S.strand t) d k)
      (g := fun t => reservedBy ((strandCreate S s owner cpu).strand t) d k)
      (.refl (s :: S.live)) fun t ht => by rw [hold t ht]
    rw [hun.reservedBy, Nat.add_zero] at hopen
    exact ⟨(h.balanced d k).1.trans hopen.symm, (h.balanced d k).2⟩

theorem Books.destroy (hs : s ∈ S.live) (hun : Unreserved (S.strand s)) :
    Books (strandDestroy S s) := by
  unfold strandDestroy
  split
  · exact h
  refine ⟨h.nodup.erase s, fun t ht => h.oneClass t (List.mem_of_mem_erase ht), fun d k => ?_⟩
  have hclose := Ledger.total_close (f := fun t => reservedBy (S.strand t) d k)
    (g := fun t => reservedBy (S.strand t) d k) (List.perm_cons_erase hs) fun t _ => rfl
  simp only [hun.reservedBy, Nat.add_zero] at hclose
  exact ⟨(h.balanced d k).1.trans hclose.symm, (h.balanced d k).2⟩

omit h in
theorem cbsCancelTimer_keeps {here : CpuId} :
    ((S.cbsCancelTimer here s).strand s).admission = (S.strand s).admission ∧
      (S.cbsCancelTimer here s).domain = S.domain := by
  unfold cbsCancelTimer timerCancel
  split
  · split_ifs <;> exact ⟨by simp [setTimer, timer], rfl⟩
  · exact ⟨rfl, rfl⟩

theorem Books.releaseRt (hs : s ∈ S.live)
    (howner : (S.strand s).owner = some d) : Books (Rt.releaseAdmission S d s) := by
  unfold Rt.releaseAdmission
  split
  · exact h
  rename_i hclass
  have hadm : (S.strand s).admission.classId = BudgetClass.rt.toClassId :=
    (h.oneClass s hs).symm.trans (not_not.mp hclass)
  exact h.releases hs howner hadm rfl (fun t ht => by simp [update_of_ne ht]) (by simp)
    (by simp) rfl (fun j hj => by cases j <;> trivial) rfl

theorem Books.releaseDeadline {here : CpuId} (hs : s ∈ S.live)
    (howner : (S.strand s).owner = some d) :
    Books (Deadline.releaseAdmission S here d s) := by
  unfold Deadline.releaseAdmission
  split
  · exact h
  rename_i hclass
  obtain ⟨hcancel, hdomain⟩ := cbsCancelTimer_keeps
  have hedit : PolicyEdit S (S.cbsCancelTimer here s) s := cbsCancelTimer_edit
  have hadm : (S.strand s).admission.classId = BudgetClass.deadline.toClassId :=
    (h.oneClass s hs).symm.trans (not_not.mp hclass)
  refine h.releases hs howner hadm hedit.live
    (fun t ht => by simp [update_of_ne ht, hedit.other t ht]) (by simp) (by simp)
    (congrArg (fun f => update f d _) hdomain) (fun j hj => ?_) ?_
  · cases j with
    | rt => rw [hdomain]; rfl
    | deadline => exact absurd rfl hj
  · rw [hcancel, hdomain]
    rfl

theorem Books.step {op : BudgetCall} (hop : op.Accounted S)
    (hnext : op.next S = some S') : Books S' ∧ RefusalKeeps S S' op := by
  cases op with
  | admitPolicy here s p =>
    obtain ⟨hs, rfl⟩ := of_allow hnext
    have hspec := strandAdmitPolicy_spec S here s p
    unfold AdmitSpec at hspec
    cases hA : (strandAdmitPolicy S here s p).1 with
    | ok r =>
      rw [hA] at hspec
      refine ⟨h.grants hs hop hspec, fun hr => ?_⟩
      simp [BudgetCall.refused, hA, Except.isOk, Except.toBool] at hr
    | error e =>
      rw [hA] at hspec
      refine ⟨h.keep hspec.live (fun t _ => ?_) fun d k => ⟨hspec.reserved d k, hspec.budget d k⟩,
        fun _ => ⟨?_, ?_, hspec.reserved⟩⟩
      · rw [hspec.strand]
        exact ⟨rfl, rfl, rfl⟩
      · rw [hspec.strand]
      · rw [hspec.strand]
  | setPolicy here s p =>
    obtain ⟨hs, rfl⟩ := of_allow hnext
    rcases strandSetPolicy_spec with ⟨r, S', hA, hg⟩ | ⟨S', hA, hstrand, hlive, hdomain⟩
    · rw [hA]
      refine ⟨h.grants hs hop.1 hg, fun hr => ?_⟩
      simp [BudgetCall.refused, hA] at hr
    · -- the reset writes what the strand had
      obtain ⟨hp, ha⟩ := hop.2.resolve_left fun hgrant => by
        obtain ⟨hoff, d, howner, hadm⟩ := hgrant
        have := @strandSetPolicy_granted _ _ _ _ here hoff howner hadm
        rw [hA] at this
        cases this
      have hsame : S'.strand = S.strand := by
        rw [hstrand, ← hp, ← ha]
        exact update_eq_self s S.strand
      rw [hA]
      refine ⟨h.keep hlive (fun t _ => ?_) hdomain, fun _ => ⟨?_, ?_, fun d k => (hdomain d k).1⟩⟩
      · rw [hsame]
        exact ⟨rfl, rfl, rfl⟩
      · rw [hsame]
      · rw [hsame]
  | releaseRt s =>
    obtain ⟨hs, hnext⟩ := ite_none_right_eq_some.mp hnext
    obtain ⟨d, howner, rfl⟩ := map_eq_some_iff.mp hnext
    exact ⟨h.releaseRt hs howner, nofun⟩
  | releaseDeadline here s =>
    obtain ⟨hs, hnext⟩ := ite_none_right_eq_some.mp hnext
    obtain ⟨d, howner, rfl⟩ := map_eq_some_iff.mp hnext
    exact ⟨h.releaseDeadline hs howner, nofun⟩
  | create s owner cpu =>
    obtain ⟨hs, rfl⟩ := of_guard hnext
    exact ⟨h.create hs, nofun⟩
  | destroy s =>
    obtain ⟨hs, rfl⟩ := of_allow hnext
    exact ⟨h.destroy hs hop, nofun⟩

end

end ZXFoundation.Sched
