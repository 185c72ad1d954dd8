import ZXFoundation.Sched.Admission

/-!
# What an admission or a release changes

`PolicyEdit` is everything a call of `strand_admit_policy`, `strand_set_policy` or one of the
`release_admission` functions can do to the strands and the queues: it writes policy, admission and
accounting of one strand. A strand it touches has afterwards a policy and an admission of one class,
or the ones it had.
-/

namespace ZXFoundation.Sched

open Function Classed Sched.System

/-- The parts of a strand that no policy change writes. -/
structure SamePlace (st st' : Strand) : Prop where
  owner : st'.owner = st.owner
  substate : st'.substate = st.substate
  cpu : st'.cpu = st.cpu
  onRq : st'.onRq = st.onRq
  idle : st'.idle = st.idle
  lastQueued : st'.lastQueued = st.lastQueued
  lastRq : st'.lastRq = st.lastRq
  boostedPrio : st'.body.boostedPrio = st.body.boostedPrio
  savedClass : st'.body.savedClass = st.body.savedClass

theorem SamePlace.refl {st : Strand} :
    SamePlace st st := ⟨rfl, rfl, rfl, rfl, rfl, rfl, rfl, rfl, rfl⟩

theorem SamePlace.trans {st₁ st₂ st₃ : Strand} (h : SamePlace st₁ st₂) (h' : SamePlace st₂ st₃) :
    SamePlace st₁ st₃ where
  owner := h'.owner.trans h.owner
  substate := h'.substate.trans h.substate
  cpu := h'.cpu.trans h.cpu
  onRq := h'.onRq.trans h.onRq
  idle := h'.idle.trans h.idle
  lastQueued := h'.lastQueued.trans h.lastQueued
  lastRq := h'.lastRq.trans h.lastRq
  boostedPrio := h'.boostedPrio.trans h.boostedPrio
  savedClass := h'.savedClass.trans h.savedClass

/-- Policy and admission name one class, or neither was written. -/
def OneClass (st st' : Strand) : Prop :=
  st'.policy.classId = st'.admission.classId ∨ st'.policy = st.policy ∧ st'.admission = st.admission

/-- What a change of policy does: it writes one strand, and no queue. -/
structure PolicyEdit (S S' : System) (s : StrandId) : Prop where
  other : ∀ t, t ≠ s → S'.strand t = S.strand t
  place : SamePlace (S.strand s) (S'.strand s)
  classes : OneClass (S.strand s) (S'.strand s)
  rq : S'.rq = S.rq
  live : S'.live = S.live
  stealing : S'.stealing = S.stealing
  cpus : S'.cpus = S.cpus

variable {S S₁ S₂ : System} {here : CpuId} {d : DomainId} {s : StrandId} {st : Strand}
    {p : SchedPolicy}
  {result : SchedAdmissionResult}

theorem PolicyEdit.refl : PolicyEdit S S s :=
  ⟨fun _ _ => rfl, .refl, .inr ⟨rfl, rfl⟩, rfl, rfl, rfl, rfl⟩

theorem PolicyEdit.trans (h : PolicyEdit S S₁ s) (h' : PolicyEdit S₁ S₂ s) : PolicyEdit S S₂ s where
  other t ht := (h'.other t ht).trans (h.other t ht)
  place := h.place.trans h'.place
  classes := by
    rcases h'.classes with hsame | ⟨hp, ha⟩
    · exact .inl hsame
    · rcases h.classes with hsame | ⟨hp', ha'⟩
      · exact .inl (by rw [hp, ha, hsame])
      · exact .inr ⟨hp.trans hp', ha.trans ha'⟩
  rq := h'.rq.trans h.rq
  live := h'.live.trans h.live
  stealing := h'.stealing.trans h.stealing
  cpus := h'.cpus.trans h.cpus

/-- The bandwidth that a domain has reserved is no part of a strand. -/
theorem PolicyEdit.setDomain {v : SchedDomain} :
    PolicyEdit S (S.setDomain d v) s := { PolicyEdit.refl (S := S) with }

theorem PolicyEdit.setStrand (hplace : SamePlace (S.strand s) st)
    (hclass : OneClass (S.strand s) st) :
    PolicyEdit S (S.setStrand s st) s where
  other t ht := by simp [update_of_ne ht]
  place := by simpa using hplace
  classes := by simpa using hclass
  rq := rfl
  live := rfl
  stealing := rfl
  cpus := rfl

/-- The answer to a request: what is granted is of the class asked for, and the strand has the
policy. -/
def AdmitEdit (S : System) (s : StrandId) (p : SchedPolicy) (A : Admitted) : Prop :=
  PolicyEdit S A.2 s ∧ ∀ r, A.1 = .ok r → r.classId = p.classId ∧ (A.2.strand s).policy = p

/-- A refusal may have moved bandwidth, and gives nothing to the strand. -/
theorem AdmitEdit.refused {e : KernelError} (h : PolicyEdit S S₁ s) :
    AdmitEdit S s p (.error e, S₁) :=
  ⟨h, fun r h => by cases h⟩

/-- A grant is written to the strand together with its policy. -/
theorem AdmitEdit.granted (h : PolicyEdit S S₁ s) (hplace : SamePlace (S₁.strand s) st)
    (hp : st.policy = p)
    (hadm : st.admission = result) (hclass : result.classId = p.classId) :
    AdmitEdit S s p (.ok result, S₁.setStrand s st) := by
  refine ⟨h.trans (.setStrand hplace (.inl ?_)), fun r h => ?_⟩
  · rw [hp, hadm, hclass]
  · cases h
    exact ⟨hclass, by simp [hp]⟩

/-! ## Admission -/

/-- What is granted is of the class that was asked for. -/
theorem validateSchedulerPolicy_classId {state : LifecycleState} {authority : Bool}
    (h : validateSchedulerPolicy state p authority = .ok result) : result.classId = p.classId := by
  unfold validateSchedulerPolicy at h
  split at h
  · cases h
  cases hp : p.classId with
  | idle => simp only [hp] at h; cases h; rfl
  | fair => simp only [hp] at h; cases h; rfl
  | rt =>
    simp only [hp] at h
    split_ifs at h
    cases h
    rfl
  | deadline =>
    simp only [hp] at h
    split_ifs at h
    cases h
    rfl

theorem Classed.validatePolicy_classId {d : SchedDomain} (h : validatePolicy d p = .ok result) :
    result.classId = p.classId := by
  unfold validatePolicy at h
  split at h <;> split_ifs at h <;> cases h <;> rfl

open SamePlace

theorem Rt.admit_edit : AdmitEdit S s p (Rt.admitStrand S d s p) := by
  unfold Rt.admitStrand
  split_ifs
  · exact .refused .refl
  · exact .refused .refl
  split
  · exact .refused .refl
  rename_i result hv
  simp only
  split
  · exact .refused .setDomain
  · exact .granted .setDomain { refl with } rfl rfl (validateSchedulerPolicy_classId hv)

/-- The timer that `deadline::admit` has just marked armed is refused by `timer_add`. -/
theorem timerAdd_armed {name : TimerName} (h : (S.timer name).armed = true) :
    (S.timerAdd here name).2 = S := by
  simp [timerAdd, h]

theorem Deadline.admit_edit : AdmitEdit S s p (Deadline.admitStrand S here d s p) := by
  unfold Deadline.admitStrand
  split_ifs
  · exact .refused .refl
  split
  · exact .refused .refl
  rename_i result hv
  simp only
  split
  · exact .refused .setDomain
  rw [timerAdd_armed (by simp [timer, Deadline.installServer])]
  exact .granted .setDomain { refl with } rfl rfl (validateSchedulerPolicy_classId hv)

theorem Classed.admitPolicy_rt (hrt : p.classId = .rt) :
    admitPolicy S here d s p = Rt.admitStrand S d s p := by
  rw [admitPolicy, hrt]

theorem Classed.admitPolicy_deadline (hdl : p.classId = .deadline) :
    admitPolicy S here d s p = Deadline.admitStrand S here d s p := by
  rw [admitPolicy, hdl]

/-- The fair and the idle class write nothing but the strand, and on a refusal nothing. -/
theorem Classed.admitPolicy_plain (hrt : p.classId ≠ .rt) (hdl : p.classId ≠ .deadline) :
    (∃ e, admitPolicy S here d s p = (.error e, S)) ∨ ∃ result, result.classId = p.classId ∧
      admitPolicy S here d s p =
        (.ok result, S.setStrand s { S.strand s with policy := p, admission := result }) := by
  unfold admitPolicy
  cases hv : validatePolicy (S.domain d) p with
  | error e =>
    refine .inl ⟨e, ?_⟩
    cases hp : p.classId <;> first | rfl | exact absurd hp hrt | exact absurd hp hdl
  | ok result =>
    refine .inr ⟨result, validatePolicy_classId hv, ?_⟩
    cases hp : p.classId <;> first | rfl | exact absurd hp hrt | exact absurd hp hdl

theorem Classed.admitPolicy_edit : AdmitEdit S s p (admitPolicy S here d s p) := by
  by_cases hrt : p.classId = .rt
  · rw [admitPolicy_rt hrt]
    exact Rt.admit_edit
  by_cases hdl : p.classId = .deadline
  · rw [admitPolicy_deadline hdl]
    exact Deadline.admit_edit
  rcases admitPolicy_plain hrt hdl with ⟨e, heq⟩ | ⟨result, hclass, heq⟩
  · rw [heq]
    exact .refused .refl
  · rw [heq]
    exact .granted .refl { refl with } rfl rfl hclass

theorem strandAdmitPolicy_edit : AdmitEdit S s p (strandAdmitPolicy S here s p) := by
  unfold strandAdmitPolicy
  split
  · exact .refused .refl
  split
  · exact .refused .refl
  · exact admitPolicy_edit

/-- The call as a whole, with the defaults that a refusal leaves. -/
theorem strandSetPolicy_edit : PolicyEdit S (strandSetPolicy S here s p).2 s := by
  obtain ⟨hedit, hok⟩ := strandAdmitPolicy_edit (s := s) (p := p)
    (S := S.setStrand s { S.strand s with policy := p, admission := {} })
  unfold strandSetPolicy
  simp only
  -- the writes before and after the admission, seen as one edit
  have hwhole : ∀ (S₂ : System) (st : Strand),
      PolicyEdit (S.setStrand s { S.strand s with policy := p, admission := {} }) S₂ s →
      SamePlace (S₂.strand s) st → st.policy.classId = st.admission.classId →
      PolicyEdit S (S₂.setStrand s st) s := by
    intro S₂ st h hst hclass
    have hplace := h.place
    rw [setStrand_self] at hplace
    refine ⟨fun t ht => ?_, ?_, ?_, h.rq, h.live, h.stealing, h.cpus⟩
    · rw [setStrand_strand, update_of_ne ht, h.other t ht, setStrand_strand,
        update_of_ne ht]
    · rw [setStrand_self]
      have hfirst : SamePlace (S.strand s) { S.strand s with policy := p, admission := {} } :=
        { refl with }
      exact (hfirst.trans hplace).trans hst
    · rw [setStrand_self]
      exact .inl hclass
  split
  · rename_i e S₂ hadm
    rw [hadm] at hedit
    exact hwhole S₂ _ hedit { refl with } rfl
  rename_i result S₂ hadm
  rw [hadm] at hedit hok
  obtain ⟨hclass, hpolicy⟩ := hok result rfl
  refine hwhole S₂ _ hedit { refl with } ?_
  show (S₂.strand s).policy.classId = result.classId
  rw [hpolicy, hclass]

/-! ## Release -/

theorem Rt.releaseAdmission_edit : PolicyEdit S (Rt.releaseAdmission S d s) s := by
  unfold Rt.releaseAdmission
  split
  · exact .refl
  · exact PolicyEdit.setDomain.trans (.setStrand { refl with } (.inl rfl))

theorem setTimer_edit {t : KernelTimer} : PolicyEdit S (S.setTimer (.cbs s) t) s :=
  .setStrand { refl with } (.inr ⟨rfl, rfl⟩)

/-- The timer of a strand is part of its accounting. -/
theorem cbsCancelTimer_edit : PolicyEdit S (S.cbsCancelTimer here s) s := by
  have hcancel : PolicyEdit S (S.timerCancel here (.cbs s)).2 s := by
    unfold timerCancel
    split_ifs
    · exact .refl
    · exact .refl
    · exact { setTimer_edit with }
  unfold cbsCancelTimer
  split
  · exact hcancel.trans setTimer_edit
  · exact .refl

theorem Deadline.releaseAdmission_edit : PolicyEdit S (Deadline.releaseAdmission S here d s) s := by
  unfold Deadline.releaseAdmission
  split
  · exact .refl
  · exact (cbsCancelTimer_edit.trans .setDomain).trans (.setStrand { refl with } (.inl rfl))

end ZXFoundation.Sched
