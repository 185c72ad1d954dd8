import ZXFoundation.Sched.Core
import ZXFoundation.Sched.PolicyEdits
import ZXFoundation.Sched.Queueing

/-!
# The class at dequeue is the class at enqueue

`classed::dequeue` computes a strand's class from its policy and its admission. The machine here
makes the calls that queue strands and the calls that write those two fields in any order, on any
number of CPUs.

A boost writes the policy's class and leaves the admission, so it moves a deadline strand into the
fair class. `Settled` is the condition under which no queued strand changes class: a deadline strand
is neither boosted nor unboosted while it is queued, and policies change only on strands that are
not queued and not boosted.
-/

namespace ZXFoundation.Sched

open Runs Function

/-- The calls that queue a strand or write its policy. -/
inductive ClassOp where
  | enqueue (cpu : CpuId) (s : StrandId)
  | dequeue (cpu : CpuId) (s : StrandId)
  | boost (s : StrandId) (prio : Nat)
  | unboost (s : StrandId)
  | setPolicy (here : CpuId) (s : StrandId) (p : SchedPolicy)
  | admitPolicy (here : CpuId) (s : StrandId) (p : SchedPolicy)
  | releaseRt (d : DomainId) (s : StrandId)
  | releaseDeadline (here : CpuId) (d : DomainId) (s : StrandId)

def ClassOp.next (S : System) : ClassOp → Option System
  | .enqueue cpu s => (Classed.enqueue S cpu s).toOption
  | .dequeue cpu s => some (Classed.dequeue S cpu s)
  | .boost s prio => some (S.setStrand s (Rt.boostPrio (S.strand s) prio))
  | .unboost s => some (S.setStrand s (Rt.unboostPrio (S.strand s)))
  | .setPolicy here s p => some (strandSetPolicy S here s p).2
  | .admitPolicy here s p => some (strandAdmitPolicy S here s p).2
  | .releaseRt d s => some (Rt.releaseAdmission S d s)
  | .releaseDeadline here d s => some (Deadline.releaseAdmission S here d s)

/-- No step changes the class of a queued strand or the policy of a boosted one. -/
def ClassOp.Settled (S : System) : ClassOp → Prop
  | .enqueue _ _ => True
  | .dequeue _ _ => True
  | .boost s _ => (S.strand s).onRq = true → (S.strand s).admission.classId ≠ .deadline
  | .unboost s => (S.strand s).onRq = true → (S.strand s).admission.classId ≠ .deadline
  | .setPolicy _ s _ => (S.strand s).onRq = false ∧ (S.strand s).body.boostedPrio = 0
  | .admitPolicy _ s _ => (S.strand s).onRq = false ∧ (S.strand s).body.boostedPrio = 0
  | .releaseRt _ s => (S.strand s).onRq = false ∧ (S.strand s).body.boostedPrio = 0
  | .releaseDeadline _ _ s => (S.strand s).onRq = false ∧ (S.strand s).body.boostedPrio = 0

instance (S : System) : DecidablePred (ClassOp.Settled S) := fun op => by
  cases op <;> unfold ClassOp.Settled <;> infer_instance

/-! ## Policies, admissions and boosts -/

/-- Policy and admission agree, apart from a boost, which remembers the class they agreed on. -/
structure Coherent (st : Strand) : Prop where
  plain : st.body.boostedPrio = 0 → st.policy.classId = st.admission.classId
  boosted : st.body.boostedPrio ≠ 0 → st.policy.classId = .rt ∧
    st.policy.rtPriority = st.body.boostedPrio ∧ st.body.savedClass = st.admission.classId

variable {st : Strand} {S S' : System} {s : StrandId}

/-- A boost remembers the class that it leaves. -/
theorem Coherent.boost (h : Coherent st) {prio : Nat} : Coherent (Rt.boostPrio st prio) := by
  unfold Rt.boostPrio
  split
  · exact h
  by_cases hb : st.body.boostedPrio = 0
  · simp only [hb, if_true]
    split
    · rename_i hpos
      exact ⟨fun h0 => absurd h0 (by simpa using Nat.ne_of_gt hpos),
        fun _ => ⟨rfl, rfl, h.plain hb⟩⟩
    · exact ⟨fun _ => h.plain hb, fun hne => absurd rfl hne⟩
  · simp only [hb, if_false]
    split
    · rename_i hgt
      exact ⟨fun h0 => absurd h0 (by show prio ≠ 0; omega), fun _ => ⟨rfl, rfl, (h.boosted hb).2.2⟩⟩
    · exact h

theorem Coherent.unboost (h : Coherent st) : Coherent (Rt.unboostPrio st) := by
  unfold Rt.unboostPrio
  split
  · exact h
  · rename_i hb
    simp only [Bool.or_eq_true, beq_iff_eq, not_or] at hb
    exact ⟨fun _ => (h.boosted hb.2).2.2, fun hne => absurd rfl hne⟩

/-- Without a deadline admission the class follows from the admission. -/
theorem Coherent.classOf_eq (h : Coherent st) (hdl : st.admission.classId ≠ .deadline) :
    classOf st = if st.idle then .idle else if st.admission.classId = .rt then .rt else .fair := by
  unfold classOf
  by_cases hi : st.idle = true
  · simp [hi]
  rw [if_neg hi, if_neg hi, if_neg (c := st.policy.classId = .deadline ∧ _) fun h => hdl h.2]
  by_cases hb : st.body.boostedPrio = 0
  · rw [h.plain hb]
    simp
  · rw [(h.boosted hb).1]
    simp

theorem boostPrio_place {prio : Nat} :
    (Rt.boostPrio st prio).idle = st.idle ∧ (Rt.boostPrio st prio).onRq = st.onRq ∧
      (Rt.boostPrio st prio).lastQueued = st.lastQueued ∧
        (Rt.boostPrio st prio).lastRq = st.lastRq ∧
      (Rt.boostPrio st prio).admission = st.admission := by
  simp only [Rt.boostPrio]
  split_ifs <;> exact ⟨rfl, rfl, rfl, rfl, rfl⟩

theorem unboostPrio_place :
    (Rt.unboostPrio st).idle = st.idle ∧ (Rt.unboostPrio st).onRq = st.onRq ∧
      (Rt.unboostPrio st).lastQueued = st.lastQueued ∧ (Rt.unboostPrio st).lastRq = st.lastRq ∧
      (Rt.unboostPrio st).admission = st.admission := by
  unfold Rt.unboostPrio
  split_ifs <;> exact ⟨rfl, rfl, rfl, rfl, rfl⟩

theorem Coherent.of_edit {st' : Strand} (h : Coherent st) (hplace : SamePlace st st')
    (hclass : OneClass st st') (hb : st.body.boostedPrio = 0) : Coherent st' := by
  refine ⟨fun _ => ?_, fun hne => absurd (hplace.boostedPrio.trans hb) hne⟩
  rcases hclass with hone | ⟨hp, ha⟩
  · exact hone
  · rw [hp, ha]
    exact h.plain hb

/-! ## The invariant -/

/-- Every strand is coherent, and a queued one is queued under its class. -/
structure ClassInv (S : System) : Prop where
  coherent : ∀ s, Coherent (S.strand s)
  queued : ∀ s, (S.strand s).onRq = true → classOf (S.strand s) = (S.strand s).lastQueued ∧
    s ∈ (S.rq (S.strand s).lastRq).members (classOf (S.strand s))

theorem Coherent.moved {st' : Strand} (h : Coherent st) (hbody : st'.body = st.body)
    (hpolicy : st'.policy = st.policy) (hadm : st'.admission = st.admission) : Coherent st' := by
  obtain ⟨hplain, hboosted⟩ := h
  rw [← hbody, ← hpolicy, ← hadm] at hplain hboosted
  exact ⟨hplain, hboosted⟩

variable {cpu : CpuId} {k : SchedClassId}

theorem Enqueued.coherent (he : Enqueued S S' cpu s k) {t : StrandId}
    (h : Coherent (S.strand t)) : Coherent (S'.strand t) :=
  h.moved (he.field (·.body) (fun _ => rfl) t) (he.field (·.policy) (fun _ => rfl) t)
    (he.field (·.admission) (fun _ => rfl) t)

theorem Dequeued.coherent (hd : Dequeued S S' cpu s k) {t : StrandId}
    (h : Coherent (S.strand t)) : Coherent (S'.strand t) :=
  h.moved (hd.field (·.body) rfl t) (hd.field (·.policy) rfl t) (hd.field (·.admission) rfl t)

section

variable (h : ClassInv S)
include h

theorem ClassInv.enqueued (he : Enqueued S S' cpu s (classOf (S.strand s))) : ClassInv S' := by
  refine ⟨fun t => he.coherent (h.coherent t), fun t ht => ?_⟩
  by_cases hts : t = s
  · subst hts
    obtain ⟨se, hself⟩ := he.self
    rw [hself]
    exact ⟨rfl, (he.members _ t).mpr (.inr ⟨rfl, rfl⟩)⟩
  · rw [he.strand_of_ne hts] at ht ⊢
    exact ⟨(h.queued t ht).1, he.mem_members (h.queued t ht).2⟩

theorem ClassInv.dequeued (hd : Dequeued S S' cpu s k) : ClassInv S' := by
  refine ⟨fun t => hd.coherent (h.coherent t), fun t ht => ?_⟩
  by_cases hts : t = s
  · rw [hts, hd.self] at ht
    cases ht
  · rw [hd.strand_of_ne hts] at ht ⊢
    exact ⟨(h.queued t ht).1, hd.mem_members hts (h.queued t ht).2⟩

/-- One strand is written and stays where it is. -/
theorem ClassInv.rewrite (hother : ∀ t, t ≠ s → S'.strand t = S.strand t) (hrq : S'.rq = S.rq)
    (hcoherent : Coherent (S'.strand s)) (honRq : (S'.strand s).onRq = (S.strand s).onRq)
    (hlast : (S'.strand s).lastQueued = (S.strand s).lastQueued)
    (hlastRq : (S'.strand s).lastRq = (S.strand s).lastRq)
    (hclass : (S.strand s).onRq = true → classOf (S'.strand s) = classOf (S.strand s)) :
    ClassInv S' := by
  refine ⟨fun t => ?_, fun t ht => ?_⟩
  · by_cases hts : t = s
    · subst hts
      exact hcoherent
    · rw [hother t hts]
      exact h.coherent t
  · by_cases hts : t = s
    · subst hts
      rw [honRq] at ht
      rw [hrq, hclass ht, hlast, hlastRq]
      exact h.queued t ht
    · rw [hother t hts] at ht ⊢
      rw [hrq]
      exact h.queued t ht

theorem ClassInv.policyEdit (he : PolicyEdit S S' s)
    (hs : (S.strand s).onRq = false ∧ (S.strand s).body.boostedPrio = 0) : ClassInv S' :=
  h.rewrite he.other he.rq ((h.coherent s).of_edit he.place he.classes hs.2) he.place.onRq
    he.place.lastQueued he.place.lastRq fun hq => by rw [hs.1] at hq; cases hq

theorem ClassInv.boosted
    (hplace : st.idle = (S.strand s).idle ∧ st.onRq = (S.strand s).onRq ∧
      st.lastQueued = (S.strand s).lastQueued ∧ st.lastRq = (S.strand s).lastRq ∧
      st.admission = (S.strand s).admission) (hcoherent : Coherent st)
    (hop : (S.strand s).onRq = true → (S.strand s).admission.classId ≠ .deadline) :
    ClassInv (S.setStrand s st) := by
  obtain ⟨hidle, honRq, hlast, hlastRq, hadm⟩ := hplace
  refine h.rewrite (s := s) (fun t ht => by simp [update_of_ne ht]) rfl (by simpa using hcoherent)
    (by simpa using honRq) (by simpa using hlast) (by simpa using hlastRq) fun hq => ?_
  rw [System.setStrand_self, hcoherent.classOf_eq (by rw [hadm]; exact hop hq),
    (h.coherent s).classOf_eq (hop hq), hidle, hadm]

theorem ClassInv.step {op : ClassOp} (hop : op.Settled S) (hnext : op.next S = some S') :
    ClassInv S' := by
  cases op with
  | enqueue cpu s =>
    rcases Classed.enqueue_ok (toOption_ok (r := Classed.enqueue S cpu s) hnext) with
      ⟨rfl, _⟩ | ⟨_, he⟩
    · exact h
    · exact h.enqueued he
  | dequeue cpu s =>
    cases hnext
    exact Classed.dequeue_rule h fun _ => h.dequeued
  | boost s prio =>
    cases hnext
    exact h.boosted boostPrio_place ((h.coherent s).boost) hop
  | unboost s =>
    cases hnext
    exact h.boosted unboostPrio_place (h.coherent s).unboost hop
  | setPolicy here s p =>
    cases hnext
    exact h.policyEdit strandSetPolicy_edit hop
  | admitPolicy here s p =>
    cases hnext
    exact h.policyEdit strandAdmitPolicy_edit.1 hop
  | releaseRt d s =>
    cases hnext
    exact h.policyEdit Rt.releaseAdmission_edit hop
  | releaseDeadline here d s =>
    cases hnext
    exact h.policyEdit Deadline.releaseAdmission_edit hop

end

open Classed Sched.System

/-- What the records of a strand's whereabouts say together. -/
structure OnePlace (S : System) : Prop where
  once : ∀ c, (S.rq c).linked.Nodup
  home : ∀ c s, s ∈ (S.rq c).linked → (S.strand s).onRq = true ∧ (S.strand s).cpu = c
  queued : ∀ s, (S.strand s).onRq = true → s ∈ (S.rq (S.strand s).cpu).linked
  running : ∀ c s, (S.rq c).curr = some s → (S.strand s).idle = false →
    (∀ c', s ∉ (S.rq c').linked) ∧ ∀ c', (S.rq c').curr = some s → c' = c
  counted : ∀ c, (S.rq c).nrRunning = (S.rq c).linked.length

/-- `schedule` would take the strand that it has just queued again. -/
def reselects (S : System) (cpu : CpuId) : Bool :=
  match (S.rq cpu).curr, requeuePrev S cpu with
  | some prev, .ok S' => selectWork S' cpu == some prev
  | _, _ => false

/-- `schedule` would find no work and go to the busiest CPU. -/
def steals (S : System) (cpu : CpuId) (busiest : Option CpuId) : Bool :=
  match requeuePrev S cpu with
  | .error _ => false
  | .ok S' => (selectWork S' cpu).isNone && S'.initialized && busiest.isSome

/-- The strand is not queued, and no CPU runs it. -/
def Asleep (S : System) (s : StrandId) : Prop :=
  (S.strand s).onRq = false ∧ ∀ c ∈ S.cpus, (S.rq c).curr ≠ some s

instance (S : System) (s : StrandId) : Decidable (Asleep S s) := inferInstanceAs (Decidable (_ ∧ _))

/-- None of the four accidents happens in this step, and no queued strand changes class. -/
def SchedOp.Orderly (S : System) : SchedOp → Prop
  | .enqueueStrand s | .wake s => Asleep S s
  | .schedule cpu busiest => reselects S cpu = false ∧ steals S cpu busiest = false
  | .balance cpu src attachOk => balanceCandidate S cpu src attachOk = none
  | .boost s _ | .unboost s => (S.strand s).onRq = true → (S.strand s).admission.classId ≠ .deadline
  | .setPolicy _ s _ => (S.strand s).onRq = false ∧ (S.strand s).body.boostedPrio = 0
  | .create s _ _ => Asleep S s ∧ ∀ c ∈ S.cpus, (S.rq c).idleStrand ≠ some s
  | _ => True

instance (S : System) : DecidablePred (SchedOp.Orderly S) := fun op => by
  cases op <;> unfold SchedOp.Orderly <;> infer_instance

/-! ## The invariant, with one CPU's current strand left out -/

/-- `OnePlace`, but for the current strand of the CPU that is in `schedule`. -/
structure Placed (S : System) (skip : Option CpuId) : Prop where
  once : ∀ c, (S.rq c).linked.Nodup
  home : ∀ c s, s ∈ (S.rq c).linked → (S.strand s).onRq = true ∧ (S.strand s).cpu = c
  queued : ∀ s, (S.strand s).onRq = true → s ∈ (S.rq (S.strand s).cpu).linked
  counted : ∀ c, (S.rq c).nrRunning = (S.rq c).linked.length
  byClass : ∀ c s, s ∈ (S.rq c).linked → s ∈ (S.rq c).members (classOf (S.strand s))
  work : ∀ c s, s ∈ (S.rq c).linked → (S.strand s).idle = false
  coherent : ∀ s, Coherent (S.strand s)
  idles : ∀ c i, (S.rq c).idleStrand = some i → (S.strand i).idle = true
  unlinked : ∀ c s, skip ≠ some c → (S.rq c).curr = some s → (S.strand s).onRq = false
  running : ∀ c s, skip ≠ some c → (S.rq c).curr = some s → (S.strand s).idle = false →
    (S.strand s).cpu = c
  offline : ∀ c, c ∉ S.cpus → (S.rq c).curr = none ∧ (S.rq c).idleStrand = none ∧ skip ≠ some c
  stealing : ∀ c, S.stealing c = none

variable {S S' : System} {cpu : CpuId} {skip : Option CpuId} {s : StrandId} {st : Strand}

theorem Placed.onePlace (h : Placed S none) : OnePlace S where
  once := h.once
  home := h.home
  queued := h.queued
  counted := h.counted
  running c s hcurr hidle := by
    refine ⟨fun c' hmem => ?_, fun c' hcurr' => ?_⟩
    · have := (h.home c' s hmem).1
      rw [h.unlinked c s nofun hcurr] at this
      cases this
    · exact (h.running c' s nofun hcurr' hidle).symm.trans (h.running c s nofun hcurr hidle)

/-- A CPU enters `schedule`. -/
theorem Placed.weaken (h : Placed S none) (hcpu : cpu ∈ S.cpus) : Placed S (some cpu) :=
  { h with
    unlinked := fun c s _ => h.unlinked c s nofun
    running := fun c s _ => h.running c s nofun
    offline := fun c hc =>
      ⟨(h.offline c hc).1, (h.offline c hc).2.1, fun heq => hc (Option.some.inj heq ▸ hcpu)⟩ }

theorem Placed.shelved (h : Placed S skip) : Shelved S := { h with }

/-- Nothing that records a place has changed, and no queued strand its class. -/
structure SamePlaces (S S' : System) : Prop where
  strand : ∀ t, (S'.strand t).onRq = (S.strand t).onRq ∧ (S'.strand t).cpu = (S.strand t).cpu ∧
    (S'.strand t).idle = (S.strand t).idle
  coherent : ∀ t, Coherent (S.strand t) → Coherent (S'.strand t)
  classes : ∀ t, Coherent (S.strand t) → (S.strand t).onRq = true →
    classOf (S'.strand t) = classOf (S.strand t)
  members : ∀ c k, (S'.rq c).members k = (S.rq c).members k
  rest : ∀ c, (S'.rq c).nrRunning = (S.rq c).nrRunning ∧ (S'.rq c).curr = (S.rq c).curr ∧
    (S'.rq c).idleStrand = (S.rq c).idleStrand
  cpus : S'.cpus = S.cpus
  stealing : S'.stealing = S.stealing

theorem SamePlaces.linked (h : SamePlaces S S') (c : CpuId) :
    (S'.rq c).linked = (S.rq c).linked := RunQueue.linked_congr (h.members c)

theorem Placed.same (h : Placed S skip) (hs : SamePlaces S S') : Placed S' skip :=
  { h.shelved.same (fun t => ⟨(hs.strand t).1, (hs.strand t).2.1⟩)
    (fun t => hs.classes t (h.coherent t))
      hs.linked hs.members with
    counted := fun c => by rw [(hs.rest c).1, hs.linked]; exact h.counted c
    work := fun c s hmem => by
      rw [hs.linked] at hmem
      rw [(hs.strand s).2.2]
      exact h.work c s hmem
    coherent := fun s => hs.coherent s (h.coherent s)
    idles := fun c i hi => by
      rw [(hs.rest c).2.2] at hi
      rw [(hs.strand i).2.2]
      exact h.idles c i hi
    unlinked := fun c s hc hcurr => by
      rw [(hs.rest c).2.1] at hcurr
      rw [(hs.strand s).1]
      exact h.unlinked c s hc hcurr
    running := fun c s hc hcurr hidle => by
      rw [(hs.rest c).2.1] at hcurr
      rw [(hs.strand s).2.2] at hidle
      rw [(hs.strand s).2.1]
      exact h.running c s hc hcurr hidle
    offline := fun c hc => by
      rw [hs.cpus] at hc
      rw [(hs.rest c).2.1, (hs.rest c).2.2]
      exact h.offline c hc
    stealing := fun c => by rw [hs.stealing]; exact h.stealing c }

theorem Placed.enqueued (h : Placed S skip) (he : Enqueued S S' cpu s (classOf (S.strand s)))
    (hcpu : (S.strand s).cpu = cpu) (hidle : (S.strand s).idle = false)
    (hoff : (S.strand s).onRq = false) (hrun : ∀ c, skip ≠ some c → (S.rq c).curr ≠ some s) :
    Placed S' skip := by
  have hidleEq := he.field (·.idle) fun _ => rfl
  refine
    { h.shelved.enqueued he hcpu hoff with
      counted := fun c => ?_, work := fun c t hmem => ?_, coherent := fun t =>
        he.coherent (h.coherent t)
      idles := fun c i hi => ?_, unlinked := fun c t hc ht => ?_, running := fun c t hc ht hi => ?_
      offline := fun c hc => ?_, stealing := fun c =>
        (congrFun he.stealing c).trans (h.stealing c) }
  · by_cases hc : c = cpu
    · subst hc
      rw [he.nrRunning, he.linked.length_eq, List.length_cons, h.counted c]
    · rw [he.other c hc]
      exact h.counted c
  · rw [hidleEq]
    rcases he.mem_linked.mp hmem with hold | ⟨rfl, rfl⟩
    · exact h.work c t hold
    · exact hidle
  · rw [hidleEq]
    exact h.idles c i ((he.runs c).2 ▸ hi)
  · rw [(he.runs c).1] at ht
    rw [he.strand_of_ne fun heq => hrun c hc (heq ▸ ht)]
    exact h.unlinked c t hc ht
  · rw [(he.runs c).1] at ht
    rw [he.strand_of_ne fun heq => hrun c hc (heq ▸ ht)] at hi ⊢
    exact h.running c t hc ht hi
  · rw [(he.runs c).1, (he.runs c).2]
    exact h.offline c (he.cpus ▸ hc)

theorem Placed.dequeued (h : Placed S skip) (hd : Dequeued S S' cpu s (classOf (S.strand s)))
    (hcpu : (S.strand s).cpu = cpu) : Placed S' skip ∧ ∀ c, s ∉ (S'.rq c).linked := by
  have hmem := h.shelved.mem_dequeued hd hcpu
  have hidleEq := hd.field (·.idle) rfl
  refine ⟨
    { h.shelved.dequeued hd hcpu with
      counted := fun c => ?_, work := fun c t ht => ?_, coherent := fun t =>
        hd.coherent (h.coherent t)
      idles := fun c i hi => ?_, unlinked := fun c t hc ht => ?_, running := fun c t hc ht hi => ?_
      offline := fun c hc => ?_, stealing := fun c =>
        (congrFun hd.stealing c).trans (h.stealing c) },
    fun c hmem' => ((hmem c s).mp hmem').2 rfl⟩
  · by_cases hc : c = cpu
    · subst hc
      have hlen := (h.shelved.perm_dequeued hd hcpu).length_eq
      rw [List.length_cons] at hlen
      rw [hd.nrRunning (by rw [h.counted, hlen]; exact Nat.succ_pos _), h.counted, hlen]
      rfl
    · rw [hd.other c hc]
      exact h.counted c
  · rw [hidleEq]
    exact h.work c t ((hmem c t).mp ht).1
  · rw [hidleEq]
    exact h.idles c i ((hd.runs c).2 ▸ hi)
  · rw [(hd.runs c).1] at ht
    have hts : t ≠ s := by
      rintro rfl
      have := h.unlinked c t hc ht
      rw [hd.queued] at this
      cases this
    rw [hd.strand_of_ne hts]
    exact h.unlinked c t hc ht
  · rw [hd.field (·.cpu) rfl]
    exact h.running c t hc ((hd.runs c).1 ▸ ht) (hidleEq t ▸ hi)
  · rw [(hd.runs c).1, (hd.runs c).2]
    exact h.offline c (hd.cpus ▸ hc)

/-- The switch itself. -/
theorem Placed.setCurr (h : Placed S (some cpu))
    (hoff : (S.strand s).onRq = false) (hcpu : (S.strand s).idle = false → (S.strand s).cpu = cpu) :
    Placed (S.setRq cpu { S.rq cpu with curr := some s }) none := by
  have hrq : ∀ c, ((S.setRq cpu { S.rq cpu with curr := some s }).rq c).curr =
      if c = cpu then some s else (S.rq c).curr := by
    intro c
    by_cases hc : c = cpu
    · subst hc
      simp
    · simp [hc]
  have hsame : ∀ c, (S.setRq cpu { S.rq cpu with curr := some s }).rq c =
      { S.rq c with curr := ((S.setRq cpu { S.rq cpu with curr := some s }).rq c).curr } := by
    intro c
    by_cases hc : c = cpu
    · subst hc
      simp
    · simp [update_of_ne hc]
  have hne : ∀ c, c ≠ cpu → (some cpu : Option CpuId) ≠ some c :=
    fun c hc heq => hc (Option.some.inj heq).symm
  refine
    { h.shelved.setCurr with
      counted := fun c => ?_, work := fun c t ht => ?_, coherent := h.coherent,
        idles := fun c i hi => ?_
      unlinked := fun c t _ ht => ?_, running := fun c t _ ht hi => ?_, offline := fun c hc => ?_
      stealing := h.stealing }
  · rw [hsame]
    exact h.counted c
  · rw [hsame] at ht
    exact h.work c t ht
  · rw [hsame] at hi
    exact h.idles c i hi
  · rw [hrq] at ht
    split at ht
    · cases ht
      exact hoff
    · rename_i hc
      exact h.unlinked c t (hne c hc) ht
  · rw [hrq] at ht
    split at ht
    · rename_i hc
      cases ht
      exact (hcpu hi).trans hc.symm
    · rename_i hc
      exact h.running c t (hne c hc) ht hi
  · obtain ⟨hcurr, hidle, hskip⟩ := h.offline c hc
    rw [hrq, if_neg fun heq => hskip (congrArg some heq.symm), hsame]
    exact ⟨hcurr, hidle, nofun⟩

/-! ## Steps that write no place -/

/-- Only the accounting side of a strand differs. -/
def Accounts (st st' : Strand) : Prop :=
  ∃ substate se body, st' = { st with substate, se, body } ∧
    body.boostedPrio = st.body.boostedPrio ∧ body.savedClass = st.body.savedClass

theorem Accounts.refl : Accounts st st := ⟨_, _, _, rfl, rfl, rfl⟩

/-- Only clocks and bandwidth of a queue differ. -/
def QueueAccounts (rq rq' : RunQueue) : Prop :=
  ∃ minVruntime rtBw, rq' = { rq with minVruntime, rtBw }

variable {rq : RunQueue}

theorem QueueAccounts.refl : QueueAccounts rq rq := ⟨_, _, rfl⟩

/-- Times, budgets and counters are no places. -/
theorem SamePlaces.of_accounts (hstrand : ∀ t, Accounts (S.strand t) (S'.strand t))
    (hrq : ∀ c, QueueAccounts (S.rq c) (S'.rq c)) (hcpus : S'.cpus = S.cpus)
    (hsteal : S'.stealing = S.stealing) : SamePlaces S S' where
  strand t := by
    obtain ⟨_, _, _, heq, _⟩ := hstrand t
    rw [heq]
    exact ⟨rfl, rfl, rfl⟩
  coherent t h := by
    obtain ⟨_, _, _, heq, hb, hsaved⟩ := hstrand t
    rw [heq]
    exact ⟨fun h0 => h.plain (hb ▸ h0), fun hne => by
      show _ ∧ _ = _ ∧ _ = _
      rw [hb, hsaved]
      exact h.boosted (hb ▸ hne)⟩
  classes t _ _ := by
    obtain ⟨_, _, _, heq, _⟩ := hstrand t
    rw [heq]
    rfl
  members c k := by
    obtain ⟨_, _, heq⟩ := hrq c
    rw [heq]
    cases k <;> rfl
  rest c := by
    obtain ⟨_, _, heq⟩ := hrq c
    rw [heq]
    exact ⟨rfl, rfl, rfl⟩
  cpus := hcpus
  stealing := hsteal

theorem accounts_update (h : Accounts (S.strand s) st)
    (t : StrandId) : Accounts (S.strand t) (update S.strand s st t) := by
  by_cases ht : t = s
  · subst ht
    rw [update_self]
    exact h
  · rw [update_of_ne ht]
    exact .refl

theorem queueAccounts_update (h : QueueAccounts (S.rq cpu) rq) (c : CpuId) :
    QueueAccounts (S.rq c) (update S.rq cpu rq c) := by
  by_cases hc : c = cpu
  · subst hc
    rw [update_self]
    exact h
  · rw [update_of_ne hc]
    exact .refl

theorem samePlaces_setStrand (h : Accounts (S.strand s) st) : SamePlaces S (S.setStrand s st) :=
  .of_accounts (accounts_update h) (fun _ => .refl) rfl rfl

theorem samePlaces_both (h : Accounts (S.strand s) st) (hq : QueueAccounts (S.rq cpu) rq) :
    SamePlaces S ((S.setStrand s st).setRq cpu rq) :=
  .of_accounts (accounts_update h) (queueAccounts_update hq) rfl rfl

/-- The tick of a strand that runs and is not queued. -/
theorem tick_samePlaces (hoff : (S.strand s).onRq = false) : SamePlaces S (tick S cpu s) := by
  have hrefl : SamePlaces S S := .of_accounts (fun _ => .refl) (fun _ => .refl) rfl rfl
  unfold tick
  split
  · unfold Deadline.tick
    split
    · exact hrefl
    -- the dequeue of the exhausted strand finds nothing to do
    have hnoop : ∀ S' : System, (S'.strand s).onRq = false → Deadline.dequeue S' cpu s = S' :=
      fun S' h => by simp [Deadline.dequeue, h]
    simp only
    rw [hnoop _ (by simpa using hoff), ite_self]
    exact samePlaces_setStrand ⟨_, _, _, rfl, rfl, rfl⟩
  · exact hrefl
  · unfold Rt.tick
    split
    · exact hrefl
    have hnoop : ∀ S' : System, (S'.strand s).onRq = false → Rt.dequeue S' cpu s = S' :=
      fun S' h => by simp [Rt.dequeue, h]
    simp only
    rw [hnoop _ (by simpa using hoff), ite_self, ite_self]
    exact samePlaces_both ⟨_, _, _, rfl, rfl, rfl⟩ ⟨_, _, rfl⟩
  · exact samePlaces_both ⟨_, _, _, rfl, rfl, rfl⟩ ⟨_, _, rfl⟩

theorem Placed.park (h : Placed S skip) (hcpu : (S.strand s).idle = false →
    (S.strand s).cpu = cpu) :
    Placed (parkRevoked S cpu s) skip := by
  have hdeq : Placed (dequeue S cpu s) skip :=
    dequeue_rule h fun _ hd => (h.dequeued hd (hcpu (h.work _ s (h.queued s hd.queued)))).1
  exact hdeq.same (samePlaces_setStrand ⟨_, _, _, rfl, rfl, rfl⟩)

theorem Placed.renew (h : Placed S none)
    (hoff : (S.strand s).onRq = false) (hst : st.onRq = false) (hcoh : Coherent st)
    (hcurr : ∀ c, (S.rq c).curr ≠ some s) (hidle : ∀ c, (S.rq c).idleStrand ≠ some s) :
    Placed (S.setStrand s st) none := by
  have hrest : ∀ t, t ≠ s → (S.setStrand s st).strand t = S.strand t := fun t ht => by
    simp [update_of_ne ht]
  refine
    { h.shelved.renew st hoff hst with
      counted := h.counted, work := fun c t ht => ?_, coherent := fun t => ?_
      idles := fun c i hi => ?_, unlinked := fun c t hc ht => ?_, running := fun c t hc ht hi => ?_
      offline := h.offline, stealing := h.stealing }
  · rw [hrest t (h.shelved.ne_of_linked hoff ht)]
    exact h.work c t ht
  · by_cases ht : t = s
    · rw [ht, setStrand_self]
      exact hcoh
    · rw [hrest t ht]
      exact h.coherent t
  · rw [hrest i fun heq => hidle c (heq ▸ hi)]
    exact h.idles c i hi
  · have hts : t ≠ s := fun heq => hcurr c (heq ▸ ht)
    rw [hrest t hts]
    exact h.unlinked c t hc ht
  · have hts : t ≠ s := fun heq => hcurr c (heq ▸ ht)
    rw [hrest t hts] at hi ⊢
    exact h.running c t hc ht hi

theorem Placed.enqueue (h : Placed S skip) (hcpu : (S.strand s).idle = false →
    (S.strand s).cpu = cpu)
    (hoff : (S.strand s).onRq = false)
    (hrun : (S.strand s).idle = false → ∀ c, skip ≠ some c → (S.rq c).curr ≠ some s)
    (hok : enqueue S cpu s = .ok S') : Placed S' skip := by
  rcases enqueue_ok hok with ⟨rfl, _⟩ | ⟨hidle, he⟩
  · exact h
  · exact h.enqueued he (hcpu hidle) hidle hoff (hrun hidle)

/-- A strand that sleeps runs nowhere. -/
theorem Placed.asleep (h : Placed S none) (hs : Asleep S s) (c : CpuId) :
    (S.rq c).curr ≠ some s := by
  by_cases hc : c ∈ S.cpus
  · exact hs.2 c hc
  · rw [(h.offline c hc).1]
    nofun

/-! ## The switch -/

theorem Placed.idle_unqueued (h : Placed S skip)
    (hidle : (S.strand s).idle = true) : (S.strand s).onRq = false := by
  cases hq : (S.strand s).onRq with
  | false => rfl
  | true =>
    have := h.work _ s (h.queued s hq)
    rw [hidle] at this
    cases this

/-- It leaves with the strand that it runs. -/
theorem Placed.close (h : Placed S (some cpu))
    (hcurr : (S.rq cpu).curr = some s) (hoff : (S.strand s).onRq = false)
    (hcpu : (S.strand s).idle = false → (S.strand s).cpu = cpu) : Placed S none := by
  have hself : S.setRq cpu { S.rq cpu with curr := some s } = S := by
    rw [← hcurr]
    show { S with rq := update S.rq cpu (S.rq cpu) } = S
    rw [update_eq_self]
  exact hself ▸ h.setCurr hoff hcpu

/-- The strand that ran goes back to its queue. -/
theorem requeuePrev_placed {S₁ : System} (h : Placed S none) (hcpu : cpu ∈ S.cpus)
    (hok : requeuePrev S cpu = .ok S₁) : Placed S₁ (some cpu) ∧
      (S₁.rq cpu).curr = (S.rq cpu).curr := by
  rcases requeuePrev_ok hok with rfl | ⟨prev, hprev, hre, henq⟩
  · exact ⟨h.weaken hcpu, rfl⟩
  have hrunnable : Placed (S.setStrand prev { S.strand prev with substate := .runnable })
    (some cpu) :=
    (h.weaken hcpu).same (samePlaces_setStrand ⟨_, _, _, rfl, rfl, rfl⟩)
  refine ⟨hrunnable.enqueue (fun hidle => ?_) ?_ (fun hidle c hc hcurr => ?_) henq, ?_⟩
  · rw [setStrand_self] at hidle ⊢
    exact h.running cpu prev nofun hprev hidle
  · rw [setStrand_self]
    exact onRq_of_requeues hre
  · -- a strand is current on one CPU only
    rw [setStrand_self] at hidle
    have hhere := h.running cpu prev nofun hprev hidle
    have hthere := h.running c prev nofun hcurr hidle
    exact hc (congrArg some (hhere.symm.trans hthere))
  · rcases enqueue_ok henq with ⟨rfl, _⟩ | ⟨_, he⟩
    · rfl
    · exact he.curr

variable {idle : StrandId}

theorem switchTo_placed (h : Placed S (some cpu)) (hs : s ∈ (S.rq cpu).linked)
    (hidle : (S.strand idle).idle = true) : Placed (switchTo S cpu idle s) none := by
  have hwork := h.work cpu s hs
  obtain ⟨hq, hcpu⟩ := h.home cpu s hs
  have hne : s ≠ idle := by
    rintro rfl
    rw [hwork] at hidle
    cases hidle
  have hdeq : Dequeued S (dequeue S cpu s) cpu s (classOf (S.strand s)) := by
    rcases dequeue_cases with ⟨hno, _⟩ | hd
    · rw [hq, hwork] at hno
      rcases hno with hno | hno <;> cases hno
    · exact hd
  have hout := (h.dequeued hdeq hcpu).1
  have hself : (dequeue S cpu s).strand s = { S.strand s with onRq := false } := by
    rw [hdeq.strand, update_self]
  unfold switchTo
  simp only [if_neg hne, hq, if_true]
  refine (hout.same (samePlaces_setStrand (s := s) ⟨_, _, _, rfl, rfl, rfl⟩)).setCurr ?_ fun _ => ?_
  · rw [setStrand_self, hself]
  · rw [setStrand_self, hself]
    exact hcpu

theorem parkRevoked_curr : ((parkRevoked S cpu s).rq cpu).curr = (S.rq cpu).curr := by
  unfold parkRevoked
  exact dequeue_rule rfl fun _ hd => hd.curr

theorem parkRevoked_idle {t : StrandId} :
    ((parkRevoked S cpu s).strand t).idle = (S.strand t).idle := by
  have hdeq : ((dequeue S cpu s).strand t).idle = (S.strand t).idle :=
    dequeue_rule rfl fun _ hd => hd.field (·.idle) rfl t
  rw [← hdeq]
  unfold parkRevoked
  by_cases ht : t = s
  · subst ht
    rw [setStrand_self]
  · rw [setStrand_strand, update_of_ne ht]

theorem Placed.toIdle {prev : Option StrandId} (h : Placed S (some cpu))
    (hidle : (S.strand idle).idle = true) (hcurr : (S.rq cpu).curr = prev)
    (hres : Resumes S S' cpu prev idle idle) : Placed S' none := by
  have hoff := h.idle_unqueued hidle
  have hflag : (S.strand idle).idle = false → (S.strand idle).cpu = cpu := fun hno => by
    rw [hidle] at hno
    cases hno
  rcases hres with ⟨hprev, rfl⟩ | ⟨_, rfl⟩
  · rw [if_pos rfl]
    exact h.close (hcurr.trans hprev) hoff hflag
  · unfold switchTo
    rw [if_pos rfl]
    exact h.setCurr hoff hflag

theorem runNext_placed {prev next : Option StrandId}
    (h : Placed S (some cpu)) (hcurr : (S.rq cpu).curr = prev)
    (hnext : ∀ s, next = some s → s ∈ (S.rq cpu).linked ∧ prev ≠ some s)
    (hok : runNext S cpu prev next = .ok S') : Placed S' none := by
  obtain ⟨idle, hidleStrand, hres | ⟨s, hs, _, hres⟩ | ⟨s, hs, hres⟩⟩ := runNext_ok hok
  · exact h.toIdle (h.idles cpu idle hidleStrand) hcurr hres
  · have hpark : Placed (parkRevoked S cpu s) (some cpu) :=
      h.park fun _ => (h.home cpu s (hnext s hs).1).2
    refine hpark.toIdle ?_ (parkRevoked_curr.trans hcurr) hres
    rw [parkRevoked_idle]
    exact h.idles cpu idle hidleStrand
  · rcases hres with ⟨hprev, _⟩ | ⟨_, rfl⟩
    · exact absurd hprev (hnext s hs).2
    · exact switchTo_placed h (hnext s hs).1 (h.idles cpu idle hidleStrand)

theorem schedule_placed {busiest : Option CpuId} (h : Placed S none)
    (hcpu : cpu ∈ S.cpus) (hres : reselects S cpu = false) (hsteal : steals S cpu busiest = false)
    (hok : schedule S cpu busiest = .ok S') : Placed S' none := by
  obtain ⟨S₁, hreq, hrun | ⟨b, rfl, hsel, hinit, _⟩⟩ := schedule_ok hok
  · obtain ⟨h₁, hcurr⟩ := requeuePrev_placed h hcpu hreq
    refine runNext_placed h₁ hcurr (fun t ht => ⟨selectWork_mem ht, fun hprev => ?_⟩) hrun
    simp [reselects, hreq, hprev, ht] at hres
  · simp [steals, hreq, hsel, hinit] at hsteal

/-! ## The other steps -/

theorem SamePlaces.rewrite (hother : ∀ t, t ≠ s → S'.strand t = S.strand t)
    (hplace : (S'.strand s).onRq = (S.strand s).onRq ∧ (S'.strand s).cpu = (S.strand s).cpu ∧
      (S'.strand s).idle = (S.strand s).idle) (hcoherent : Coherent (S.strand s) →
        Coherent (S'.strand s))
    (hclass : Coherent (S.strand s) → (S.strand s).onRq = true →
      classOf (S'.strand s) = classOf (S.strand s))
    (hrq : S'.rq = S.rq) (hcpus : S'.cpus = S.cpus) (hsteal : S'.stealing = S.stealing) :
    SamePlaces S S' where
  strand t := by
    by_cases ht : t = s
    · subst ht
      exact hplace
    · rw [hother t ht]
      exact ⟨rfl, rfl, rfl⟩
  coherent t h := by
    by_cases ht : t = s
    · subst ht
      exact hcoherent h
    · rw [hother t ht]
      exact h
  classes t h hq := by
    by_cases ht : t = s
    · subst ht
      exact hclass h hq
    · rw [hother t ht]
  members c k := by rw [hrq]
  rest c := by
    rw [hrq]
    exact ⟨rfl, rfl, rfl⟩
  cpus := hcpus
  stealing := hsteal

theorem samePlaces_policyEdit (he : PolicyEdit S S' s)
    (hs : (S.strand s).onRq = false ∧ (S.strand s).body.boostedPrio = 0) : SamePlaces S S' :=
  .rewrite he.other ⟨he.place.onRq, he.place.cpu, he.place.idle⟩
    (fun h => h.of_edit he.place he.classes hs.2)
    (fun _ hq => by rw [hs.1] at hq; cases hq) he.rq he.cpus he.stealing

theorem samePlaces_boost (hplace : st.idle = (S.strand s).idle ∧ st.onRq = (S.strand s).onRq ∧
      st.admission = (S.strand s).admission) (hcpu : st.cpu = (S.strand s).cpu)
    (hcoherent : Coherent (S.strand s) → Coherent st)
    (hdl : (S.strand s).onRq = true → (S.strand s).admission.classId ≠ .deadline) :
    SamePlaces S (S.setStrand s st) := by
  obtain ⟨hidle, honRq, hadm⟩ := hplace
  have hself : (S.setStrand s st).strand s = st := by simp
  refine .rewrite (s := s) (fun t ht => by simp [update_of_ne ht]) ?_ ?_ ?_ rfl rfl rfl
  · rw [hself]
    exact ⟨honRq, hcpu, hidle⟩
  · rw [hself]
    exact hcoherent
  · intro hcoh hq
    rw [hself, (hcoherent hcoh).classOf_eq (by rw [hadm]; exact hdl hq), hcoh.classOf_eq (hdl hq),
      hidle, hadm]

theorem currentWork_curr (h : currentWork S cpu = some s) : (S.rq cpu).curr = some s := by
  unfold currentWork at h
  split at h
  · cases h
  rename_i t hcurr
  split at h
  · cases h
  · cases h
    exact hcurr

section

variable (h : Placed S none)
include h

theorem schedulerTick_placed : Placed (schedulerTick S cpu) none := by
  unfold schedulerTick
  split
  · exact h
  split
  · exact h
  rename_i s hwork
  have hcurr := currentWork_curr hwork
  have hsame : SamePlaces S (tick S cpu s) := tick_samePlaces (h.unlinked cpu s nofun hcurr)
  have htick := h.same hsame
  simp only
  split
  · refine htick.park fun hidle => ?_
    rw [(hsame.strand s).2.2] at hidle
    rw [(hsame.strand s).2.1]
    exact h.running cpu s nofun hcurr hidle
  · exact htick

theorem cpuTimerTick_placed {elapsed : Nat} : Placed (cpuTimerTick S cpu elapsed) none := by
  unfold cpuTimerTick
  split
  · exact h
  split
  · exact h
  · exact h.same (samePlaces_both ⟨_, _, _, rfl, rfl, rfl⟩ ⟨_, _, rfl⟩)

/-- The running strand is queued nowhere, so blocking it is a note in its substate. -/
theorem blockCurrent_placed {substate : SchedSubstate} :
    Placed (blockCurrent S cpu substate) none := by
  unfold blockCurrent
  split
  · exact h
  rename_i s hcurr
  rw [h.unlinked cpu s nofun hcurr, if_neg (fun hb => by cases hb.2)]
  exact h.same (samePlaces_setStrand ⟨_, _, _, rfl, rfl, rfl⟩)

theorem trampolineExit_placed : Placed (trampolineExit S cpu) none := by
  unfold trampolineExit
  split
  · exact h
  rename_i s hcurr
  refine h.same (samePlaces_setStrand
    ⟨(S.strand s).substate, (S.strand s).se, (S.strand s).body, ?_, rfl, rfl⟩)
  rw [← h.unlinked cpu s nofun hcurr]

theorem dequeueStrand_placed : Placed (dequeueStrand S s) none := by
  unfold dequeueStrand
  exact dequeue_rule h fun _ hd => (h.dequeued hd rfl).1

theorem enqueueStrand_placed (hs : Asleep S s) (hok : enqueueStrand S s = .ok S') :
    Placed S' none := by
  unfold enqueueStrand at hok
  split at hok
  · cases hok
  · rename_i S₁ henq
    cases hok
    exact h.enqueue (fun _ => rfl) hs.1 (fun _ c _ => h.asleep hs c) henq

theorem wakeStrand_placed (hs : Asleep S s) (hok : wakeStrand S s = .ok S') : Placed S' none := by
  refine enqueueStrand_placed (h.same (samePlaces_setStrand ⟨_, _, _, rfl, rfl, rfl⟩))
    ⟨?_, hs.2⟩ hok
  rw [setStrand_self]
  exact hs.1

theorem strandCreate_placed (hs : Asleep S s)
    (hidle : ∀ c ∈ S.cpus, (S.rq c).idleStrand ≠ some s) {owner : DomainId} :
    Placed (strandCreate S s owner cpu) none := by
  have hrenew : Placed (S.setStrand s { owner := some owner, substate := .runnable, cpu })
      none := h.renew hs.1 rfl ⟨fun _ => rfl, fun hne => absurd rfl hne⟩ (h.asleep hs) (fun c => ?_)
  · exact hrenew.same ⟨fun _ => ⟨rfl, rfl, rfl⟩, fun _ h => h, fun _ _ _ => rfl, fun _ _ => rfl,
      fun _ => ⟨rfl, rfl, rfl⟩, rfl, rfl⟩
  by_cases hc : c ∈ S.cpus
  · exact hidle c hc
  · rw [(h.offline c hc).2.1]
    nofun

end

theorem onCpu_ok {r : Except Halt System} (h : S.onCpu cpu r = some S') :
    cpu ∈ S.cpus ∧ r = .ok S' := by
  unfold onCpu at h
  split at h
  · rename_i hcpu
    cases r with
    | error e => cases h
    | ok S₁ =>
      cases h
      exact ⟨hcpu.1, rfl⟩
  · cases h

theorem Placed.step {op : SchedOp} (h : Placed S none) (hop : op.Orderly S)
    (hnext : op.next S = some S') : Placed S' none := by
  cases op with
  | enqueueStrand s => exact enqueueStrand_placed h hop (toOption_ok hnext)
  | dequeueStrand s =>
    cases hnext
    exact dequeueStrand_placed h
  | schedule cpu busiest =>
    obtain ⟨hcpu, hok⟩ := onCpu_ok hnext
    exact schedule_placed h hcpu hop.1 hop.2 hok
  | finishSchedule cpu =>
    -- an orderly `schedule` leaves no second half
    have hok := toOption_ok hnext
    unfold Sched.finishSchedule at hok
    rw [h.stealing cpu] at hok
    cases hok
    exact h
  | balance cpu src attachOk =>
    obtain ⟨_, hok⟩ := onCpu_ok hnext
    unfold balanceDispatch at hok
    rw [show balanceCandidate S cpu src attachOk = none from hop] at hok
    cases hok
    exact h
  | tick cpu =>
    obtain ⟨_, hok⟩ := onCpu_ok hnext
    cases hok
    exact schedulerTick_placed h
  | cpuTimerTick cpu elapsed =>
    obtain ⟨_, hok⟩ := onCpu_ok hnext
    cases hok
    exact cpuTimerTick_placed h
  | block cpu substate =>
    obtain ⟨_, hok⟩ := onCpu_ok hnext
    cases hok
    exact blockCurrent_placed h
  | wake s => exact wakeStrand_placed h hop (toOption_ok hnext)
  | boost s prio =>
    cases hnext
    obtain ⟨hidle, honRq, _, _, hadm⟩ := boostPrio_place
    refine h.same (samePlaces_boost ⟨hidle, honRq, hadm⟩ ?_ (fun hcoh => hcoh.boost) hop)
    simp only [Rt.boostPrio]
    split_ifs <;> rfl
  | unboost s =>
    cases hnext
    obtain ⟨hidle, honRq, _, _, hadm⟩ := unboostPrio_place
    refine h.same (samePlaces_boost ⟨hidle, honRq, hadm⟩ ?_ (fun hcoh => hcoh.unboost) hop)
    simp only [Rt.unboostPrio]
    split_ifs <;> rfl
  | setPolicy here s p =>
    cases hnext
    exact h.same (samePlaces_policyEdit strandSetPolicy_edit hop)
  | create s owner cpu =>
    cases hnext
    exact strandCreate_placed h hop.1 hop.2
  | exit cpu =>
    obtain ⟨_, hok⟩ := onCpu_ok hnext
    cases hok
    exact trampolineExit_placed h
  | domain d v =>
    cases hnext
    exact h.same (.of_accounts (fun _ => .refl) (fun _ => .refl) rfl rfl)
  | answers a =>
    cases hnext
    exact h.same (.of_accounts (fun _ => .refl) (fun _ => .refl) rfl rfl)

theorem Booted.placed (h : Booted S) : Placed S none where
  once c := by
    rw [(h.queues c).1]
    exact List.nodup_nil
  home c s hmem := by
    rw [(h.queues c).1] at hmem
    cases hmem
  queued s hq := by
    rw [(h.strands s).1] at hq
    cases hq
  counted c := by
    rw [(h.queues c).1, (h.queues c).2.1]
    rfl
  byClass c s hmem := by
    rw [(h.queues c).1] at hmem
    cases hmem
  work c s hmem := by
    rw [(h.queues c).1] at hmem
    cases hmem
  coherent s := ⟨fun _ => (h.strands s).2.2, fun hne => absurd (h.strands s).2.1 hne⟩
  idles := h.idles
  unlinked c s _ _ := (h.strands s).1
  running c s _ hcurr hidle := by
    rw [(h.queues c).2.2] at hcurr
    rw [h.idles c s hcurr] at hidle
    cases hidle
  offline c hc := ⟨h.offline c hc, (h.queues c).2.2 ▸ h.offline c hc, nofun⟩
  stealing := h.stealing

/-- In every state of every run whose steps are orderly, the records of every strand's whereabouts
agree and each queue counts its strands. -/
theorem strand_in_one_place {S : System}
    (h : (schedMachine.restrict fun S op => op.Orderly S).Reachable S) : OnePlace S := by
  refine (h.invariant (P := fun S => Placed S none) ?_ ?_).onePlace
  · intro S₀ h₀
    exact h₀.placed
  · rintro S₁ op S₂ hinv ⟨hop, hnext⟩
    exact hinv.step hop hnext

/-! ## Runs -/

def twoCpus : System where
  strand := fun s => { idle := decide (s ≤ 1) }
  cpus := [0, 1]
  rq := fun c => if c ≤ 1 then { curr := some c, idleStrand := some c } else {}
  domain := fun _ => { rootPhys := 0x10000, asce := 0x10000 }

theorem booted_twoCpus : Booted twoCpus where
  queues c := by
    unfold twoCpus
    simp only
    split <;> exact ⟨rfl, rfl, rfl⟩
  idles c i h := by
    unfold twoCpus at h ⊢
    simp only at h
    split at h
    · rename_i hc
      cases h
      exact decide_eq_true hc
    · cases h
  offline c hc := by
    have hbig : ¬ c ≤ 1 := fun hle => hc (by
      show c ∈ [0, 1]
      rcases Nat.le_one_iff_eq_zero_or_eq_one.mp hle with rfl | rfl <;> decide)
    show (if c ≤ 1 then _ else _ : RunQueue).curr = none
    rw [if_neg hbig]
  strands _ := ⟨rfl, rfl, rfl⟩
  stealing _ := rfl

theorem strand_in_one_place_turns :
    ∃ S, (schedMachine.restrict fun S op => op.Orderly S).Reachable S ∧
      (S.rq 0).curr = some 2 ∧ (S.rq 0).linked = [3] ∧ OnePlace S := by
  obtain ⟨S, hreach, hcurr, hlinked⟩ :
    ∃ S, (schedMachine.restrict fun S op => op.Orderly S).Reachable S ∧
      (S.rq 0).curr = some 2 ∧ (S.rq 0).linked = [3] :=
    Machine.exists_reachable_restrict_ofNext [.create 2 7 0, .create 3 7 0, .enqueueStrand 2,
      .enqueueStrand 3, .schedule 0 none, .tick 0, .schedule 0 none] booted_twoCpus (by
        decide +kernel)
  exact ⟨S, hreach, hcurr, hlinked, strand_in_one_place hreach⟩

/-- The only strand of a CPU is selected again: it runs and stays in the tree. And the balancer
counts the strand it moves twice. -/
theorem running_and_queued_counterexample :
    (∃ S, schedMachine.Exec twoCpus
        [.create 2 7 0, .enqueueStrand 2, .schedule 0 none, .schedule 0 none] S ∧
      (S.rq 0).curr = some 2 ∧ 2 ∈ (S.rq 0).fairTree ∧ (S.strand 2).onRq = true ∧ ¬ OnePlace S) ∧
    ∃ S, schedMachine.Exec twoCpus
        [.create 2 7 0, .create 3 7 0, .enqueueStrand 2, .enqueueStrand 3, .balance 1 0 true] S ∧
      (S.rq 0).nrRunning = 0 ∧ (S.rq 0).linked = [3] ∧
      (S.rq 1).nrRunning = 2 ∧ (S.rq 1).linked = [2] ∧ ¬ OnePlace S := by
  constructor
  · obtain ⟨S, hexec, hcurr, htree, hq, hidle⟩ : ∃ S, schedMachine.Exec twoCpus
        [.create 2 7 0, .enqueueStrand 2, .schedule 0 none, .schedule 0 none] S ∧
          (S.rq 0).curr = some 2 ∧
        2 ∈ (S.rq 0).fairTree ∧ (S.strand 2).onRq = true ∧ (S.strand 2).idle = false :=
      Machine.exists_exec_ofNext (by decide +kernel)
    refine ⟨S, hexec, hcurr, htree, hq, fun h => ?_⟩
    exact (h.running 0 2 hcurr hidle).1 0 (List.mem_append_left _ (List.mem_append_left _ htree))
  · obtain ⟨S, hexec, hsrc, hleft, hdst, hmoved⟩ : ∃ S, schedMachine.Exec twoCpus
        [.create 2 7 0, .create 3 7 0, .enqueueStrand 2, .enqueueStrand 3, .balance 1 0 true] S ∧
        (S.rq 0).nrRunning = 0 ∧ (S.rq 0).linked = [3] ∧ (S.rq 1).nrRunning = 2 ∧
          (S.rq 1).linked = [2] :=
      Machine.exists_exec_ofNext (by decide +kernel)
    refine ⟨S, hexec, hsrc, hleft, hdst, hmoved, fun h => ?_⟩
    have hcount := h.counted 0
    rw [hsrc, hleft] at hcount
    cases hcount

end ZXFoundation.Sched
