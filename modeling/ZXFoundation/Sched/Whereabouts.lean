import ZXFoundation.Sched.Placement

/-!
# What the scheduler's steps leave alone

Except for `schedule`, which moves one CPU to another strand, and the two calls that set a policy
and create a strand, no step of the scheduler changes what runs on a CPU, whose the strands are,
what was admitted for them or what their policies say about siblings. `Steady` states it and each
entry point has its lemma, so that an invariant over those facts is proved without looking into the
queues.
-/

namespace ZXFoundation.Sched

open Function

/-- What runs where, to whom the strands belong and what was granted to them are the same, but for
the current strand of one CPU. -/
structure Steady (S S' : System) (moving : Option CpuId) : Prop where
  curr : ∀ c, moving ≠ some c → (S'.rq c).curr = (S.rq c).curr
  idleStrand : ∀ c, (S'.rq c).idleStrand = (S.rq c).idleStrand
  owner : ∀ t, (S'.strand t).owner = (S.strand t).owner
  allow : ∀ t, (S'.strand t).policy.allowSmtSibling = (S.strand t).policy.allowSmtSibling
  admission : ∀ t, (S'.strand t).admission = (S.strand t).admission
  stealing : ∀ c, moving ≠ some c → S'.stealing c = S.stealing c
  cpus : S'.cpus = S.cpus

namespace Steady

variable {S S₁ S₂ : System} {moving : Option CpuId}

theorem refl : Steady S S moving :=
  ⟨fun _ _ => rfl, fun _ => rfl, fun _ => rfl, fun _ => rfl, fun _ => rfl, fun _ _ => rfl, rfl⟩

/-- What comes later is given first: it names the state in between. -/
theorem since (h' : Steady S₁ S₂ moving) (h : Steady S S₁ moving) : Steady S S₂ moving where
  curr c hc := (h'.curr c hc).trans (h.curr c hc)
  idleStrand c := (h'.idleStrand c).trans (h.idleStrand c)
  owner t := (h'.owner t).trans (h.owner t)
  allow t := (h'.allow t).trans (h.allow t)
  admission t := (h'.admission t).trans (h.admission t)
  stealing c hc := (h'.stealing c hc).trans (h.stealing c hc)
  cpus := h'.cpus.trans h.cpus

/-- A strand is written that keeps its owner, its admission and what it says about siblings. -/
theorem setStrand {s : StrandId} {st : Strand} (howner : st.owner = (S.strand s).owner)
    (hallow : st.policy.allowSmtSibling = (S.strand s).policy.allowSmtSibling)
    (hadm : st.admission = (S.strand s).admission) : Steady S (S.setStrand s st) moving := by
  have hcase : ∀ {α : Type} (f : Strand → α), f st = f (S.strand s) →
      ∀ t, f ((S.setStrand s st).strand t) = f (S.strand t) := by
    intro α f hf t
    by_cases ht : t = s
    · subst ht
      simpa using hf
    · simp [update_of_ne ht]
  exact ⟨fun _ _ => rfl, fun _ => rfl, hcase (·.owner) howner,
    hcase (·.policy.allowSmtSibling) hallow,
    hcase (·.admission) hadm, fun _ _ => rfl, rfl⟩

/-- A queue is written that keeps its idle strand, and its current one unless the CPU moves. -/
theorem setRq {cpu : CpuId} {rq : RunQueue} (hcurr : moving ≠ some cpu → rq.curr = (S.rq cpu).curr)
    (hidle : rq.idleStrand = (S.rq cpu).idleStrand) : Steady S (S.setRq cpu rq) moving := by
  refine ⟨fun c hc => ?_, fun c => ?_, fun _ => rfl, fun _ => rfl, fun _ => rfl, fun _ _ =>
    rfl, rfl⟩
  · by_cases h : c = cpu
    · subst h
      simpa using hcurr hc
    · simp [update_of_ne h]
  · by_cases h : c = cpu
    · subst h
      simpa using hidle
    · simp [update_of_ne h]

theorem setBoth {s : StrandId} {st : Strand} {cpu : CpuId} {rq : RunQueue}
    (howner : st.owner = (S.strand s).owner)
    (hallow : st.policy.allowSmtSibling = (S.strand s).policy.allowSmtSibling)
    (hadm : st.admission = (S.strand s).admission) (hcurr : rq.curr = (S.rq cpu).curr)
    (hidle : rq.idleStrand = (S.rq cpu).idleStrand) :
    Steady S ((S.setStrand s st).setRq cpu rq) moving :=
  since (.setRq (fun _ => hcurr) hidle) (.setStrand howner hallow hadm)

end Steady

/-! ## The entry points -/

section Calls

variable {S S' : System} {cpu : CpuId} {s : StrandId} {moving : Option CpuId} {k : SchedClassId}

theorem Enqueued.steady (h : Enqueued S S' cpu s k) : Steady S S' moving :=
  ⟨fun c _ => (h.runs c).1, fun c => (h.runs c).2, h.field (·.owner) fun _ => rfl,
    h.field (·.policy.allowSmtSibling) fun _ => rfl, h.field (·.admission) fun _ => rfl,
    fun c _ => congrFun h.stealing c, h.cpus⟩

theorem Dequeued.steady (h : Dequeued S S' cpu s k) : Steady S S' moving :=
  ⟨fun c _ => (h.runs c).1, fun c => (h.runs c).2, h.field (·.owner) rfl,
    h.field (·.policy.allowSmtSibling) rfl, h.field (·.admission) rfl,
    fun c _ => congrFun h.stealing c, h.cpus⟩

theorem enqueue_steady (h : Classed.enqueue S cpu s = .ok S') : Steady S S' moving := by
  rcases Classed.enqueue_ok h with ⟨rfl, _⟩ | ⟨_, he⟩
  · exact .refl
  · exact he.steady

theorem dequeue_steady : Steady S (Classed.dequeue S cpu s) moving :=
  Classed.dequeue_rule .refl fun _ hd => hd.steady

theorem fairDequeue_steady : Steady S (Fair.dequeue S cpu s) moving := by
  rcases Fair.dequeue_cases with ⟨_, heq⟩ | hd
  · rw [heq]
    exact .refl
  · exact hd.steady

theorem enqueueStrand_steady (h : enqueueStrand S s = .ok S') : Steady S S' moving := by
  unfold enqueueStrand at h
  split at h
  · cases h
  · rename_i hok
    cases h
    exact enqueue_steady hok

theorem wakeStrand_steady (h : wakeStrand S s = .ok S') : Steady S S' moving :=
  (enqueueStrand_steady h).since (.setStrand rfl rfl rfl)

theorem requeuePrev_steady (h : requeuePrev S cpu = .ok S') : Steady S S' moving := by
  rcases requeuePrev_ok h with rfl | ⟨prev, _, _, henq⟩
  · exact .refl
  · exact (enqueue_steady henq).since (.setStrand rfl rfl rfl)

/-- What is queued after `requeuePrev` was queued before, or was running. -/
theorem requeuePrev_linked {n : StrandId} (h : requeuePrev S cpu = .ok S')
    (hn : n ∈ (S'.rq cpu).linked) : n ∈ (S.rq cpu).linked ∨ (S.rq cpu).curr = some n := by
  rcases requeuePrev_ok h with rfl | ⟨prev, hcurr, _, henq⟩
  · exact .inl hn
  rcases Classed.enqueue_ok henq with ⟨rfl, _⟩ | ⟨_, he⟩
  · exact .inl hn
  · rcases he.mem_linked.mp hn with hn | ⟨_, rfl⟩
    · exact .inl hn
    · exact .inr hcurr

open Steady

theorem parkRevoked_steady : Steady S (parkRevoked S cpu s) moving :=
  since (.setStrand rfl rfl rfl) dequeue_steady

/-- The one place where `curr` is written. -/
theorem switchTo_steady {idle next : StrandId} :
    Steady S (switchTo S cpu idle next) (some cpu) := by
  unfold switchTo
  -- the strand is prepared first, then the queue's `curr` is written
  refine since (.setRq (fun h => absurd rfl h) rfl) ?_
  split_ifs
  · exact .refl
  · exact since (.setStrand rfl rfl rfl) dequeue_steady
  · exact .setStrand rfl rfl rfl

theorem Resumes.steady {prev : Option StrandId} {idle n : StrandId}
    (h : Resumes S S' cpu prev idle n) :
    Steady S S' (some cpu) := by
  rcases h with ⟨_, rfl⟩ | ⟨_, rfl⟩
  · split
    · exact .refl
    · exact .setStrand rfl rfl rfl
  · exact switchTo_steady

theorem runNext_steady {prev next : Option StrandId} (h : runNext S cpu prev next = .ok S') :
    Steady S S' (some cpu) := by
  obtain ⟨idle, _, hres | ⟨s, _, _, hres⟩ | ⟨s, _, hres⟩⟩ := runNext_ok h
  · exact hres.steady
  · exact hres.steady.since parkRevoked_steady
  · exact hres.steady

/-- A stolen strand gets another CPU, not another owner. -/
theorem trySteal_steady {busiest : CpuId} : Steady S (trySteal S cpu busiest).1 moving := by
  unfold trySteal
  split
  · exact .refl
  · exact since (.setStrand rfl rfl rfl) fairDequeue_steady

/-- The mark of a CPU between the two halves of its `schedule`. -/
theorem stealing_steady {v : Option (Option StrandId × Option StrandId)} :
    Steady S { S with stealing := update S.stealing cpu v } (some cpu) :=
  { refl with
    stealing := fun c hc => update_of_ne (fun heq : c = cpu => hc (heq ▸ rfl)) _ _ }

/-- `schedule` moves its own CPU and no other, also when it ends in a steal. -/
theorem schedule_steady {busiest : Option CpuId} (h : schedule S cpu busiest = .ok S') :
    Steady S S' (some cpu) := by
  obtain ⟨S₁, hreq, hrun | ⟨b, _, _, _, rfl⟩⟩ := schedule_ok h
  all_goals have hfirst : Steady S S₁ (some cpu) := requeuePrev_steady hreq
  · exact (runNext_steady hrun).since hfirst
  · exact stealing_steady.since (trySteal_steady.since hfirst)

theorem finishSchedule_steady (h : finishSchedule S cpu = .ok S') : Steady S S' (some cpu) := by
  unfold finishSchedule at h
  split at h
  · cases h
    exact .refl
  have hmark : Steady S { S with stealing := update S.stealing cpu none } _ := stealing_steady
  simp only at h
  split at h
  · exact (runNext_steady h).since hmark
  split at h
  · cases h
  · rename_i hok
    exact (runNext_steady h).since ((enqueue_steady hok).since hmark)

/-- A strand that the balancer moves is queued, so no CPU runs another one for it. -/
theorem balanceDispatch_steady {src : CpuId} {attachOk : Bool} :
    Steady S (balanceDispatch S cpu src attachOk) none := by
  unfold balanceDispatch
  split
  · exact .refl
  rename_i s _
  simp only
  -- the strand has left its queue, whatever the target answers
  have hleft : ∀ n, Steady S ((Fair.dequeue S src s).setRq src
      { (Fair.dequeue S src s).rq src with nrRunning := n }) none := fun n =>
    since (.setRq (fun _ => rfl) rfl) fairDequeue_steady
  split
  · rename_i S₁ hok
    exact since (.setRq (fun _ => rfl) rfl)
      ((Fair.enqueue_ok hok).steady.since (since (.setStrand rfl rfl rfl) (hleft _)))
  split
  · rename_i S₁ hok
    exact (Fair.enqueue_ok hok).steady.since
      (since (.setStrand rfl rfl rfl) (since (.setStrand rfl rfl rfl) (hleft _)))
  · exact since (.setStrand rfl rfl rfl) (since (.setStrand rfl rfl rfl) (hleft _))

theorem rtDequeue_steady : Steady S (Rt.dequeue S cpu s) none := by
  unfold Rt.dequeue
  split
  · exact .refl
  · exact .setBoth rfl rfl rfl rfl rfl

theorem deadlineDequeue_steady : Steady S (Deadline.dequeue S cpu s) none := by
  unfold Deadline.dequeue
  split
  · exact .refl
  · exact .setBoth rfl rfl rfl rfl rfl

/-- The ticks of the classes write budgets, and take a strand off its queue at most. -/
theorem tick_steady : Steady S (Classed.tick S cpu s) none := by
  unfold Classed.tick
  split
  · unfold Deadline.tick
    split
    · exact .refl
    simp only
    split
    · exact deadlineDequeue_steady.since (.setStrand rfl rfl rfl)
    · exact .setStrand rfl rfl rfl
  · exact .refl
  · unfold Rt.tick
    split
    · exact .refl
    simp only
    split_ifs
    · exact rtDequeue_steady.since (.setBoth rfl rfl rfl rfl rfl)
    · exact rtDequeue_steady.since (.setBoth rfl rfl rfl rfl rfl)
    · exact .setBoth rfl rfl rfl rfl rfl
  · unfold Fair.tick
    exact .setBoth rfl rfl rfl rfl rfl

theorem schedulerTick_steady : Steady S (schedulerTick S cpu) none := by
  unfold schedulerTick
  split
  · exact .refl
  split
  · exact .refl
  simp only
  split
  · exact parkRevoked_steady.since tick_steady
  · exact tick_steady

theorem cpuTimerTick_steady {elapsed : Nat} : Steady S (cpuTimerTick S cpu elapsed) none := by
  unfold cpuTimerTick
  split
  · exact .refl
  split
  · exact .refl
  · exact since (.setStrand rfl rfl rfl) (.setRq (fun _ => rfl) rfl)

theorem blockCurrent_steady {substate : SchedSubstate} :
    Steady S (blockCurrent S cpu substate) none := by
  unfold blockCurrent
  split
  · exact .refl
  refine since (.setStrand rfl rfl rfl) ?_
  split
  · exact dequeue_steady
  · exact .refl

theorem trampolineExit_steady : Steady S (trampolineExit S cpu) none := by
  unfold trampolineExit
  split
  · exact .refl
  · exact .setStrand rfl rfl rfl

/-- A boost writes the class and the priority, and leaves the word about siblings. -/
theorem boost_steady {prio : Nat} : Steady S (S.setStrand s (Rt.boostPrio (S.strand s) prio))
    none := by
  apply setStrand <;> simp only [Rt.boostPrio] <;> split_ifs <;> rfl

theorem unboost_steady : Steady S (S.setStrand s (Rt.unboostPrio (S.strand s))) none := by
  apply setStrand <;> simp only [Rt.unboostPrio] <;> split_ifs <;> rfl

end Calls

/-! ## Steps -/

/-- The steps that move no CPU and write no policy. -/
def SchedOp.quiet : SchedOp → Bool
  | .schedule _ _ | .finishSchedule _ | .setPolicy _ _ _ | .create _ _ _ => false
  | _ => true

/-- **Every quiet step is steady**, on all CPUs. -/
theorem SchedOp.steady_of_quiet {S S' : System} {op : SchedOp} (hquiet : op.quiet = true)
    (h : op.next S = some S') : Steady S S' none := by
  cases op with
  | enqueueStrand s => exact enqueueStrand_steady (toOption_ok h)
  | dequeueStrand s =>
    cases h
    exact dequeue_steady
  | balance cpu src attachOk =>
    cases (onCpu_ok h).2
    exact balanceDispatch_steady
  | tick cpu =>
    cases (onCpu_ok h).2
    exact schedulerTick_steady
  | cpuTimerTick cpu elapsed =>
    cases (onCpu_ok h).2
    exact cpuTimerTick_steady
  | block cpu substate =>
    cases (onCpu_ok h).2
    exact blockCurrent_steady
  | wake s => exact wakeStrand_steady (toOption_ok h)
  | boost s prio =>
    cases h
    exact boost_steady
  | unboost s =>
    cases h
    exact unboost_steady
  | exit cpu =>
    cases (onCpu_ok h).2
    exact trampolineExit_steady
  | domain d v =>
    cases h
    exact { Steady.refl with }
  | answers a =>
    cases h
    exact { Steady.refl with }
  | schedule cpu busiest => cases hquiet
  | finishSchedule cpu => cases hquiet
  | setPolicy here s p => cases hquiet
  | create s owner cpu => cases hquiet

end ZXFoundation.Sched
