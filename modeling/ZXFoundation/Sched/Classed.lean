import ZXFoundation.Sched.Fair

/-!
# The real-time and deadline queues and the dispatch over the classes

The queue operations of `sched/rt.zcomponent/core.cxx`, `sched/rt.zcomponent/bandwidth.cxx` and
`sched/deadline.zcomponent/core.cxx`, priority inheritance (`boost_prio`, `unboost_prio`), and
`class_of`, `enqueue`, `dequeue`, `select_next` and `tick` of `sched/classed.zcomponent/core.cxx`.

Nothing remembers under which class a strand was queued: `dequeue` and `tick` compute the class
again from the policy and the admission.
-/

namespace ZXFoundation.Sched

/-- The first element that no later one beats, as the `best` loops of the classes find it. -/
def firstBest (beats : StrandId → StrandId → Bool) : List StrandId → Option StrandId
  | [] => none
  | s :: l => some (l.foldl (fun best c => if beats c best then c else best) s)

variable {s : StrandId} {l : List StrandId}

theorem firstBest_mem {beats : StrandId → StrandId → Bool} (h : firstBest beats l = some s) :
    s ∈ l := by
  cases l with
  | nil => cases h
  | cons a l =>
  cases h
  -- the best so far is the head or one of the strands already passed
  suffices ∀ (rest : List StrandId) (b : StrandId), b ∈ a :: l → (∀ c ∈ rest, c ∈ a :: l) →
      rest.foldl (fun best c => if beats c best then c else best) b ∈ a :: l from
    this l a (List.mem_cons_self ..) fun c hc => List.mem_cons_of_mem a hc
  intro rest
  induction rest with
  | nil => exact fun b hb _ => hb
  | cons c rest ih =>
    intro b hb hrest
    rw [List.foldl_cons]
    apply ih _ _ fun c' hc' => hrest c' (List.mem_cons_of_mem c hc')
    split
    · exact hrest c (List.mem_cons_self ..)
    · exact hb

theorem firstBest_least {key : StrandId → Nat}
    (h : firstBest (fun c b => decide (key c < key b)) l = some s) : ∀ t ∈ l, key s ≤ key t := by
  cases l with
  | nil => cases h
  | cons a l =>
  cases h
  suffices ∀ (rest : List StrandId) (b : StrandId),
      key (rest.foldl (fun best c => if decide (key c < key best) then c else best) b) ≤ key b ∧
        ∀ t ∈ rest, key (rest.foldl (fun best c => if decide (key c < key best) then c
          else best) b) ≤ key t by
    intro t ht
    rcases List.mem_cons.mp ht with rfl | ht
    · exact (this l t).1
    · exact (this l a).2 t ht
  intro rest
  induction rest with
  | nil => exact fun b => ⟨le_rfl, nofun⟩
  | cons c rest ih =>
    intro b
    rw [List.foldl_cons]
    obtain ⟨hbest, hrest⟩ := ih (if decide (key c < key b) then c else b)
    have hstep : key (if decide (key c < key b) then c else b) ≤ key b ∧
        key (if decide (key c < key b) then c else b) ≤ key c := by
      by_cases hlt : key c < key b
      · simp [hlt, hlt.le]
      · simp [hlt, Nat.le_of_not_lt hlt]
    refine ⟨hbest.trans hstep.1, fun t ht => ?_⟩
    rcases List.mem_cons.mp ht with rfl | ht
    · exact hbest.trans hstep.2
    · exact hrest t ht

/-! ## Real time -/

variable (S : System) (cpu : CpuId) (s : StrandId) (st : Strand)

namespace Rt

def accountingTickNs : Nat := 1_000_000

def bwCharge (bw : RtBandwidth) (consumed : Nat) : RtBandwidth :=
  let time := bw.rtTimeNs + consumed
  { bw with rtTimeNs := time, rtThrottled := bw.rtThrottled || decide (time ≥ bw.rtRuntimeNs) }

def enqueue : Except KernelError System :=
  let st := S.strand s
  if st.policy.classId ≠ .rt ∨ st.admission.classId ≠ .rt ∨ st.admission.admittedRuntimeNs = 0 then
    .error (.generic .invalidArg)
  else if st.onRq then .ok S
  else if !st.policy.allowSmtSibling && S.smtDenied s cpu then .error (.generic .invalidArg)
  else
    let S₁ := S.setStrand s { st with onRq := true, lastQueued := .rt, lastRq := cpu }
    .ok (S₁.setRq cpu { S.rq cpu with
      rtQueue := (S.rq cpu).rtQueue ++ [s]
      nrRunning := (S.rq cpu).nrRunning + 1 })

def dequeue : System :=
  if !(S.strand s).onRq then S
  else
    (S.setStrand s { S.strand s with onRq := false }).setRq cpu { S.rq cpu with
      rtQueue := (S.rq cpu).rtQueue.erase s
      nrRunning := (S.rq cpu).nrRunning - 1 }

def pickNext : Option StrandId :=
  firstBest (fun c b => decide ((S.strand c).policy.rtPriority > (S.strand b).policy.rtPriority))
    (S.rq cpu).rtQueue

def tick : System :=
  if (S.strand s).policy.classId ≠ .rt then S
  else
    let used := (S.strand s).body.rtRuntimeUsedNs + accountingTickNs
    let S := S.setStrand s { S.strand s with
      body := { (S.strand s).body with rtRuntimeUsedNs := used } }
    let S := S.setRq cpu { S.rq cpu with rtBw := bwCharge (S.rq cpu).rtBw accountingTickNs }
    if (S.rq cpu).rtBw.rtThrottled then dequeue S cpu s
    else if used ≥ (S.strand s).admission.admittedRuntimeNs then dequeue S cpu s
    else S

def boostPrio (prio : Nat) : Strand :=
  if st.idle then st
  else
    let st := if st.body.boostedPrio = 0 then
      { st with body := { st.body with
        savedClass := st.policy.classId, savedPrio := st.policy.rtPriority } } else st
    if prio > st.body.boostedPrio then
      { st with
        body := { st.body with boostedPrio := prio }
        policy := { st.policy with classId := .rt, rtPriority := prio } }
    else st

def unboostPrio : Strand :=
  if st.idle || st.body.boostedPrio == 0 then st
  else
    { st with
      body := { st.body with boostedPrio := 0 }
      policy := { st.policy with classId := st.body.savedClass, rtPriority := st.body.savedPrio } }

/-- `effective_rt_prio` of `sync/rtmutex.zcomponent/core.cxx`. -/
def effectiveRtPrio : Nat :=
  if st.body.boostedPrio ≠ 0 then st.body.boostedPrio
  else if st.policy.classId = .rt then st.policy.rtPriority
  else 0

end Rt

/-! ## Deadline -/

namespace Deadline

def accountingTickNs : Nat := 1_000_000

def enqueue : Except KernelError System :=
  let st := S.strand s
  if st.policy.classId ≠ .deadline ∨ st.admission.classId ≠ .deadline ∨
      st.admission.admittedRuntimeNs = 0 then .error (.generic .invalidArg)
  else if st.onRq then .ok S
  else
    let S₁ := S.setStrand s { st with onRq := true, lastQueued := .deadline, lastRq := cpu }
    .ok (S₁.setRq cpu { S.rq cpu with
      deadlineQueue := (S.rq cpu).deadlineQueue ++ [s]
      nrRunning := (S.rq cpu).nrRunning + 1 })

def dequeue : System :=
  if !(S.strand s).onRq then S
  else
    (S.setStrand s { S.strand s with onRq := false }).setRq cpu { S.rq cpu with
      deadlineQueue := (S.rq cpu).deadlineQueue.erase s
      nrRunning := (S.rq cpu).nrRunning - 1 }

def pickNext : Option StrandId :=
  firstBest
    (fun c b => decide ((S.strand c).body.absoluteDeadlineNs <
      (S.strand b).body.absoluteDeadlineNs))
    (S.rq cpu).deadlineQueue

/-- `deadline::tick`. The server is charged and its answer discarded; the strand's own counter
decides. -/
def tick : System :=
  if (S.strand s).policy.classId ≠ .deadline then S
  else
    let used := (S.strand s).body.deadlineRuntimeUsedNs + accountingTickNs
    let cbs := (S.strand s).body.cbs
    let S := S.setStrand s { S.strand s with
      body := { (S.strand s).body with
        deadlineRuntimeUsedNs := used
        cbs := { cbs with usedRuntimeNs := cbs.usedRuntimeNs + accountingTickNs } } }
    if used ≥ (S.strand s).admission.admittedRuntimeNs then dequeue S cpu s else S

end Deadline

/-! ## Dispatch -/

def classOf : SchedClassId :=
  if st.idle then .idle
  else if st.policy.classId = .rt ∧ st.admission.classId = .rt then .rt
  else if st.policy.classId = .deadline ∧ st.admission.classId = .deadline then .deadline
  else .fair

namespace Classed

def enqueue : Except KernelError System :=
  match classOf (S.strand s) with
  | .deadline => Deadline.enqueue S cpu s
  | .rt => Rt.enqueue S cpu s
  | .fair => Fair.enqueue S cpu s
  | .idle => .ok S

def dequeue : System :=
  match classOf (S.strand s) with
  | .deadline => Deadline.dequeue S cpu s
  | .idle => S
  | .rt => Rt.dequeue S cpu s
  | .fair => Fair.dequeue S cpu s

/-- `select_next`: null only on a CPU without an idle strand. -/
def selectNext : Option StrandId :=
  (Deadline.pickNext S cpu).or
  ((Rt.pickNext S cpu).or ((Fair.pickNext S cpu).or (S.rq cpu).idleStrand))

def tick : System :=
  match classOf (S.strand s) with
  | .deadline => Deadline.tick S cpu s
  | .idle => S
  | .rt => Rt.tick S cpu s
  | .fair => Fair.tick S cpu s

theorem selectNext_mem {S : System} {cpu : CpuId} {s : StrandId} (h : selectNext S cpu = some s) :
    s ∈ (S.rq cpu).linked ∨ (S.rq cpu).idleStrand = some s := by
  unfold selectNext at h
  rcases Option.or_eq_some_iff.mp h with hdl | ⟨_, h⟩
  · exact .inl (RunQueue.mem_linked.mpr (.inr (.inr (firstBest_mem hdl))))
  rcases Option.or_eq_some_iff.mp h with hrt | ⟨_, h⟩
  · exact .inl (RunQueue.mem_linked.mpr (.inr (.inl (firstBest_mem hrt))))
  rcases Option.or_eq_some_iff.mp h with hfair | ⟨_, h⟩
  · exact .inl (RunQueue.mem_linked.mpr (.inl (Fair.pickNext_mem hfair)))
  · exact .inr h

end Classed

end ZXFoundation.Sched
