import ZXFoundation.Sched.Classed

/-!
# What one enqueue and one dequeue change

Every entry point of the scheduler edits the queues through `classed::enqueue`, `classed::dequeue`
or the fair class directly. `Enqueued` and `Dequeued` say what such a call changes, whatever the
class: one strand's flag, one structure of one queue and its counter. The invariants of the queues
are proved from these two, not from the class backends.
-/

namespace ZXFoundation.Sched

open Function RunQueue List Classed
open Fair (avgVruntimeAdd avgVruntimeSub dequeue link)

/-- The state `S'` has `s` in the structure of class `k` of `cpu`'s queue, where `S` did not put
it. -/
structure Enqueued (S S' : System) (cpu : CpuId) (s : StrandId) (k : SchedClassId) : Prop where
  strand : ∃ se, S'.strand = update S.strand s
    { S.strand s with se, onRq := true, lastQueued := k, lastRq := cpu }
  other : ∀ c, c ≠ cpu → S'.rq c = S.rq c
  members : ∀ j t, t ∈ (S'.rq cpu).members j ↔ t ∈ (S.rq cpu).members j ∨ j = k ∧ t = s
  linked : (S'.rq cpu).linked.Perm (s :: (S.rq cpu).linked)
  nrRunning : (S'.rq cpu).nrRunning = (S.rq cpu).nrRunning + 1
  curr : (S'.rq cpu).curr = (S.rq cpu).curr
  idleStrand : (S'.rq cpu).idleStrand = (S.rq cpu).idleStrand
  bandwidth : (S'.rq cpu).rtBw = (S.rq cpu).rtBw
  frame : { S' with strand := S.strand, rq := S.rq } = S

/-- The state `S'` is `S` after `s` was erased from the structure of class `k` of `cpu`'s queue. -/
structure Dequeued (S S' : System) (cpu : CpuId) (s : StrandId) (k : SchedClassId) : Prop where
  queued : (S.strand s).onRq = true
  strand : S'.strand = update S.strand s { S.strand s with onRq := false }
  other : ∀ c, c ≠ cpu → S'.rq c = S.rq c
  members : ∀ j, (S'.rq cpu).members j = if j = k then ((S.rq cpu).members j).erase s
    else (S.rq cpu).members j
  nrRunning : 0 < (S.rq cpu).nrRunning → (S'.rq cpu).nrRunning = (S.rq cpu).nrRunning - 1
  curr : (S'.rq cpu).curr = (S.rq cpu).curr
  idleStrand : (S'.rq cpu).idleStrand = (S.rq cpu).idleStrand
  bandwidth : (S'.rq cpu).rtBw = (S.rq cpu).rtBw
  frame : { S' with strand := S.strand, rq := S.rq } = S

variable {S S' : System} {cpu : CpuId} {s : StrandId} {k : SchedClassId}

theorem classOf_admitted {st : Strand} (h : classOf st = k) (hk : k = .rt ∨ k = .deadline) :
    st.policy.classId = k ∧ st.admission.classId = k := by
  unfold classOf at h
  rcases hk with rfl | rfl <;> split_ifs at h with _ hboth hboth' <;> assumption

section Enqueued

variable (h : Enqueued S S' cpu s k)
include h

theorem Enqueued.cpus : S'.cpus = S.cpus := (congrArg System.cpus h.frame :)

theorem Enqueued.stealing : S'.stealing = S.stealing := (congrArg System.stealing h.frame :)

theorem Enqueued.self :
    ∃ se, S'.strand s = { S.strand s with se, onRq := true, lastQueued := k, lastRq := cpu } := by
  obtain ⟨se, hstrand⟩ := h.strand
  exact ⟨se, by rw [hstrand, update_self]⟩

variable {t : StrandId}

theorem Enqueued.strand_of_ne (ht : t ≠ s) : S'.strand t = S.strand t := by
  obtain ⟨se, hstrand⟩ := h.strand
  rw [hstrand, update_of_ne ht]

/-- What the enqueue does not write is the same for every strand. -/
theorem Enqueued.field {α : Sort*} (f : Strand → α)
    (hf : ∀ se, f { S.strand s with se, onRq := true, lastQueued := k, lastRq := cpu } = f
      (S.strand s))
    (t : StrandId) : f (S'.strand t) = f (S.strand t) := by
  by_cases ht : t = s
  · obtain ⟨se, hself⟩ := h.self
    rw [ht, hself, hf]
  · rw [h.strand_of_ne ht]

/-- An enqueue leaves what runs on the CPUs. -/
theorem Enqueued.runs (c : CpuId) :
    (S'.rq c).curr = (S.rq c).curr ∧ (S'.rq c).idleStrand = (S.rq c).idleStrand := by
  by_cases hc : c = cpu
  · rw [hc]
    exact ⟨h.curr, h.idleStrand⟩
  · rw [h.other c hc]
    exact ⟨rfl, rfl⟩

variable {c : CpuId}

/-- One strand more is linked, on one CPU. -/
theorem Enqueued.mem_linked : t ∈ (S'.rq c).linked ↔ t ∈ (S.rq c).linked ∨ c = cpu ∧ t = s := by
  by_cases hc : c = cpu
  · subst hc
    rw [h.linked.mem_iff, mem_cons]
    simp [or_comm]
  · simp [h.other c hc, hc]

theorem Enqueued.mem_members {j : SchedClassId} (ht : t ∈ (S.rq c).members j) :
    t ∈ (S'.rq c).members j := by
  by_cases hc : c = cpu
  · subst hc
    exact (h.members j t).mpr (.inl ht)
  · rw [h.other c hc]
    exact ht

end Enqueued

section Dequeued

variable (h : Dequeued S S' cpu s k)
include h

theorem Dequeued.cpus : S'.cpus = S.cpus := (congrArg System.cpus h.frame :)

theorem Dequeued.stealing : S'.stealing = S.stealing := (congrArg System.stealing h.frame :)

/-- One strand less is linked. -/
theorem Dequeued.linked (hs : s ∈ (S.rq cpu).members k) :
    (S.rq cpu).linked.Perm (s :: (S'.rq cpu).linked) := by
  have hf := h.members .fair
  have hr := h.members .rt
  have hd := h.members .deadline
  simp only [RunQueue.members] at hf hr hd
  unfold RunQueue.linked
  cases k with
  | idle => cases hs
  | fair =>
    simp only [reduceCtorEq, if_true, if_false] at hf hr hd
    rw [hf, hr, hd]
    exact ((perm_cons_erase hs).append_right _).append_right _
  | rt =>
    simp only [reduceCtorEq, if_true, if_false] at hf hr hd
    rw [hf, hr, hd, ← cons_append]
    refine List.Perm.append_right _ ?_
    exact ((perm_cons_erase hs).append_left _).trans perm_middle
  | deadline =>
    simp only [reduceCtorEq, if_true, if_false] at hf hr hd
    rw [hf, hr, hd]
    exact ((perm_cons_erase hs).append_left _).trans perm_middle

theorem Dequeued.self :
    S'.strand s = { S.strand s with onRq := false } := by rw [h.strand, update_self]

theorem Dequeued.strand_of_ne {t : StrandId} (ht : t ≠ s) : S'.strand t = S.strand t := by
  rw [h.strand, update_of_ne ht]

theorem Dequeued.field {α : Sort*} (f : Strand → α)
    (hf : f { S.strand s with onRq := false } = f (S.strand s)) (t : StrandId) :
    f (S'.strand t) = f (S.strand t) := by
  by_cases ht : t = s
  · rw [ht, h.self, hf]
  · rw [h.strand_of_ne ht]

/-- A dequeue leaves what runs on the CPUs. -/
theorem Dequeued.runs (c : CpuId) :
    (S'.rq c).curr = (S.rq c).curr ∧ (S'.rq c).idleStrand = (S.rq c).idleStrand := by
  by_cases hc : c = cpu
  · rw [hc]
    exact ⟨h.curr, h.idleStrand⟩
  · rw [h.other c hc]
    exact ⟨rfl, rfl⟩

theorem Dequeued.mem_members {c : CpuId} {j : SchedClassId} {t : StrandId} (hts : t ≠ s)
    (ht : t ∈ (S.rq c).members j) : t ∈ (S'.rq c).members j := by
  by_cases hc : c = cpu
  · subst hc
    rw [h.members]
    split
    · exact (mem_erase_of_ne hts).mpr ht
    · exact ht
  · rw [h.other c hc]
    exact ht

end Dequeued

/-! ## Queues and flags that agree -/

/-- Every queued strand is linked once, on its CPU and in the structure of its class. -/
structure Shelved (S : System) : Prop where
  once : ∀ c, (S.rq c).linked.Nodup
  home : ∀ c s, s ∈ (S.rq c).linked → (S.strand s).onRq = true ∧ (S.strand s).cpu = c
  queued : ∀ s, (S.strand s).onRq = true → s ∈ (S.rq (S.strand s).cpu).linked
  byClass : ∀ c s, s ∈ (S.rq c).linked → s ∈ (S.rq c).members (classOf (S.strand s))

namespace Shelved

variable (h : Shelved S)
include h

/-- A strand that is not marked is linked nowhere. -/
theorem not_linked (hoff : (S.strand s).onRq = false) {c : CpuId} :
    s ∉ (S.rq c).linked := fun hmem => by
  have := (h.home c s hmem).1
  rw [hoff] at this
  cases this

theorem ne_of_linked (hoff : (S.strand s).onRq = false) {c : CpuId} {t : StrandId}
    (ht : t ∈ (S.rq c).linked) : t ≠ s := fun heq => h.not_linked hoff (heq ▸ ht)

/-- An unmarked strand is put where its class and its CPU say. -/
theorem enqueued (he : Enqueued S S' cpu s (classOf (S.strand s)))
    (hcpu : (S.strand s).cpu = cpu) (hoff : (S.strand s).onRq = false) : Shelved S' := by
  obtain ⟨se, hself⟩ := he.self
  refine ⟨fun c => ?_, fun c t ht => ?_, fun t ht => ?_, fun c t ht => ?_⟩
  · by_cases hc : c = cpu
    · subst hc
      exact he.linked.nodup_iff.mpr (nodup_cons.mpr ⟨h.not_linked hoff, h.once c⟩)
    · rw [he.other c hc]
      exact h.once c
  · rcases he.mem_linked.mp ht with ht | ⟨rfl, rfl⟩
    · rw [he.strand_of_ne (h.ne_of_linked hoff ht)]
      exact h.home c t ht
    · rw [hself]
      exact ⟨rfl, hcpu⟩
  · rw [he.mem_linked]
    by_cases hts : t = s
    · rw [hts, hself]
      exact .inr ⟨hcpu, rfl⟩
    · rw [he.strand_of_ne hts] at ht ⊢
      exact .inl (h.queued t ht)
  · rcases he.mem_linked.mp ht with ht | ⟨rfl, rfl⟩
    · rw [he.strand_of_ne (h.ne_of_linked hoff ht)]
      exact he.mem_members (h.byClass c t ht)
    · rw [hself]
      exact (he.members _ t).mpr (.inr ⟨rfl, rfl⟩)

section Dequeued

variable (hd : Dequeued S S' cpu s (classOf (S.strand s))) (hcpu : (S.strand s).cpu = cpu)
include hd hcpu

theorem perm_dequeued : (S.rq cpu).linked.Perm (s :: (S'.rq cpu).linked) :=
  hd.linked (h.byClass cpu s (hcpu ▸ h.queued s hd.queued))

theorem mem_dequeued (c : CpuId) (t : StrandId) :
    t ∈ (S'.rq c).linked ↔ t ∈ (S.rq c).linked ∧ t ≠ s := by
  by_cases hc : c = cpu
  · subst hc
    have hperm := h.perm_dequeued hd hcpu
    have hnodup := hperm.nodup_iff.mp (h.once c)
    rw [nodup_cons] at hnodup
    rw [hperm.mem_iff, mem_cons]
    constructor
    · exact fun ht => ⟨.inr ht, fun heq => hnodup.1 (heq ▸ ht)⟩
    · rintro ⟨rfl | ht, hne⟩
      · exact absurd rfl hne
      · exact ht
  · rw [hd.other c hc]
    refine ⟨fun ht => ⟨ht, fun heq => hc ?_⟩, And.left⟩
    subst heq
    exact (h.home c t ht).2.symm.trans hcpu

/-- A strand that is queued under its class is taken off. -/
theorem dequeued : Shelved S' := by
  have hmem := h.mem_dequeued hd hcpu
  refine ⟨fun c => ?_, fun c t ht => ?_, fun t ht => ?_, fun c t ht => ?_⟩
  · by_cases hc : c = cpu
    · subst hc
      exact ((h.perm_dequeued hd hcpu).nodup_iff.mp (h.once c)).of_cons
    · rw [hd.other c hc]
      exact h.once c
  · obtain ⟨ht, hne⟩ := (hmem c t).mp ht
    rw [hd.strand_of_ne hne]
    exact h.home c t ht
  · by_cases hts : t = s
    · rw [hts, hd.self] at ht
      cases ht
    · rw [hd.strand_of_ne hts] at ht ⊢
      exact (hmem _ t).mpr ⟨h.queued t ht, hts⟩
  · obtain ⟨ht, hne⟩ := (hmem c t).mp ht
    rw [hd.strand_of_ne hne]
    exact hd.mem_members hne (h.byClass c t ht)

end Dequeued

/-- Writes that leave marks, places and classes. -/
theorem same (hplace : ∀ t, (S'.strand t).onRq = (S.strand t).onRq ∧
    (S'.strand t).cpu = (S.strand t).cpu)
    (hclass : ∀ t, (S.strand t).onRq = true → classOf (S'.strand t) = classOf (S.strand t))
    (hlinked : ∀ c, (S'.rq c).linked = (S.rq c).linked)
    (hmembers : ∀ c k, (S'.rq c).members k = (S.rq c).members k) : Shelved S' where
  once c := hlinked c ▸ h.once c
  home c t ht := by
    rw [(hplace t).1, (hplace t).2]
    exact h.home c t (hlinked c ▸ ht)
  queued t ht := by
    rw [(hplace t).2, hlinked]
    exact h.queued t ((hplace t).1 ▸ ht)
  byClass c t ht := by
    rw [hlinked] at ht
    rw [hmembers, hclass t (h.home c t ht).1]
    exact h.byClass c t ht

/-- A strand off the queues may be written as a whole. -/
theorem renew (st : Strand) (hoff : (S.strand s).onRq = false) (hst : st.onRq = false) :
    Shelved (S.setStrand s st) := by
  have hother : ∀ t, t ≠ s → (S.setStrand s st).strand t = S.strand t := fun t ht => by
    simp [update_of_ne ht]
  refine ⟨h.once, fun c t ht => ?_, fun t ht => ?_, fun c t ht => ?_⟩
  · rw [hother t (h.ne_of_linked hoff ht)]
    exact h.home c t ht
  · by_cases hts : t = s
    · rw [hts, System.setStrand_self, hst] at ht
      cases ht
    · rw [hother t hts] at ht ⊢
      exact h.queued t ht
  · rw [hother t (h.ne_of_linked hoff ht)]
    exact h.byClass c t ht

end Shelved

theorem members_setCurr (S : System) (cpu : CpuId) (v : Option StrandId) (c : CpuId)
    (k : SchedClassId) :
    ((S.setRq cpu { S.rq cpu with curr := v }).rq c).members k = (S.rq c).members k := by
  by_cases hc : c = cpu
  · subst hc
    cases k <;> simp [members]
  · simp [update_of_ne hc]

theorem linked_setCurr (S : System) (cpu : CpuId) (v : Option StrandId) (c : CpuId) :
    ((S.setRq cpu { S.rq cpu with curr := v }).rq c).linked = (S.rq c).linked :=
  linked_congr (members_setCurr S cpu v c)

theorem Shelved.setCurr (h : Shelved S) {v : Option StrandId} :
    Shelved (S.setRq cpu { S.rq cpu with curr := v }) :=
  h.same (fun _ => ⟨rfl, rfl⟩) (fun _ _ => rfl) (linked_setCurr S cpu v) (members_setCurr S cpu v)

/-! ## The fair class -/

theorem Fair.link_enqueued : Enqueued S (link S cpu s) cpu s .fair where
  strand := ⟨_, rfl⟩
  other c hc := update_of_ne hc _ _
  members j t := by
    cases j <;> simp [link, avgVruntimeAdd, members, Fair.mem_insertNode, or_comm]
  linked := by
    simp only [link, System.setRq_rq, update_self, linked, avgVruntimeAdd, append_assoc]
    exact (Fair.perm_insertNode _ s _).append_right _
  nrRunning := by simp [link, avgVruntimeAdd]
  curr := by simp [link, avgVruntimeAdd]
  idleStrand := by simp [link, avgVruntimeAdd]
  bandwidth := by simp [link, avgVruntimeAdd]
  frame := rfl

theorem Fair.enqueue_ok (h : Fair.enqueue S cpu s = .ok S') : Enqueued S S' cpu s .fair := by
  unfold Fair.enqueue at h
  split at h
  · cases h
  · cases h
    exact Fair.link_enqueued

/-- Nothing happens to an unmarked strand. -/
theorem Fair.dequeue_cases :
    (S.strand s).onRq = false ∧ dequeue S cpu s = S ∨ Dequeued S (dequeue S cpu s) cpu s .fair := by
  cases hq : (S.strand s).onRq with
  | false => exact .inl ⟨rfl, by simp [dequeue, hq]⟩
  | true =>
  simp only [dequeue, hq, avgVruntimeSub]
  right
  exact
    { queued := hq
      strand := by simp
      other := fun c hc => by simp [update_of_ne hc]
      members := fun j => by cases j <;> simp [members]
      nrRunning := fun hpos => by simp [Fair.decNrRunning, Nat.ne_of_gt hpos]
      curr := by simp
      idleStrand := by simp
      bandwidth := by simp
      frame := by simp; rfl }

/-! ## The dispatch -/

/-- The classes with a list queue at its end. -/
theorem enqueued_append {rq : RunQueue}
    (hmem : ∀ j, rq.members j = if j = k then (S.rq cpu).members j ++ [s] else (S.rq cpu).members j)
    (hlinked : rq.linked.Perm (s :: (S.rq cpu).linked))
    (hrest : rq.nrRunning = (S.rq cpu).nrRunning + 1 ∧ rq.curr = (S.rq cpu).curr ∧
      rq.idleStrand = (S.rq cpu).idleStrand ∧ rq.rtBw = (S.rq cpu).rtBw) :
    Enqueued S
      ((S.setStrand s { S.strand s with onRq := true, lastQueued := k, lastRq := cpu }).setRq
      cpu rq) cpu s k where
  strand := ⟨(S.strand s).se, rfl⟩
  other c hc := update_of_ne hc _ _
  members j t := by
    simp only [System.setRq_rq, update_self, hmem]
    split <;> simp [*]
  linked := by simpa using hlinked
  nrRunning := by simpa using hrest.1
  curr := by simpa using hrest.2.1
  idleStrand := by simpa using hrest.2.2.1
  bandwidth := by simpa using hrest.2.2.2
  frame := rfl

/-- A successful enqueue puts the strand on the structure of its class, or changes nothing: for an
idle strand, and for an admitted one that is queued already. -/
theorem Classed.enqueue_ok (h : enqueue S cpu s = .ok S') :
    S' = S ∧ ((S.strand s).idle = true ∨ (S.strand s).onRq = true) ∨
      (S.strand s).idle = false ∧ Enqueued S S' cpu s (classOf (S.strand s)) := by
  have hidle : classOf (S.strand s) ≠ .idle → (S.strand s).idle = false := by
    intro hne
    cases hi : (S.strand s).idle with
    | false => rfl
    | true => simp [classOf, hi] at hne
  unfold enqueue at h
  cases hk : classOf (S.strand s) with
  | idle =>
    rw [hk] at h
    cases h
    refine .inl ⟨rfl, .inl ?_⟩
    by_contra hi
    simp only [classOf, if_neg hi] at hk
    split_ifs at hk
  | fair =>
    rw [hk] at h
    exact .inr ⟨hidle (by simp [hk]), Fair.enqueue_ok h⟩
  | rt =>
    rw [hk] at h
    simp only [Rt.enqueue] at h
    split_ifs at h with h₁ h₂ h₃
    · cases h
      exact .inl ⟨rfl, .inr h₂⟩
    cases h
    refine .inr ⟨hidle (by simp [hk]), enqueued_append (fun j => ?_) ?_ ⟨rfl, rfl, rfl, rfl⟩⟩
    · cases j <;> simp [members]
    simp only [linked]
    have : (S.rq cpu).fairTree ++ ((S.rq cpu).rtQueue ++ [s]) ++ (S.rq cpu).deadlineQueue =
        ((S.rq cpu).fairTree ++ (S.rq cpu).rtQueue) ++ s :: (S.rq cpu).deadlineQueue := by simp
    rw [this]
    exact perm_middle
  | deadline =>
    rw [hk] at h
    simp only [Deadline.enqueue] at h
    split_ifs at h with h₁ h₂
    · cases h
      exact .inl ⟨rfl, .inr h₂⟩
    cases h
    refine .inr ⟨hidle (by simp [hk]), enqueued_append (fun j => ?_) ?_ ⟨rfl, rfl, rfl, rfl⟩⟩
    · cases j <;> simp [members]
    · simp only [linked, ← append_assoc]
      exact perm_append_singleton s _

theorem Classed.dequeue_cases :
    ((S.strand s).onRq = false ∨ (S.strand s).idle = true) ∧ dequeue S cpu s = S ∨
      Dequeued S (dequeue S cpu s) cpu s (classOf (S.strand s)) := by
  unfold dequeue
  cases hk : classOf (S.strand s) with
  | idle =>
    refine .inl ⟨.inr ?_, rfl⟩
    by_contra hi
    simp only [classOf, if_neg hi] at hk
    split_ifs at hk
  | fair => exact Fair.dequeue_cases.imp (fun h => ⟨.inl h.1, h.2⟩) id
  | rt | deadline =>
    cases hq : (S.strand s).onRq with
    | false => exact .inl ⟨.inl rfl, by simp [Rt.dequeue, Deadline.dequeue, hq]⟩
    | true =>
    simp only [Rt.dequeue, Deadline.dequeue, hq]
    right
    exact
      { queued := hq
        strand := by simp
        other := fun c hc => by simp [update_of_ne hc]
        members := fun j => by cases j <;> simp [members]
        nrRunning := fun _ => by simp
        curr := by simp
        idleStrand := by simp
        bandwidth := by simp
        frame := by simp; rfl }

/-- A dequeue leaves the system as it is or takes one link out. -/
@[elab_as_elim]
theorem Classed.dequeue_rule {motive : System → Prop} (skip : motive S)
    (taken : ∀ S', Dequeued S S' cpu s (classOf (S.strand s)) → motive S') :
    motive (dequeue S cpu s) := by
  rcases dequeue_cases with ⟨_, heq⟩ | hd
  · rwa [heq]
  · exact taken _ hd

end ZXFoundation.Sched
