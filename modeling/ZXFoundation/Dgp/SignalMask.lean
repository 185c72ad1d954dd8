import ZXFoundation.Dgp.Signal

/-!
# The mask of pending kinds

`pending_mask` is to have the bit of a kind exactly when a queued signal is of that kind. Only
`signal_deliver_one` collects it afresh; `enqueue` adds a bit and `dequeue` clears all bits of a
queue that it empties. So a bit outlives the last signal of its kind when that signal is discarded
by a full queue or dequeued before others.
-/

namespace ZXFoundation.Dgp.Signal

open Ring List

/-- Bit `k` of the mask is set iff an entry between the cursors is of kind `k`. -/
def SignalQueue.Reflects (q : SignalQueue) : Prop :=
  ∀ k : SignalKind, q.pendingMask &&& k.bit ≠ 0 ↔
    ∃ i < q.count, (q.entries (slot signalQueueDepth q.head i)).kind = k

/-- The mask reflects the queue before, between and after the calls. -/
def ReflectsRun (q : SignalQueue) : List QueueCall → Prop
  | [] => q.Reflects
  | c :: calls => q.Reflects ∧ ReflectsRun (c.run q).2 calls

/-- No signal goes as the last of its kind by a way that leaves the mask alone, and none is left
without a kind when the mask is collected. -/
def Spares (p : Pending) : QueueCall → Prop
  | .enqueue kind _ =>
    ∀ e l, p.signals = e :: l → signalQueueDepth ≤ p.signals.length →
      e.kind = kind ∨ e.kind ∈ l.map (·.kind)
  | .dequeue => ∀ e l, p.signals = e :: l → l = [] ∨ e.kind ∈ l.map (·.kind)
  | .block _ => True
  | .deliverOne => (∀ e ∈ p.signals, p.unblocked e = false) ∨ .none ∉ p.signals.tail.map (·.kind)

def SparesRun (p : Pending) : List QueueCall → Prop
  | [] => True
  | c :: calls => Spares p c ∧ SparesRun (c.spec p).2 calls

/-! ## Bits -/

variable {k : SignalKind}

theorem SignalKind.bit_and_bit {k' : SignalKind} : k.bit &&& k'.bit ≠ 0 ↔ k = k' := by
  cases k <;> cases k' <;> decide

theorem or_and_bit {m m' : UInt32} :
    (m ||| m') &&& k.bit ≠ 0 ↔ m &&& k.bit ≠ 0 ∨ m' &&& k.bit ≠ 0 := by
  simp only [ne_eq, ← UInt32.toBitVec_inj, UInt32.toBitVec_and, UInt32.toBitVec_or]
  rw [BitVec.and_or_distrib_right, ← not_and_or]
  exact not_congr BitVec.or_eq_zero_iff

variable {q : SignalQueue} {p : Pending}

section

variable (h : Represents q p)
include h

theorem Represents.reflects_iff :
    q.Reflects ↔ ∀ k : SignalKind, q.pendingMask &&& k.bit ≠ 0 ↔ k ∈ p.signals.map (·.kind) := by
  refine forall_congr' fun k => iff_congr Iff.rfl ?_
  rw [h.holds.count_eq, mem_map]
  constructor
  · rintro ⟨i, hi, hkind⟩
    rw [h.holds.entry i hi] at hkind
    exact ⟨p.signals[i], getElem_mem hi, hkind⟩
  · rintro ⟨e, he, hkind⟩
    obtain ⟨i, hi, rfl⟩ := getElem_of_mem he
    exact ⟨i, hi, by rw [h.holds.entry i hi, hkind]⟩

omit h in
theorem foldl_bits {l : List SignalEntry} : ∀ m : UInt32,
    l.foldl (fun mask e => if e.kind = .none then mask else mask ||| e.kind.bit) m &&& k.bit ≠ 0 ↔
      m &&& k.bit ≠ 0 ∨ k ≠ .none ∧ k ∈ l.map (·.kind) := by
  induction l with
  | nil =>
    intro m
    simp
  | cons e l ih =>
    intro m
    rw [foldl_cons, ih, map_cons, mem_cons]
    by_cases hnone : e.kind = .none
    · rw [if_pos hnone, hnone]
      tauto
    rw [if_neg hnone, or_and_bit, SignalKind.bit_and_bit, eq_comm (a := e.kind)]
    by_cases hk : k = e.kind
    · subst hk
      tauto
    · tauto

theorem Represents.collectMask_and_bit :
    q.collectMask &&& k.bit ≠ 0 ↔ k ≠ .none ∧ k ∈ p.signals.map (·.kind) := by
  -- the loop over the places is a loop over the list
  have hlist : (range q.count).map (fun r => q.entries (slot signalQueueDepth q.head r)) =
    p.signals := by
    rw [h.holds.count_eq]
    refine ext_getElem (by simp) fun i hi hi' => ?_
    simpa using h.holds.entry i hi'
  have hcollect : q.collectMask =
      p.signals.foldl (fun mask e => if e.kind = .none then mask else mask ||| e.kind.bit) 0 := by
    rw [← hlist, foldl_map]
    rfl
  rw [hcollect, foldl_bits]
  simp

/-! ## One call -/

theorem Represents.enqueue_reflects_iff (hq : q.Reflects) {kind : SignalKind}
    {data : UInt64} : (q.enqueue kind data).Reflects ↔ Spares p (.enqueue kind data) := by
  have hmask : ∀ k, (q.enqueue kind data).pendingMask &&& k.bit ≠ 0 ↔
      k ∈ p.signals.map (·.kind) ∨ kind = k := by
    intro k
    have hor : (q.enqueue kind data).pendingMask = q.pendingMask ||| kind.bit := by
      unfold SignalQueue.enqueue
      split <;> rfl
    rw [hor, or_and_bit, SignalKind.bit_and_bit, h.reflects_iff.mp hq]
  rw [h.enqueue.reflects_iff]
  simp only [hmask, Pending.enqueue, Spares]
  by_cases hfull : p.signals.length ≥ signalQueueDepth
  · rw [if_pos hfull]
    cases hsignals : p.signals with
    | nil =>
      rw [hsignals] at hfull
      exact absurd hfull (by decide)
    | cons e l =>
      simp only [tail_cons, map_append, map_cons, map_nil, mem_append, mem_cons,
        not_mem_nil, or_false]
      constructor
      · intro hkinds e' l' heq _
        cases heq
        exact ((hkinds e.kind).mp (.inl (.inl rfl))).symm
      intro hspare k
      have hspare := hspare e l rfl (hsignals ▸ hfull)
      constructor
      · rintro ((rfl | hl) | rfl)
        · exact hspare.symm
        · exact .inl hl
        · exact .inr rfl
      · rintro (hl | rfl)
        · exact .inl (.inr hl)
        · exact .inr rfl
  · rw [if_neg hfull]
    refine iff_of_true (fun k => ?_) fun e l _ hle => absurd hle hfull
    rw [map_append, mem_append, map_singleton, mem_singleton, eq_comm (a := k)]

theorem Represents.dequeue_reflects_iff (hq : q.Reflects) :
    q.dequeue.2.Reflects ↔ Spares p .dequeue := by
  have hcount := h.holds.count_eq
  rw [h.dequeue.2.reflects_iff]
  unfold SignalQueue.dequeue Pending.dequeue Spares
  cases hsignals : p.signals with
  | nil =>
    rw [hsignals] at hcount
    rw [if_pos (show q.count = 0 from hcount)]
    refine iff_of_true (fun k => ?_) nofun
    rw [h.reflects_iff.mp hq, hsignals]
    rfl
  | cons e l =>
    rw [hsignals] at hcount
    rw [if_neg (by rw [hcount]; exact Nat.succ_ne_zero _), hcount]
    show (∀ k : SignalKind, (if l.length + 1 - 1 = 0 then 0 else q.pendingMask) &&& k.bit ≠ 0 ↔
      k ∈ l.map (·.kind)) ↔ _
    rw [Nat.add_sub_cancel]
    by_cases hl : l = []
    · subst hl
      exact iff_of_true (fun k => by simp) fun e' l' heq => by cases heq; exact .inl rfl
    rw [if_neg (by simpa using hl)]
    simp only [h.reflects_iff.mp hq, hsignals, map_cons, mem_cons]
    constructor
    · intro hkinds e' l' heq
      cases heq
      exact .inr ((hkinds e.kind).mp (.inl rfl))
    intro hspare k
    rw [or_iff_right_iff_imp]
    rintro rfl
    exact (hspare e l rfl).resolve_left hl

theorem Represents.deliverOne_reflects_iff (hq : q.Reflects) (hprompt : p.Prompt) :
    q.deliverOne.2.Reflects ↔ Spares p .deliverOne := by
  have hafter := (h.deliverOne_iff.mpr hprompt).2
  unfold Spares
  rcases h.lists.deliverOne with ⟨hsame, -⟩ | ⟨q', l₁, f, l₂, hl, hx⟩
  · refine iff_of_true (by rw [hsame]; exact hq) ?_
    rcases hprompt with hall | ⟨e, l, hsignals, hun, hkind⟩
    · exact .inl hall
    · have hout := (h.deliverOne_head hsignals hun hkind).1
      rw [hsame, Pending.deliverOne, hsignals, find?_cons_of_pos hun] at hout
      cases hout
  · have hun := ((SignalEntry.deliverable_iff h).mp hx.deliverable).2
    have hsome : ¬ ∀ e ∈ p.signals, p.unblocked e = false := by
      intro hall
      rw [hall f (by rw [hl]; simp)] at hun
      cases hun
    obtain ⟨e, l, hsignals, hune, -⟩ := hprompt.resolve_left hsome
    have hlist : p.deliverOne.2.signals = l := by
      rw [Pending.deliverOne, hsignals, eraseP_cons_of_pos hune]
    have hmask : q.deliverOne.2.pendingMask = q.deliverOne.2.collectMask := by
      rw [hx.out]
      exact hx.pending
    rw [hafter.reflects_iff, hmask, or_iff_right hsome, hsignals, tail_cons]
    simp only [hafter.collectMask_and_bit, hlist, and_iff_right_iff_imp]
    constructor
    · exact fun hall hnone => hall .none hnone rfl
    · rintro hnone k hk rfl
      exact hnone hk

/-! ## Runs -/

theorem Represents.call_reflects_iff (hq : q.Reflects) {c : QueueCall}
    (hprompt : c = .deliverOne → p.Prompt) : (c.run q).2.Reflects ↔ Spares p c := by
  cases c with
  | enqueue kind data => exact h.enqueue_reflects_iff hq
  | dequeue => exact h.dequeue_reflects_iff hq
  | block mask => exact iff_of_true hq trivial
  | deliverOne => exact h.deliverOne_reflects_iff hq (hprompt rfl)

end

variable {calls : List QueueCall}

theorem ReflectsRun.start (h : ReflectsRun q calls) : q.Reflects := by
  cases calls with
  | nil => exact h
  | cons c calls => exact h.1

theorem Represents.reflectsRun_iff : ∀ {q : SignalQueue} {p : Pending},
    Represents q p → q.Reflects → PromptRun p calls →
      (ReflectsRun q calls ↔ SparesRun p calls) := by
  induction calls with
  | nil => exact fun _ hq _ => iff_of_true hq trivial
  | cons c calls ih =>
    rintro q p h hq ⟨hprompt, hrest⟩
    have hafter := (h.call.mpr hprompt).2
    have hcall := h.call_reflects_iff hq hprompt
    constructor
    · rintro ⟨-, hrun⟩
      exact ⟨hcall.mp hrun.start, (ih hafter hrun.start hrest).mp hrun⟩
    · rintro ⟨hspare, hrun⟩
      have hq' := hcall.mpr hspare
      exact ⟨hq, (ih hafter hq' hrest).mpr hrun⟩

/-- **The mask reflects the queue** throughout a run in which `signal_deliver_one` takes the oldest
signal, exactly when no call lets the last signal of a kind go without the mask being collected, or
collects it past a signal of no kind. -/
theorem pending_mask_reflects_iff (calls : List QueueCall) (hprompt : PromptRun {} calls) :
    ReflectsRun {} calls ↔ SparesRun {} calls := by
  refine represents_empty.reflectsRun_iff (fun k => ?_) hprompt
  simp

/-- Two timer signals come and go. The first leaves while the second is queued, and with the second
the queue is empty: every call spares the mask. -/
theorem pending_mask_reflects_twoTimers :
    ReflectsRun {} [.enqueue .timer 1, .enqueue .timer 2, .dequeue, .dequeue] := by
  have hprompt : PromptRun {} [.enqueue .timer 1, .enqueue .timer 2, .dequeue, .dequeue] :=
    ⟨nofun, nofun, nofun, nofun, trivial⟩
  refine (pending_mask_reflects_iff _ hprompt).mpr
    ⟨nofun, fun e l h hle => absurd hle (by decide), fun e l h => ?_, fun e l h => ?_, trivial⟩
  · cases h
    exact .inr (by decide)
  · cases h
    exact .inl rfl

/-- The timer signal has been dequeued, no queued entry is of its kind, and its bit is still set. -/
theorem pending_mask_counterexample :
    let q := (QueueCall.run (QueueCall.run (QueueCall.run {} (.enqueue .timer 1)).2
      (.enqueue .io 2)).2 .dequeue).2
    q.pendingMask &&& SignalKind.timer.bit ≠ 0 ∧
      ∀ i < q.count, (q.entries (slot signalQueueDepth q.head i)).kind ≠ .timer := by
  decide

end ZXFoundation.Dgp.Signal
