import ZXFoundation.Dgp.Signal
import ZXFoundation.Scoms.Kobject

/-!
# Delivering all signals

`deliver_entry`, `signal_deliver_one` and the loop of `signal_deliver_all`, which `schedule` enters
after every switch. The loop asks whether the queue has entries; `signal_deliver_one` takes an entry
out only if its kind is not blocked. So an entry that is blocked, or that has no kind, keeps the
loop going for ever unless a signal before it ends the domain.

The ring is read from its head on and `tail` is not looked at, so the results hold for a ring whose
`tail` is out of step as well.
-/

namespace ZXFoundation.Dgp.Signal

open Ring Scoms List

/-- The part of a domain that the delivery works on: `ko.state`, `signal_queue` and `need_resched`
of `flags`. `delivered` lists the entries that were handed to `deliver_entry`. -/
structure Receiver where
  state : LifecycleState
  queue : SignalQueue
  needResched : Bool := false
  delivered : List SignalEntry := []

namespace Receiver

abbrev Handled := SignalHandlerInfo → SignalEntry → Bool

/-- `mark_dying`, and the flag that `deliver_entry` sets with it. -/
def markDying (d : Receiver) : Receiver :=
  { d with
    state := if transitionAdmits .dying d.state then .dying else d.state
    needResched := true }

def deliverEntry (handled : Handled) (d : Receiver) (entry : SignalEntry) : Bool × Receiver :=
  if entry.kind = .none then (false, d)
  else
    let info := d.queue.handlers entry.kind
    let d := { d with delivered := d.delivered ++ [entry] }
    if info.handler.isSome && handled info entry then (true, d)
    else match info.effectiveDefault entry.kind with
      | .terminate => (true, d.markDying)
      | .notify | .ignore => (true, d)

def deliverOne (handled : Handled) (d : Receiver) : Bool × Receiver :=
  match d.queue.deliverOne with
  | (none, _) => (false, d)
  | (some entry, q) => deliverEntry handled { d with queue := q } entry

/-- The loop of `signal_deliver_all`, for as many rounds as there is fuel. -/
def deliverAll (handled : Handled) : Nat → Receiver → Option (Bool × Receiver)
  | 0, _ => none
  | fuel + 1, d =>
    if d.queue.count = 0 then some (false, d)
    else
      let d := (d.deliverOne handled).2
      if d.state = .dying then some (true, d) else deliverAll handled fuel d

def signals (d : Receiver) : List SignalEntry :=
  (List.range d.queue.count).map fun i => d.queue.entries (slot signalQueueDepth d.queue.head i)

def Takes (d : Receiver) (e : SignalEntry) : Prop := e.deliverable d.queue.blockedMask = true

instance (d : Receiver) (e : SignalEntry) :
    Decidable (d.Takes e) := inferInstanceAs (Decidable (_ = true))

/-- The delivery of the entry makes the domain dying. -/
def EndedBy (handled : Handled) (d : Receiver) (e : SignalEntry) : Prop :=
  ¬ ((d.queue.handlers e.kind).handler.isSome = true ∧ handled (d.queue.handlers e.kind) e = true) ∧
    (d.queue.handlers e.kind).effectiveDefault e.kind = .terminate ∧
      transitionAdmits .dying d.state = true

/-- The loop ends, and it has delivered every signal that is not blocked or has found the domain
dying. -/
def Delivers (handled : Handled) (d : Receiver) : Prop :=
  ∃ fuel r d', d.deliverAll handled fuel = some (r, d') ∧
    (d'.state = .dying ∨ d'.delivered = d.delivered ++ d.signals.filter fun e => d.Takes e)

/-! ## One round -/

section Round

variable {handled : Handled} {d d' : Receiver} {e : SignalEntry} {l l₁ l₂ : List SignalEntry}

theorem lists_signals (hhead : d.queue.head < signalQueueDepth)
    (hcount : d.queue.count ≤ signalQueueDepth) :
    Lists d.queue d.signals where
  head_lt := hhead
  length_le := by simpa [signals] using hcount
  count_eq := by simp [signals]
  tail_eq := rfl
  entry i hi := by simp [signals]

/-- What a round does with the entry it takes. -/
structure Step (handled : Handled) (d d' : Receiver) (e : SignalEntry) (l : List SignalEntry) :
    Prop where
  lists : Lists d'.queue l
  mask : d'.queue.blockedMask = d.queue.blockedMask
  handlers : d'.queue.handlers = d.queue.handlers
  delivered : d'.delivered = d.delivered ++ [e]
  ended : d.EndedBy handled e → d'.state = .dying
  goes : ¬ d.EndedBy handled e → d'.state = d.state

theorem deliverOne_cases (h : Lists d.queue l) :
    ((d.deliverOne handled).2 = d ∧ ∀ e ∈ l, ¬ d.Takes e) ∨
    ∃ l₁ e l₂, l = l₁ ++ e :: l₂ ∧ d.Takes e ∧ (∀ x ∈ l₁, ¬ d.Takes x) ∧
      Step handled d (d.deliverOne handled).2 e (l₁ ++ l₂) := by
  rcases h.deliverOne with ⟨hnone, hall⟩ | ⟨q', l₁, e, l₂, hl, hx⟩
  · refine .inl ⟨?_, fun e he => Bool.eq_false_iff.mp (hall e he)⟩
    unfold deliverOne
    rw [hnone]
  refine .inr ⟨l₁, e, l₂, hl, hx.deliverable, fun y hy => Bool.eq_false_iff.mp (hx.before y hy), ?_⟩
  have hkind : e.kind ≠ .none := by
    have he := hx.deliverable
    simp only [SignalEntry.deliverable, Bool.and_eq_true, bne_iff_ne] at he
    exact he.1
  unfold deliverOne
  rw [hx.out]
  dsimp only
  unfold deliverEntry
  rw [if_neg hkind]
  dsimp only
  rw [hx.handlers]
  split_ifs with hdone
  · rw [Bool.and_eq_true] at hdone
    exact ⟨hx.lists, hx.blocked, hx.handlers, rfl, fun hend => absurd hdone hend.1, fun _ => rfl⟩
  rw [Bool.and_eq_true] at hdone
  cases hdef : (d.queue.handlers e.kind).effectiveDefault e.kind with
  | terminate =>
    refine ⟨hx.lists, hx.blocked, hx.handlers, rfl, fun hend => if_pos hend.2.2,
      fun hgoes => if_neg fun hadmits => ?_⟩
    exact hgoes ⟨hdone, hdef, hadmits⟩
  | notify | ignore =>
    refine ⟨hx.lists, hx.blocked, hx.handlers, rfl, fun hend => ?_, fun _ => rfl⟩
    rw [hend.2.1] at hdef
    cases hdef

theorem Step.takes_iff (h : Step handled d d' e l) {x : SignalEntry} : d'.Takes x ↔ d.Takes x := by
  unfold Takes
  rw [h.mask]

theorem Step.endedBy_iff (h : Step handled d d' e l) (hstate : d'.state = d.state)
    {x : SignalEntry} :
    d'.EndedBy handled x ↔ d.EndedBy handled x := by
  unfold EndedBy
  rw [h.handlers, hstate]

/-! ## The loop -/

/-- One of the signals that come through ends the domain: the loop ends with it or before. -/
theorem ends_of_endedBy {n : Nat} :
    ∀ {d : Receiver} {l : List SignalEntry}, l.length = n → Lists d.queue l →
    (∃ e ∈ l, d.Takes e ∧ d.EndedBy handled e) →
    ∃ fuel d', d.deliverAll handled fuel = some (true, d') ∧ d'.state = .dying := by
  induction n with
  | zero =>
    rintro d l hlen - ⟨e, he, -⟩
    rw [length_eq_zero_iff.mp hlen] at he
    cases he
  | succ n ih =>
    rintro d l hlen hlists ⟨e, he, htakes, hends⟩
    have hcount : d.queue.count ≠ 0 := by rw [hlists.count_eq]; omega
    rcases deliverOne_cases hlists with ⟨-, hnone⟩ | ⟨l₁, f, l₂, rfl, -, hbefore, hstep⟩
    · exact absurd htakes (hnone e he)
    by_cases hdying : (d.deliverOne handled).2.state = .dying
    · refine ⟨1, _, ?_, hdying⟩
      rw [deliverAll, if_neg hcount]
      exact if_pos hdying
    have hf : ¬ d.EndedBy handled f := fun hend => hdying (hstep.ended hend)
    have hrest : e ∈ l₁ ++ l₂ := by
      rcases mem_append.mp he with hin | hin
      · exact absurd htakes (hbefore e hin)
      · rcases mem_cons.mp hin with rfl | hin
        · exact absurd hends hf
        · exact mem_append_right _ hin
    obtain ⟨fuel, d', hrun, hstate⟩ := ih (by simp at hlen ⊢; omega) hstep.lists
      ⟨e, hrest, hstep.takes_iff.mpr htakes, (hstep.endedBy_iff (hstep.goes hf)).mpr hends⟩
    refine ⟨fuel + 1, d', ?_, hstate⟩
    rw [deliverAll, if_neg hcount]
    exact (if_neg hdying).trans hrun

theorem ends_of_all_takes : ∀ {d : Receiver}, Lists d.queue l → d.state ≠ .dying →
    (∀ e ∈ l, d.Takes e) → (∀ e ∈ l, ¬ d.EndedBy handled e) →
    ∃ fuel d', d.deliverAll handled fuel = some (false, d') ∧ d'.delivered = d.delivered ++ l := by
  induction l with
  | nil =>
    intro d hlists _ _ _
    refine ⟨1, d, ?_, (append_nil _).symm⟩
    exact if_pos hlists.count_eq
  | cons e l ih =>
    intro d hlists hdying htakes hends
    have hcount : d.queue.count ≠ 0 := by rw [hlists.count_eq]; exact Nat.succ_ne_zero _
    rcases deliverOne_cases hlists with ⟨-, hnone⟩ | ⟨l₁, f, l₂, hl, -, hbefore, hstep⟩
    · exact absurd (htakes e mem_cons_self) (hnone e mem_cons_self)
    -- the first entry is the one that is taken
    cases l₁ with
    | cons x l₁ =>
      cases hl
      exact absurd (htakes e mem_cons_self) (hbefore e mem_cons_self)
    | nil =>
      cases hl
      have hstate := hstep.goes (hends e mem_cons_self)
      obtain ⟨fuel, d', hrun, hlog⟩ := ih hstep.lists (by rwa [hstate])
        (fun x hx => hstep.takes_iff.mpr (htakes x (mem_cons_of_mem _ hx)))
        fun x hx hend => hends x (mem_cons_of_mem _ hx) ((hstep.endedBy_iff hstate).mp hend)
      refine ⟨fuel + 1, d', ?_, by rw [hlog, hstep.delivered, append_assoc]; rfl⟩
      rw [deliverAll, if_neg hcount]
      exact (if_neg (by rwa [hstate])).trans hrun

/-- An entry that is never taken, with none before or behind it that ends the domain, keeps the loop
going. -/
theorem never_ends {fuel : Nat} :
    ∀ {d : Receiver} {l : List SignalEntry}, Lists d.queue l → d.state ≠ .dying →
    (∃ e ∈ l, ¬ d.Takes e) → (∀ e ∈ l, d.Takes e → ¬ d.EndedBy handled e) →
    d.deliverAll handled fuel = none := by
  induction fuel with
  | zero =>
    intro d l _ _ _ _
    rfl
  | succ fuel ih =>
    rintro d l hlists hdying ⟨e, he, hblocked⟩ hends
    have hcount : d.queue.count ≠ 0 := by
      rw [hlists.count_eq]
      exact (length_pos_of_mem he).ne'
    rw [deliverAll, if_neg hcount]
    dsimp only
    rcases deliverOne_cases hlists with ⟨hsame, -⟩ | ⟨l₁, f, l₂, rfl, hf, -, hstep⟩
    · rw [hsame, if_neg hdying]
      exact ih hlists hdying ⟨e, he, hblocked⟩ hends
    have hstate := hstep.goes (hends f (by simp) hf)
    have hkeep : ∀ x ∈ l₁ ++ l₂, x ∈ l₁ ++ f :: l₂ := fun x hx => by
      rw [mem_append] at hx ⊢
      exact hx.imp_right (mem_cons_of_mem f)
    have hrest : e ∈ l₁ ++ l₂ := by
      rw [mem_append, mem_cons] at he
      rcases he with hin | rfl | hin
      · exact mem_append_left _ hin
      · exact absurd hf hblocked
      · exact mem_append_right _ hin
    rw [if_neg (by rwa [hstate])]
    refine ih hstep.lists (by rwa [hstate]) ⟨e, hrest, mt hstep.takes_iff.mp hblocked⟩
      fun x hx htakes hend => ?_
    exact hends x (hkeep x hx) (hstep.takes_iff.mp htakes) ((hstep.endedBy_iff hstate).mp hend)

end Round

/-- The delivery ends as it should exactly when the queue is empty, the domain is dying already, no
queued entry is blocked or without a kind, or one of the signals that come through ends the
domain. -/
theorem signal_delivery_ends_iff (handled : Handled) (d : Receiver)
    (hhead : d.queue.head < signalQueueDepth)
    (hcount : d.queue.count ≤ signalQueueDepth) :
    d.Delivers handled ↔ d.state = .dying ∨ (∀ e ∈ d.signals, d.Takes e) ∨
      ∃ e ∈ d.signals, d.Takes e ∧ d.EndedBy handled e := by
  have hlists := lists_signals hhead hcount
  by_cases hends : ∃ e ∈ d.signals, d.Takes e ∧ d.EndedBy handled e
  · obtain ⟨fuel, d', hrun, hstate⟩ := ends_of_endedBy rfl hlists hends
    exact iff_of_true ⟨fuel, true, d', hrun, .inl hstate⟩ (.inr (.inr hends))
  have hnone : ∀ e ∈ d.signals, d.Takes e → ¬ d.EndedBy handled e := fun e he htakes hend =>
    hends ⟨e, he, htakes, hend⟩
  by_cases hdying : d.state = .dying
  · refine iff_of_true ?_ (.inl hdying)
    by_cases hzero : d.queue.count = 0
    · exact ⟨1, false, d, if_pos hzero, .inl hdying⟩
    -- the first round finds the domain dying, whatever it delivers
    have hstate : (d.deliverOne handled).2.state = .dying := by
      rcases deliverOne_cases hlists with ⟨hsame, -⟩ | ⟨l₁, f, l₂, hl, hf, -, hstep⟩
      · rw [hsame, hdying]
      · rw [hstep.goes (hnone f (by rw [hl]; simp) hf), hdying]
    refine ⟨1, true, _, ?_, .inl hstate⟩
    rw [deliverAll, if_neg hzero]
    exact if_pos hstate
  by_cases hall : ∀ e ∈ d.signals, d.Takes e
  · obtain ⟨fuel, d', hrun, hlog⟩ := ends_of_all_takes hlists hdying hall fun e he =>
      hnone e he (hall e he)
    refine iff_of_true ⟨fuel, false, d', hrun, .inr ?_⟩ (.inr (.inl hall))
    rw [hlog, List.filter_eq_self.mpr fun e he => decide_eq_true (hall e he)]
  have hblocked : ∃ e ∈ d.signals, ¬ d.Takes e := by simpa using hall
  refine iff_of_false ?_ (not_or.mpr ⟨hdying, not_or.mpr ⟨hall, hends⟩⟩)
  rintro ⟨fuel, r, d', hrun, -⟩
  rw [never_ends hlists hdying hblocked hnone] at hrun
  cases hrun

/-- The timer signal is blocked, the one for I/O is notified, and the last one ends the domain. -/
def threeSignals : Receiver where
  state := .active
  queue := { ((SignalQueue.enqueue {} .timer 1).enqueue .io 2).enqueue .term 3 with
    blockedMask := SignalKind.timer.bit }

theorem signal_delivery_ends_threeSignals :
    (∃ e ∈ threeSignals.signals, ¬ threeSignals.Takes e) ∧
      threeSignals.Delivers fun _ _ => false := by
  refine ⟨⟨⟨.timer, 1⟩, by decide, by decide⟩, ?_⟩
  refine (signal_delivery_ends_iff _ threeSignals (by decide) (by decide)).mpr (.inr (.inr ?_))
  exact ⟨⟨.term, 3⟩, by decide, by decide, by decide, rfl, rfl⟩

def oneTimer (blocked : UInt32) : Receiver where
  state := .active
  queue := { SignalQueue.enqueue {} .timer 1 with blockedMask := blocked }

/-- The signal is blocked, and no number of rounds is enough. -/
theorem signal_delivery_hangs : ¬ (oneTimer SignalKind.timer.bit).Delivers fun _ _ => false := by
  rintro ⟨fuel, r, d', hrun, -⟩
  have hlists := lists_signals (d := oneTimer SignalKind.timer.bit) (by decide) (by decide)
  rw [never_ends hlists (by decide) ⟨⟨.timer, 1⟩, by decide, by decide⟩ ?_] at hrun
  · cases hrun
  intro e he htakes
  have hall : ∀ e ∈ (oneTimer SignalKind.timer.bit).signals,
    ¬ (oneTimer SignalKind.timer.bit).Takes e := by
    decide
  exact absurd htakes (hall e he)

end Receiver

end ZXFoundation.Dgp.Signal
