import ZXFoundation.Base
import ZXFoundation.Lib.Ring

/-!
# Signals

`zxfoundation/dgp/signal.zcomponent`: the bounded queue of signals that every domain embeds
(`types.cxxm` and the queue part of `core.cxx`), and what a signal does to a domain that does not
handle it.
-/

namespace ZXFoundation.Dgp.Signal

open Function

inductive SignalKind where
  | none | timer | io | fault | term | user0 | user1 | ipc
  deriving DecidableEq, Repr

def SignalKind.bit : SignalKind → UInt32
  | .none => 1
  | .timer => 2
  | .io => 4
  | .fault => 8
  | .term => 16
  | .user0 => 32
  | .user1 => 64
  | .ipc => 128

inductive SignalDefault where
  | ignore | terminate | notify
  deriving DecidableEq, Repr

/-- `signal_handler_info`; the handler is the address of its function. -/
structure SignalHandlerInfo where
  handler : Option UInt64 := none
  userData : UInt64 := 0
  default : SignalDefault := .ignore
  deriving DecidableEq, Repr

structure SignalEntry where
  kind : SignalKind := .none
  data : UInt64 := 0
  deriving DecidableEq, Repr

def signalQueueDepth : Nat := 16

/-- `signal_queue`: a ring of entries, and the handlers by kind. -/
structure SignalQueue where
  entries : Nat → SignalEntry := fun _ => {}
  head : Nat := 0
  tail : Nat := 0
  count : Nat := 0
  pendingMask : UInt32 := 0
  blockedMask : UInt32 := 0
  handlers : SignalKind → SignalHandlerInfo := fun _ => {}

variable (q : SignalQueue)

/-- `signal_queue::enqueue`. A full queue loses its oldest entry. -/
def SignalQueue.enqueue (kind : SignalKind) (data : UInt64) : SignalQueue :=
  let q := if q.count ≥ signalQueueDepth then
      { q with head := (q.head + 1) % signalQueueDepth, count := q.count - 1 }
    else q
  { q with
    entries := update q.entries q.tail ⟨kind, data⟩
    tail := (q.tail + 1) % signalQueueDepth
    count := q.count + 1
    pendingMask := q.pendingMask ||| kind.bit }

/-- `signal_queue::dequeue`. An empty queue gives a null entry. -/
def SignalQueue.dequeue : SignalEntry × SignalQueue :=
  if q.count = 0 then ({}, q)
  else
    (q.entries q.head,
      { q with
        entries := update q.entries q.head {}
        head := (q.head + 1) % signalQueueDepth
        count := q.count - 1
        pendingMask := if q.count - 1 = 0 then 0 else q.pendingMask })

def SignalQueue.block (mask : UInt32) : SignalQueue :=
  { q with blockedMask := mask }

def SignalEntry.deliverable (e : SignalEntry) (mask : UInt32) : Bool :=
  e.kind != .none && mask &&& e.kind.bit == 0

/-- The outer loop of `signal_deliver_one`: how far behind the head the entry is that it takes. -/
def SignalQueue.firstDeliverable : Option Nat :=
  (List.range q.count).find? fun i =>
    (q.entries ((q.head + i) % signalQueueDepth)).deliverable q.blockedMask

/-- The entry at the head leaves by the head, any other by closing the gap behind it. -/
def SignalQueue.removeAt (idx : Nat) : SignalQueue :=
  if idx = q.head then
    { q with
      entries := update q.entries q.head {}
      head := (q.head + 1) % signalQueueDepth
      count := q.count - 1 }
  else
    -- `tail` is not touched
    let last := (q.head + (q.count - 1)) % signalQueueDepth
    { q with
      entries :=
        update (Ring.shiftDown signalQueueDepth last signalQueueDepth q.entries idx) last {}
      count := q.count - 1 }

/-- The kinds of the entries, as `signal_deliver_one` collects them. -/
def SignalQueue.collectMask : UInt32 :=
  (List.range q.count).foldl (fun mask r =>
    let kind := (q.entries ((q.head + r) % signalQueueDepth)).kind
    if kind = .none then mask else mask ||| kind.bit) 0

/-- `signal_deliver_one` up to the call of `deliver_entry`, with the entry it hands over. -/
def SignalQueue.deliverOne : Option SignalEntry × SignalQueue :=
  match q.firstDeliverable with
  | none => (none, q)
  | some i =>
    let idx := (q.head + i) % signalQueueDepth
    let q' := q.removeAt idx
    (some (q.entries idx), { q' with pendingMask := q'.collectMask })

/-- The default action of `deliver_entry`: faults and termination requests that nobody registered
for terminate the domain. -/
def SignalHandlerInfo.effectiveDefault (info : SignalHandlerInfo) (kind : SignalKind) :
    SignalDefault :=
  match info.handler, kind with
  | none, .fault => .terminate
  | none, .term => .terminate
  | _, _ => info.default

/-!
## The signal queue as a bounded list

The ring of `signal_queue` stands for a list of signals, oldest first, and a mask of blocked kinds:
`Pending`. `enqueue` appends and drops the oldest signal of a full list, `dequeue` takes the oldest,
and `signal_deliver_one` the oldest whose kind is not blocked.

A run of the ring agrees with the list exactly as long as `signal_deliver_one` only ever takes the
oldest signal. Removal from the middle moves the younger entries up but leaves `tail` where it was.
-/

open Ring List

/-! ## What the queue is for -/

/-- The signals that wait for a domain, and the kinds it blocks. -/
structure Pending where
  signals : List SignalEntry := []
  blocked : UInt32 := 0
  deriving DecidableEq, Repr

namespace Pending

def enqueue (p : Pending) (e : SignalEntry) : Pending :=
  { p with
    signals := (if p.signals.length ≥ signalQueueDepth then p.signals.tail else p.signals) ++ [e] }

def dequeue (p : Pending) : SignalEntry × Pending :=
  (p.signals.head?.getD {}, { p with signals := p.signals.tail })

def unblocked (p : Pending) (e : SignalEntry) : Bool := p.blocked &&& e.kind.bit == 0

def deliverOne (p : Pending) : Option SignalEntry × Pending :=
  (p.signals.find? p.unblocked, { p with signals := p.signals.eraseP p.unblocked })

/-- The first entry whose kind is not blocked, if there is one, is the oldest, and it is a
signal. -/
def Prompt (p : Pending) : Prop :=
  (∀ e ∈ p.signals, p.unblocked e = false) ∨
    ∃ e l, p.signals = e :: l ∧ p.unblocked e = true ∧ e.kind ≠ .none

end Pending

/-! ## Calls -/

/-- A call on the queue of one domain. -/
inductive QueueCall where
  | enqueue (kind : SignalKind) (data : UInt64)
  | dequeue
  | block (mask : UInt32)
  | deliverOne
  deriving DecidableEq, Repr

def QueueCall.run (q : SignalQueue) : QueueCall → Option SignalEntry × SignalQueue
  | .enqueue kind data => (none, q.enqueue kind data)
  | .dequeue => (some q.dequeue.1, q.dequeue.2)
  | .block mask => (none, q.block mask)
  | .deliverOne => q.deliverOne

def QueueCall.spec (p : Pending) : QueueCall → Option SignalEntry × Pending
  | .enqueue kind data => (none, p.enqueue ⟨kind, data⟩)
  | .dequeue => (some p.dequeue.1, p.dequeue.2)
  | .block mask => (none, { p with blocked := mask })
  | .deliverOne => p.deliverOne

structure Represents (q : SignalQueue) (p : Pending) : Prop where
  holds : Holds signalQueueDepth q.entries q.head q.tail q.count p.signals
  blocked : q.blockedMask = p.blocked

/-- The ring and the list agree after every call, and in everything the calls hand out. -/
def Conforms (q : SignalQueue) (p : Pending) : List QueueCall → Prop
  | [] => Represents q p
  | c :: calls =>
    Represents q p ∧ (c.run q).1 = (c.spec p).1 ∧ Conforms (c.run q).2 (c.spec p).2 calls

/-- Whenever the run calls `signal_deliver_one`, it is the oldest signal's turn. -/
def PromptRun (p : Pending) : List QueueCall → Prop
  | [] => True
  | c :: calls => (c = .deliverOne → p.Prompt) ∧ PromptRun (c.spec p).2 calls

/-! ## One call -/

section Step

variable {q : SignalQueue} {p : Pending}

theorem represents_empty : Represents {} {} :=
  ⟨holds_nil (by decide), rfl⟩

theorem Represents.enqueue (h : Represents q p) {kind : SignalKind} {data : UInt64} :
    Represents (q.enqueue kind data) (p.enqueue ⟨kind, data⟩) := by
  have hlen := h.holds.count_eq
  unfold SignalQueue.enqueue Pending.enqueue
  by_cases hfull : q.count ≥ signalQueueDepth
  · -- a full ring first loses its oldest entry
    cases hsignals : p.signals with
    | nil =>
      rw [hlen, hsignals] at hfull
      exact absurd hfull (by decide)
    | cons e l =>
      have hholds := h.holds
      rw [hsignals] at hholds
      have hpop := hholds.pop (fun j _ => rfl : ∀ j, j ≠ q.head → q.entries j = q.entries j)
      rw [if_pos hfull, if_pos (by rwa [← hsignals, ← hlen])]
      exact ⟨hpop.push (Nat.lt_of_succ_le hholds.length_le), h.blocked⟩
  · rw [if_neg hfull, if_neg (by rwa [← hlen])]
    exact ⟨h.holds.push (by rw [← hlen]; omega), h.blocked⟩

theorem Represents.dequeue (h : Represents q p) :
    q.dequeue.1 = p.dequeue.1 ∧ Represents q.dequeue.2 p.dequeue.2 := by
  have hlen := h.holds.count_eq
  have hholds := h.holds
  unfold SignalQueue.dequeue Pending.dequeue
  cases hsignals : p.signals with
  | nil =>
    rw [hsignals] at hlen hholds
    rw [if_pos (show q.count = 0 from hlen)]
    exact ⟨rfl, hholds, h.blocked⟩
  | cons e l =>
    rw [hsignals] at hlen hholds
    rw [if_neg (by rw [hlen]; exact Nat.succ_ne_zero _)]
    refine ⟨hholds.front, ?_, h.blocked⟩
    exact hholds.pop fun j hj => Function.update_of_ne hj ..

variable {e : SignalEntry}

theorem SignalEntry.deliverable_iff (h : Represents q p) :
    e.deliverable q.blockedMask = true ↔ e.kind ≠ .none ∧ p.unblocked e = true := by
  rw [h.blocked]
  simp [SignalEntry.deliverable, Pending.unblocked]

/-- The ring has the list from its head on, wherever `tail` is. -/
abbrev Lists (q : SignalQueue) (l : List SignalEntry) : Prop :=
  Holds signalQueueDepth q.entries q.head (slot signalQueueDepth q.head q.count) q.count l

theorem Represents.lists (h : Represents q p) : Lists q p.signals := { h.holds with tail_eq := rfl }

variable {l : List SignalEntry}

theorem Lists.removeAt (h : Lists q l) {i : Nat} (hi : i < l.length) :
    let q' := q.removeAt (slot signalQueueDepth q.head i)
    Lists q' (l.eraseIdx i) ∧ q'.head = (if i = 0 then slot signalQueueDepth q.head 1 else q.head) ∧
      q'.tail = q.tail ∧ q'.blockedMask = q.blockedMask ∧ q'.handlers = q.handlers := by
  have hzero : slot signalQueueDepth q.head i = q.head ↔ i = 0 := by
    constructor
    · intro heq
      exact slot_inj (hi.trans_le h.length_le) (by decide) (heq.trans (slot_zero h.head_lt).symm)
    · rintro rfl
      exact slot_zero h.head_lt
  unfold SignalQueue.removeAt
  by_cases hi0 : i = 0
  · rw [if_pos (hzero.mpr hi0), if_pos hi0]
    cases l with
    | nil => cases hi
    | cons e l =>
      subst hi0
      exact ⟨{ h.pop fun j hj => Function.update_of_ne hj .. with tail_eq := rfl }, rfl, rfl,
        rfl, rfl⟩
  · rw [if_neg (mt hzero.mp hi0), if_neg hi0]
    exact ⟨h.remove hi le_rfl, rfl, rfl, rfl, rfl⟩

/-- `signal_deliver_one` hands out an entry from behind entries that it may not take. -/
structure Extracts (q q' : SignalQueue) (l₁ : List SignalEntry) (e : SignalEntry)
    (l₂ : List SignalEntry) :
    Prop where
  out : q.deliverOne = (some e, q')
  deliverable : e.deliverable q.blockedMask = true
  before : ∀ x ∈ l₁, x.deliverable q.blockedMask = false
  lists : Lists q' (l₁ ++ l₂)
  /-- Only removal from the front keeps `tail` in step. -/
  head : q'.head = if l₁ = [] then slot signalQueueDepth q.head 1 else q.head
  tail : q'.tail = q.tail
  blocked : q'.blockedMask = q.blockedMask
  handlers : q'.handlers = q.handlers
  pending : q'.pendingMask = q'.collectMask

theorem Lists.deliverOne (h : Lists q l) :
    (q.deliverOne = (none, q) ∧ ∀ e ∈ l, e.deliverable q.blockedMask = false) ∨
      ∃ q' l₁ e l₂, l = l₁ ++ e :: l₂ ∧ Extracts q q' l₁ e l₂ := by
  have hentry : ∀ i (hi : i < l.length), q.entries ((q.head + i) % signalQueueDepth) = l[i] :=
    h.entry
  cases hfirst : q.firstDeliverable with
  | none =>
    refine .inl ⟨by rw [SignalQueue.deliverOne, hfirst], fun e he => ?_⟩
    obtain ⟨i, hi, rfl⟩ := getElem_of_mem he
    have hnot := find?_eq_none.mp hfirst i (mem_range.mpr (h.count_eq ▸ hi))
    rwa [hentry i hi, Bool.not_eq_true] at hnot
  | some i =>
    obtain ⟨hfound, hmem, hbefore⟩ := find?_range_eq_some.mp hfirst
    have hi : i < l.length := h.count_eq ▸ mem_range.mp hmem
    obtain ⟨hlists, hhead, htail, hblocked, hhandlers⟩ := h.removeAt hi
    rw [hentry i hi] at hfound
    rw [eraseIdx_eq_take_drop_succ] at hlists
    have hnil : l.take i = [] ↔ i = 0 := by
      rw [take_eq_nil_iff, or_iff_left (ne_nil_of_length_pos (Nat.zero_lt_of_lt hi))]
    refine .inr ⟨q.deliverOne.2, l.take i, l[i], l.drop (i + 1), ?_, ?_⟩
    · rw [getElem_cons_drop, take_append_drop]
    rw [SignalQueue.deliverOne, hfirst]
    refine ⟨?_, hfound, fun x hx => ?_, hlists, ?_, htail, hblocked, hhandlers, rfl⟩
    · rw [SignalQueue.deliverOne, hfirst, ← hentry i hi]
    · obtain ⟨j, hj, rfl⟩ := mem_take_iff_getElem.mp hx
      have hlt : j < i := (lt_min_iff.mp hj).1
      have hnot := hbefore j hlt
      rwa [hentry j (hlt.trans hi), Bool.not_eq_true'] at hnot
    · simp only [hnil]
      exact hhead

theorem Represents.deliverOne_head (h : Represents q p) (hsignals : p.signals = e :: l)
    (hun : p.unblocked e = true) (hkind : e.kind ≠ .none) :
    q.deliverOne.1 = p.deliverOne.1 ∧ Represents q.deliverOne.2 p.deliverOne.2 := by
  have he : e.deliverable q.blockedMask = true := (SignalEntry.deliverable_iff h).mpr ⟨hkind, hun⟩
  have hspec : p.deliverOne = (some e, { p with signals := l }) := by
    unfold Pending.deliverOne
    rw [hsignals, find?_cons_of_pos hun, eraseP_cons_of_pos hun]
  rcases h.lists.deliverOne with ⟨-, hall⟩ | ⟨q', l₁, f, l₂, hl, hx⟩
  · rw [hall e (hsignals ▸ mem_cons_self)] at he
    cases he
  rw [hsignals] at hl
  cases l₁ with
  | cons x l₁ =>
    cases hl
    rw [hx.before e mem_cons_self] at he
    cases he
  | nil =>
    cases hl
    rw [hx.out, hspec]
    refine ⟨rfl, { hx.lists with tail_eq := ?_ }, hx.blocked.trans h.blocked⟩
    have hcount : q.count = 1 + q'.count := by
      rw [h.holds.count_eq, hx.lists.count_eq, hsignals]
      exact Nat.add_comm ..
    rw [hx.tail, hx.head, if_pos rfl, slot_slot, h.holds.tail_eq, hcount]

/-- **One `signal_deliver_one`** agrees with the list iff it is the oldest signal's turn. -/
theorem Represents.deliverOne_iff (h : Represents q p) :
    (q.deliverOne.1 = p.deliverOne.1 ∧ Represents q.deliverOne.2 p.deliverOne.2) ↔ p.Prompt := by
  rcases h.lists.deliverOne with ⟨hnone, hall⟩ | ⟨q', l₁, e, l₂, hl, hx⟩
  · rw [hnone]
    constructor
    · -- nothing is handed out, so nothing is unblocked
      rintro ⟨hout, -⟩
      exact .inl fun e he => Bool.eq_false_iff.mpr (find?_eq_none.mp hout.symm e he)
    rintro (hblocked | ⟨e, l, hsignals, hun, hkind⟩)
    · have hnot : ∀ e ∈ p.signals, ¬ p.unblocked e = true :=
        fun e he => Bool.eq_false_iff.mp (hblocked e he)
      unfold Pending.deliverOne
      rw [find?_eq_none.mpr hnot, eraseP_of_forall_not hnot]
      exact ⟨rfl, h⟩
    · exact hnone ▸ h.deliverOne_head hsignals hun hkind
  · obtain ⟨hkind, hun⟩ := (SignalEntry.deliverable_iff h).mp hx.deliverable
    constructor
    · rintro ⟨-, hafter⟩
      cases l₁ with
      | nil => exact .inr ⟨e, l₂, hl, hun, hkind⟩
      | cons x l₁ =>
      have hcount : q.count = q'.count + 1 := by
        rw [h.holds.count_eq, hx.lists.count_eq, hl, length_append, length_append]
        rfl
      have htail := hafter.holds.tail_eq
      rw [hx.out, hx.tail, hx.head, if_neg (cons_ne_nil _ _), h.holds.tail_eq, hcount] at htail
      exact absurd htail (slot_succ_ne (by decide))
    · rintro (hblocked | ⟨f, l, hsignals, hun, hkind⟩)
      · rw [hblocked e (by rw [hl]; simp)] at hun
        cases hun
      · exact h.deliverOne_head hsignals hun hkind

end Step

/-! ## Runs -/

variable {q : SignalQueue} {p : Pending}

theorem Represents.call (h : Represents q p) {c : QueueCall} :
    ((c.run q).1 = (c.spec p).1 ∧ Represents (c.run q).2 (c.spec p).2) ↔
      (c = .deliverOne → p.Prompt) := by
  cases c with
  | enqueue kind data => exact iff_of_true ⟨rfl, h.enqueue⟩ nofun
  | dequeue =>
    obtain ⟨hout, hafter⟩ := h.dequeue
    exact iff_of_true ⟨congrArg some hout, hafter⟩ nofun
  | block mask => exact iff_of_true ⟨rfl, h.holds, rfl⟩ nofun
  | deliverOne => exact h.deliverOne_iff.trans ⟨fun hprompt _ => hprompt, fun hturn => hturn rfl⟩

variable {calls : List QueueCall}

theorem Conforms.start (h : Conforms q p calls) : Represents q p := by
  cases calls with
  | nil => exact h
  | cons c calls => exact h.1

theorem Represents.conforms_iff : ∀ {q : SignalQueue} {p : Pending},
    Represents q p → (Conforms q p calls ↔ PromptRun p calls) := by
  induction calls with
  | nil => exact fun h => iff_of_true h trivial
  | cons c calls ih =>
    intro q p h
    constructor
    · rintro ⟨-, hout, hrest⟩
      exact ⟨h.call.mp ⟨hout, hrest.start⟩, (ih hrest.start).mp hrest⟩
    · rintro ⟨hprompt, hrest⟩
      obtain ⟨hout, hafter⟩ := h.call.mpr hprompt
      exact ⟨h, hout, (ih hafter).mpr hrest⟩

/-- **The signal queue is a bounded list** in exactly the runs in which `signal_deliver_one` never
passes over a blocked signal. -/
theorem signal_queue_fifo_iff (calls : List QueueCall) :
    Conforms {} {} calls ↔ PromptRun {} calls :=
  represents_empty.conforms_iff

def SignalQueue.handsOut (q : SignalQueue) : List QueueCall → List (Option SignalEntry)
  | [] => []
  | c :: calls => (c.run q).1 :: SignalQueue.handsOut (c.run q).2 calls

def Pending.handsOut (p : Pending) : List QueueCall → List (Option SignalEntry)
  | [] => []
  | c :: calls => (c.spec p).1 :: Pending.handsOut (c.spec p).2 calls

/-- `user1` is delivered past the blocked `user0`. The timer signal that comes next is lost, and an
empty entry is dequeued in its place. -/
theorem signal_lost_after_blocked :
    let calls : List QueueCall :=
    [.enqueue .user0 1, .enqueue .user1 2, .block SignalKind.user0.bit,
      .deliverOne, .enqueue .timer 3, .dequeue, .dequeue, .dequeue]
    SignalQueue.handsOut {} calls = [none, none, none, some ⟨.user1, 2⟩, none, some ⟨.user0, 1⟩,
      some {}, some {}] ∧
    Pending.handsOut {} calls = [none, none, none, some ⟨.user1, 2⟩, none, some ⟨.user0, 1⟩,
      some ⟨.timer, 3⟩, some {}] := by
  decide

end ZXFoundation.Dgp.Signal
