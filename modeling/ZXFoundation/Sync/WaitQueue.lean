import Mathlib.Data.List.Chain
import Mathlib.Data.List.Nodup
import ZXFoundation.Lib.Run

/-!
# Wait queues

`sync/waitqueue.zcomponent/core.cxx` on the circular lists of `lib/list.cxxm`: an entry waits on the
stack of its owner and is linked into the queue by address; the sentinel of the queue is one more
node.

The loop of `wake_up` goes on from the node it has just removed. `list_head::remove` links that node
to itself, so the iterator never leaves it.
-/

namespace ZXFoundation.Sync.WaitQueue

open Function List

abbrev Addr := Nat

inductive WaitResult where
  | woken | timeout | interrupted
  deriving DecidableEq, Repr

/-- `wait_entry` without its node. -/
structure WaitEntry where
  flags : Nat := 0
  result : WaitResult := .woken
  active : Bool := false
  domainId : Nat := 0xFFFFFFFF
  deriving DecidableEq, Repr

/-- The nodes and entries by address. A node that is in no list is linked to itself. -/
structure Memory where
  next : Addr → Addr := id
  prev : Addr → Addr := id
  entry : Addr → WaitEntry := fun _ => {}

namespace Memory

variable (m : Memory) (wq : Addr)

/-! ## Lists -/

/-- `list_head::remove`. -/
def remove (node : Addr) : Memory :=
  let m := { m with next := update m.next (m.prev node) (m.next node) }
  let m := { m with prev := update m.prev (m.next node) (m.prev node) }
  { m with next := update m.next node node, prev := update m.prev node node }

/-- `list_head::push_back`. -/
def pushBack (node : Addr) : Memory :=
  let last := m.prev wq
  let m := { m with prev := update m.prev node last }
  let m := { m with next := update m.next last node }
  let m := { m with next := update m.next node wq }
  { m with prev := update m.prev wq node }

/-! ## Queues -/

def prepareToWait (entry : Addr) (flags domainId : Nat) : Memory :=
  { m with entry := update m.entry entry { flags, result := .woken, active := true, domainId }
    }.pushBack wq entry

def finishWait (entry : Addr) : Memory :=
  if (m.entry entry).active then
    let m := m.remove entry
    { m with entry := update m.entry entry { m.entry entry with active := false } }
  else m

/-- What both wakers do with an entry. -/
def wake (entry : Addr) : Memory :=
  { m with entry := update m.entry entry { m.entry entry with result := .woken, active := false }
    }.remove entry

/-- The loop of `wake_up` from a position of the iterator; `none` if it takes more turns. -/
def wakeFrom : Nat → Addr → Memory → Option Memory
  | 0, _, _ => none
  | turns + 1, node, m => if node = wq then some m
    else wakeFrom turns ((m.wake node).next node) (m.wake node)

def wakeUp (turns : Nat) : Option Memory := wakeFrom wq turns (m.next wq) m

def wakeUpOne : Memory := if m.next wq = wq then m else m.wake (m.next wq)

/-- Two nodes one after the other. -/
def Adjacent (a b : Addr) : Prop := m.next a = b ∧ m.prev b = a

/-- The entries wait in the queue, in this order. -/
structure Waiting (es : List Addr) : Prop where
  nodup : (wq :: es).Nodup
  linked : (wq :: es ++ [wq]).IsChain m.Adjacent
  active : ∀ e ∈ es, (m.entry e).active = true

/-- The entry is in no list and its owner may go on. -/
structure Released (e : Addr) : Prop where
  unlinked : m.next e = e ∧ m.prev e = e
  inactive : (m.entry e).active = false
  woken : (m.entry e).result = .woken

end Memory

open WaitQueue.Memory

variable {m : Memory} {wq e : Addr} {es : List Addr}

theorem wake_next_self : (m.wake e).next e = e := update_self ..

theorem wakeFrom_eq_none {turns : Nat} (he : e ≠ wq) : wakeFrom wq turns e m = none := by
  induction turns generalizing m with
  | zero => rfl
  | succ turns ih =>
    rw [wakeFrom, if_neg he, wake_next_self]
    exact ih

theorem released_wake : Released (m.wake e) e :=
  ⟨⟨update_self .., update_self ..⟩, by simp [wake, remove], by simp [wake, remove]⟩

theorem Memory.Waiting.next_first (h : Waiting m wq (e :: es)) : m.next wq = e ∧ e ≠ wq :=
  ⟨(isChain_cons_cons.mp h.linked).1.1, fun heq => (nodup_cons.mp h.nodup).1 (heq ▸ mem_cons_self)⟩

/-- The first entry leaves the queue. The links of the others tell which nodes the removal writes
to. -/
theorem Memory.Waiting.wake (h : Waiting m wq (e :: es)) : Waiting (m.wake e) wq es := by
  obtain ⟨hwq, he, hnodup⟩ : wq ∉ e :: es ∧ e ∉ es ∧ es.Nodup := by simpa using h.nodup
  obtain ⟨b, rest, hb⟩ : ∃ b rest, es ++ [wq] = b :: rest := exists_cons_of_ne_nil (by simp)
  have heb : e ∉ b :: rest := by
    rw [← hb]
    simp [he, Ne.symm (ne_of_not_mem_cons hwq)]
  have hlinked := h.linked
  simp only [cons_append, hb, isChain_cons_cons] at hlinked
  obtain ⟨⟨hnext, hprev⟩, ⟨hnext', hprev'⟩, hrest⟩ := hlinked
  have hne : wq ≠ e := ne_of_not_mem_cons hwq
  have hbe : b ≠ e := fun heq => heb (heq ▸ mem_cons_self)
  have hlinks : (m.wake e).next = update (update m.next wq b) e e ∧
      (m.wake e).prev = update (update m.prev b wq) e e := by
    simp [Memory.wake, remove, hprev, hnext', update_of_ne hne.symm]
  refine ⟨nodup_cons.mpr ⟨fun hmem => hwq (.tail _ hmem), hnodup⟩, ?_, fun a ha => ?_⟩
  · rw [cons_append, hb, isChain_cons_cons]
    refine ⟨⟨?_, ?_⟩, hrest.imp_of_mem_imp fun x y hx hy hxy => ⟨?_, ?_⟩⟩
    · rw [hlinks.1, update_of_ne hne, update_self]
    · rw [hlinks.2, update_of_ne hbe, update_self]
    · have hxe : x ≠ e := fun heq => heb (heq ▸ hx)
      have hxw : x ≠ wq := fun heq => heb (hnext ▸ heq ▸ hxy.1 ▸ hy)
      rw [hlinks.1, update_of_ne hxe, update_of_ne hxw, hxy.1]
    · have hye : y ≠ e := fun heq => heb (heq ▸ hy)
      have hyb : y ≠ b := fun heq => heb (hprev'.symm.trans (heq ▸ hxy.2) ▸ hx)
      rw [hlinks.2, update_of_ne hye, update_of_ne hyb, hxy.2]
  · have hae : a ≠ e := fun heq => he (heq ▸ ha)
    rw [show ((m.wake e).entry a) = m.entry a from update_of_ne hae ..]
    exact h.active a (.tail _ ha)

/-- A new entry goes to the end. -/
theorem Memory.Waiting.prepareToWait (h : Waiting m wq es) (he : e ∉ wq :: es)
    {flags domainId : Nat} :
    Waiting (m.prepareToWait wq e flags domainId) wq (es ++ [e]) := by
  obtain ⟨hwq, -⟩ := nodup_cons.mp h.nodup
  obtain ⟨init, last, hlast⟩ : ∃ init last, wq :: es = init ++ [last] :=
    ⟨_, _, (dropLast_append_getLast (by simp)).symm⟩
  have hlinked := h.linked
  rw [hlast, append_assoc, singleton_append, isChain_append_cons_cons] at hlinked
  obtain ⟨hinit, ⟨hnext, hprev⟩, -⟩ := hlinked
  have hel : last ≠ e := fun heq => he (hlast ▸ heq ▸ by simp)
  have hwe : wq ≠ e := fun heq => he (heq ▸ mem_cons_self)
  have hlinks : (m.prepareToWait wq e flags domainId).next = update (update m.next last e) e wq ∧
      (m.prepareToWait wq e flags domainId).prev = update (update m.prev e last) wq e := by
    simp [Memory.prepareToWait, pushBack, hprev]
  refine ⟨?_, ?_, fun a ha => ?_⟩
  · have hperm : (wq :: (es ++ [e])).Nodup ↔ (e :: wq :: es).Nodup :=
      (perm_append_singleton e (wq :: es)).nodup_iff
    exact hperm.mpr (nodup_cons.mpr ⟨he, h.nodup⟩)
  · rw [show wq :: (es ++ [e]) ++ [wq] = (wq :: es) ++ [e, wq] by simp, hlast, append_assoc,
      singleton_append,
      isChain_append_cons_cons, isChain_cons_cons]
    rw [← hlast] at hinit ⊢
    refine ⟨hinit.imp_of_mem_tail_imp fun x y hx hy hxy => ⟨?_, ?_⟩, ⟨?_, ?_⟩, ⟨?_, ?_⟩,
      .singleton _⟩
    · have hxe : x ≠ e := fun heq => he (heq ▸ hx)
      have hxl : x ≠ last := fun heq => hwq (hnext.symm.trans (heq ▸ hxy.1) ▸ hy)
      rw [hlinks.1, update_of_ne hxe, update_of_ne hxl, hxy.1]
    · have hye : y ≠ e := fun heq => he (.tail _ (heq ▸ hy))
      have hyw : y ≠ wq := fun heq => hwq (heq ▸ hy)
      rw [hlinks.2, update_of_ne hyw, update_of_ne hye, hxy.2]
    · rw [hlinks.1, update_of_ne hel, update_self]
    · rw [hlinks.2, update_of_ne hwe.symm, update_self]
    · rw [hlinks.1, update_self]
    · rw [hlinks.2, update_self]
  · change (update m.entry e _ a).active = true
    induction a using update_cases with
    | self => rfl
    | other a hne => exact h.active a ((mem_append.mp ha).resolve_right (by simpa using hne))

/-- **`wake_up` ends exactly on an empty queue.** Entries join at the end and `wake_up_one` takes
the first; after a wakeup there is nothing for `finish_wait` to do. -/
theorem wakeUp_drains_iff (h : Waiting m wq es) :
    ((∃ turns m', m.wakeUp wq turns = some m' ∧ Waiting m' wq [] ∧ ∀ e ∈ es, Released m' e) ↔
      es = []) ∧
    (∀ e ∉ wq :: es, ∀ flags domainId, Waiting (m.prepareToWait wq e flags domainId) wq
      (es ++ [e])) ∧
    (∀ e rest, es = e :: rest → Waiting (m.wakeUpOne wq) wq rest ∧ Released (m.wakeUpOne wq) e ∧
      (m.wakeUpOne wq).finishWait e = m.wakeUpOne wq) := by
  refine ⟨⟨fun ⟨turns, m', hend, _⟩ => ?_, ?_⟩, fun e he flags domainId => h.prepareToWait he, ?_⟩
  · by_contra hne
    obtain ⟨e, rest, rfl⟩ := List.exists_cons_of_ne_nil hne
    have hfirst := h.next_first
    rw [wakeUp, hfirst.1, wakeFrom_eq_none hfirst.2] at hend
    simp at hend
  · rintro rfl
    exact ⟨1, m, by simp [wakeUp, wakeFrom, (List.isChain_pair.mp h.linked).1], h, by simp⟩
  · rintro e rest rfl
    have hone : m.wakeUpOne wq = m.wake e := by
      rw [wakeUpOne, h.next_first.1, if_neg h.next_first.2]
    rw [hone]
    exact ⟨h.wake, released_wake, by rw [finishWait, released_wake.inactive]; rfl⟩

def twoWaiters : Memory := (({} : Memory).prepareToWait 1 2 0 0).prepareToWait 1 3 0 0

/-- Two wait: `wake_up` does not come back, and `wake_up_one` takes the first. -/
theorem wakeUp_drains_two :
    (¬ ∃ turns m', twoWaiters.wakeUp 1 turns = some m' ∧ Waiting m' 1 [] ∧
      ∀ e ∈ [2, 3], Released m' e) ∧
    Waiting (twoWaiters.wakeUpOne 1) 1 [3] ∧ Released (twoWaiters.wakeUpOne 1) 2 := by
  have hempty : Waiting {} 1 [] := ⟨by simp, by simp [Adjacent], by simp⟩
  have htwo : Waiting twoWaiters 1 [2, 3] :=
    (hempty.prepareToWait (by decide)).prepareToWait (by decide)
  obtain ⟨hdrains, -, hone⟩ := wakeUp_drains_iff htwo
  obtain ⟨hrest, hfirst, -⟩ := hone 2 [3] rfl
  refine ⟨fun hend => ?_, hrest, hfirst⟩
  cases hdrains.mp hend

/-- **One waiter is enough for `wake_up` not to come back.** -/
theorem wakeUp_never_returns :
    Waiting (({} : Memory).prepareToWait 1 2 0 0) 1 [2] ∧
      ∀ turns, (({} : Memory).prepareToWait 1 2 0 0).wakeUp 1 turns = none :=
  ⟨⟨by decide, by simp [Adjacent, prepareToWait, pushBack], by simp [prepareToWait, pushBack]⟩,
    fun _ => wakeFrom_eq_none (by decide)⟩

end ZXFoundation.Sync.WaitQueue
