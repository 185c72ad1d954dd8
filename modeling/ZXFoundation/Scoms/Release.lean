import ZXFoundation.Scoms.Machine

/-!
# When a release succeeds

`release` takes an object out of its slot from four of the six lifecycle states. A sealed or
destroyed object stays in its slot, and the caller gets an error: `release_refused`. An object in
one of the other states leaves it unless some object is attached to it: `release_retires`.
-/

namespace ZXFoundation.Scoms

open Outcome Tally Dgp.Cap World

variable {cfg : Config} {w w' : World} {x : Addr → Nat} {t : TableId} {id : Nat} {a : Addr}
  {al : Allocation}

def Retirable (state : LifecycleState) : Prop := World.releasable state = true ∨ state = .dying

def World.Childless (w : World) (a : Addr) : Prop :=
  ∀ i p, (w.core.entry i).parentSlot = p + 1 → (w.core.entry p).object ≠ some a

theorem Books.objectPtr_live (h : Books cfg w) (hal : w.allocation a = some al) {b : Addr}
    (hptr : (w.table al.home).objectPtr (w.header a).id = some b) : b = a := by
  obtain ⟨bl, hbl, hhome, hid⟩ := h.slot hptr
  exact h.distinct hbl hal hhome hid

/-- **Sealed and destroyed objects cannot be released.** -/
theorem release_refused (h : WF cfg w x) (hal : w.allocation a = some al)
    (hstate : ¬ Retirable (w.header a).state) :
    ∃ e, w.release cfg al.home (w.header a).id = .ok (.error e, w) := by
  have hlt := (h.books.object hal).id_lt
  unfold release
  rw [if_neg (Nat.not_le.mpr hlt)]
  split
  · exact ⟨_, rfl⟩
  next b hptr =>
  obtain rfl := h.books.objectPtr_live hal hptr
  obtain ⟨hnot, hdying⟩ := not_or.mp hstate
  have hsame : w.setHeader b (w.header b) = w := by
    simp [setHeader, header, ObjectCore.setObject]
  rw [if_neg hnot]
  dsimp only
  rw [if_neg (by simp), if_pos hdying, hsame]
  exact ⟨_, rfl⟩

theorem swapStateTo_eq (hal : w.allocation a = some al) (target : SwapTarget) :
    w.swapStateTo target a = .ok (((w.header a).transition target.toState).2,
      w.setHeader a ((w.header a).transition target.toState).1) := by
  unfold swapStateTo checkLive
  rw [hal]
  rfl

theorem not_releasable_dying {o : Bobject} : releasable (o.transition .dying).1.state = false := by
  rw [Bobject.transition_fst]
  cases o.state <;> rfl

/-- Marking an object destroyed comes too early before its release: the release then fails. -/
theorem release_after_destroyed (h : WF cfg w x) (hal : w.allocation a = some al)
    (hstate : releasable (w.header a).state = false) :
    ∃ e, (w.setHeader a ((w.header a).transition .destroyed).1).release cfg al.home
      ((w.setHeader a ((w.header a).transition .destroyed).1).header a).id =
        .ok (.error e, w.setHeader a ((w.header a).transition .destroyed).1) := by
  refine release_refused (h.transition hal (by decide)) hal ?_
  rw [header_setHeader_self, Bobject.transition_fst, Retirable]
  cases hs : (w.header a).state <;> simp_all [releasable, transitionAdmits]

/-- The slot `id` of table `t` is empty now, and every other slot is as it was. -/
structure Emptied (w w' : World) (t : TableId) (id : Nat) : Prop where
  objectPtr : ∀ t' j, (w'.table t').objectPtr j =
    if t' = t ∧ j = id then none else (w.table t').objectPtr j
  count : ∀ t', (w'.table t').count =
    if t' = t then pred32 (w.table t').count else (w.table t').count

theorem emptied_retired {core : ObjectCore} : Emptied w (w.retired t id a core) t id where
  objectPtr := objectPtr_retired core
  count := fun t' => by
    by_cases ht : t' = t
    · subst ht
      simp [retired]
    · simp [retired, ht]

theorem Emptied.slotStep {w'' : World} (h : Emptied w w' t id) (h' : SlotStep w' w'') :
    Emptied w w'' t id :=
  ⟨fun t' j => (h'.objectPtr t' j).trans (h.objectPtr t' j),
    fun t' => (h'.count t').trans (h.count t')⟩

theorem Born.slots_restored (h : Books cfg w) (hborn : Born w w' t id a) {w'' : World}
    (hempty : Emptied w' w'' t id) :
    (∀ t' j, (w''.table t').objectPtr j = (w.table t').objectPtr j) ∧
      ∀ t', (w''.table t').count = (w.table t').count := by
  refine ⟨fun t' j => ?_, fun t' => ?_⟩
  · rw [hempty.objectPtr]
    split_ifs with hat
    · rw [hat.1, hat.2, hborn.vacant]
    · rw [hborn.objectPtr, if_neg hat]
  · rw [hempty.count]
    split_ifs with ht
    · subst ht
      have hlt : (w.table t').count < 2 ^ 32 := by
        rw [h.count hborn.ready]
        have hle := tally_le_card (Finset.range (cfg.capacity t').N)
          (fun p : Option Addr => p.isSome = true) (w.table t').objectPtr
        rw [Finset.card_range] at hle
        exact Nat.lt_of_le_of_lt hle (cfg.capacity t').lt
      rw [hborn.count, if_pos rfl, pred32_succ32 hlt]
    · rw [hborn.count, if_neg ht]

theorem transition_of_retirable {o : Bobject} (h : Retirable o.state) :
    (if releasable o.state then o.transition .dying else (o, true)) =
      ({ o with state := .dying }, true) := by
  rcases h with hrel | hdying
  · have hadmits : transitionAdmits .dying o.state = true := hrel
    rw [if_pos hrel, Bobject.transition, if_pos hadmits]
  have hnot : releasable o.state = false := by
    rw [hdying]
    rfl
  rw [hnot, ← hdying]
  rfl

/-- **A childless object in a retirable state leaves its slot.** -/
theorem release_retires {E : Trap → Prop} (h : WF cfg w x)
    (hptr : (w.table t).objectPtr id = some a) (hstate : Retirable (w.header a).state)
    (hchildless : w.Childless a) :
    Post E (fun r => r.1 = .ok () ∧ WF cfg r.2 x ∧ Emptied w r.2 t id) (w.release cfg t id) := by
  obtain ⟨al, hal, rfl, rfl⟩ := h.books.slot hptr
  have hpub : w.published a = true := (published_iff hal).mpr hptr
  obtain ⟨-, hlt, i, hflags, hmax, hpres, hobj, -, hactive⟩ := h.books.object hal
  rw [hpub] at hactive
  -- the object is registered, and nobody is attached to it
  have hwf : WF cfg (w.setHeader a { w.header a with state := .dying }) x :=
    h.setHeader ⟨rfl, rfl, rfl, rfl⟩ rfl fun hret => by
      rw [hpub] at hret
      cases hret
  have hself := header_setHeader_self w a { w.header a with state := .dying }
  have hfind : (w.setHeader a { w.header a with state := .dying }).core.findLocked a = some i := by
    refine ObjectCore.findLocked_eq_some.mpr ⟨?_, hmax, hpres, hactive, hobj⟩
    rw [show ((w.setHeader a _).core.heap a) = _ from hself]
    exact hflags
  obtain ⟨core, hun⟩ := (hwf.books.core.unregisterObject_iff hfind).mpr
    fun j hatt => hchildless j i hatt.2.1 hobj
  have hdying : ((w.setHeader a { w.header a with state := .dying }).header a).state = .dying := by
    rw [hself]
  unfold release
  rw [if_neg (Nat.not_le.mpr hlt), hptr]
  dsimp only
  rw [transition_of_retirable hstate]
  simp only [Bool.not_true, Bool.false_eq_true, if_false, ne_eq, not_true_eq_false, hun]
  have hret := hwf.retired hun hdying hptr
  refine (hret.put.and quiet_put).bind fun w' hw' => ⟨rfl, hw'.1, ?_⟩
  have hempty := emptied_retired.slotStep hw'.2.toSlotStep
  exact ⟨hempty.objectPtr, hempty.count⟩

end ZXFoundation.Scoms
