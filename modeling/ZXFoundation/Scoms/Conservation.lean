import Mathlib.Data.Set.Card
import Mathlib.Order.CompletePartialOrder
import ZXFoundation.Scoms.Machine

/-!
# Conservation of table slots

At every moment each id of an initialized table is in one of three places: on the free list,
published, or retired and still referred to. An `alloc` or `alloc_at` that fails moves no id.
-/

namespace ZXFoundation.Scoms

open Tally Outcome Dgp.Cap

variable {cfg : Config} {w w' : World} {x : Addr → Nat} {t : TableId}

namespace World

def freeIds (w : World) (t : TableId) : Set Nat := {id | ∃ l, (w.table t).FreeChain l ∧ id ∈ l}

def publishedIds (w : World) (t : TableId) : Set Nat := {id | (w.table t).objectPtr id ≠ none}

/-- The ids of objects that are out of their slot but still held by a handle or a capability. -/
def retiredIds (w : World) (t : TableId) : Set Nat :=
  {id | ∃ a al, w.allocation a = some al ∧ al.home = t ∧ (w.header a).id = id ∧
    w.published a = false ∧ 0 < w.handle.count (some a) + w.capReferences a}

end World

/-- Every id of the table is free, published or retired, and only one of these. -/
structure Partitioned (cfg : Config) (w : World) (t : TableId) : Prop where
  chain : ∃ l, (w.table t).FreeChain l ∧ l.Nodup
  cover : ∀ id, id < (cfg.capacity t).N ↔ id ∈ w.freeIds t ∨ id ∈ w.publishedIds t ∨
    id ∈ w.retiredIds t
  free_published : Disjoint (w.freeIds t) (w.publishedIds t)
  free_retired : Disjoint (w.freeIds t) (w.retiredIds t)
  published_retired : Disjoint (w.publishedIds t) (w.retiredIds t)
  count : (w.table t).count = (w.publishedIds t).ncard

variable {id : Nat}

theorem Books.mem_freeIds (h : Books cfg w) (hinit : (w.table t).initialized = true) :
    id ∈ w.freeIds t ↔ id < (cfg.capacity t).N ∧ ¬ w.Occupied t id := by
  obtain ⟨l, hchain, hmem⟩ := h.free hinit
  rw [← hmem]
  constructor
  · rintro ⟨l', hchain', hin⟩
    exact hchain.unique hchain' ▸ hin
  · exact fun hin => ⟨l, hchain, hin⟩

theorem WF.occupied_iff (h : WF cfg w fun _ => 0) :
    w.Occupied t id ↔ id ∈ w.publishedIds t ∨ id ∈ w.retiredIds t := by
  constructor
  · rintro ⟨a, al, hal, rfl, rfl⟩
    cases hpub : w.published a with
    | true =>
      left
      have hptr := (published_iff hal).mp hpub
      exact fun hnone => by rw [hptr] at hnone; cases hnone
    | false =>
      right
      have hpos := (h.refs.live hal).2
      simp only [World.references, hpub, Bool.false_eq_true, if_false] at hpos
      exact ⟨a, al, hal, rfl, rfl, hpub, by omega⟩
  · rintro (hpub | ⟨a, al, hal, hhome, hid, -, -⟩)
    · obtain ⟨a, hptr⟩ := Option.ne_none_iff_exists'.mp hpub
      obtain ⟨al, hal, hhome, hid⟩ := h.books.slot hptr
      exact ⟨a, al, hal, hhome, hid⟩
    · exact ⟨a, al, hal, hhome, hid⟩

theorem Books.id_lt_of_occupied (h : Books cfg w) (hocc : w.Occupied t id) :
    id < (cfg.capacity t).N := by
  obtain ⟨a, al, hal, rfl, rfl⟩ := hocc
  exact (h.object hal).id_lt

theorem WF.partitioned (h : WF cfg w fun _ => 0) (hinit : (w.table t).initialized = true) :
    Partitioned cfg w t := by
  have hfree : ∀ {id}, id ∈ w.freeIds t ↔ _ := h.books.mem_freeIds hinit
  have hlt : ∀ {id}, w.Occupied t id → id < (cfg.capacity t).N := h.books.id_lt_of_occupied
  refine ⟨?_, fun id => ?_, ?_, ?_, ?_, ?_⟩
  · obtain ⟨l, hchain, -⟩ := h.books.free hinit
    exact ⟨l, hchain, hchain.nodup⟩
  · rw [hfree, ← h.occupied_iff]
    constructor
    · intro hid
      by_cases hocc : w.Occupied t id
      · exact .inr hocc
      · exact .inl ⟨hid, hocc⟩
    · rintro (⟨hid, -⟩ | hocc)
      · exact hid
      · exact hlt hocc
  · refine Set.disjoint_left.mpr fun id hin hpub => ?_
    exact (hfree.mp hin).2 (h.occupied_iff.mpr (.inl hpub))
  · refine Set.disjoint_left.mpr fun id hin hret => ?_
    exact (hfree.mp hin).2 (h.occupied_iff.mpr (.inr hret))
  · refine Set.disjoint_left.mpr fun id hpub hret => ?_
    -- the object in the slot would be the retired one
    obtain ⟨a, al, hal, hhome, hid, hunpub, -⟩ := hret
    obtain ⟨b, hptr⟩ := Option.ne_none_iff_exists'.mp hpub
    obtain ⟨bl, hbl, hbhome, hbid⟩ := h.books.slot hptr
    obtain rfl : b = a :=
      h.books.distinct hbl hal (hbhome.trans hhome.symm) (hbid.trans hid.symm)
    rw [← Bool.not_eq_true, published_iff hal, hhome, hid] at hunpub
    exact hunpub hptr
  · have hset : w.publishedIds t =
        ↑((Finset.range (cfg.capacity t).N).filter fun i =>
          ((w.table t).objectPtr i).isSome = true) := by
      ext id
      rw [Finset.mem_coe, Finset.mem_filter, Finset.mem_range, Option.isSome_iff_ne_none]
      exact ⟨fun hpub => ⟨hlt (h.occupied_iff.mpr (.inl hpub)), hpub⟩, fun hpub => hpub.2⟩
    rw [hset, Set.ncard_coe_finset, h.books.count hinit]
    rfl

/-! ## Failed allocations -/

theorem Untouched.published_eq (h : Untouched w w') {a : Addr} :
    w'.published a = w.published a := by
  unfold World.published
  rw [h.allocation]
  cases hal : w.allocation a with
  | none => rfl
  | some al => simp only [Option.any_some, h.header hal, h.objectPtr]

theorem Untouched.occupied_iff (h : Untouched w w') : w'.Occupied t id ↔ w.Occupied t id := by
  unfold World.Occupied
  rw [h.allocation]
  constructor
  · rintro ⟨a, al, hal, hhome, hid⟩
    exact ⟨a, al, hal, hhome, by rwa [h.header hal] at hid⟩
  · rintro ⟨a, al, hal, hhome, hid⟩
    exact ⟨a, al, hal, hhome, by rwa [h.header hal]⟩

theorem Untouched.publishedIds_eq (h : Untouched w w') : w'.publishedIds t = w.publishedIds t := by
  unfold World.publishedIds
  simp only [h.objectPtr]

theorem Untouched.retiredIds_eq (h : Untouched w w') : w'.retiredIds t = w.retiredIds t := by
  have hcaps : ∀ a, w'.capReferences a = w.capReferences a := fun a => by
    unfold World.capReferences
    rw [h.caps]
  ext id
  simp only [World.retiredIds, Set.mem_ofPred_eq, h.published_eq, hcaps, h.handle, h.allocation]
  constructor
  · rintro ⟨a, al, hal, hhome, hid, hrest⟩
    exact ⟨a, al, hal, hhome, by rwa [h.header hal] at hid, hrest⟩
  · rintro ⟨a, al, hal, hhome, hid, hrest⟩
    exact ⟨a, al, hal, hhome, by rwa [h.header hal], hrest⟩

/-- The partition of the ids of a table is the same in both worlds. -/
structure SamePartition (w w' : World) (t : TableId) : Prop where
  free : w'.freeIds t = w.freeIds t
  published : w'.publishedIds t = w.publishedIds t
  retired : w'.retiredIds t = w.retiredIds t
  count : (w'.table t).count = (w.table t).count

theorem AllocOutcome.samePartition {e : KernelError} (hr : AllocOutcome cfg w t (.error e, w'))
    (h : WF cfg w x) {t' : TableId} (hinit : (w.table t').initialized = true) :
    SamePartition w w' t' := by
  have hwf : WF cfg w' x := hr.wf h
  obtain ⟨hsame, hinit'⟩ := hr.untouched
  refine ⟨Set.ext fun id => ?_, hsame.publishedIds_eq, hsame.retiredIds_eq, hsame.count t'⟩
  rw [h.books.mem_freeIds hinit, hwf.books.mem_freeIds ((hinit' t').trans hinit),
    hsame.occupied_iff]

/-- **Slot conservation.** In every reachable state the ids of an initialized table are
partitioned into free, published and retired ones, and an allocation that fails leaves the
partition of every table as it was. -/
theorem slot_conservation (h : (storeMachine cfg).Reachable w)
    (hinit : (w.table t).initialized = true) :
    Partitioned cfg w t ∧
      (∀ {t' type faults e w'}, w.alloc t' type faults = .ok (.error e, w') →
        SamePartition w w' t) ∧
      ∀ {t' id faults e w'}, w.allocAt cfg t' id faults = .ok (.error e, w') →
        SamePartition w w' t := by
  have hwf := WF.of_reachable h
  refine ⟨hwf.partitioned hinit, fun {t' type faults e w'} hrun => ?_,
    fun {t' id faults e w'} hrun => ?_⟩
  · exact ((alloc_outcome hwf t' type faults).result hrun).samePartition hwf hinit
  · exact ((allocAt_outcome hwf).result hrun).samePartition hwf hinit

/-- Two allocations with a release between them. The first object is still held by the handle that
`alloc` returned. -/
def oneRetired : List Call :=
  [.init 0 (fun _ => true) .none, .alloc 0 .none { object := some 0 } none, .release 0 0,
    .alloc 0 .none { object := some 1 } none]

theorem slot_conservation_oneRetired :
    ∃ w, (storeMachine smallConfig).Exec (.boot fun _ => {}) (oneRetired.map .call) w ∧
      Partitioned smallConfig w 0 ∧ 0 ∈ w.retiredIds 0 ∧ 1 ∈ w.publishedIds 0 ∧
      2 ∈ w.freeIds 0 := by
  obtain ⟨w, hrun, hinit, hptr, ⟨hal, hid, hpub, hhandle⟩, hhead, hnext⟩ :
      ∃ w, runCalls smallConfig oneRetired (.boot fun _ => {}) = .ok w ∧
        (w.table 0).initialized = true ∧ (w.table 0).objectPtr 1 = some 1 ∧
        (w.allocation 0 = some ⟨0, 0⟩ ∧ (w.header 0).id = 0 ∧ w.published 0 = false ∧
          w.handle.count (some 0) = 1) ∧
        (w.table 0).freeHead = 2 ∧ (w.table 0).next 2 = kobjectIdInvalid := by
    refine ⟨_, rfl, ?_⟩
    decide
  refine ⟨w, exec_of_runCalls hrun,
    (slot_conservation (reachable_of_runCalls hrun) hinit).1, ?_, ?_,
    [2], ?_, List.mem_singleton_self 2⟩
  · exact ⟨0, _, hal, rfl, hid, hpub, by omega⟩
  · exact fun hnone => by rw [hptr] at hnone; cases hnone
  rw [ScomsTable.FreeChain, hhead]
  refine .cons (by decide) ?_
  rw [hnext]
  exact .nil

/-!
## Reference counting over whole runs

No call but `release` reclaims a published object, so an object is reclaimed only after `release`
has unregistered it, either earlier or in the very call.
-/

variable {a : Addr} {al : Allocation}

theorem WF.allocation_of_slot (h' : WF cfg w' x)
    (hal : w.allocation a = some al) (hpub : w.published a = true)
    (hslots : ∀ {t id}, (w.table t).objectPtr id = some a → (w'.table t).objectPtr id = some a)
    (hlive : ∀ {bl}, w'.allocation a = some bl → w.allocation a = some bl ∨ w.allocation a = none) :
    w'.allocation a = some al := by
  obtain ⟨bl, hbl, -, -⟩ := h'.books.slot (hslots ((published_iff hal).mp hpub))
  rcases hlive hbl with hsame | hnone
  · rw [hbl, ← hsame, hal]
  · rw [hal] at hnone
    cases hnone

theorem Call.keeps_published {c : Call} {reply : Reply}
    (h : WF cfg w x) (hrun : c.run cfg w = .ok (reply, w')) (hne : ∀ t id, c ≠ .release t id)
    (hal : w.allocation a = some al) (hpub : w.published a = true) : w'.allocation a = some al := by
  have h' : WF cfg w' x := h.call.result hrun
  rcases c.kind with hc | hc | hc | ⟨t, id, hc⟩
  · have hstep : Quiet w w' := hc.run.result hrun
    exact h'.allocation_of_slot hal hpub (fun hptr => (hstep.objectPtr ..).trans hptr)
      fun hbl => .inl (hstep.live hbl).1
  · have hstep : SlotStep w w' := (hc.run h).result hrun
    exact h'.allocation_of_slot hal hpub (fun hptr => (hstep.objectPtr ..).trans hptr)
      fun hbl => .inl (hstep.live hbl).1
  · have hstep : Grows w w' := (hc.run h).result hrun
    exact h'.allocation_of_slot hal hpub hstep.slots fun hbl =>
      (hstep.live hbl).imp And.left And.left
  · exact absurd hc (hne t id)

theorem allocation_of_release_error {t : TableId} {id : Nat} {e : KernelError}
    (h : w.release cfg t id = .ok (.error e, w')) : w'.allocation = w.allocation := by
  have hpost : Ensures
      (fun r => ∀ e, r.1 = .error e → r.2.allocation = w.allocation) (w.release cfg t id) := by
    unfold World.release
    split_ifs
    · exact fun _ _ => rfl
    split
    · exact fun _ _ => rfl
    dsimp only
    generalize (if World.releasable _ then _ else _ : Bobject × Bool) = first
    split_ifs
    · exact fun _ _ => rfl
    · exact fun _ _ => rfl
    split
    · exact fun _ _ => rfl
    · -- past this point the result is a success
      exact post_any.bind fun _ _ _ herr => by cases herr
  exact hpost.result h e rfl

theorem WF.retiredLocked (h : WF cfg w x) (hal : w.allocation a = some al)
    (hpub : w.published a = false) :
    ∃ i, w.core.retiredLocked a = some i := by
  obtain ⟨i, hflags, hmax, hpres, hobj, -, hpend⟩ := (h.books.object hal).entry
  rw [hpub] at hpend
  exact ⟨i, ObjectCore.retiredLocked_eq_some.mpr ⟨hflags, hmax, hpres, hpend.1, hobj⟩⟩

/-- **Reclaiming follows unregistering.** A call that reclaims an object either found it
unregistered already, or is a `release` that succeeds. -/
theorem Call.reclaims {c : Call} {reply : Reply} (h : WF cfg w x)
    (hrun : c.run cfg w = .ok (reply, w')) (hal : w.allocation a = some al)
    (hgone : w'.allocation a = none) :
    (w.published a = false ∧ ∃ i, w.core.retiredLocked a = some i) ∨
      ∃ t id, c = .release t id ∧ reply = .status (.ok ()) := by
  cases hpub : w.published a with
  | false => exact .inl ⟨rfl, h.retiredLocked hal hpub⟩
  | true =>
  right
  by_cases hne : ∀ t id, c ≠ .release t id
  · rw [c.keeps_published h hrun hne hal hpub] at hgone
    cases hgone
  push Not at hne
  obtain ⟨t, id, rfl⟩ := hne
  refine ⟨t, id, rfl, ?_⟩
  cases hrel : w.release cfg t id with
  | error e => simp [Call.run, hrel, bind, Except.bind] at hrun
  | ok r =>
  obtain ⟨res, w₁⟩ := r
  simp only [Call.run, hrel, bind, Except.bind, pure, Except.pure, Except.ok.injEq,
    Prod.mk.injEq] at hrun
  obtain ⟨rfl, rfl⟩ := hrun
  cases res with
  | ok u => rfl
  | error e =>
    rw [allocation_of_release_error hrel, hal] at hgone
    cases hgone

/-- The table slots, handles and capability slots that hold the address. -/
def World.HeldBy (w : World) (a : Addr) : Prop :=
  (∃ t id, (w.table t).objectPtr id = some a) ∨ some a ∈ w.handle ∨
    ∃ i < maxCapabilities, (w.capSlots i).active = true ∧ (w.capSlots i).target = some a

theorem WF.not_heldBy (h : WF cfg w x) (hnone : w.allocation a = none) : ¬ w.HeldBy a := by
  have hzero := h.refs.dead hnone
  unfold World.references at hzero
  rintro (⟨t, id, hptr⟩ | hin | ⟨i, hi, hnames⟩)
  · obtain ⟨al, hal, -, -⟩ := h.books.slot hptr
    rw [hnone] at hal
    cases hal
  · have := List.count_pos_iff.mpr hin
    omega
  · have hpos := Tally.tally_pos (p := SlotNames a) (Finset.mem_range.mpr hi) hnames
    rw [← capReferences_eq] at hpos
    omega

/-- **Reference counting never reclaims a live object and never traps.** -/
theorem reference_counting (h : (storeMachine cfg).Reachable w) :
    (∀ {a al}, w.allocation a = some al →
      (w.header a).ref = (if w.published a then 1 else 0) + w.handle.count
        (some a) + w.capReferences a ∧
      0 < (w.header a).ref) ∧ (∀ {a}, w.allocation a = none → ¬ w.HeldBy a) ∧
    (∀ {op e}, Op.run cfg w op = .error e → e.IsBenign) ∧
    (∀ {c reply w' a al}, Call.run cfg w c = .ok (reply, w') → w.allocation a = some al →
      w'.allocation a = none →
      (w.published a = false ∧ ∃ i, w.core.retiredLocked a = some i) ∨
        ∃ t id, c = .release t id ∧ reply = .status (.ok ())) ∧ w.reclaimed.Nodup ∧
    ∀ {s}, s < w.serial → ((∃ a al, w.allocation a = some al ∧ al.serial = s) ↔
      s ∉ w.reclaimed) := by
  have hwf := WF.of_reachable h
  refine ⟨fun {a al} hal => ?_, fun hnone => hwf.not_heldBy hnone,
    fun {op e} hrun => hwf.op.fault hrun, fun hrun hal hgone => Call.reclaims hwf hrun hal hgone,
    hwf.history.nodup, hwf.history.live_iff⟩
  obtain ⟨href, hpos⟩ := hwf.refs.live hal
  exact ⟨href, href ▸ hpos⟩

/-- An object is released while two handles hold it, and both are dropped; a second object takes
over its storage. -/
def reclaimedOnce : List Call :=
  [.init 0 (fun _ => true) .none, .alloc 0 .none { object := some 0 } none, .copyHandle 0,
    .release 0 0, .dropHandle 0, .dropHandle 1, .alloc 0 .none { object := some 0 } none]

theorem reference_counting_reclaimedOnce :
    ∃ w, (storeMachine smallConfig).Exec (.boot fun _ => {}) (reclaimedOnce.map .call) w ∧
      w.reclaimed = [0] ∧ w.serial = 2 ∧ w.allocation 0 = some ⟨1, 0⟩ ∧ (w.header 0).ref = 2 ∧
      (w.header 0).ref =
        (if w.published 0 then 1 else 0) + w.handle.count (some 0) + w.capReferences 0 := by
  obtain ⟨w, hrun, hrec, hserial, hal, href⟩ :
      ∃ w, runCalls smallConfig reclaimedOnce (.boot fun _ => {}) = .ok w ∧ w.reclaimed = [0] ∧
        w.serial = 2 ∧ w.allocation 0 = some ⟨1, 0⟩ ∧ (w.header 0).ref = 2 := by
    refine ⟨_, rfl, ?_⟩
    decide
  have hcount := (reference_counting (reachable_of_runCalls hrun)).1 hal
  exact ⟨w, exec_of_runCalls hrun, hrec, hserial, hal, href, hcount.1⟩

end ZXFoundation.Scoms
