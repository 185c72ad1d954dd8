import ZXFoundation.Scoms.Handles

/-!
# Slots and metadata under the invariant

`init`, the metadata operations on allocated objects, and the two ends of an allocation that
fails.

Between taking an id off the free list and publishing an object under it the invariant does not
hold; `Claimed` describes that interval, and `WF.unclaim` ends it by putting the id back.
-/

namespace ZXFoundation.Scoms

open Tally Outcome Dgp.Cap Function ObjectCore World

variable {cfg : Config} {w w' : World} {x : Addr → Nat} {t : TableId}

/-! ## Metadata operations -/

/-- Metadata steps that keep headers and, of every entry, object, reclaimer and flags. -/
theorem WF.setCore (h : WF cfg w x) {c : ObjectCore} (hcore : CoreInv c)
    (hheap : c.heap = w.core.heap) (hpres : c.present = w.core.present)
    (hentry : ∀ i, (c.entry i).object = (w.core.entry i).object ∧
      (c.entry i).reclaimer = (w.core.entry i).reclaimer ∧
      (c.entry i).active = (w.core.entry i).active ∧
      (c.entry i).reclaimPending = (w.core.entry i).reclaimPending) :
        WF cfg { w with core := c } x := by
  have hheader : ∀ a, header { w with core := c } a = w.header a := fun a => by
    simp [header, hheap]
  have hpub : ∀ a, published { w with core := c } a = w.published a :=
    @published_congr w { w with core := c } rfl rfl fun {a _} _ => by rw [hheader]
  refine ⟨?_, ?_, h.caps, h.history.frame rfl rfl rfl⟩
  · refine h.books.frame rfl rfl rfl hcore (fun {i a} hi hobj => ?_) fun {a al} _ => ?_
    · obtain ⟨hobj', -, hact', -⟩ := hentry i
      exact h.books.entries (hact'.symm.trans hi) (hobj'.symm.trans hobj)
    · exact ⟨by rw [hheap], by rw [hheap], fun _ => by rw [hheap], fun b hb => hpres ▸ hb,
        fun i _ _ _ => hentry i⟩
  · refine h.refs.move rfl (fun {a al} _ => by rw [hheader]) fun a => ?_
    unfold references
    rw [hpub]
    rfl

theorem WF.commitCore (h : WF cfg w x) {r : Except KernelError ObjectCore}
    (hok : ∀ c, r = .ok c → WF cfg { w with core := c } x) : WF cfg (w.commitCore r).2 x := by
  cases r with
  | ok c => exact hok c rfl
  | error e => exact h

theorem WF.setOwner (h : WF cfg w x) (a : Addr) (d : Nat) :
    Post Trap.IsBenign (fun r => WF cfg r.2 x) (w.setOwner a d) := by
  refine post_checkLive.bind fun _ _ => h.commitCore fun c hc => ?_
  have hcore := h.books.core.setOwner hc
  obtain ⟨i, -, rfl⟩ := setOwner_eq_ok hc
  refine h.setCore hcore rfl rfl fun j => ?_
  rw [setEntry_entry]
  split_ifs with hji
  · rw [hji]
    exact ⟨rfl, rfl, rfl, rfl⟩
  · exact ⟨rfl, rfl, rfl, rfl⟩

theorem WF.attach (h : WF cfg w x) {child parent : Addr} :
    Post Trap.IsBenign (fun r => WF cfg r.2 x) (w.attach child parent) := by
  refine post_checkLive.bind fun _ _ => post_checkLive.bind fun _ _ => ?_
  refine h.commitCore fun c hc => ?_
  have hcore := h.books.core.attach hc
  obtain ⟨i, p, -, -, -, -, rfl⟩ := attach_eq_ok hc
  refine h.setCore hcore rfl rfl fun j => ?_
  simp only [setEntry_entry]
  split_ifs with hjp hji
  · rw [hjp]
    exact ⟨rfl, rfl, rfl, rfl⟩
  · rw [hji]
    exact ⟨rfl, rfl, rfl, rfl⟩
  · exact ⟨rfl, rfl, rfl, rfl⟩

/-- Taking a link away leaves what an entry says about its object. -/
theorem clearParentLocked_kept (c : ObjectCore) (i j : Nat) :
    ((c.clearParentLocked i).entry j).object = (c.entry j).object ∧
      ((c.clearParentLocked i).entry j).reclaimer = (c.entry j).reclaimer ∧
      ((c.clearParentLocked i).entry j).active = (c.entry j).active ∧
      ((c.clearParentLocked i).entry j).reclaimPending = (c.entry j).reclaimPending := by
  obtain ⟨n, heq | ⟨-, heq⟩⟩ := c.clearParentLocked_entry_cases i j
  · rw [heq]
    exact ⟨rfl, rfl, rfl, rfl⟩
  · rw [heq]
    exact ⟨rfl, rfl, rfl, rfl⟩

theorem WF.detach (h : WF cfg w x) (child : Addr) :
    Post Trap.IsBenign (fun r => WF cfg r.2 x) (w.detach child) := by
  refine post_checkLive.bind fun _ _ => h.commitCore fun c hc => ?_
  have hcore := h.books.core.detach hc
  obtain ⟨i, -, rfl⟩ := detach_eq_ok hc
  exact h.setCore hcore (clearParentLocked_heap _ _)
    clearParentLocked_present (clearParentLocked_kept _ i)

/-! ## Table writes -/

theorem table_setTable_self {T : ScomsTable} : (w.setTable t T).table t = T :=
  update_self ..

theorem table_setTable_of_ne {t t' : TableId} {T : ScomsTable} (h : t' ≠ t) :
    (w.setTable t T).table t' = w.table t' :=
  update_of_ne h ..

variable {id : Nat} {T T' : ScomsTable}

theorem objectPtr_none_of_vacant (h : Books cfg w) (hvac : ¬ w.Occupied t id) :
    (w.table t).objectPtr id = none := by
  cases hptr : (w.table t).objectPtr id with
  | none => rfl
  | some a =>
    obtain ⟨al, hal, hhome, hid⟩ := h.slot hptr
    exact absurd ⟨a, al, hal, hhome, hid⟩ hvac

/-- A table is replaced by one with the same objects, and its free slots are chained. -/
theorem WF.replaceTable (h : WF cfg w x) {fin : Bool}
    (hptr : ∀ id, T.objectPtr id = (w.table t).objectPtr id)
    (hinit : (w.table t).initialized = true → T.initialized = true) (hfin : w.finalizer = true →
      fin = true)
    (hready : T.initialized = true → T.hasInstance = true ∧ fin = true ∧
      T.count = tally (Finset.range (cfg.capacity t).N) (fun p => p.isSome = true)
        (w.table t).objectPtr ∧
      ∃ l, T.FreeChain l ∧ ∀ id, id ∈ l ↔ id < (cfg.capacity t).N ∧ ¬ w.Occupied t id) :
    WF cfg { w.setTable t T with finalizer := fin } x := by
  have hptr' : ∀ t' id, ((w.setTable t T).table t').objectPtr id = (w.table t').objectPtr id := by
    intro t' id
    by_cases ht : t' = t
    · subst ht
      rw [table_setTable_self, hptr]
    · rw [table_setTable_of_ne ht]
  have hpub : ∀ a, published { w.setTable t T with finalizer := fin } a = w.published a := by
    intro a
    unfold published
    congr 1
    funext al
    change ((((w.setTable t T).table al.home).objectPtr (w.header a).id) == some a) = _
    rw [hptr']
  have hrefs : RefsOk { w.setTable t T with finalizer := fin } x := by
    refine h.refs.move rfl (fun _ => rfl) fun a => ?_
    unfold references
    rw [hpub]
    rfl
  refine ⟨⟨h.books.core, fun {a al} hal => ?_, h.books.entries, fun {t' id a} hslot => ?_,
    h.books.distinct, fun {t'} ht' => ?_, fun {t'} ht' => ?_, fun {t'} ht' => ?_⟩, hrefs, h.caps,
    h.history.frame rfl rfl rfl⟩
  · obtain ⟨hold, hlt, hentry⟩ := h.books.object hal
    refine ⟨?_, hlt, by rw [hpub]; exact hentry⟩
    change ((w.setTable t T).table al.home).initialized = true
    by_cases ht : al.home = t
    · subst ht
      rw [table_setTable_self]
      exact hinit hold
    · rwa [table_setTable_of_ne ht]
  · exact h.books.slot ((hptr' t' id).symm.trans hslot)
  all_goals
    change ((w.setTable t T).table t').initialized = true at ht'
    by_cases ht : t' = t
  · subst ht
    rw [table_setTable_self] at ht'
    change ∃ l, ((w.setTable t' T).table t').FreeChain l ∧ _
    rw [table_setTable_self]
    exact (hready ht').2.2.2
  · rw [table_setTable_of_ne ht] at ht'
    change ∃ l, ((w.setTable t T).table t').FreeChain l ∧ _
    rw [table_setTable_of_ne ht]
    exact h.books.free ht'
  · subst ht
    rw [table_setTable_self] at ht'
    change ((w.setTable t' T).table t').count = tally _ _ ((w.setTable t' T).table t').objectPtr
    rw [table_setTable_self, (hready ht').2.2.1]
    exact tally_congr fun id _ => by rw [hptr]
  · rw [table_setTable_of_ne ht] at ht'
    change ((w.setTable t T).table t').count = tally _ _ ((w.setTable t T).table t').objectPtr
    rw [table_setTable_of_ne ht]
    exact h.books.count ht'
  · subst ht
    rw [table_setTable_self] at ht'
    change ((w.setTable t' T).table t').hasInstance = true ∧ fin = true
    rw [table_setTable_self]
    exact ⟨(hready ht').1, (hready ht').2.1⟩
  · rw [table_setTable_of_ne ht] at ht'
    change ((w.setTable t T).table t').hasInstance = true ∧ fin = true
    rw [table_setTable_of_ne ht]
    obtain ⟨hinst, hfin'⟩ := h.books.ready ht'
    exact ⟨hinst, hfin hfin'⟩

/-- A table is replaced by one that differs in its links only and has the right ids free. -/
theorem WF.setTable (h : WF cfg w x) (hsame : SameObjects (w.table t) T)
    (hfree : (w.table t).initialized = true → ∃ l, T.FreeChain l ∧
      ∀ id, id ∈ l ↔ id < (cfg.capacity t).N ∧ ¬ w.Occupied t id) : WF cfg (w.setTable t T) x := by
  refine h.replaceTable hsame.objectPtr (fun hi => hsame.initialized.trans hi) id fun hi => ?_
  have hi' : (w.table t).initialized = true := hsame.initialized.symm.trans hi
  obtain ⟨hinst, hfin⟩ := h.books.ready hi'
  exact ⟨hsame.hasInstance.trans hinst, hfin, hsame.count.trans (h.books.count hi'), hfree hi'⟩

theorem Books.vacant_of_uninitialized (h : Books cfg w) (hoff : (w.table t).initialized = false)
    (id : Nat) : ¬ w.Occupied t id := by
  rintro ⟨a, al, hal, rfl, -⟩
  have hready := (h.object hal).ready
  rw [hoff] at hready
  cases hready

/-- The first initialization chains all slots. -/
theorem WF.initTable (h : WF cfg w x) {mem : Nat → Bool} {type : KobjectType} :
    WF cfg (w.initTable cfg t mem type) x := by
  unfold World.initTable
  split_ifs with hdone
  · exact h
  rw [Bool.not_eq_true] at hdone
  have hvacant := h.books.vacant_of_uninitialized hdone
  refine h.replaceTable (ScomsTable.objectPtr_init _ mem type)
    (fun hi => absurd (hdone.symm.trans hi) (by decide)) (fun _ => rfl) fun hi => ?_
  obtain ⟨hchain, hcount, hinst⟩ := ScomsTable.init_spec hi hdone
  refine ⟨hinst, rfl, ?_, _, hchain, fun id => ?_⟩
  · rw [hcount]
    refine (tally_eq_zero.mpr fun id _ => ?_).symm
    rw [objectPtr_none_of_vacant h.books (hvacant id)]
    simp
  · simp [hvacant id]

/-- A block of slots is there afterwards, and nothing else has changed. -/
theorem ensureObjectBlock_spec {mem : Bool} {b : Nat} (h : T.ensureObjectBlock mem b = some T') :
    SameObjects T T' ∧ T'.slotBlock b = true ∧ T'.next = T.next ∧ T'.freeHead = T.freeHead ∧
      T'.generation = T.generation := by
  unfold ScomsTable.ensureObjectBlock at h
  split_ifs at h with hb hm
  · cases h
    exact ⟨⟨fun _ => rfl, rfl, rfl, rfl⟩, hb, rfl, rfl, rfl⟩
  cases h
  refine ⟨⟨fun id => ?_, rfl, rfl, rfl⟩, update_self .., rfl, rfl, rfl⟩
  unfold ScomsTable.objectPtr
  by_cases hid : id / tableBlockSize = b
  · simp [hid, hb]
  · simp [hid]

/-! ## Claimed ids -/

/-- The id is off the free list of `T`, and nothing else has changed since `w`. -/
structure Claimed (cfg : Config) (w : World) (t : TableId) (id : Nat) (T : ScomsTable) : Prop where
  ready : (w.table t).initialized = true
  id_lt : id < (cfg.capacity t).N
  vacant : ¬ w.Occupied t id
  same : SameObjects (w.table t) T
  free : ∃ l, T.FreeChain l ∧ ∀ j, j ∈ l ↔ j < (cfg.capacity t).N ∧ ¬ w.Occupied t j ∧ j ≠ id

theorem Claimed.congr (h : Claimed cfg w t id T)
    (hsame : SameObjects T T') (hnext : T'.next = T.next) (hhead : T'.freeHead = T.freeHead) :
    Claimed cfg w t id T' := by
  obtain ⟨l, hchain, hmem⟩ := h.free
  refine ⟨h.ready, h.id_lt, h.vacant, h.same.trans hsame, l, ?_, hmem⟩
  rw [ScomsTable.FreeChain, hnext, hhead]
  exact hchain

/-- An id that was claimed goes back to the head of the chain. -/
theorem WF.unclaim (h : WF cfg w x) (hc : Claimed cfg w t id T)
    (hsame : SameObjects T T') (hnext : T'.next = update T.next id T.freeHead)
    (hhead : T'.freeHead = id) : WF cfg (w.setTable t T') x := by
  refine h.setTable (hc.same.trans hsame) fun _ => ?_
  obtain ⟨l, hchain, hmem⟩ := hc.free
  have hnotMem : id ∉ l := fun hin => ((hmem id).mp hin).2.2 rfl
  have hne : id ≠ kobjectIdInvalid := by
    have := (cfg.capacity t).lt_invalid
    have := hc.id_lt
    omega
  refine ⟨id :: l, ?_, fun j => ?_⟩
  · rw [ScomsTable.FreeChain, hnext, hhead]
    exact hchain.pushFree hne hnotMem
  rw [List.mem_cons, hmem]
  by_cases hj : j = id
  · simp [hj, hc.id_lt, hc.vacant]
  · simp [hj]

/-- Fresh storage may be written before it is published. -/
theorem WF.writeStorage (h : WF cfg w x) {a : Addr} (hnew : w.allocation a = none) {o : Bobject} :
    WF cfg (w.setHeader a o) x := by
  have hheader : ∀ {b bl}, w.allocation b = some bl → (w.setHeader a o).header b = w.header b :=
    fun hbl => header_setHeader_of_ne _ _ (ne_of_unallocated hnew hbl)
  have hpub : ∀ b, (w.setHeader a o).published b = w.published b :=
    @published_congr w (w.setHeader a o) rfl rfl fun hbl => by rw [hheader hbl]
  refine ⟨h.books.frame rfl rfl rfl ?_ h.books.entries fun {b bl} hbl => ?_, ?_, h.caps,
    h.history.frame rfl rfl rfl⟩
  · -- no registered object lives there
    have hfree : ∀ i, (w.core.entry i).active = true → (w.core.entry i).object ≠ some a := by
      intro i hi hobj
      obtain ⟨al, hal⟩ := h.books.entries hi hobj
      exact ne_of_unallocated hnew hal rfl
    exact h.books.core.setObject (fun i hi hobj => absurd hobj (hfree i hi)) fun i p hs hobj =>
      absurd hobj (hfree p (h.books.core.identifies_of_slot hs).2.1)
  · have hsame : (w.setHeader a o).core.heap b = w.core.heap b := hheader hbl
    exact ⟨by rw [hsame], by rw [hsame], fun _ => by rw [hsame], fun _ hp => hp,
      fun _ _ _ _ => ⟨rfl, rfl, rfl, rfl⟩⟩
  · refine h.refs.move rfl (fun hbl => by rw [hheader hbl]) fun b => ?_
    unfold references
    rw [hpub]
    rfl

theorem Claimed.setHeader (h : Claimed cfg w t id T) {a : Addr}
    (hnew : w.allocation a = none) {o : Bobject} : Claimed cfg (w.setHeader a o) t id T := by
  have hocc : ∀ j, (w.setHeader a o).Occupied t j ↔ w.Occupied t j := by
    intro j
    have hid : ∀ {b bl}, w.allocation b = some bl →
        ((w.setHeader a o).header b).id = (w.header b).id := fun {b bl} hbl => by
      rw [header_setHeader_of_ne _ _ (ne_of_unallocated hnew hbl)]
    constructor <;> rintro ⟨b, bl, hbl, hhome, hbid⟩
    · exact ⟨b, bl, hbl, hhome, (hid hbl).symm.trans hbid⟩
    · exact ⟨b, bl, hbl, hhome, (hid hbl).trans hbid⟩
  refine ⟨h.ready, h.id_lt, by rw [hocc]; exact h.vacant, h.same, ?_⟩
  simp only [hocc]
  exact h.free

end ZXFoundation.Scoms
