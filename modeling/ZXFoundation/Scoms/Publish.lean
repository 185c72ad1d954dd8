import ZXFoundation.Scoms.Slots

/-!
# Publication of new objects

`alloc` and `alloc_at` claim an id and share the rest. `PublishOutcome` lists the two ways in
which that rest can end: the id is back on the free list and the tables show what they showed
before, or one new object is registered, published and referred to by one handle. Everything
proved about the two functions is proved by cases on it.
-/

namespace ZXFoundation.Scoms

open Tally Outcome Dgp.Cap Function ObjectCore ScomsTable World

variable {cfg : Config} {w w' : World} {x : Addr → Nat} {t : TableId}

/-! ## Registration of a new object -/

/-- What `register_object` followed by `set_reclaimer` establishes. -/
structure Registered (c c' : ObjectCore) (a : Addr) (t : TableId) : Prop where
  core : CoreInv c'
  header : ∃ i, c'.heap a = { c.heap a with objectFlags := i + 1 }
  heap : ∀ {b}, b ≠ a → c'.heap b = c.heap b
  entry : EntryOk c' a t true
  others : ∀ {b t' pub}, b ≠ a → EntryOk c b t' pub → EntryOk c' b t' pub
  entries : ∀ {i b}, (c'.entry i).active = true → (c'.entry i).object = some b →
    b = a ∨ (c.entry i).active = true ∧ (c.entry i).object = some b
  childless : ∀ i p, (c'.entry i).parentSlot = p + 1 → (c'.entry p).object ≠ some a

variable {a : Addr} {T : ScomsTable} {id : Nat} {type : KobjectType}

theorem registered {c c₁ c₂ : ObjectCore} {mem : Nat → Bool} {d : Nat} (h : CoreInv c)
    (hid : (c.heap a).id ≠ kobjectIdInvalid) (hreg : c.registerObject mem a d = .ok c₁)
    (hrec : c₁.setReclaimer a (some t) = .ok c₂) : Registered c c₂ a t := by
  have h₁ := h.registerObject hid hreg
  have h₂ := h₁.setReclaimer hrec
  have hchildless := fun {p} hfind => h.slot_ne_of_registerObject (p := p) hid hreg hfind
  obtain ⟨j, hfind, rfl⟩ := setReclaimer_eq_ok hrec
  obtain ⟨-, i, c₀, hscan, rfl⟩ := registerObject_eq_ok hreg
  obtain ⟨hg, hmax, hpres, hoff, hnotPending⟩ := registerScan_spec hscan
  obtain ⟨hflags, -, -, -, -⟩ := findLocked_eq_some.mp hfind
  obtain rfl : i = j := by
    simpa using hflags
  refine ⟨h₂, ⟨i, by simp [hg.heap]⟩, fun {b} hba => ?_, ?_, fun {b t' pub} hba hb => ?_,
    fun {k b} hk hobj => ?_, fun k p hs hobj => ?_⟩
  · simp [setObject_heap_of_ne _ _ hba, hg.heap]
  · exact ⟨i, by simp, by omega, by simpa using hpres, by simp [freshEntry],
      by simp, by simp [freshEntry]⟩
  · -- the entry of another object is in use, so the scan did not choose it
    obtain ⟨k, hkflags, hkmax, hkpres, hkobj, hkrec, hkstate⟩ := hb
    have hkept := hg.kept k hkpres
    have hki : k ≠ i := fun heq => by
      subst heq
      rw [hkept] at hoff hnotPending
      cases pub with
      | true => exact absurd (hoff.symm.trans hkstate) (by decide)
      | false => exact absurd (hnotPending.symm.trans hkstate.1) (by decide)
    refine ⟨k, ?_, hkmax, hg.present _ hkpres, ?_⟩
    · simp [setObject_heap_of_ne _ _ hba, hg.heap, hkflags]
    · simp only [setEntry_entry_of_ne _ _ hki, setObject_entry, hkept,
        setEntry_heap, setObject_heap_of_ne _ _ hba, hg.heap]
      exact ⟨hkobj, hkrec, hkstate⟩
  · by_cases hki : k = i
    · subst hki
      left
      simpa [freshEntry, eq_comm] using hobj
    right
    simp only [setEntry_entry_of_ne _ _ hki, setObject_entry] at hk hobj
    rcases hg.fresh k with heq | hdef
    · rw [heq] at hk hobj
      exact ⟨hk, hobj⟩
    · simp [hdef] at hk
  · obtain ⟨-, hp, -⟩ := h₂.identifies_of_slot hs
    have hpi : p = i := by
      have := (findLocked_eq_some.mp (h₂.findLocked_object hp hobj)).1
      simp at this
      omega
    subst hpi
    refine hchildless hfind k ?_
    by_cases hkp : k = p
    · subst hkp
      simpa using hs
    · simpa [setEntry_entry_of_ne _ _ hkp] using hs

/-! ## Publication -/

/-- The table with a new object under the id. -/
def ScomsTable.withObject (T : ScomsTable) (id : Nat) (a : Addr) (gen : Nat) : ScomsTable :=
  { T.setSlot id (some a) with
    generation := update T.generation id gen
    count := succ32 T.count }

/-- The world with a new object: `core` has it registered, `T` shows it. -/
def World.withObject (w : World) (t : TableId) (T : ScomsTable) (a : Addr) (core : ObjectCore) :
    World :=
  { w with
    core := core
    table := update w.table t T
    allocation := update w.allocation a (some ⟨w.serial, t⟩)
    serial := w.serial + 1 }

theorem ScomsTable.objectPtr_withObject {gen : Nat}
    (hblock : T.slotBlock (id / tableBlockSize) = true) (j : Nat) :
    (T.withObject id a gen).objectPtr j = if j = id then some a else T.objectPtr j := by
  unfold withObject objectPtr setSlot
  by_cases hj : j = id
  · subst hj
    simp [hblock]
  · simp [hj]

section Publish

variable {id gen : Nat} {T : ScomsTable} {a : Addr} {core : ObjectCore}

variable {T' : ScomsTable}

theorem allocation_withObject {b : Addr} {bl : Allocation}
    (h : (w.withObject t T' a core).allocation b = some bl) :
    b = a ∧ bl = ⟨w.serial, t⟩ ∨ b ≠ a ∧ w.allocation b = some bl := by
  by_cases hba : b = a
  · subst hba
    left
    simp only [World.withObject, update_self, Option.some.injEq] at h
    exact ⟨rfl, h.symm⟩
  · right
    simp only [World.withObject, update_of_ne hba] at h
    exact ⟨hba, h⟩

theorem table_withObject (w : World) (t : TableId) (T' : ScomsTable) (a : Addr)
    (core : ObjectCore) (t' : TableId) :
    (w.withObject t T' a core).table t' = if t' = t then T' else w.table t' :=
  update_apply ..

theorem published_withObject (hc : Claimed cfg w t id T)
    (hblock : T.slotBlock (id / tableBlockSize) = true)
    (hheap : ∀ {b}, b ≠ a → core.heap b = w.core.heap b) (haid : (core.heap a).id = id) (b : Addr) :
    (w.withObject t (T.withObject id a gen) a core).published b =
      if b = a then true else w.published b := by
  by_cases hba : b = a
  · subst hba
    have hptr : (T.withObject id b gen).objectPtr id = _ :=
      objectPtr_withObject hblock id
    simp only [World.published, World.withObject, update_self, Option.any_some,
      World.header, haid, if_true]
    rw [hptr]
    simp
  · rw [if_neg hba]
    unfold World.published
    have halloc : (w.withObject t (T.withObject id a gen) a core).allocation b =
        w.allocation b := update_of_ne hba ..
    have hheader : (w.withObject t (T.withObject id a gen) a core).header b = w.header b :=
      hheap hba
    rw [halloc]
    cases hbl : w.allocation b with
    | none => rfl
    | some bl =>
    simp only [Option.any_some, hheader, table_withObject]
    split_ifs with ht
    · -- another object of the same table has another id
      have hne : (w.header b).id ≠ id := fun heq => hc.vacant ⟨b, bl, hbl, ht, heq⟩
      rw [objectPtr_withObject hblock, if_neg hne, hc.same.objectPtr, ht]
    · rfl

theorem Occupied_withObject (hnew : w.allocation a = none)
    (hheap : ∀ {b}, b ≠ a → core.heap b = w.core.heap b) (haid : (core.heap a).id = id)
    (t' : TableId) (j : Nat) :
    (w.withObject t T' a core).Occupied t' j ↔ w.Occupied t' j ∨ t' = t ∧ j = id := by
  constructor
  · rintro ⟨b, bl, hbl, hhome, hbid⟩
    rcases allocation_withObject hbl with ⟨rfl, rfl⟩ | ⟨hba, hbl⟩
    · exact Or.inr ⟨hhome.symm, hbid.symm.trans haid⟩
    · refine Or.inl ⟨b, bl, hbl, hhome, ?_⟩
      rw [← hbid]
      exact congrArg Bobject.id (hheap hba).symm
  · rintro (⟨b, bl, hbl, hhome, hbid⟩ | ⟨rfl, rfl⟩)
    · have hba := ne_of_unallocated hnew hbl
      refine ⟨b, bl, (update_of_ne hba ..).trans hbl, hhome, ?_⟩
      rw [← hbid]
      exact congrArg Bobject.id (hheap hba)
    · exact ⟨a, ⟨w.serial, t'⟩, update_self .., rfl, haid⟩

variable (hc : Claimed cfg w t id T)
    (hblock : T.slotBlock (id / tableBlockSize) = true) (hnew : w.allocation a = none)
    (hreg : Registered w.core core a t) (haid : (w.core.heap a).id = id)
include hc hblock hnew hreg haid

theorem Books.withObject (h : Books cfg w) :
    Books cfg (w.withObject t (T.withObject id a gen) a core) := by
  have haid' : (core.heap a).id = id := by
    obtain ⟨i, hi⟩ := hreg.header
    rw [hi]
    exact haid
  have hne : ∀ {b bl}, w.allocation b = some bl → b ≠ a := ne_of_unallocated hnew
  have hpub : ∀ b, (w.withObject t (T.withObject id a gen) a core).published b = _ :=
    published_withObject hc hblock hreg.heap haid'
  have hocc : ∀ t' j, (w.withObject t (T.withObject id a gen) a core).Occupied t' j ↔ _ :=
    Occupied_withObject hnew hreg.heap haid'
  refine ⟨hreg.core, fun {b bl} hbl => ?_, fun {i b} hi hobj => ?_, fun {t' j b} hptr => ?_,
    fun {b c bl cl} hb hcl hhome hid => ?_, fun {t'} ht' => ?_, fun {t'} ht' => ?_,
    fun {t'} ht' => ?_⟩
  · rcases allocation_withObject hbl with ⟨rfl, rfl⟩ | ⟨hba, hbl⟩
    · refine ⟨?_, ?_, ?_⟩
      · simp only [table_withObject, if_true]
        exact hc.same.initialized.trans hc.ready
      · change (core.heap b).id < _
        rw [haid']
        exact hc.id_lt
      · rw [hpub, if_pos rfl]
        exact hreg.entry
    · obtain ⟨hready, hlt, hentry⟩ := h.object hbl
      refine ⟨?_, ?_, ?_⟩
      · rw [table_withObject]
        split_ifs with ht
        · exact hc.same.initialized.trans hc.ready
        · exact hready
      · change (core.heap b).id < _
        rw [hreg.heap hba]
        exact hlt
      · rw [hpub, if_neg hba]
        exact hreg.others hba hentry
  · rcases hreg.entries hi hobj with rfl | ⟨hi', hobj'⟩
    · exact ⟨_, update_self ..⟩
    · obtain ⟨bl, hbl⟩ := h.entries hi' hobj'
      exact ⟨bl, (update_of_ne (hne hbl) ..).trans hbl⟩
  · rw [table_withObject] at hptr
    have hold : (w.table t').objectPtr j = some b →
        ∃ bl, (w.withObject t (T.withObject id a gen) a core).allocation b = some bl ∧
          bl.home = t' ∧ ((w.withObject t (T.withObject id a gen) a core).header b).id = j := by
      intro hptr
      obtain ⟨bl, hbl, hhome, hbid⟩ := h.slot hptr
      refine ⟨bl, (update_of_ne (hne hbl) ..).trans hbl, hhome, ?_⟩
      rw [← hbid]
      exact congrArg Bobject.id (hreg.heap (hne hbl))
    split_ifs at hptr with ht
    · subst ht
      rw [objectPtr_withObject hblock] at hptr
      split_ifs at hptr with hj
      · cases hptr
        exact ⟨_, update_self .., rfl, haid'.trans hj.symm⟩
      · rw [hc.same.objectPtr] at hptr
        exact hold hptr
    · exact hold hptr
  · -- a new object shares its id with no old one of its table
    have hclash : ∀ {c cl}, w.allocation c = some cl → t = cl.home → id = (core.heap c).id →
      False := by
      intro c cl hcl hh hi
      refine hc.vacant ⟨c, cl, hcl, hh.symm, ?_⟩
      rw [hi]
      exact congrArg Bobject.id (hreg.heap (hne hcl)).symm
    rcases allocation_withObject hb with ⟨rfl, rfl⟩ | ⟨hba, hbold⟩
    · rcases allocation_withObject hcl with ⟨rfl, rfl⟩ | ⟨hca, hcold⟩
      · rfl
      · exact (hclash hcold hhome (haid'.symm.trans hid)).elim
    rcases allocation_withObject hcl with ⟨rfl, rfl⟩ | ⟨hca, hcold⟩
    · exact (hclash hbold hhome.symm (haid'.symm.trans hid.symm)).elim
    refine h.distinct hbold hcold hhome ?_
    have hb' := congrArg Bobject.id (hreg.heap hba)
    have hc' := congrArg Bobject.id (hreg.heap hca)
    exact hb'.symm.trans (hid.trans hc')
  · rw [table_withObject] at ht' ⊢
    split_ifs at ht' ⊢ with ht
    · subst ht
      obtain ⟨l, hchain, hmem⟩ := hc.free
      refine ⟨l, hchain, fun j => ?_⟩
      rw [hmem, hocc]
      simp
    · obtain ⟨l, hchain, hmem⟩ := h.free ht'
      refine ⟨l, hchain, fun j => ?_⟩
      rw [hmem, hocc]
      simp [ht]
  · rw [table_withObject] at ht' ⊢
    split_ifs at ht' ⊢ with ht
    · subst ht
      -- one slot went from empty to full
      have hbefore := h.count hc.ready
      have hempty : (w.table t').objectPtr id = none := objectPtr_none_of_vacant h hc.vacant
      have hptr : (T.withObject id a gen).objectPtr = update (w.table t').objectPtr id
        (some a) := by
        funext j
        rw [objectPtr_withObject hblock, update_apply, hc.same.objectPtr]
      have hmove := tally_update (fun p : Option Addr => p.isSome = true) (w.table t').objectPtr
        (Finset.mem_range.mpr hc.id_lt) (some a)
      have hle := tally_le_card (Finset.range (cfg.capacity t').N)
        (fun p : Option Addr => p.isSome = true)
        (update (w.table t').objectPtr id (some a))
      rw [Finset.card_range] at hle
      rw [hempty] at hmove
      simp only [Option.isSome_none, Bool.false_eq_true, if_false, Option.isSome_some,
        if_true] at hmove
      have hlt := (cfg.capacity t').lt
      rw [hptr]
      change succ32 T.count = _
      rw [hc.same.count, hbefore, succ32_of_lt (by omega)]
      omega
    · exact h.count ht'
  · rw [table_withObject] at ht' ⊢
    split_ifs at ht' ⊢ with ht
    · subst ht
      exact ⟨hc.same.hasInstance.trans (h.ready hc.ready).1, (h.ready hc.ready).2⟩
    · exact h.ready ht'

theorem RefsOk.withObject (h : WF cfg w x) (href : (w.core.heap a).ref = 1) :
    RefsOk (w.withObject t (T.withObject id a gen) a core) x := by
  obtain ⟨i, hheader⟩ := hreg.header
  have haid' : (core.heap a).id = id := by rw [hheader, haid]
  have hpub : ∀ b, (w.withObject t (T.withObject id a gen) a core).published b = _ :=
    published_withObject hc hblock hreg.heap haid'
  -- nothing refers to storage that holds no object
  have hnone := h.refs.dead hnew
  have hzero : w.handle.count (some a) + w.capReferences a + x a = 0 := by
    unfold World.references at hnone
    omega
  have hrefs : ∀ b, (w.withObject t (T.withObject id a gen) a core).references b =
      if b = a then 1 + w.handle.count (some b) + w.capReferences b else w.references b := by
    intro b
    unfold World.references
    rw [hpub]
    by_cases hba : b = a
    · rw [if_pos hba, if_pos hba, if_pos rfl]
      rfl
    · rw [if_neg hba, if_neg hba]
      rfl
  refine ⟨fun {b bl} hbl => ?_, fun {b} hb => ?_⟩
  · rw [hrefs]
    rcases allocation_withObject hbl with ⟨rfl, rfl⟩ | ⟨hba, hbold⟩
    · have hone : ((w.withObject t (T.withObject id b gen) b core).header b).ref = 1 := by
        change (core.heap b).ref = 1
        rw [hheader, href]
      rw [hone, if_pos rfl]
      omega
    · have hsame : (w.withObject t (T.withObject id a gen) a core).header b = w.header b :=
        hreg.heap hba
      rw [hsame, if_neg hba]
      exact h.refs.live hbold
  · have hba : b ≠ a := fun heq => by
      subst heq
      simp [World.withObject] at hb
    have hb' : w.allocation b = none := by
      simpa [World.withObject, hba] using hb
    rw [hrefs, if_neg hba]
    exact h.refs.dead hb'

omit hc hblock hnew hreg haid in
theorem History.withObject (h : History w) (hnew : w.allocation a = none) :
    History (w.withObject t T' a core) := by
  refine ⟨fun {b bl} hbl => ?_, fun {b c bl cl} hb hc heq => ?_, h.nodup,
    fun {s} hs => Nat.lt_succ_of_lt (h.reclaimed_lt hs), fun {s} hs => ?_⟩
  · change bl.serial < w.serial + 1
    rcases allocation_withObject hbl with ⟨-, rfl⟩ | ⟨-, hbold⟩
    · exact Nat.lt_succ_self _
    · exact Nat.lt_succ_of_lt (h.live_lt hbold)
  · rcases allocation_withObject hb with ⟨rfl, rfl⟩ | ⟨-, hbold⟩
    · rcases allocation_withObject hc with ⟨rfl, rfl⟩ | ⟨-, hcold⟩
      · rfl
      · exact absurd heq (h.live_lt hcold).ne'
    · rcases allocation_withObject hc with ⟨rfl, rfl⟩ | ⟨-, hcold⟩
      · exact absurd heq (h.live_lt hbold).ne
      · exact h.distinct hbold hcold heq
  · rcases Nat.lt_or_eq_of_le (Nat.le_of_lt_succ hs) with hlt | rfl
    · refine Iff.trans ?_ (h.live_iff hlt)
      constructor
      · rintro ⟨b, bl, hbl, rfl⟩
        rcases allocation_withObject hbl with ⟨rfl, rfl⟩ | ⟨-, hbold⟩
        · exact absurd hlt (Nat.lt_irrefl _)
        · exact ⟨b, bl, hbold, rfl⟩
      · rintro ⟨b, bl, hbl, rfl⟩
        exact ⟨b, bl, (update_of_ne (ne_of_unallocated hnew hbl) ..).trans hbl, rfl⟩
    · -- the serial that was just given out
      have hfresh : w.serial ∉ w.reclaimed := fun hin => Nat.lt_irrefl _ (h.reclaimed_lt hin)
      exact iff_of_true ⟨a, _, update_self .., rfl⟩ hfresh

theorem WF.withObject (h : WF cfg w x) (href : (w.core.heap a).ref = 1) :
    WF cfg (w.withObject t (T.withObject id a gen) a core) x where
  books := h.books.withObject hc hblock hnew hreg haid
  refs := .withObject hc hblock hnew hreg haid h href
  caps := h.caps
  history := h.history.withObject hnew

end Publish

/-! ## The outcomes of an allocation -/

def newHeader (gen id : Nat) (type : KobjectType) : Bobject :=
  ({ generation := gen } : Bobject).initializeAs id type

/-- The world right before the first handle is made. -/
def World.newObject (w : World) (t : TableId) (T : ScomsTable) (id : Nat) (type : KobjectType)
    (a : Addr) (core : ObjectCore) : World :=
  (w.setHeader a (newHeader (succ32 (T.generation id)) id type)).withObject t
    (T.withObject id a (succ32 (T.generation id))) a core

theorem WF.newObject (h : WF cfg w x) (hc : Claimed cfg w t id T)
    {core : ObjectCore} (hnew : w.allocation a = none)
    (hblock : T.slotBlock (id / tableBlockSize) = true)
    (hreg : Registered (w.setHeader a (newHeader (succ32 (T.generation id)) id type)).core
      core a t) :
    WF cfg (w.newObject t T id type a core) x := by
  refine (h.writeStorage hnew).withObject (hc.setHeader hnew) hblock hnew hreg ?_ ?_
  · exact congrArg Bobject.id (header_setHeader_self ..)
  · exact congrArg Bobject.ref (header_setHeader_self ..)

theorem WF.acquireNew {core : ObjectCore} (h : WF cfg (w.newObject t T id type a core) x) :
    Post Trap.IsBenign (fun r => r.1 = some a ∧ WF cfg r.2 (held x (some a)))
      ((w.newObject t T id type a core).acquire (some a)) := by
  have hal : (w.newObject t T id type a core).allocation a = some ⟨w.serial, t⟩ :=
    update_self ..
  refine h.acquire fun b hb => ?_
  cases hb
  exact ⟨_, hal⟩

/-- How `publish` can end when the id is off the free list of `T` and the rest of the world
is `w`. -/
inductive PublishOutcome (w : World) (t : TableId) (T : ScomsTable) (id : Nat)
    (type : KobjectType) : Except KernelError Addr × World → Prop
  /-- The id is free again. Storage that holds no object may be written, and the generation
  counter of the slot may have advanced. -/
  | failed {e : KernelError} {w₀ : World} {T' : ScomsTable}
      (storage : w₀ = w ∨ ∃ a o, w.allocation a = none ∧ w₀ = w.setHeader a o)
      (same : SameObjects T T') (next : T'.next = update T.next id T.freeHead)
      (head : T'.freeHead = id)
      (gen : ∀ j, T'.generation j = T.generation j ∨
        j = id ∧ T'.generation j = succ32 (T.generation j)) :
      PublishOutcome w t T id type (.error e, w₀.setTable t T')
  | published {T' : ScomsTable} {a : Addr} {core : ObjectCore} {p : Option Addr} {w' : World}
      (new : w.allocation a = none) (same : SameObjects T T') (next : T'.next = T.next)
      (head : T'.freeHead = T.freeHead) (gen : T'.generation = T.generation)
      (block : T'.slotBlock (id / tableBlockSize) = true)
      (registered : Registered (w.setHeader a (newHeader (succ32 (T'.generation id)) id type)).core
        core a t)
      (handle : (w.newObject t T' id type a core).acquire (some a) = .ok (p, w')) :
      PublishOutcome w t T id type (.ok a, w'.pushHandle p)

theorem sameObjects_unregistered (hempty : T.objectPtr id = none) {gen : Nat → Nat} :
    SameObjects T ((pushFree { T.setSlot id (some a) with generation := gen } id).setSlot id
      none) := by
  refine ⟨fun j => ?_, rfl, rfl, rfl⟩
  unfold objectPtr at hempty ⊢
  by_cases hj : j = id
  · subst hj
    rw [hempty]
    simp [setSlot, pushFree]
  · simp [setSlot, pushFree, hj]

theorem setReclaimer_of_registerObject {c c₁ : ObjectCore} {mem : Nat → Bool} {d : Nat}
    (hreg : c.registerObject mem a d = .ok c₁) : ∃ c₂, c₁.setReclaimer a (some t) = .ok c₂ := by
  obtain ⟨-, i, c₀, hscan, rfl⟩ := registerObject_eq_ok hreg
  obtain ⟨-, hmax, hpres, -, -⟩ := registerScan_spec hscan
  have hfind : findLocked ((c₀.setEntry i (freshEntry a d (c₀.heap a).objectFlags)).setObject a
      { c₀.heap a with objectFlags := i + 1 }) a = some i := by
    refine findLocked_eq_some.mpr ⟨by simp, by omega, hpres, ?_, ?_⟩ <;>
      simp [freshEntry]
  simp [setReclaimer, hfind]

theorem setTable_setTable {T' : ScomsTable} : (w.setTable t T).setTable t T' = w.setTable t T' := by
  simp [setTable]

theorem publish_outcome (h : WF cfg w x) (hc : Claimed cfg w t id T) {faults : AllocFaults} :
    Post Trap.IsBenign (PublishOutcome w t T id type)
      ((w.setTable t T).publish t id type faults) := by
  have hempty : T.objectPtr id = none :=
    (hc.same.objectPtr id).trans (objectPtr_none_of_vacant h.books hc.vacant)
  unfold publish
  rw [table_setTable_self]
  split
  · rw [post_pure, setTable_setTable]
    exact .failed (.inl rfl) ⟨fun _ => rfl, rfl, rfl, rfl⟩ rfl rfl fun _ => .inl rfl
  next T' hblock =>
  obtain ⟨hsame, hb, hnext, hhead, hgen⟩ := ensureObjectBlock_spec hblock
  split
  · rw [post_pure, setTable_setTable]
    refine .failed (.inl rfl) ⟨hsame.1, hsame.2, hsame.3, hsame.4⟩ ?_ rfl fun j => .inl ?_
    · rw [← hnext, ← hhead]
      rfl
    · exact congrFun hgen j
  next a _ =>
  split_ifs with hused
  · trivial
  have hnew : w.allocation a = none := Option.not_isSome_iff_eq_none.mp hused
  dsimp only
  have hempty' : T'.objectPtr id = none := (hsame.objectPtr id).trans hempty
  split
  · -- registration fails: the slot is emptied and the id goes back
    next e hreg =>
    rw [post_pure]
    change PublishOutcome w t T id type (.error e, ((w.setHeader a _).setTable t T).setTable t _)
    rw [setTable_setTable]
    refine .failed (.inr ⟨a, _, hnew, rfl⟩) (hsame.trans (sameObjects_unregistered hempty')) ?_
      rfl fun j => ?_
    · rw [← hnext, ← hhead]
      rfl
    change update T'.generation id _ j = _ ∨ _
    rw [hgen]
    by_cases hj : j = id
    · subst hj
      exact .inr ⟨rfl, update_self ..⟩
    · exact .inl (update_of_ne hj ..)
  next c₁ hreg =>
  have hreg' : registerObject
      (w.setHeader a (newHeader (succ32 (T'.generation id)) id type)).core faults.metadataBlock a
      kobjectIdInvalid = .ok c₁ := by
    -- an injected failure is not a success
    unfold AllocFaults.register at hreg
    split at hreg
    · cases hreg
    · exact hreg
  obtain ⟨c₂, hrec⟩ := setReclaimer_of_registerObject (t := t) hreg'
  have hid : ((w.setHeader a (newHeader (succ32 (T'.generation id)) id type)).core.heap a).id ≠
      kobjectIdInvalid := by
    rw [show (w.setHeader a _).core.heap a = _ from header_setHeader_self ..]
    exact (hc.id_lt.trans (cfg.capacity t).lt_invalid).ne
  have hfinal := registered (h.writeStorage hnew).books.core hid hreg' hrec
  rw [hrec]
  dsimp only
  have hworld : { w.setTable t T with
      core := c₂
      table := update (w.setTable t T).table t (T'.withObject id a (succ32 (T'.generation id)))
      allocation := update w.allocation a (some ⟨w.serial, t⟩)
      serial := w.serial + 1 } = w.newObject t T' id type a c₂ := by
    simp only [setTable, update_idem]
    rfl
  have hwf := h.newObject (hc.congr hsame hnext hhead) hnew hb hfinal
  change Post _ _ (acquire { w.setTable t T with
      core := c₂
      table := update (w.setTable t T).table t (T'.withObject id a (succ32 (T'.generation id)))
      allocation := update w.allocation a (some ⟨w.serial, t⟩)
      serial := w.serial + 1 } (some a) >>= _)
  rw [hworld]
  exact hwf.acquireNew.with_eq.bind fun r hr =>
    .published hnew hsame hnext hhead hgen hb hfinal hr.2

variable {r : Except KernelError Addr × World}

theorem PublishOutcome.wf (hr : PublishOutcome w t T id type r) (h : WF cfg w x)
    (hc : Claimed cfg w t id T) : WF cfg r.2 x := by
  cases hr with
  | failed storage same next head gen =>
    rcases storage with rfl | ⟨a, o, hnew, rfl⟩
    · exact h.unclaim hc same next head
    · exact (h.writeStorage hnew).unclaim (hc.setHeader hnew) same next head
  | @published T' a core p w' new same next head gen block registered handle =>
    have hwf := h.newObject (hc.congr same next head) new block registered
    obtain ⟨hp, hwf'⟩ : p = some a ∧ WF cfg w' (held x (some a)) := hwf.acquireNew.result handle
    exact WF.pushHandle (hp ▸ hwf')

/-! ## Claiming an id -/

theorem Claimed.popFree (h : Books cfg w) (hinit : (w.table t).initialized = true)
    (hne : (w.table t).freeHead ≠ kobjectIdInvalid) :
    Claimed cfg w t (w.table t).freeHead (w.table t).popFree := by
  obtain ⟨l, hchain, hmem⟩ := h.free hinit
  obtain ⟨rest, rfl, hnotMem, hrest⟩ := hchain.popFree hne
  obtain ⟨hlt, hvacant⟩ := (hmem _).mp (List.mem_cons_self ..)
  refine ⟨hinit, hlt, hvacant, ⟨fun _ => rfl, rfl, rfl, rfl⟩, rest, hrest, fun j => ?_⟩
  have hj := hmem j
  rw [List.mem_cons] at hj
  constructor
  · intro hin
    obtain ⟨hjlt, hjvac⟩ := hj.mp (.inr hin)
    exact ⟨hjlt, hjvac, fun heq => hnotMem (heq ▸ hin)⟩
  · rintro ⟨hjlt, hjvac, hjne⟩
    exact (hj.mpr ⟨hjlt, hjvac⟩).resolve_left hjne

theorem free_length {l : List Nat} (hchain : (w.table t).FreeChain l)
    (hmem : ∀ id, id ∈ l ↔ id < (cfg.capacity t).N ∧ ¬ w.Occupied t id) :
    l.length ≤ (cfg.capacity t).N := by
  have hsub : l.toFinset ⊆ Finset.range (cfg.capacity t).N := fun j hj => by
    rw [List.mem_toFinset] at hj
    exact Finset.mem_range.mpr ((hmem j).mp hj).1
  have hle := Finset.card_le_card hsub
  rwa [List.toFinset_card_of_nodup hchain.nodup, Finset.card_range] at hle

theorem Claimed.unlinkFree (h : Books cfg w) (hinit : (w.table t).initialized = true)
    (hlt : id < (cfg.capacity t).N) :
    (w.Occupied t id ∧ (w.table t).unlinkFree (cfg.capacity t).N id = .ok none) ∨
      ∃ T, (w.table t).unlinkFree (cfg.capacity t).N id = .ok (some T) ∧ Claimed cfg w t id T ∧
        T.generation = (w.table t).generation := by
  obtain ⟨l, hchain, hmem⟩ := h.free hinit
  have hid : id ≠ kobjectIdInvalid := (hlt.trans (cfg.capacity t).lt_invalid).ne
  rcases hchain.unlinkFree (free_length hchain hmem) hid with ⟨hout, heq⟩ | ⟨hin, T, heq, hT, hrest⟩
  · left
    rw [hmem] at hout
    exact ⟨by_contra fun hvac => hout ⟨hlt, hvac⟩, heq⟩
  right
  refine ⟨T, heq, ⟨hinit, hlt, ((hmem id).mp hin).2, ?_, l.erase id, hT, fun j => ?_⟩, ?_⟩
  · rw [hrest]
    exact ⟨fun _ => rfl, rfl, rfl, rfl⟩
  · rw [hchain.nodup.mem_erase_iff, hmem]
    tauto
  · rw [hrest]

/-- How `alloc` and `alloc_at` can end: nothing happened, or an id was claimed. -/
def AllocOutcome (cfg : Config) (w : World) (t : TableId) (r : Except KernelError Addr × World) :
    Prop :=
  (∃ e, r = (.error e, w)) ∨ ∃ id T type, Claimed cfg w t id T ∧
    T.generation = (w.table t).generation ∧ PublishOutcome w t T id type r

theorem AllocOutcome.wf (hr : AllocOutcome cfg w t r) (h : WF cfg w x) : WF cfg r.2 x := by
  rcases hr with ⟨e, rfl⟩ | ⟨id, T, type, hc, -, hout⟩
  · exact h
  · exact hout.wf h hc

theorem alloc_outcome (h : WF cfg w x) (t : TableId) (requestedType : KobjectType)
    (faults : AllocFaults) :
    Post Trap.IsBenign (AllocOutcome cfg w t) (w.alloc t requestedType faults) := by
  unfold alloc
  dsimp only
  split_ifs with hoff hempty
  · exact .inl ⟨_, rfl⟩
  · exact .inl ⟨_, rfl⟩
  all_goals
    have hinit : (w.table t).initialized = true := by simpa using hoff
    have hc := Claimed.popFree h.books hinit hempty
    exact (publish_outcome h hc).mono fun r hr => .inr ⟨_, _, _, hc, rfl, hr⟩

theorem allocAt_outcome (h : WF cfg w x) {faults : AllocFaults} :
    Post Trap.IsBenign (AllocOutcome cfg w t) (w.allocAt cfg t id faults) := by
  unfold allocAt
  dsimp only
  split_ifs with hoff hlt hused hempty
  · exact .inl ⟨_, rfl⟩
  · exact .inl ⟨_, rfl⟩
  · exact .inl ⟨_, rfl⟩
  · exact .inl ⟨_, rfl⟩
  have hinit : (w.table t).initialized = true := by simpa using hoff
  rcases Claimed.unlinkFree h.books hinit (Nat.not_le.mp hlt) with ⟨-, heq⟩ | ⟨T, heq, hc, hgen⟩
  · rw [heq]
    exact .inl ⟨_, rfl⟩
  · rw [heq]
    exact (publish_outcome h hc).mono fun r hr => .inr ⟨_, _, _, hc, hgen, hr⟩

/-! ## Generations written by the creator -/

theorem acquire_entry {p q : Option Addr} (h : w.acquire p = .ok (q, w')) :
    w'.core.entry = w.core.entry := by
  cases p with
  | none =>
    cases h
    rfl
  | some a =>
    unfold acquire tryGet at h
    cases hkref : krefTryGet (w.header a).ref with
    | error e => simp [hkref, bind, Except.bind] at h
    | ok r =>
      simp only [hkref, bind, Except.bind, pure, Except.pure, Except.ok.injEq, Prod.mk.injEq] at h
      rw [← h.2]
      rfl

theorem AllocOutcome.childless (hr : AllocOutcome cfg w t r)
    (ha : r.1 = .ok a) (i p : Nat) (hs : (r.2.core.entry i).parentSlot = p + 1) :
    (r.2.core.entry p).object ≠ some a := by
  rcases hr with ⟨e, rfl⟩ | ⟨id, T, type, -, -, hout⟩
  · cases ha
  cases hout with
  | failed => cases ha
  | @published T' b core q w' new same next head gen block registered handle =>
  cases ha
  have hentry : w'.core.entry = core.entry := acquire_entry handle
  change (w'.core.entry i).parentSlot = p + 1 at hs
  change (w'.core.entry p).object ≠ some a
  rw [hentry] at hs ⊢
  exact registered.childless i p hs

theorem AllocOutcome.overwrite (hr : AllocOutcome cfg w t r) (h : WF cfg w x)
    (generation : Option Nat) :
    WF cfg (r.2.overwriteGeneration r.1 generation) x := by
  unfold overwriteGeneration
  split
  · next a g ha => exact (hr.wf h).setGeneration (hr.childless ha)
  · exact hr.wf h

/-!
## Retiring objects

`acquire_ref`, `release` and `destroy_if`. A release unregisters the object, empties its slot and
puts the table's reference. From then on the object is retired: it has no slot, its metadata entry
waits, and the last `put`, here or much later, reclaims it.
-/

variable {cfg : Config} {w w' : World} {x : Addr → Nat} {t : TableId} {id : Nat} {a : Addr}

theorem WF.acquireRef (h : WF cfg w x) {state : LifecycleState} :
    Post Trap.IsBenign (fun r => WF cfg r.2 (held x r.1)) (w.acquireRef cfg t id state) := by
  unfold World.acquireRef
  split_ifs
  · trivial
  split
  · rw [post_pure, held_none]
    exact h
  next a hptr =>
  split_ifs
  · rw [post_pure, held_none]
    exact h
  obtain ⟨al, hal, -, -⟩ := h.books.slot hptr
  have hacq := h.acquire (p := some a) fun b hb => by
    cases hb
    exact ⟨al, hal⟩
  exact hacq.mono fun r hr => hr.1 ▸ hr.2

/-! ## Release -/

/-- The world between unregistering the object and putting the table's reference. -/
def World.retired (w : World) (t : TableId) (id : Nat) (a : Addr) (core : ObjectCore) : World :=
  { w with
    core := core.setObject a ((core.heap a).transition .destroyed).1
    table := update w.table t
      { (w.table t).setSlot id none with count := pred32 (w.table t).count } }

theorem objectPtr_retired (core : ObjectCore) (t' : TableId) (j : Nat) :
    ((w.retired t id a core).table t').objectPtr j =
      if t' = t ∧ j = id then none else (w.table t').objectPtr j := by
  by_cases ht : t' = t
  · subst ht
    simp only [retired, update_self, ScomsTable.objectPtr, ScomsTable.setSlot]
    by_cases hj : j = id
    · simp [hj]
    · simp [hj]
  · simp [retired, ht]

section Release

variable {core : ObjectCore} {t' : TableId} {b : Addr}

theorem initialized_retired :
    ((w.retired t id a core).table t').initialized = (w.table t').initialized := by
  by_cases ht : t' = t
  · subst ht
    simp only [retired, update_self]
    rfl
  · simp only [retired, update_of_ne ht]

theorem count_retired (h : Books cfg w) (hptr : (w.table t).objectPtr id = some a)
    (ht' : (w.table t').initialized = true) :
    ((w.retired t id a core).table t').count = tally (Finset.range (cfg.capacity t').N)
      (fun p => p.isSome = true) ((w.retired t id a core).table t').objectPtr := by
  by_cases ht : t' = t
  · subst ht
    obtain ⟨al, hal, rfl, rfl⟩ := h.slot hptr
    have hlt := (h.object hal).id_lt
    have hafter : ((w.retired al.home (w.header a).id a core).table al.home).objectPtr =
        update (w.table al.home).objectPtr (w.header a).id none := by
      funext j
      rw [objectPtr_retired, update_apply]
      simp
    have hmove := tally_update (fun p : Option Addr => p.isSome = true)
      (w.table al.home).objectPtr (Finset.mem_range.mpr hlt) none
    have hbound := tally_le_card (Finset.range (cfg.capacity al.home).N)
      (fun p : Option Addr => p.isSome = true) (w.table al.home).objectPtr
    rw [Finset.card_range] at hbound
    have hcap := (cfg.capacity al.home).lt
    rw [hptr] at hmove
    simp only [Option.isSome_some, if_true, Option.isSome_none, Bool.false_eq_true, if_false,
      Nat.add_zero] at hmove
    rw [hafter]
    change (table (w.retired al.home (w.header a).id a core) al.home).count = _
    simp only [retired, update_self]
    rw [h.count ht', pred32_of_pos (by omega) (by omega)]
    omega
  · have hsame : (w.retired t id a core).table t' = w.table t' := update_of_ne ht ..
    rw [hsame]
    exact h.count ht'

variable (hun : w.core.unregisterObject a = .ok core) (hdying : (w.header a).state = .dying)
include hun hdying

theorem header_retired (b : Addr) :
    (w.retired t id a core).header b =
      if b = a then { w.header a with state := .destroyed } else w.header b := by
  obtain ⟨i, -, -, rfl⟩ := unregisterObject_eq_ok hun
  have hheap : ((w.core.clearParentLocked i).setEntry i
      { (w.core.clearParentLocked i).entry i with active := false, reclaimPending := true }).heap =
      w.core.heap := clearParentLocked_heap ..
  by_cases hba : b = a
  · subst hba
    have hadmits : transitionAdmits .destroyed (w.core.heap b).state = true := by
      rw [show (w.core.heap b).state = .dying from hdying]
      rfl
    change (setObject _ b _).heap b = _
    rw [setObject_heap_self, Bobject.transition_fst, hheap, hadmits]
    simp [header]
  · change (setObject _ a _).heap b = _
    rw [setObject_heap_of_ne _ _ hba, hheap, if_neg hba]
    rfl

theorem id_retired (b : Addr) : ((w.retired t id a core).header b).id = (w.header b).id := by
  rw [header_retired hun hdying]
  split_ifs with hba
  · rw [hba]
  · rfl

theorem published_retired (h : Books cfg w) (hptr : (w.table t).objectPtr id = some a) (b : Addr) :
    (w.retired t id a core).published b = if b = a then false else w.published b := by
  obtain ⟨al, hal, hhome, hid⟩ := h.slot hptr
  unfold published
  have halloc : (w.retired t id a core).allocation b = w.allocation b := rfl
  rw [halloc]
  cases hbl : w.allocation b with
  | none => simp
  | some bl =>
  simp only [Option.any_some, id_retired hun hdying, objectPtr_retired]
  by_cases hba : b = a
  · subst hba
    obtain rfl : bl = al := Option.some.inj (hbl.symm.trans hal)
    simp [hhome, hid]
  rw [if_neg hba]
  have hne : ¬ (bl.home = t ∧ (w.header b).id = id) := fun hsame =>
    hba (h.distinct hbl hal (hsame.1.trans hhome.symm) (hsame.2.trans hid.symm))
  rw [if_neg hne]

/-- The metadata of a release: the entry of the object waits for its last reference, those of the
other objects stay. -/
theorem EntryOk.retired {pub : Bool} (hb : EntryOk w.core b t' pub) :
    EntryOk (w.retired t id a core).core b t' (if b = a then false else pub) := by
  have hheader : ∀ c, (w.retired t id a core).core.heap c = _ := header_retired hun hdying
  obtain ⟨i, hfind, -, rfl⟩ := unregisterObject_eq_ok hun
  obtain ⟨hflags, hmax, hpres, -, hobj⟩ := findLocked_eq_some.mp hfind
  have hpresent : ∀ k, w.core.present k = true → (w.core.clearParentLocked i).present k = true := by
    intro k hk
    rw [clearParentLocked_present]
    exact hk
  by_cases hba : b = a
  · subst hba
    obtain ⟨j, hjflags, -, -, -, hrec, -⟩ := hb
    obtain rfl : j = i := by
      rw [hflags] at hjflags
      omega
    obtain ⟨hobj', hrec', -, -⟩ := clearParentLocked_kept w.core j j
    rw [if_pos rfl]
    refine ⟨j, ?_, hmax, hpresent _ hpres, ?_, ?_, ?_, ?_⟩
    · rw [hheader, if_pos rfl]
      exact hflags
    · simpa [retired] using hobj'.trans hobj
    · simpa [retired] using hrec'.trans hrec
    · simp [retired]
    · rw [hheader, if_pos rfl]
  · rw [if_neg hba]
    refine hb.kept ⟨?_, ?_, fun _ => ?_, hpresent, fun j hj hjobj _ => ?_⟩
    · rw [hheader, if_neg hba]
      rfl
    · rw [hheader, if_neg hba]
      rfl
    · rw [hheader, if_neg hba]
      rfl
    have hji : j ≠ i := fun heq => by
      rw [heq, hobj] at hjobj
      exact hba (Option.some.inj hjobj).symm
    change ((setEntry _ i _).entry j).object = _ ∧ _
    simp only [retired, setObject_entry, setEntry_entry_of_ne _ _ hji]
    exact clearParentLocked_kept w.core i j

omit hdying in
theorem CoreInv.retired (h : CoreInv w.core) : CoreInv (w.retired t id a core).core := by
  have h' := h.unregisterObject hun
  change CoreInv (core.setObject a ((core.heap a).transition .destroyed).1)
  rw [Bobject.transition_fst]
  exact h'.setObject (fun _ _ _ => ⟨rfl, rfl⟩) fun _ _ _ _ => ⟨rfl, rfl, rfl⟩

omit hdying in
theorem entry_retired {i : Nat} (hi : ((w.retired t id a core).core.entry i).active = true)
    (hobj : ((w.retired t id a core).core.entry i).object = some b) :
    (w.core.entry i).active = true ∧ (w.core.entry i).object = some b := by
  obtain ⟨j, -, -, rfl⟩ := unregisterObject_eq_ok hun
  have hij : i ≠ j := fun heq => by
    subst heq
    simp [retired] at hi
  simp only [retired, setObject_entry, setEntry_entry_of_ne _ _ hij] at hi hobj
  obtain ⟨hobj', -, hact', -⟩ := clearParentLocked_kept w.core j i
  exact ⟨hact'.symm.trans hi, hobj'.symm.trans hobj⟩

theorem Books.retired (h : Books cfg w) (hptr : (w.table t).objectPtr id = some a) :
    Books cfg (w.retired t id a core) := by
  have hids : ∀ b, ((w.retired t id a core).header b).id = (w.header b).id :=
    id_retired hun hdying
  have hocc : ∀ t' j, (w.retired t id a core).Occupied t' j ↔ w.Occupied t' j := by
    intro t' j
    simp only [World.Occupied, hids]
    rfl
  refine ⟨h.core.retired hun, fun {b bl} hbl => ?_, fun {i b} hi hobj => ?_,
    fun {t' j b} hslot => ?_, fun {b c bl cl} hb hc hhome hid => ?_, fun {t'} ht' => ?_,
    fun {t'} ht' => ?_, fun {t'} ht' => ?_⟩
  · obtain ⟨hready, hlt, hentry⟩ := h.object hbl
    refine ⟨by rwa [initialized_retired], by rwa [hids], ?_⟩
    rw [published_retired hun hdying h hptr]
    exact hentry.retired hun hdying
  · obtain ⟨hi', hobj'⟩ := entry_retired hun hi hobj
    exact h.entries hi' hobj'
  · rw [objectPtr_retired] at hslot
    split_ifs at hslot
    obtain ⟨bl, hbl, hhome, hid⟩ := h.slot hslot
    exact ⟨bl, hbl, hhome, (hids b).trans hid⟩
  · rw [hids, hids] at hid
    exact h.distinct hb hc hhome hid
  · rw [initialized_retired] at ht'
    obtain ⟨l, hchain, hmem⟩ := h.free ht'
    refine ⟨l, ?_, fun j => by rw [hmem, hocc]⟩
    by_cases ht : t' = t
    · subst ht
      simp only [World.retired, update_self]
      exact hchain
    · simpa [World.retired, ht] using hchain
  · rw [initialized_retired] at ht'
    exact count_retired h hptr ht'
  · rw [initialized_retired] at ht'
    obtain ⟨hinst, hfin⟩ := h.ready ht'
    refine ⟨?_, hfin⟩
    by_cases ht : t' = t
    · subst ht
      simp only [World.retired, update_self]
      exact hinst
    · simpa [World.retired, ht] using hinst

/-- The table's reference is in flight now. -/
theorem WF.retired (h : WF cfg w x) (hptr : (w.table t).objectPtr id = some a) :
    WF cfg (w.retired t id a core) (held x (some a)) := by
  refine ⟨h.books.retired hun hdying hptr, ?_, h.caps, h.history.frame rfl rfl rfl⟩
  refine h.refs.move rfl (fun {b bl} _ => ?_) fun b => ?_
  · rw [header_retired hun hdying]
    split_ifs with hba
    · rw [hba]
    · rfl
  · obtain ⟨al, hal, hhome, hid⟩ := h.books.slot hptr
    have hpub : w.published a = true := (published_iff hal).mpr (by rwa [hhome, hid])
    have hcaps : (w.retired t id a core).capReferences b = w.capReferences b := rfl
    have hhandle : (w.retired t id a core).handle = w.handle := rfl
    unfold references
    rw [published_retired hun hdying h.books hptr, hcaps, hhandle]
    by_cases hba : b = a
    · subst hba
      rw [held_self, hpub]
      simp only [if_true, Bool.false_eq_true, if_false]
      omega
    · rw [held_of_ne x hba, if_neg hba]

end Release

/-- **Release.** It does not trap, and whether or not it succeeds the books balance afterwards. -/
theorem WF.release {E : Trap → Prop} (h : WF cfg w x) :
    Post E (fun r => WF cfg r.2 x) (w.release cfg t id) := by
  unfold World.release
  split_ifs
  · exact h
  split
  · exact h
  next a hptr =>
  obtain ⟨al, hal, -, -⟩ := h.books.slot hptr
  -- the first transition, if there is one
  obtain ⟨o, moved, ho, hwf⟩ : ∃ o moved,
      (if World.releasable (w.header a).state then (w.header a).transition .dying
        else (w.header a, true)) = (o, moved) ∧ WF cfg (w.setHeader a o) x := by
    split_ifs
    · exact ⟨_, _, Prod.eta _, h.transition hal (by decide)⟩
    · exact ⟨_, _, rfl, h.setHeader ⟨rfl, rfl, rfl, rfl⟩ rfl fun _ => rfl⟩
  rw [ho]
  dsimp only
  split_ifs with hmoved hstate
  · exact h
  · exact hwf
  split
  · exact hwf
  next core hun =>
  have hdying : ((w.setHeader a o).header a).state = .dying := by
    rw [header_setHeader_self]
    exact not_not.mp hstate
  have hret : WF cfg ((w.setHeader a o).retired t id a core) (held x (some a)) :=
    hwf.retired hun hdying hptr
  exact hret.put.bind fun w' hw' => hw'

/-! ## `destroy_if` -/

variable {cleanup : Nat → World → Except Trap World} {pred : Nat → Bool}

theorem WF.destroyLoop
    (hcleanup : ∀ i {w x}, WF cfg w x → Post Trap.IsBenign (fun w' => WF cfg w' x) (cleanup i w))
    {fuel : Nat} : ∀ (i n : Nat) {w : World}, WF cfg w x → Post Trap.IsBenign
      (fun r => WF cfg r.2 x) (World.destroyLoop cfg t pred cleanup fuel i n w) := by
  induction fuel with
  | zero => exact fun i n w h => h
  | succ fuel ih =>
    intro i n w h
    rw [World.destroyLoop]
    refine h.acquireRef.bind fun r hr => ?_
    obtain ⟨p, w₁⟩ := r
    cases p with
    | none => exact ih (i + 1) n (by simpa using hr)
    | some a =>
    -- the handle of this round is in flight until the put at its end
    dsimp only
    split_ifs
    · refine (hcleanup i hr).bind fun w₂ h₂ => h₂.release.bind fun r h₃ => ?_
      exact h₃.put.bind fun w₄ h₄ => ih (i + 1) _ h₄
    · exact WF.put hr |>.bind fun w₂ h₂ => ih (i + 1) n h₂

theorem WF.destroyIf (h : WF cfg w x)
    (hcleanup : ∀ i {w x}, WF cfg w x → Post Trap.IsBenign (fun w' => WF cfg w' x) (cleanup i w)) :
    Post Trap.IsBenign (fun r => WF cfg r.2 x) (w.destroyIf cfg t pred cleanup) :=
  WF.destroyLoop hcleanup 0 0 h

end ZXFoundation.Scoms
