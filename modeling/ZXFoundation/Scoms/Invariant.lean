import ZXFoundation.Lib.Outcome
import ZXFoundation.Scoms.Dependency
import ZXFoundation.Scoms.World

/-!
# The invariant of the object store

What holds between any two operations on a `World`, in four parts:

* `Books`: slots, free lists, metadata entries and allocations describe the same objects;
* `RefsOk`: the count of an object is the number of places that refer to it;
* `CapsOk`: an active capability slot has a target;
* `History`: every object ever allocated is either live or was reclaimed once.

Inside an operation a reference can be in flight, so `RefsOk` is relative to a function `x` that
says how many references to each object the running code holds.
-/

namespace ZXFoundation.Scoms

open Tally Outcome Dgp.Cap Function ObjectCore World

namespace World

/-- The table has the object in its slot. -/
def published (w : World) (a : Addr) : Bool :=
  (w.allocation a).any fun al => (w.table al.home).objectPtr (w.header a).id == some a

/-- The capability slots that name the object. -/
def capReferences (w : World) (a : Addr) : Nat :=
  match w.caps with
  | none => 0
  | some caps =>
    tally (Finset.range maxCapabilities) (fun s => s.active = true ∧ s.target = some a) caps

/-- The number of places that refer to the object: its table while it is published, handles and
capability slots. -/
def references (w : World) (a : Addr) : Nat :=
  (if w.published a then 1 else 0) + w.handle.count (some a) + w.capReferences a

/-- The id belongs to a live object of the table, published or retired. -/
def Occupied (w : World) (t : TableId) (id : Nat) : Prop :=
  ∃ a al, w.allocation a = some al ∧ al.home = t ∧ (w.header a).id = id

end World

/-- The metadata entry of an object that is published, or retired and waiting for its last
reference. -/
def EntryOk (c : ObjectCore) (a : Addr) (t : TableId) (pub : Bool) : Prop :=
  ∃ i, (c.heap a).objectFlags = i + 1 ∧ i < maxObjectMetadata ∧
    c.present (i / metadataBlockSize) = true ∧ (c.entry i).object = some a ∧
    (c.entry i).reclaimer = some t ∧
    if pub then (c.entry i).active = true
    else (c.entry i).reclaimPending = true ∧ (c.heap a).state = .destroyed

/-- What the books say about one live object. -/
structure ObjectOk (cfg : Config) (w : World) (a : Addr) (al : Allocation) : Prop where
  ready : (w.table al.home).initialized = true
  id_lt : (w.header a).id < (cfg.capacity al.home).N
  entry : EntryOk w.core a al.home (w.published a)

/-- Tables, metadata and storage agree. -/
structure Books (cfg : Config) (w : World) : Prop where
  core : CoreInv w.core
  object : ∀ {a al}, w.allocation a = some al → ObjectOk cfg w a al
  /-- Only allocated objects are registered. -/
  entries : ∀ {i a}, (w.core.entry i).active = true → (w.core.entry i).object = some a →
    ∃ al, w.allocation a = some al
  slot : ∀ {t id a}, (w.table t).objectPtr id = some a →
    ∃ al, w.allocation a = some al ∧ al.home = t ∧ (w.header a).id = id
  distinct : ∀ {a b al bl}, w.allocation a = some al → w.allocation b = some bl →
    al.home = bl.home → (w.header a).id = (w.header b).id → a = b
  free : ∀ {t}, (w.table t).initialized = true → ∃ l, (w.table t).FreeChain l ∧
    ∀ id, id ∈ l ↔ id < (cfg.capacity t).N ∧ ¬ w.Occupied t id
  count : ∀ {t}, (w.table t).initialized = true → (w.table t).count =
    tally (Finset.range (cfg.capacity t).N) (fun p => p.isSome = true) (w.table t).objectPtr
  ready : ∀ {t}, (w.table t).initialized = true → (w.table t).hasInstance = true ∧
    w.finalizer = true

/-- The count of a live object is the number of its holders; dead storage has none. -/
structure RefsOk (w : World) (x : Addr → Nat) : Prop where
  live : ∀ {a al}, w.allocation a = some al →
    (w.header a).ref = w.references a + x a ∧ 0 < w.references a + x a
  dead : ∀ {a}, w.allocation a = none → w.references a + x a = 0

def CapsOk (w : World) : Prop :=
  ∀ {caps i}, w.caps = some caps → (caps i).active = true →
    i < maxCapabilities ∧ ∃ a, (caps i).target = some a

/-- Every object ever made is live or was reclaimed, once. -/
structure History (w : World) : Prop where
  live_lt : ∀ {a al}, w.allocation a = some al → al.serial < w.serial
  distinct : ∀ {a b al bl}, w.allocation a = some al → w.allocation b = some bl →
    al.serial = bl.serial → a = b
  nodup : w.reclaimed.Nodup
  reclaimed_lt : ∀ {s}, s ∈ w.reclaimed → s < w.serial
  live_iff : ∀ {s}, s < w.serial →
    ((∃ a al, w.allocation a = some al ∧ al.serial = s) ↔ s ∉ w.reclaimed)

/-- The invariant, with `x a` references to `a` in flight. -/
structure WF (cfg : Config) (w : World) (x : Addr → Nat) : Prop where
  books : Books cfg w
  refs : RefsOk w x
  caps : CapsOk w
  history : History w

/-- One more reference in flight, when the pointer is not null. -/
def held (x : Addr → Nat) (p : Option Addr) (a : Addr) : Nat :=
  x a + if p = some a then 1 else 0

variable {x : Addr → Nat}

@[simp] theorem held_none : held x none = x := by
  funext a
  simp [held]

variable {a : Addr}

@[simp] theorem held_self : held x (some a) a = x a + 1 := by
  simp [held]

variable {b : Addr}

theorem held_of_ne (x : Addr → Nat) (h : b ≠ a) : held x (some a) b = x b := by
  simp [held, h.symm]

/-! ## Frames -/

/-- What an object's entry depends on is the same in `c'`. -/
structure Kept (c c' : ObjectCore) (a : Addr) (pub : Bool) : Prop where
  id : (c'.heap a).id = (c.heap a).id
  flags : (c'.heap a).objectFlags = (c.heap a).objectFlags
  state : pub = false → (c'.heap a).state = (c.heap a).state
  present : ∀ b, c.present b = true → c'.present b = true
  entry : ∀ i, (c.heap a).objectFlags = i + 1 → (c.entry i).object = some a →
    c.present (i / metadataBlockSize) = true →
    (c'.entry i).object = (c.entry i).object ∧ (c'.entry i).reclaimer = (c.entry i).reclaimer ∧
    (c'.entry i).active = (c.entry i).active ∧
    (c'.entry i).reclaimPending = (c.entry i).reclaimPending

variable {t : TableId} {pub : Bool}

theorem EntryOk.kept {c c' : ObjectCore} (h : EntryOk c a t pub) (hk : Kept c c' a pub) :
    EntryOk c' a t pub := by
  obtain ⟨i, hflags, hmax, hpres, hobj, hrec, hstate⟩ := h
  obtain ⟨hobj', hrec', hact', hpend'⟩ := hk.entry i hflags hobj hpres
  refine ⟨i, hk.flags.trans hflags, hmax, hk.present _ hpres, hobj'.trans hobj,
    hrec'.trans hrec, ?_⟩
  cases pub with
  | true => exact hact'.trans hstate
  | false => exact ⟨hpend'.trans hstate.1, (hk.state rfl).trans hstate.2⟩

section Frames

variable {cfg : Config} {w w' : World} {x x' : Addr → Nat}

/-- Whether an object is published depends on its table, its home and its id. -/
theorem published_congr (htable : w'.table = w.table) (halloc : w'.allocation = w.allocation)
    (hid : ∀ {a al}, w.allocation a = some al → (w'.header a).id = (w.header a).id) (a : Addr) :
    w'.published a = w.published a := by
  unfold published
  rw [halloc, htable]
  cases hal : w.allocation a with
  | none => rfl
  | some al => simp [hid hal]

/-- Steps that touch neither tables nor allocations, and of the metadata only what no
allocated object depends on. -/
theorem Books.frame (h : Books cfg w) (htable : w'.table = w.table)
    (halloc : w'.allocation = w.allocation) (hfin : w'.finalizer = w.finalizer)
    (hcore : CoreInv w'.core)
    (hentries : ∀ {i a}, (w'.core.entry i).active = true → (w'.core.entry i).object = some a →
      ∃ al, w.allocation a = some al)
    (hkept : ∀ {a al}, w.allocation a = some al → Kept w.core w'.core a (w.published a)) :
    Books cfg w' := by
  have hid : ∀ {a al}, w.allocation a = some al → (w'.header a).id = (w.header a).id :=
    fun hal => (hkept hal).id
  have hocc : ∀ t id, w'.Occupied t id ↔ w.Occupied t id := by
    intro t id
    unfold World.Occupied
    rw [halloc]
    constructor <;> rintro ⟨a, al, hal, hhome, haid⟩
    · exact ⟨a, al, hal, hhome, (hid hal).symm.trans haid⟩
    · exact ⟨a, al, hal, hhome, (hid hal).trans haid⟩
  refine ⟨hcore, fun {a al} hal => ?_, by rwa [halloc], fun {t id a} hslot => ?_,
    fun {a b al bl} ha hb hh hab => ?_,
    fun {t} ht => ?_, fun {t} ht => ?_, fun {t} ht => ?_⟩
  · rw [halloc] at hal
    obtain ⟨hready, hlt, hentry⟩ := h.object hal
    refine ⟨by rwa [htable], by rwa [hid hal], ?_⟩
    rw [published_congr htable halloc hid]
    exact hentry.kept (hkept hal)
  · rw [htable] at hslot
    obtain ⟨al, hal, hhome, haid⟩ := h.slot hslot
    exact ⟨al, by rwa [halloc], hhome, (hid hal).trans haid⟩
  · rw [halloc] at ha hb
    rw [hid ha, hid hb] at hab
    exact h.distinct ha hb hh hab
  · rw [htable] at ht ⊢
    simp only [hocc]
    exact h.free ht
  · rw [htable] at ht ⊢
    exact h.count ht
  · rw [htable] at ht ⊢
    rw [hfin]
    exact h.ready ht

/-- References that move between the places that hold them. -/
theorem RefsOk.move (h : RefsOk w x) (halloc : w'.allocation = w.allocation)
    (href : ∀ {a al}, w.allocation a = some al → (w'.header a).ref = (w.header a).ref)
    (hsum : ∀ a, w'.references a + x' a = w.references a + x a) : RefsOk w' x' := by
  refine ⟨fun {a al} hal => ?_, fun {a} hal => ?_⟩
  · rw [halloc] at hal
    rw [href hal, hsum]
    exact h.live hal
  · rw [halloc] at hal
    rw [hsum]
    exact h.dead hal

theorem History.frame (h : History w) (halloc : w'.allocation = w.allocation)
    (hserial : w'.serial = w.serial) (hrec : w'.reclaimed = w.reclaimed) : History w' := by
  refine ⟨?_, ?_, ?_, ?_, ?_⟩ <;> simp only [halloc, hserial, hrec]
  · exact h.live_lt
  · exact h.distinct
  · exact h.nodup
  · exact h.reclaimed_lt
  · exact h.live_iff

/-! ## Header writes -/

/-- The fields by which tables, metadata and parents know an object. -/
def Bobject.SameIdentity (o o' : Bobject) : Prop :=
  o'.id = o.id ∧ o'.type = o.type ∧ o'.generation = o.generation ∧ o'.objectFlags = o.objectFlags

variable {a : Addr} {o : Bobject} {al : Allocation}

/-- A header is written that keeps id and flags, and for its children type and generation. -/
theorem Books.writeHeader (h : Books cfg w) (hid : o.id = (w.header a).id)
    (hflags : o.objectFlags = (w.header a).objectFlags)
    (hparent : ∀ i p, (w.core.entry i).parentSlot = p + 1 → (w.core.entry p).object = some a →
      o.type = (w.header a).type ∧ o.generation = (w.header a).generation)
    (hstate : w.published a = false → o.state = (w.header a).state) :
    Books cfg (w.setHeader a o) := by
  refine h.frame rfl rfl rfl ?_ h.entries fun {b al} hal => ?_
  · refine h.core.setObject (fun _ _ _ => ⟨hid, hflags⟩) fun i p hs hobj => ?_
    obtain ⟨htype, hgen⟩ := hparent i p hs hobj
    exact ⟨htype, hid, hgen⟩
  by_cases hba : b = a
  · subst hba
    have hself : (w.setHeader b o).core.heap b = o := setObject_heap_self ..
    exact ⟨by rw [hself]; exact hid, by rw [hself]; exact hflags,
      fun hpub => by rw [hself]; exact hstate hpub, fun _ hp => hp, fun _ _ _ _ =>
        ⟨rfl, rfl, rfl, rfl⟩⟩
  · have hother : (w.setHeader a o).core.heap b = w.core.heap b :=
      setObject_heap_of_ne _ _ hba
    exact ⟨by rw [hother], by rw [hother], fun _ => by rw [hother], fun _ hp => hp,
      fun _ _ _ _ => ⟨rfl, rfl, rfl, rfl⟩⟩

theorem Books.setHeader (h : Books cfg w) (hsame : (w.header a).SameIdentity o)
    (hstate : w.published a = false → o.state = (w.header a).state) :
    Books cfg (w.setHeader a o) := by
  obtain ⟨hid, htype, hgen, hflags⟩ := hsame
  exact h.writeHeader hid hflags (fun _ _ _ _ => ⟨htype, hgen⟩) hstate

@[simp] theorem header_setHeader_self (w : World) (a : Addr) (o : Bobject) :
    (w.setHeader a o).header a = o :=
  setObject_heap_self ..

/-- Fresh storage is none of the live objects. -/
theorem ne_of_unallocated (hnew : w.allocation a = none) (hb : w.allocation b = some al) :
    b ≠ a := by
  rintro rfl
  rw [hnew] at hb
  cases hb

theorem header_setHeader_of_ne (w : World) (o : Bobject) (h : b ≠ a) :
    (w.setHeader a o).header b = w.header b :=
  setObject_heap_of_ne _ _ h

theorem published_setHeader (hid : o.id = (w.header a).id) (b : Addr) :
    (w.setHeader a o).published b = w.published b := by
  have hids : ∀ {c al}, w.allocation c = some al →
      ((w.setHeader a o).header c).id = (w.header c).id := fun {c al} _ => by
    by_cases hca : c = a
    · rw [hca, header_setHeader_self, hid]
    · rw [header_setHeader_of_ne _ _ hca]
  exact @published_congr w (w.setHeader a o) rfl rfl hids b

theorem references_setHeader (hid : o.id = (w.header a).id) (b : Addr) :
    (w.setHeader a o).references b = w.references b := by
  unfold references
  rw [published_setHeader hid]
  rfl

theorem RefsOk.setHeader (h : RefsOk w x) (hid : o.id = (w.header a).id)
    (href : o.ref = (w.header a).ref) : RefsOk (w.setHeader a o) x := by
  refine h.move rfl (fun {b bl} _ => ?_) fun b => by rw [references_setHeader hid]
  by_cases hba : b = a
  · rw [hba, header_setHeader_self, href]
  · rw [header_setHeader_of_ne _ _ hba]

/-- A header write that keeps identity and count. The state of a retired object stays. -/
theorem WF.setHeader (h : WF cfg w x) (hsame : (w.header a).SameIdentity o)
    (href : o.ref = (w.header a).ref)
    (hstate : w.published a = false → o.state = (w.header a).state) : WF cfg (w.setHeader a o) x :=
  ⟨h.books.setHeader hsame hstate, h.refs.setHeader hsame.1 href, h.caps,
    h.history.frame rfl rfl rfl⟩

theorem WF.setGeneration (h : WF cfg w x)
    (hchildless : ∀ i p, (w.core.entry i).parentSlot = p + 1 → (w.core.entry p).object ≠ some a)
    {g : Nat} : WF cfg (w.setHeader a { w.header a with generation := g }) x where
  books := h.books.writeHeader rfl rfl (fun i p hs hobj => absurd hobj (hchildless i p hs))
    fun _ => rfl
  refs := h.refs.setHeader rfl rfl
  caps := h.caps
  history := h.history.frame rfl rfl rfl

/-! ## Taking a reference -/

theorem RefsOk.setRef (h : RefsOk w x) {n : Nat}
    (hal : w.allocation a = some al) (hn : n = w.references a + x' a) (hpos : 0 < n)
    (hother : ∀ b, b ≠ a → x' b = x b) :
    RefsOk (w.setHeader a { w.header a with ref := n }) x' := by
  have hrefs : ∀ b, (w.setHeader a { w.header a with ref := n }).references b = w.references b :=
    references_setHeader rfl
  refine ⟨fun {b bl} hbl => ?_, fun {b} hb => ?_⟩
  · by_cases hba : b = a
    · subst hba
      rw [header_setHeader_self, hrefs]
      exact ⟨hn, hn ▸ hpos⟩
    · rw [header_setHeader_of_ne _ _ hba, hrefs, hother b hba]
      exact h.live hbl
  · rw [hrefs, hother b (ne_of_unallocated hb hal).symm]
    exact h.dead hb

/-- A count is written together with the reference it stands for. -/
theorem WF.setRef (h : WF cfg w x) {n : Nat}
    (hal : w.allocation a = some al) (hn : n = w.references a + x' a) (hpos : 0 < n)
    (hother : ∀ b, b ≠ a → x' b = x b) :
    WF cfg (w.setHeader a { w.header a with ref := n }) x' where
  books := h.books.setHeader ⟨rfl, rfl, rfl, rfl⟩ fun _ => rfl
  refs := h.refs.setRef hal hn hpos hother
  caps := h.caps
  history := h.history.frame rfl rfl rfl

theorem tryGet_eq (hpos : 0 < (w.header a).ref) (hsat : (w.header a).ref < krefLimit) :
    w.tryGet a = .ok (true, w.setHeader a { w.header a with ref := (w.header a).ref + 1 }) := by
  have hkref : krefTryGet (w.header a).ref = .ok (true, (w.header a).ref + 1) := by
    rw [krefTryGet, if_neg hpos.ne', if_neg (Nat.not_le.mpr hsat)]
  rw [tryGet, hkref]
  rfl

theorem tryGet_saturated (hpos : 0 < (w.header a).ref)
    (hsat : krefLimit ≤ (w.header a).ref) : w.tryGet a = .error .krefSaturated := by
  have hkref : krefTryGet (w.header a).ref = .error .krefSaturated := by
    rw [krefTryGet, if_neg hpos.ne', if_pos hsat]
  rw [tryGet, hkref]
  rfl

/-- A reference to a live object is always there to be taken, up to the limit of the count. -/
theorem WF.tryGet (h : WF cfg w x) (hal : w.allocation a = some al) :
    Post Trap.IsBenign (fun r => r.1 = true ∧ WF cfg r.2 (held x (some a)) ∧
      r.2 = w.setHeader a { w.header a with ref := (w.header a).ref + 1 }) (w.tryGet a) := by
  obtain ⟨href, hpos⟩ := h.refs.live hal
  rcases Nat.lt_or_ge (w.header a).ref krefLimit with hlt | hsat
  · rw [tryGet_eq (href ▸ hpos) hlt, post_ok]
    refine ⟨rfl, h.setRef hal ?_ (Nat.succ_pos _) fun b hba => held_of_ne _ hba, rfl⟩
    rw [href, held_self, Nat.add_assoc]
  · rw [tryGet_saturated (href ▸ hpos) hsat]
    trivial

variable {p : Option Addr}

/-- `robject(T*)` of a pointer to a live object, or of null. -/
theorem WF.acquire (h : WF cfg w x) (hlive : ∀ a, p = some a → ∃ al, w.allocation a = some al) :
    Post Trap.IsBenign (fun r => r.1 = p ∧ WF cfg r.2 (held x p)) (w.acquire p) := by
  cases p with
  | none => exact ⟨rfl, by simpa using h⟩
  | some a =>
    obtain ⟨al, hal⟩ := hlive a rfl
    refine (h.tryGet hal).bind fun r hr => ?_
    obtain ⟨hgot, hwf, -⟩ := hr
    exact ⟨by simp [hgot], hwf⟩

/-! ## Dropping a reference -/

theorem WF.allocated (h : WF cfg w (held x (some a))) : ∃ al, w.allocation a = some al := by
  cases hal : w.allocation a with
  | some al => exact ⟨al, rfl⟩
  | none =>
    have hzero := h.refs.dead hal
    rw [held_self] at hzero
    omega

theorem published_iff (hal : w.allocation a = some al) :
    w.published a = true ↔ (w.table al.home).objectPtr (w.header a).id = some a := by
  simp [published, hal]

/-- The store without the object: its storage is free, and so is its slot. -/
def World.afterReclaim (w : World) (a : Addr) (al : Allocation) (core : ObjectCore) : World :=
  { w with
    core := core.setObject a { core.heap a with id := kobjectIdInvalid }
    table := update w.table al.home ((w.table al.home).pushFree (w.header a).id)
    allocation := update w.allocation a none
    reclaimed := al.serial :: w.reclaimed }

/-- The last put of a retired object finds its way to `reclaim_retired`, and none of the checks on
the way fails. -/
theorem Books.finalizeLastPut (h : Books cfg w)
    (hal : w.allocation a = some al) (hret : w.published a = false) :
    ∃ core, w.core.completeReclaim a = .ok core ∧
      w.finalizeLastPut cfg a = .ok (w.afterReclaim a al core) := by
  obtain ⟨hready, hlt, i, hflags, hmax, hpres, hobj, hrec, hpend⟩ := h.object hal
  rw [hret] at hpend
  have hretired : w.core.retiredLocked a = some i :=
    retiredLocked_eq_some.mpr ⟨hflags, hmax, hpres, hpend.1, hobj⟩
  have hunpub : (w.table al.home).objectPtr (w.header a).id = none := by
    -- another object under this id would share it with `a`
    cases hptr : (w.table al.home).objectPtr (w.header a).id with
    | none => rfl
    | some b =>
      obtain ⟨bl, hbl, hhome, hid⟩ := h.slot hptr
      obtain rfl : b = a := h.distinct hbl hal hhome hid
      rw [← Bool.not_eq_true, published_iff hal] at hret
      exact absurd hptr hret
  obtain ⟨core, hcore⟩ : ∃ core, w.core.completeReclaim a = .ok core := by
    simp [completeReclaim, hretired]
  refine ⟨core, hcore, ?_⟩
  have hinst := (h.ready hready).1
  simp only [World.finalizeLastPut, hretired, hrec, World.reclaimObject, hinst, if_true,
    World.reclaimRetired, ge_iff_le, Nat.not_le.mpr hlt, if_false, hunpub, ne_eq, not_true_eq_false,
    hcore, hal, Option.elim_some, World.afterReclaim]
  rfl

section Reclaim

variable {a b : Addr} {al : Allocation} {core : ObjectCore}

variable (hcore : w.core.completeReclaim a = .ok core)
include hcore

theorem header_afterReclaim_of_ne (hba : b ≠ a) :
    (w.afterReclaim a al core).header b = w.header b := by
  obtain ⟨i, -, rfl⟩ := completeReclaim_eq_ok hcore
  simp [afterReclaim, header, setObject_heap_of_ne _ _ hba]

omit hcore in
theorem table_afterReclaim {β : Type} (f : ScomsTable → β) (hf : ∀ T id, f (T.pushFree id) = f T)
    (t : TableId) : f ((w.afterReclaim a al core).table t) = f (w.table t) := by
  by_cases ht : t = al.home
  · subst ht
    simp only [afterReclaim, update_self, hf]
  · simp only [afterReclaim, update_of_ne ht]

omit hcore in
theorem objectPtr_afterReclaim {id : Nat} :
    ((w.afterReclaim a al core).table t).objectPtr id = (w.table t).objectPtr id :=
  table_afterReclaim (·.objectPtr id) (fun _ _ => rfl) t

omit hcore in
theorem allocation_afterReclaim_iff {bl : Allocation} :
    (w.afterReclaim a al core).allocation b = some bl ↔ b ≠ a ∧ w.allocation b = some bl := by
  by_cases hba : b = a
  · simp [afterReclaim, hba]
  · simp [afterReclaim, hba]

theorem published_afterReclaim (hba : b ≠ a) :
    (w.afterReclaim a al core).published b = w.published b := by
  have halloc : (w.afterReclaim a al core).allocation b = w.allocation b := by
    simp [afterReclaim, hba]
  unfold published
  simp only [halloc, header_afterReclaim_of_ne hcore hba, objectPtr_afterReclaim]

omit hcore in
theorem initialized_afterReclaim :
    ((w.afterReclaim a al core).table t).initialized = (w.table t).initialized :=
  table_afterReclaim (·.initialized) (fun _ _ => rfl) t

omit hcore in
/-- The entries of the other objects stay as they are. -/
theorem EntryOk.completeReclaim (h : EntryOk w.core b t pub)
    (hcore : w.core.completeReclaim a = .ok core)
    (hba : b ≠ a) : EntryOk (core.setObject a { core.heap a with id := kobjectIdInvalid }) b t
      pub := by
  obtain ⟨i, hret, rfl⟩ := completeReclaim_eq_ok hcore
  obtain ⟨-, -, -, -, hobj⟩ := retiredLocked_eq_some.mp hret
  refine h.kept ⟨?_, ?_, fun _ => ?_, fun _ hp => hp, fun j _ hj _ => ?_⟩
  · simp [setObject_heap_of_ne _ _ hba]
  · simp [setObject_heap_of_ne _ _ hba]
  · simp [setObject_heap_of_ne _ _ hba]
  have hji : j ≠ i := fun heq => by
    rw [heq, hobj] at hj
    exact hba (Option.some.inj hj).symm
  simp [setEntry_entry_of_ne _ _ hji]

theorem findLocked_completeReclaim : core.findLocked a = none := by
  obtain ⟨i, -, rfl⟩ := completeReclaim_eq_ok hcore
  simp [findLocked]

omit hcore in
theorem CoreInv.afterReclaim (h : CoreInv w.core) (hcore : w.core.completeReclaim a = .ok core) :
    CoreInv (core.setObject a { core.heap a with id := kobjectIdInvalid }) := by
  have h' := h.completeReclaim hcore
  have hnone := findLocked_completeReclaim hcore
  refine h'.setObject (fun j hj ha => absurd ha (h'.object_ne hnone hj)) fun j p hs ha => ?_
  exact absurd ha (h'.object_ne hnone (h'.identifies_of_slot hs).2.1)

omit hcore in
/-- The books without the object. -/
theorem Books.afterReclaim (h : Books cfg w) (hal : w.allocation a = some al)
    (hret : w.published a = false) (hcore : w.core.completeReclaim a = .ok core) :
    Books cfg (w.afterReclaim a al core) := by
  refine ⟨h.core.afterReclaim hcore, fun {b bl} hbl => ?_, fun {i b} hi hobj => ?_,
    fun {t id b} hptr => ?_, fun {b c bl cl} hb hc hhome hid => ?_, fun {t} ht => ?_,
    fun {t} ht => ?_, fun {t} ht => ?_⟩
  · obtain ⟨hba, hbl⟩ := allocation_afterReclaim_iff.mp hbl
    obtain ⟨hready, hlt, hentry⟩ := h.object hbl
    refine ⟨by rwa [initialized_afterReclaim], by rwa [header_afterReclaim_of_ne hcore hba], ?_⟩
    rw [published_afterReclaim hcore hba]
    exact hentry.completeReclaim hcore hba
  · have hba : b ≠ a := fun heq =>
      (h.core.completeReclaim hcore).object_ne (findLocked_completeReclaim hcore) hi (heq ▸ hobj)
    obtain ⟨j, -, rfl⟩ := completeReclaim_eq_ok hcore
    have hij : i ≠ j := fun heq => by
      subst heq
      simp [World.afterReclaim] at hobj
    simp only [World.afterReclaim, setObject_entry, setEntry_entry_of_ne _ _ hij] at hi hobj
    obtain ⟨bl, hbl⟩ := h.entries hi hobj
    exact ⟨bl, allocation_afterReclaim_iff.mpr ⟨hba, hbl⟩⟩
  · rw [objectPtr_afterReclaim] at hptr
    obtain ⟨bl, hbl, hhome, hid⟩ := h.slot hptr
    have hba : b ≠ a := fun heq => by
      subst heq
      obtain rfl : bl = al := Option.some.inj (hbl.symm.trans hal)
      rw [← Bool.not_eq_true, published_iff hal, hhome, hid] at hret
      exact hret hptr
    exact ⟨bl, allocation_afterReclaim_iff.mpr ⟨hba, hbl⟩, hhome,
      by rwa [header_afterReclaim_of_ne hcore hba]⟩
  · obtain ⟨hba, hb⟩ := allocation_afterReclaim_iff.mp hb
    obtain ⟨hca, hc⟩ := allocation_afterReclaim_iff.mp hc
    rw [header_afterReclaim_of_ne hcore hba, header_afterReclaim_of_ne hcore hca] at hid
    exact h.distinct hb hc hhome hid
  · rw [initialized_afterReclaim] at ht
    obtain ⟨l, hchain, hmem⟩ := h.free ht
    have hocc : ∀ id, (w.afterReclaim a al core).Occupied t id ↔
        w.Occupied t id ∧ ¬ (t = al.home ∧ id = (w.header a).id) := by
      intro id
      constructor
      · rintro ⟨b, bl, hbl, hhome, hid⟩
        obtain ⟨hba, hbl⟩ := allocation_afterReclaim_iff.mp hbl
        rw [header_afterReclaim_of_ne hcore hba] at hid
        refine ⟨⟨b, bl, hbl, hhome, hid⟩, fun hsame => hba ?_⟩
        exact h.distinct hbl hal (hhome.trans hsame.1) (hid.trans hsame.2)
      · rintro ⟨⟨b, bl, hbl, hhome, hid⟩, hne⟩
        have hba : b ≠ a := fun heq => by
          subst heq
          obtain rfl : bl = al := Option.some.inj (hbl.symm.trans hal)
          exact hne ⟨hhome.symm, hid.symm⟩
        exact ⟨b, bl, allocation_afterReclaim_iff.mpr ⟨hba, hbl⟩, hhome,
          by rwa [header_afterReclaim_of_ne hcore hba]⟩
    have hlt := (h.object hal).id_lt
    have haocc : w.Occupied al.home (w.header a).id := ⟨a, al, hal, rfl, rfl⟩
    by_cases hthome : t = al.home
    · -- the id returns to the head of its table's free list
      subst hthome
      have hnotMem : (w.header a).id ∉ l := fun hin => ((hmem _).mp hin).2 haocc
      have hne : (w.header a).id ≠ kobjectIdInvalid := by
        have := (cfg.capacity al.home).lt_invalid
        omega
      refine ⟨(w.header a).id :: l, ?_, fun id => ?_⟩
      · simpa [World.afterReclaim] using hchain.pushFree hne hnotMem
      rw [List.mem_cons, hmem, hocc]
      by_cases hid : id = (w.header a).id
      · simp [hid, hlt]
      · simp [hid]
    · refine ⟨l, by simpa [World.afterReclaim, hthome] using hchain, fun id => ?_⟩
      rw [hmem, hocc]
      simp [hthome]
  · rw [initialized_afterReclaim] at ht
    have hcount : ((w.afterReclaim a al core).table t).count = (w.table t).count :=
      table_afterReclaim (·.count) (fun _ _ => rfl) t
    rw [hcount, h.count ht]
    exact tally_congr fun id _ => by rw [objectPtr_afterReclaim]
  · rw [initialized_afterReclaim] at ht
    have hinst : ((w.afterReclaim a al core).table t).hasInstance = (w.table t).hasInstance :=
      table_afterReclaim (·.hasInstance) (fun _ _ => rfl) t
    rw [hinst]
    exact h.ready ht

omit hcore in
theorem History.afterReclaim (h : History w) (hal : w.allocation a = some al) :
    History (w.afterReclaim a al core) := by
  have hlt := h.live_lt hal
  refine ⟨fun {b bl} hbl => ?_, fun {b c bl cl} hb hc heq => ?_, ?_, fun {s} hs => ?_,
    fun {s} hs => ?_⟩
  · exact h.live_lt (allocation_afterReclaim_iff.mp hbl).2
  · exact h.distinct (allocation_afterReclaim_iff.mp hb).2 (allocation_afterReclaim_iff.mp hc).2 heq
  · exact List.nodup_cons.mpr ⟨(h.live_iff hlt).mp ⟨a, al, hal, rfl⟩, h.nodup⟩
  · rcases List.mem_cons.mp hs with rfl | hs
    · exact hlt
    · exact h.reclaimed_lt hs
  change _ ↔ s ∉ al.serial :: w.reclaimed
  rw [List.mem_cons, not_or, ← h.live_iff hs]
  constructor
  · rintro ⟨b, bl, hbl, rfl⟩
    obtain ⟨hba, hbl⟩ := allocation_afterReclaim_iff.mp hbl
    exact ⟨fun heq => hba (h.distinct hbl hal heq), b, bl, hbl, rfl⟩
  rintro ⟨hne, b, bl, hbl, rfl⟩
  have hba : b ≠ a := fun heq => by
    subst heq
    exact hne (congrArg Allocation.serial (Option.some.inj (hbl.symm.trans hal)))
  exact ⟨b, bl, allocation_afterReclaim_iff.mpr ⟨hba, hbl⟩, rfl⟩

theorem references_afterReclaim (hba : b ≠ a) :
    (w.afterReclaim a al core).references b = w.references b := by
  unfold references
  rw [published_afterReclaim hcore hba]
  rfl

/-- The object whose last reference is gone is reclaimed; nothing refers to it. -/
theorem RefsOk.afterReclaim
    (hlive : ∀ {b bl}, b ≠ a → w.allocation b = some bl →
      (w.header b).ref = w.references b + x b ∧ 0 < w.references b + x b)
    (hdead : ∀ {b}, b ≠ a → w.allocation b = none → w.references b + x b = 0)
    (hzero : w.references a + x a = 0) : RefsOk (w.afterReclaim a al core) x := by
  refine ⟨fun {b bl} hbl => ?_, fun {b} hb => ?_⟩
  · obtain ⟨hba, hbl⟩ := allocation_afterReclaim_iff.mp hbl
    rw [header_afterReclaim_of_ne hcore hba, references_afterReclaim hcore hba]
    exact hlive hba hbl
  by_cases hba : b = a
  · subst hba
    -- unpublished now, so only handles and slots count, and there are none
    have hpub : (w.afterReclaim b al core).published b = false := by
      simp [World.published, World.afterReclaim]
    unfold World.references at hzero ⊢
    rw [hpub]
    change (if false = true then 1 else 0) + w.handle.count (some b) + w.capReferences b + x b = 0
    simp only [Bool.false_eq_true, if_false]
    omega
  · have hb' : w.allocation b = none := by
      simpa [World.afterReclaim, hba] using hb
    rw [references_afterReclaim hcore hba]
    exact hdead hba hb'

end Reclaim

/-- A `put` that is not the last one. -/
theorem put_eq_of_two_le (h : 2 ≤ (w.header a).ref) :
    w.put cfg a = .ok (w.setHeader a { w.header a with ref := (w.header a).ref - 1 }) := by
  have hkref : krefPut (w.header a).ref = .ok (false, (w.header a).ref - 1) := by
    have hne : ((w.header a).ref == 1) = false := by
      rw [beq_eq_false_iff_ne]
      omega
    rw [krefPut, if_neg (by omega), hne]
  rw [put, hkref]
  rfl

/-- The last `put` calls the finalizer. -/
theorem put_eq_of_one (h : (w.header a).ref = 1) (hfin : w.finalizer = true) :
    w.put cfg a = (w.setHeader a { w.header a with ref := 0 }).finalizeLastPut cfg a := by
  have hkref : krefPut (w.header a).ref = .ok (true, 0) := by
    rw [h]
    rfl
  have hfin' : (w.setHeader a { w.header a with ref := 0 }).finalizer = true := hfin
  rw [put, hkref]
  change (if (w.setHeader a { w.header a with ref := 0 }).finalizer = true then _ else _) = _
  rw [if_pos hfin']

variable {E : Trap → Prop}

/-- **Dropping a reference.** A reference in flight can always be put. If it was the last one the
object is retired already, and its storage is reclaimed. -/
theorem WF.put (h : WF cfg w (held x (some a))) : Post E (fun w' => WF cfg w' x) (w.put cfg a) := by
  obtain ⟨al, hal⟩ := h.allocated
  obtain ⟨href, -⟩ := h.refs.live hal
  rw [held_self] at href
  by_cases hlast : w.references a + x a = 0
  · have hone : (w.header a).ref = 1 := by omega
    have hret : w.published a = false := by
      -- a published object is referred to by its table
      by_contra hpub
      rw [Bool.not_eq_false] at hpub
      simp only [references, hpub, if_true] at hlast
      omega
    have hfin := (h.books.ready (h.books.object hal).ready).2
    rw [put_eq_of_one hone hfin]
    have hrefs : ∀ b, (w.setHeader a { w.header a with ref := 0 }).references b = w.references b :=
      references_setHeader rfl
    have hbooks : Books cfg (w.setHeader a { w.header a with ref := 0 }) :=
      h.books.setHeader ⟨rfl, rfl, rfl, rfl⟩ fun _ => rfl
    have hhist : History (w.setHeader a { w.header a with ref := 0 }) :=
      h.history.frame rfl rfl rfl
    have hpubs : ∀ b, (w.setHeader a { w.header a with ref := 0 }).published b = w.published b :=
      published_setHeader rfl
    have hret' := (hpubs a).trans hret
    obtain ⟨core, hcore, heq⟩ := hbooks.finalizeLastPut hal hret'
    rw [heq, post_ok]
    refine ⟨hbooks.afterReclaim hal hret' hcore, ?_, h.caps, hhist.afterReclaim hal⟩
    -- all other objects keep their counts; this one has no references left
    refine RefsOk.afterReclaim hcore (fun {b bl} hba hbl => ?_) (fun {b} hba hb => ?_) ?_
    · rw [header_setHeader_of_ne _ _ hba, hrefs, ← held_of_ne x hba]
      exact h.refs.live hbl
    · rw [hrefs, ← held_of_ne x hba]
      exact h.refs.dead hb
    · rw [hrefs]
      exact hlast
  · rw [put_eq_of_two_le (by omega), post_ok]
    refine h.setRef hal (by omega) (by omega) fun b hba => (held_of_ne x hba).symm

theorem WF.putPtr (h : WF cfg w (held x p)) : Post E (fun w' => WF cfg w' x) (w.putPtr cfg p) := by
  cases p with
  | none => simpa [putPtr] using h
  | some a => exact h.put

end Frames

end ZXFoundation.Scoms
