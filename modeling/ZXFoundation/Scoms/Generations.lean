import ZXFoundation.Scoms.Machine

/-!
# Generations as identities

A `scoms_table` advances a 32-bit counter of the slot for every object it puts there, and stores the
value in the object's header. A reference `(id, generation)` is checked by `find_by_gen` and by
`memory_object_resolve`. Some creators store a generation of their own right after `alloc`. An
observer keeps a register of the objects that each slot has held.

As long as creators keep the table's value and the counter has not come round, a reference to one
occupant of a slot never finds another.
-/

namespace ZXFoundation.Scoms

open Runs Outcome Dgp.Cap ScomsTable List

/-! ## Checked references to memory objects -/

structure MemoryObjectRef where
  type : KobjectType
  id : Nat
  generation : Nat
  deriving DecidableEq, Repr

def World.memoryObjectResolve (cfg : Config) (w : World) (ref : MemoryObjectRef) :
    Except KernelError Addr :=
  match w.findRaw cfg memoryTable ref.id with
  | none => .error (.generic .notFound)
  | some a =>
    if (w.header a).type ≠ ref.type ∨ (w.header a).generation ≠ ref.generation ∨
        (w.header a).state = .dying ∨ (w.header a).state = .destroyed then
      .error (.generic .notFound)
    else .ok a

/-! ## The register -/

/-- One object's entry into a slot. -/
structure Birth where
  table : TableId
  id : Nat
  /-- The object's number in the order of allocation. -/
  serial : Nat
  /-- The generation that its creator left in the header. -/
  generation : Nat
  /-- The generation that the table had put there. -/
  counter : Nat
  /-- How often the counter of the slot had been advanced. -/
  round : Nat
  deriving DecidableEq

def Birth.Occupied (b : Birth) (t : TableId) (id : Nat) : Prop := b.table = t ∧ b.id = id

structure Register where
  births : List Birth
  rounds : TableId → Nat → Nat

namespace Register

def empty : Register := ⟨[], fun _ _ => 0⟩

def advance (R : Register) (w w' : World) (t : TableId) (id : Nat) : Nat :=
  if (w'.table t).generation id = (w.table t).generation id then R.rounds t id
  else R.rounds t id + 1

/-- The entry of the object that `alloc` or `alloc_at` returned. -/
def birth (R : Register) (w w' : World) (t : TableId) (a : Addr) : Birth :=
  let id := (w'.header a).id
  ⟨t, id, w.serial, (w'.header a).generation, (w'.table t).generation id, R.advance w w' t id⟩

/-- What is written down about a call that took `w` to `w'`. -/
def record (R : Register) (w : World) (c : Call) (reply : Reply) (w' : World) : Register where
  births :=
    match c, reply with
    | .alloc t _ _ _, .object (.ok a) => R.births ++ [R.birth w w' t a]
    | .allocAt t _ _ _, .object (.ok a) => R.births ++ [R.birth w w' t a]
    | _, _ => R.births
  rounds := R.advance w w'

end Register

def registerMachine (cfg : Config) : Machine (World × Register) Call :=
  observedMachine cfg .empty Register.record

structure RegisterInv (w : World) (R : Register) : Prop where
  counter : ∀ t id, (w.table t).generation id = R.rounds t id % 2 ^ 32
  /-- Nothing was ever allocated from a table before its `init`. -/
  fresh : ∀ {t}, (w.table t).initialized = false → ∀ id, (w.table t).generation id = 0
  birth : ∀ {b}, b ∈ R.births → b.counter = b.round % 2 ^ 32 ∧ 0 < b.round ∧
    b.round ≤ R.rounds b.table b.id
  sorted : R.births.Pairwise fun b b' =>
    b.table = b'.table → b.id = b'.id → b.round < b'.round
  live : ∀ {a al}, w.allocation a = some al → ∃ b ∈ R.births, b.table = al.home ∧
    b.id = (w.header a).id ∧ b.serial = al.serial ∧ b.generation = (w.header a).generation

variable {cfg : Config} {w w' : World} {x : Addr → Nat} {R : Register}

theorem RegisterInv.boot (heap : Addr → Bobject) : RegisterInv (.boot heap) .empty := by
  refine ⟨?_, ?_, ?_, List.Pairwise.nil, ?_⟩
  all_goals simp [Register.empty, World.boot]

/-! ## Calls that move no counter -/

theorem RegisterInv.frame (h : RegisterInv w R)
    (hgen : ∀ t id, (w'.table t).generation id = (w.table t).generation id)
    (hinit : ∀ {t}, (w'.table t).initialized = false → (w.table t).initialized = false)
    (hlive : ∀ {a al}, w'.allocation a = some al →
      w.allocation a = some al ∧ (w.header a).SameIdentity (w'.header a)) :
    RegisterInv w' ⟨R.births, R.advance w w'⟩ := by
  have hrounds : R.advance w w' = R.rounds := by
    funext t id
    exact if_pos (hgen t id)
  rw [hrounds]
  refine ⟨fun t id => ?_, fun ht id => ?_, h.birth, h.sorted, fun {a al} hal => ?_⟩
  · rw [hgen, h.counter]
  · rw [hgen]
    exact h.fresh (hinit ht) id
  · obtain ⟨hal', hid, -, hg, -⟩ := hlive hal
    rw [hid, hg]
    exact h.live hal'

theorem RegisterInv.persist (h : RegisterInv w R) (hstep : Persist w w') :
    RegisterInv w' ⟨R.births, R.advance w w'⟩ :=
  h.frame (fun t id => congrFun (hstep.generation t) id) (fun {t} ht => hstep.initialized t ▸ ht)
    hstep.live

theorem ScomsTable.generation_ensureSlotBlock {T T' : ScomsTable} {mem : Bool} {b : Nat}
    (hzero : ∀ id, T.generation id = 0) (h : T.ensureSlotBlock mem b = some T') :
    ∀ id, T'.generation id = 0 := by
  intro id
  unfold ensureSlotBlock at h
  split_ifs at h
  · cases h
    exact hzero id
  cases h
  change (if id / tableBlockSize = b then 0 else T.generation id) = 0
  split_ifs
  · rfl
  · exact hzero id

theorem ScomsTable.generation_initLoop {N : Nat} {mem : Nat → Bool} {fuel i : Nat}
    {T : ScomsTable} (hzero : ∀ id, T.generation id = 0) :
    ∀ id, (initLoop N mem fuel i T).1.generation id = 0 := by
  induction fuel generalizing i T with
  | zero => exact hzero
  | succ fuel ih =>
    rw [initLoop]
    split
    · exact hzero
    next T' hT' =>
    have hkept := generation_ensureSlotBlock hzero hT'
    exact ih hkept

theorem RegisterInv.initTable (h : RegisterInv w R) {t : TableId} {mem : Nat → Bool}
    {type : KobjectType} :
    RegisterInv (w.initTable cfg t mem type) ⟨R.births,
      R.advance w (w.initTable cfg t mem type)⟩ := by
  unfold World.initTable
  split_ifs with hoff
  · exact h.persist .refl
  have hzero : ∀ id, (w.table t).generation id = 0 := h.fresh (by simpa using hoff)
  have hinit : ∀ id, ((w.table t).init (cfg.capacity t).N mem type).generation id = 0 := by
    intro id
    have hloop : (initLoop (cfg.capacity t).N mem (cfg.capacity t).N 0
        { w.table t with hasInstance := true, type := type }).1.generation id = 0 := by
      apply generation_initLoop
      exact hzero
    unfold init
    split
    · next heq => rwa [heq] at hloop
    · next heq => rwa [heq] at hloop
  refine h.frame (fun t' id => ?_) (fun {t'} ht' => ?_) fun hal => ⟨hal, .refl⟩
  · change ((w.setTable t _).table t').generation id = _
    by_cases ht : t' = t
    · subst ht
      rw [table_setTable_self, hinit, hzero]
    · rw [table_setTable_of_ne ht]
  · change ((w.setTable t _).table t').initialized = false at ht'
    by_cases ht : t' = t
    · rw [ht]
      simpa using hoff
    · rwa [table_setTable_of_ne ht] at ht'

/-! ## Allocations -/

variable {t : TableId} {id : Nat}

section

variable (h : RegisterInv w R)
include h

theorem RegisterInv.advance
    (hstep : (w'.table t).generation id = (w.table t).generation id ∨
      (w'.table t).generation id = succ32 ((w.table t).generation id)) :
    (w'.table t).generation id = R.advance w w' t id % 2 ^ 32 ∧
      R.rounds t id ≤ R.advance w w' t id := by
  have hcounter := h.counter t id
  unfold Register.advance
  split_ifs with hsame
  · rw [hsame]
    exact ⟨hcounter, le_rfl⟩
  have hmoved := hstep.resolve_left hsame
  refine ⟨?_, Nat.le_succ _⟩
  rw [hmoved, hcounter, succ32]
  omega

theorem RegisterInv.advance_succ
    (hmoved : (w'.table t).generation id = succ32 ((w.table t).generation id)) :
    R.advance w w' t id = R.rounds t id + 1 := by
  have hcounter := h.counter t id
  refine if_neg fun hsame => ?_
  rw [hsame, hcounter, succ32] at hmoved
  omega

omit h in
theorem AllocOutcome.counters {e : KernelError}
    (hr : AllocOutcome cfg w t (.error e, w')) (t' : TableId) (j : Nat) :
    (w'.table t').generation j = (w.table t').generation j ∨
      (w.table t').initialized = true ∧
        (w'.table t').generation j = succ32 ((w.table t').generation j) := by
  rcases hr with ⟨e, hsame⟩ | ⟨id, T, type, hc, hT, hout⟩
  · cases hsame
    exact .inl rfl
  cases hout with
  | @failed _ w₀ T' storage same next head gen =>
    have htable : w₀.table = w.table := by
      rcases storage with rfl | ⟨a, o, -, rfl⟩
      · rfl
      · rfl
    by_cases ht : t' = t
    · subst ht
      rw [table_setTable_self, ← hT]
      rcases gen j with hkept | ⟨-, hmoved⟩
      · exact .inl hkept
      · exact .inr ⟨hc.ready, hmoved⟩
    · rw [table_setTable_of_ne ht, htable]
      exact .inl rfl

theorem RegisterInv.failed {e : KernelError}
    (hr : AllocOutcome cfg w t (.error e, w')) : RegisterInv w' ⟨R.births, R.advance w w'⟩ := by
  have hmoved := hr.counters
  obtain ⟨hsame, hinit⟩ := hr.untouched
  refine ⟨fun t' id => ?_, fun {t'} ht' id => ?_, fun {b} hb => ?_, h.sorted, fun {a al} hal => ?_⟩
  · exact (h.advance ((hmoved t' id).imp_right And.right)).1
  · rw [hinit] at ht'
    rcases hmoved t' id with hkept | ⟨hready, -⟩
    · rw [hkept, h.fresh ht']
    · rw [ht'] at hready
      cases hready
  · obtain ⟨hcounter, hpos, hle⟩ := h.birth hb
    exact ⟨hcounter, hpos, hle.trans (h.advance ((hmoved _ _).imp_right And.right)).2⟩
  · rw [hsame.allocation] at hal
    rw [hsame.header hal]
    exact h.live hal

theorem RegisterInv.born {a : Addr} (hb : Born w w' t id a) :
    RegisterInv w' ⟨R.births ++ [R.birth w w' t a], R.advance w w'⟩ := by
  have hstep : ∀ t' j, (w'.table t').generation j = (w.table t').generation j ∨
      (w'.table t').generation j = succ32 ((w.table t').generation j) := by
    intro t' j
    rw [hb.generation]
    split_ifs
    · exact .inr rfl
    · exact .inl rfl
  have hround : R.advance w w' t id = R.rounds t id + 1 :=
    h.advance_succ (by rw [hb.generation, if_pos ⟨rfl, rfl⟩])
  have hentry : R.birth w w' t a =
      ⟨t, id, w.serial, (w'.header a).generation, (w'.table t).generation id,
        R.rounds t id + 1⟩ := by
    rw [Register.birth, hb.named, hround]
  rw [hentry]
  refine ⟨fun t' j => (h.advance (hstep t' j)).1, fun {t'} ht' j => ?_, fun {b} hmem => ?_, ?_,
    fun {b bl} hbl => ?_⟩
  · rw [hb.initialized] at ht'
    have hne : ¬ (t' = t ∧ j = id) := by
      rintro ⟨rfl, -⟩
      rw [hb.ready] at ht'
      cases ht'
    rw [hb.generation, if_neg hne, h.fresh ht']
  · rcases mem_append.mp hmem with hold | hnew
    · obtain ⟨hcounter, hpos, hle⟩ := h.birth hold
      exact ⟨hcounter, hpos, hle.trans (h.advance (hstep _ _)).2⟩
    rw [mem_singleton.mp hnew]
    refine ⟨?_, Nat.succ_pos _, hround.ge⟩
    rw [← hround]
    exact (h.advance (hstep t id)).1
  · -- the round of the new entry is beyond those of all earlier ones
    refine pairwise_append.mpr ⟨h.sorted, pairwise_singleton _ _, fun b hold b' hnew => ?_⟩
    rw [mem_singleton.mp hnew]
    rintro rfl rfl
    exact Nat.lt_succ_of_le (h.birth hold).2.2
  · rw [hb.allocation] at hbl
    by_cases hba : b = a
    · subst hba
      rw [Function.update_self] at hbl
      cases hbl
      exact ⟨_, mem_append_right _ (mem_singleton_self _), rfl, hb.named.symm, rfl, rfl⟩
    · rw [Function.update_of_ne hba] at hbl
      rw [hb.header hba]
      obtain ⟨e, he, hrest⟩ := h.live hbl
      exact ⟨e, mem_append_left _ he, hrest⟩

/-! ## Runs -/

theorem RegisterInv.alloc (hwf : WF cfg w x)
    {r : Except KernelError Addr × World} (hr : AllocOutcome cfg w t r) (generation : Option Nat) :
    RegisterInv (r.2.overwriteGeneration r.1 generation)
      ⟨match r.1 with
        | .ok a => R.births ++ [R.birth w (r.2.overwriteGeneration r.1 generation) t a]
        | .error _ => R.births,
        R.advance w (r.2.overwriteGeneration r.1 generation)⟩ := by
  obtain ⟨res, w'⟩ := r
  cases res with
  | error e => exact h.failed hr
  | ok a =>
    obtain ⟨id, hborn⟩ := hr.born hwf generation
    exact h.born hborn

omit h in
theorem Register.record_of_not_growing {c : Call} (h : ¬ c.IsGrowing) (reply : Reply) :
    R.record w c reply w' = ⟨R.births, R.advance w w'⟩ := by
  cases c <;> first | rfl | exact (h trivial).elim

theorem RegisterInv.call (hwf : WF cfg w x) {c : Call} :
    Ensures (fun r => RegisterInv r.2 (R.record w c r.1 r.2)) (c.run cfg w) := by
  have hpersist : ¬ c.IsGrowing → Ensures (fun r => Persist w r.2) (c.run cfg w) →
      Ensures (fun r => RegisterInv r.2 (R.record w c r.1 r.2)) (c.run cfg w) := by
    intro hc hpost
    refine hpost.mono fun r hr => ?_
    rw [Register.record_of_not_growing hc]
    exact h.persist hr
  rcases c.kind with hc | hc | hc | ⟨t, id, rfl⟩
  · exact hpersist hc.not_growing (hc.run.mono fun r hr => hr.toPersist)
  · exact hpersist hc.not_growing ((hc.run hwf).mono fun r hr => hr.toPersist)
  · cases c with
    | init t mem type => exact h.initTable
    | alloc t type faults generation =>
      refine (alloc_outcome hwf t type faults).forget.bind fun r hr => ?_
      have hinv := h.alloc hwf hr generation
      obtain ⟨res, w'⟩ := r
      cases res with
      | ok a => exact hinv
      | error e => exact hinv
    | allocAt t id faults generation =>
      refine (allocAt_outcome hwf).forget.bind fun r hr => ?_
      have hinv := h.alloc hwf hr generation
      obtain ⟨res, w'⟩ := r
      cases res with
      | ok a => exact hinv
      | error e => exact hinv
    | _ => exact hc.elim
  · refine hpersist (fun hgrow => hgrow) ?_
    exact carried_release.bind fun r hr => hr.toPersist

end

theorem RegisterInv.of_reachable {s : World × Register} (h : (registerMachine cfg).Reachable s) :
    WF cfg s.1 (fun _ => 0) ∧ RegisterInv s.1 s.2 :=
  observed_invariant RegisterInv.boot (fun _ _ _ hwf hinv => hinv.call hwf) h

/-! ## Identities -/

section Identities

variable {t : TableId} {id : Nat} (hplain : ∀ b ∈ R.births, b.Occupied t id →
    b.generation = b.counter)
  (hrounds : R.rounds t id ≤ 2 ^ 32)

include hplain hrounds

/-- The rounds of two occupants lie between 1 and `2 ^ 32`, so their counters differ. -/
theorem RegisterInv.generation_ne (h : RegisterInv w R) {j k : Nat} (hjk : j < k) {b b' : Birth}
    (hj : R.births[j]? = some b) (hk : R.births[k]? = some b') (hb : b.Occupied t id)
    (hb' : b'.Occupied t id) : b.generation ≠ b'.generation := by
  obtain ⟨hjlt, rfl⟩ := List.getElem?_eq_some_iff.mp hj
  obtain ⟨hklt, rfl⟩ := List.getElem?_eq_some_iff.mp hk
  have hlt := List.pairwise_iff_getElem.mp h.sorted j k hjlt hklt hjk (hb.1.trans hb'.1.symm)
    (hb.2.trans hb'.2.symm)
  obtain ⟨hcounter, hpos, -⟩ := h.birth (List.getElem_mem hjlt)
  obtain ⟨hcounter', -, hle⟩ := h.birth (List.getElem_mem hklt)
  rw [hplain _ (List.getElem_mem hjlt) hb, hplain _ (List.getElem_mem hklt) hb', hcounter,
    hcounter']
  rw [hb'.1, hb'.2] at hle
  omega

theorem RegisterInv.finds (h : RegisterInv w R) (hwf : WF cfg w x) {b : Birth} (hb : b ∈ R.births)
    (hocc : b.Occupied t id) {a : Addr} (hfind : w.findRaw cfg t id = some a)
    (hgen : (w.header a).generation = b.generation) :
    ∃ al, w.allocation a = some al ∧ al.serial = b.serial := by
  obtain ⟨-, hptr⟩ := findRaw_eq_some hfind
  obtain ⟨al, hal, hhome, haid⟩ := hwf.books.slot hptr
  obtain ⟨b', hb', ht', hid', hserial, hgen'⟩ := h.live hal
  refine ⟨al, hal, ?_⟩
  obtain ⟨j, hj⟩ := getElem?_of_mem hb
  obtain ⟨k, hk⟩ := getElem?_of_mem hb'
  have hocc' : b'.Occupied t id := ⟨ht'.trans hhome, hid'.trans haid⟩
  have heq : b.generation = b'.generation := hgen.symm.trans hgen'.symm
  rcases lt_trichotomy j k with hlt | rfl | hlt
  · exact absurd heq (h.generation_ne hplain hrounds hlt hj hk hocc hocc')
  · obtain rfl : b = b' := Option.some.inj (hj.symm.trans hk)
    exact hserial.symm
  · exact absurd heq.symm (h.generation_ne hplain hrounds hlt hk hj hocc' hocc)

end Identities

/-- **Identities are not reused** in a slot whose creators have kept the table's generation, until
its counter comes round: its occupants have different generations, and a reference to one of them
never resolves to another one. -/
theorem identity_never_reused {s : World × Register} (h : (registerMachine cfg).Reachable s)
    {t : TableId} {id : Nat} (hplain : ∀ b ∈ s.2.births, b.Occupied t id → b.generation = b.counter)
    (hrounds : s.2.rounds t id ≤ 2 ^ 32) :
    (∀ (j k : Nat) (b b' : Birth), j < k → s.2.births[j]? = some b → s.2.births[k]? = some b' →
      b.Occupied t id → b'.Occupied t id → b.generation ≠ b'.generation) ∧
    (∀ b ∈ s.2.births, b.Occupied t id → ∀ a, s.1.findByGen cfg t id b.generation = some a →
      ∃ al, s.1.allocation a = some al ∧ al.serial = b.serial) ∧
    (t = memoryTable → ∀ b ∈ s.2.births, b.Occupied t id → ∀ type a,
      s.1.memoryObjectResolve cfg ⟨type, id, b.generation⟩ = .ok a →
        ∃ al, s.1.allocation a = some al ∧ al.serial = b.serial) := by
  obtain ⟨hwf, hinv⟩ := RegisterInv.of_reachable h
  refine ⟨fun j k b b' hjk hj hk hb hb' => hinv.generation_ne hplain hrounds hjk hj hk hb hb',
    fun b hb hocc a hfind => ?_, fun htable b hb hocc type a hres => ?_⟩
  · unfold World.findByGen at hfind
    split at hfind
    · cases hfind
    next c hc =>
    split_ifs at hfind with hgen
    cases hfind
    exact hinv.finds hplain hrounds hwf hb hocc hc (not_not.mp hgen)
  · subst htable
    unfold World.memoryObjectResolve at hres
    split at hres
    · cases hres
    next c hc =>
    split_ifs at hres with hbad
    cases hres
    simp only [not_or, not_not] at hbad
    exact hinv.finds hplain hrounds hwf hb hocc hc hbad.2.1

/-- A memory object is created and destroyed, and another one takes its slot. -/
def recycledMemory : List Call :=
  [.init memoryTable (fun _ => true) .none, .alloc memoryTable .grant { object := some 0 } none,
    .release memoryTable 0, .dropHandle 0, .alloc memoryTable .grant { object := some 0 } none]

/-- The reference to the first object is refused, although the second one sits at its address. -/
theorem identity_never_reused_recycledMemory :
    ∃ s b b', (registerMachine smallConfig).Reachable s ∧ s.2.births = [b, b'] ∧
      b.Occupied memoryTable 0 ∧ b'.Occupied memoryTable 0 ∧ b.generation ≠ b'.generation ∧
      s.1.memoryObjectResolve smallConfig ⟨.grant, 0, b'.generation⟩ = .ok 0 ∧
      s.1.memoryObjectResolve smallConfig ⟨.grant, 0, b.generation⟩ = .error
        (.generic .notFound) := by
  obtain ⟨s, b, b', hrun, hbirths, hb, hb', hplain, hplain', hrounds, hfound, hrefused⟩ :
      ∃ s b b', observeCalls smallConfig Register.record recycledMemory
          (.boot fun _ => {}, .empty) = .ok s ∧
        s.2.births = [b, b'] ∧ (b.table = memoryTable ∧ b.id = 0) ∧
        (b'.table = memoryTable ∧ b'.id = 0) ∧ b.generation = b.counter ∧
        b'.generation = b'.counter ∧ s.2.rounds memoryTable 0 ≤ 2 ^ 32 ∧
        s.1.memoryObjectResolve smallConfig ⟨.grant, 0, b'.generation⟩ = .ok 0 ∧
        s.1.memoryObjectResolve smallConfig ⟨.grant, 0, b.generation⟩ = .error
          (.generic .notFound) := by
    refine ⟨_, _, _, rfl, rfl, ?_⟩
    decide
  have hreach : (registerMachine smallConfig).Reachable s := reachable_of_observeCalls hrun
  have hdistinct := (@identity_never_reused _ _ hreach memoryTable 0
    (by simp [hbirths, hplain, hplain']) hrounds).1
  refine ⟨s, b, b', hreach, hbirths, hb, hb', ?_, hfound, hrefused⟩
  exact hdistinct 0 1 b b' Nat.one_pos (by rw [hbirths]; rfl) (by rw [hbirths]; rfl) hb hb'

/-! ## A creator that does not keep the generation -/

/-- The calls of two `strand_create_impl` for the active domain at address 0, whose generation is 1.
The first one finds no memory for the strand body and gives its slot back. -/
def strandCreatedTwice : List Call :=
  [.init domainTable (fun _ => true) .domain, .alloc domainTable .none { object := some 0 } none,
    .changeState 0 .activate, .init strandTable (fun _ => true) .strand,
    .alloc strandTable .none { object := some 1 } (some 1), .setOwner 1 0, .attach 1 0,
    .release strandTable 0, .dropHandle 2,
    .alloc strandTable .none { object := some 1 } (some 1), .setOwner 1 0, .attach 1 0]

/-- **A slot shows two objects under one identity**: the strand of the failed creation and its
successor have the same id and the same generation, so `find_by_gen` accepts a reference to the
first as one to the second. -/
theorem strand_identity_reused :
    ∃ s b b', (registerMachine smallConfig).Exec (.boot fun _ => {}, .empty) strandCreatedTwice s ∧
      s.2.births[1]? = some b ∧ s.2.births[2]? = some b' ∧ b.Occupied strandTable 0 ∧
      b'.Occupied strandTable 0 ∧ b.serial ≠ b'.serial ∧ b.generation = b'.generation ∧
      s.1.findByGen smallConfig strandTable 0 b.generation = some 1 ∧
      s.1.allocation 1 = some ⟨b'.serial, strandTable⟩ := by
  obtain ⟨s, b, b', hrun, hb, hb', hstate⟩ :
      ∃ s b b', observeCalls smallConfig Register.record strandCreatedTwice
          (.boot fun _ => {}, .empty) = .ok s ∧
        s.2.births[1]? = some b ∧ s.2.births[2]? = some b' ∧
        (b.table = strandTable ∧ b.id = 0) ∧ (b'.table = strandTable ∧ b'.id = 0) ∧
        b.serial ≠ b'.serial ∧ b.generation = b'.generation ∧
        s.1.findByGen smallConfig strandTable 0 b.generation = some 1 ∧
        s.1.allocation 1 = some ⟨b'.serial, strandTable⟩ := by
    refine ⟨_, _, _, rfl, rfl, rfl, ?_⟩
    decide
  exact ⟨s, b, b', exec_of_observeCalls hrun, hb, hb', hstate⟩

end ZXFoundation.Scoms
