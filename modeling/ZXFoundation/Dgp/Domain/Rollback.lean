import ZXFoundation.Dgp.Domain.Create

/-!
# Rollback of a failed creation

What the destructor of `domain_create_txn` gives back, depending on the point at which `execute`
failed. `on_rollback` undoes the resources in the right order, and `release` retires an embryo, so
up to the ART context a failure leaves no trace. After `seal` it does: a sealed object cannot be
released, and the body of the primary strand has no flag.
-/

namespace ZXFoundation.Dgp.Domain

open Scoms Outcome Memory Isolation Function CreateTxn ZXFoundation.Nucleus

variable {cfg : Config} {n : Nucleus} {x : Addr → Nat} {d : Addr} {id : Nat} {al : Allocation}

/-- The points before the new object is sealed. -/
def CreateStep.beforeSeal : CreateStep → Bool
  | .slot | .storageKey | .rootTable | .stack | .art => true
  | _ => false

/-! ## The parts of a rollback -/

section Release

variable (txn : CreateTxn) (n : Nucleus)

theorem releaseResources_kept : (txn.releaseResources n).world = n.world ∧
    (txn.releaseResources n).strandBody = n.strandBody := by
  have hart : ∀ m : Nucleus, (txn.destroyArt m).world = m.world ∧
      (txn.destroyArt m).strandBody = m.strandBody := by
    intro m
    unfold destroyArt
    split
    · exact ⟨rfl, rfl⟩
    · split <;> exact ⟨rfl, rfl⟩
  exact hart _

theorem releaseResources_eq (h : txn.hasArt = false) : txn.releaseResources n =
    (n.withFrames (txn.freeRoot (txn.freeStack n.frames))).withKeys (txn.revokeKey n.keys) := by
  unfold releaseResources destroyArt
  rw [h]
  split <;> rfl

variable {txn} {F F' : Frames} {folio : Folio}

theorem freeStack_eq (hhas : txn.hasStack = true) (h : F.Allocated F' txn.stackPhys folio) :
    txn.freeStack F' = F := by
  rw [freeStack, hhas, if_pos (by simpa using h.ne_zero)]
  exact h.free

theorem freeRoot_eq (hhas : txn.hasRoot = true) (h : F.Allocated F' txn.rootPhys folio) :
    txn.freeRoot F' = F := by
  rw [freeRoot, hhas, if_pos (by simpa using h.ne_zero), tableFree, if_neg h.ne_zero]
  exact h.free

end Release

variable {E : Trap → Prop} {w w₂ : World} {slot : Nat} {txn : CreateTxn} {n' : Nucleus}
    {Q : World → Prop}

theorem post_onRollback (hnone : txn.hasAddressSpace = false) (hslot : txn.hasSlot = true)
    (hrel : Post E (fun r => Q r.2) (n.world.release cfg domainTable txn.slot)) :
    Post E (fun n' => Q n'.world ∧ n' = (txn.releaseResources n).withWorld n'.world)
      (txn.onRollback cfg n) := by
  unfold onRollback
  rw [hnone, hslot]
  dsimp only
  rw [if_neg Bool.false_ne_true, if_pos rfl, (releaseResources_kept txn n).1]
  exact (post_store _ hrel).bind fun p hp => hp

/-! ## The embryo -/

/-- The transaction as the destructor finds it after a failure. -/
structure Pending (txn : CreateTxn) (slot : Nat) : Prop where
  slot : txn.slot = slot
  hasSlot : txn.hasSlot = true
  hasAddressSpace : txn.hasAddressSpace = false
  committed : txn.committed = false

/-- What `acquireResources` leaves alone, and that a failure is undone by the rollback. -/
structure Acquired (n : Nucleus) (d : Addr) (slot : Nat) (r : Progress Unit) : Prop where
  world : r.2.2.world = n.world
  strandBody : r.2.2.strandBody = n.strandBody
  domain : ∀ b, b ≠ d → r.2.2.domain b = n.domain b
  pending : Pending r.2.1 slot
  undone : ∀ step e, r.1 = .error (step, e) → step.beforeSeal = true ∧ r.2.1.hasArt = false ∧
    r.2.1.freeRoot (r.2.1.freeStack r.2.2.frames) = n.frames ∧
    (r.2.1.revokeKey r.2.2.keys).used = n.keys.used

variable {answers : CreateAnswers}

theorem post_acquireResources :
    Post Trap.IsBenign (Acquired n d slot)
      (acquireResources n d { slot := slot, hasSlot := true } answers) := by
  unfold acquireResources
  split
  · refine ⟨rfl, rfl, fun _ _ => rfl, ⟨rfl, rfl, rfl, rfl⟩, fun step e h => ?_⟩
    cases h
    exact ⟨rfl, rfl, rfl, rfl⟩
  next state keys hkey =>
  have hused : ∀ generation epoch, (destroyDomain keys
      ⟨.sealed, state.storageKey, generation, state.storageKeyState, epoch⟩).2.2.used =
      n.keys.used :=
    create_destroy_used hkey (by decide)
  dsimp only
  refine (post_crstAlloc _ answers.rootTable).bind fun r hr => ?_
  obtain ⟨_ | rootPhys, F⟩ := r
  · refine ⟨rfl, rfl, fun _ _ => rfl, ⟨rfl, rfl, rfl, rfl⟩, fun step e h => ?_⟩
    cases h
    exact ⟨rfl, rfl, hr, hused _ _⟩
  dsimp only
  refine (Frames.post_alloc _ stackFolio answers.stack).bind fun r₂ h₂ => ?_
  obtain ⟨_ | stackPhys, F₂⟩ := r₂
  · refine ⟨rfl, rfl, fun _ _ => rfl, ⟨rfl, rfl, rfl, rfl⟩, fun step e h => ?_⟩
    cases h
    obtain rfl : F₂ = F := h₂
    exact ⟨rfl, rfl, freeRoot_eq rfl hr, hused _ _⟩
  dsimp only
  refine (post_artContextInit _).bind fun r₃ h₃ => ?_
  obtain ⟨_ | context, F₃⟩ := r₃
  · refine ⟨rfl, rfl, fun b hb => update_of_ne hb .., ⟨rfl, rfl, rfl, rfl⟩,
      fun step e h => ?_⟩
    cases h
    obtain rfl : F₃ = F₂ := h₃
    exact ⟨rfl, rfl, (congrArg _ (freeStack_eq rfl h₂)).trans (freeRoot_eq rfl hr), hused _ _⟩
  · refine ⟨rfl, rfl, fun b hb => ?_, ⟨rfl, rfl, rfl, rfl⟩, fun step e h => by cases h⟩
    exact (update_of_ne hb ..).trans (update_of_ne hb ..)

/-! ## After the seal -/

/-- The domain occupies its slot in the state `sealed`. -/
def Stuck (w : World) (id : Nat) (d : Addr) : Prop :=
  (w.table domainTable).objectPtr id = some d ∧ (w.header d).state = .sealed

def Leaked (n n' : Nucleus) : Prop := ∃ b, n.strandBody b = none ∧ n'.strandBody b ≠ none

theorem Stuck.post_release (h : WF cfg w x) (hstuck : Stuck w id d) :
    Post E (fun r => r.2 = w) (w.release cfg domainTable id) := by
  obtain ⟨hptr, hstate⟩ := hstuck
  obtain ⟨al, hal, hhome, hid⟩ := h.books.slot hptr
  have hnot : ¬ Retirable (w.header d).state := by
    rw [hstate]
    simp [Retirable, World.releasable]
  obtain ⟨e, hrel⟩ := release_refused h hal hnot
  rw [hhome, hid] at hrel
  rw [hrel, post_ok]

theorem changeState_eq {i : Nat} {change : HandleChange} (hptr : w.handle[i]? = some (some d))
    (hadmits : transitionAdmits change.target (w.header d).state = true) :
    w.changeState i change = .ok
      (((w.setHeader d { w.header d with state := change.target }).setHandle
      i none).pushHandle (some d)) := by
  have hdone : (w.header d).transition change.target =
      ({ w.header d with state := change.target }, true) := if_pos hadmits
  simp only [World.changeState, World.handlePtr, hptr, pure_bind, hdone, if_true]
  rfl

theorem post_deref {handle : Nat} : Post Trap.IsBenign (fun _ => True) (deref w handle) := by
  refine (post_handlePtr w handle).bind fun p _ => ?_
  cases p <;> trivial

/-- How `sealAndActivate` ends: the domain is stuck in its slot, or the primary strand has a
body. -/
structure SealOutcome (cfg : Config) (x : Addr → Nat) (n : Nucleus) (d : Addr) (slot : Nat)
    (r : Progress Unit) : Prop where
  wf : WF cfg r.2.2.world x
  pending : Pending r.2.1 slot
  late : ∀ step e, r.1 = .error (step, e) → step.beforeSeal = false
  trace : (∃ e, r.1 = .error e ∧ Stuck r.2.2.world slot d) ∨ Leaked n r.2.2

theorem post_sealAndActivate (h : WF cfg n.world x) {handle : Nat}
    (hhandle : n.world.handle[handle]? = some (some d))
    (hptr : (n.world.table domainTable).objectPtr slot = some d)
    (hembryo : (n.world.header d).state = .embryo) (hpending : Pending txn slot) :
    Post Trap.IsBenign (SealOutcome cfg x n d slot)
      (sealAndActivate cfg n handle d txn answers) := by
  have hadmits : transitionAdmits HandleChange.seal.target (n.world.header d).state = true := by
    rw [hembryo]
    rfl
  have hseal := changeState_eq hhandle hadmits
  unfold sealAndActivate
  refine ((h.changeState handle .seal).with_eq).bind fun w hw => ?_
  obtain ⟨hwf, heq⟩ := hw
  have hstuck : Stuck w slot d := by
    rw [hseal] at heq
    cases heq
    exact ⟨hptr, congrArg Bobject.state (header_setHeader_self n.world d _)⟩
  refine post_deref.bind fun _ _ => ?_
  dsimp only
  split
  · exact ⟨hwf, hpending, fun _ _ h => by cases h; rfl, .inl ⟨_, rfl, hstuck⟩⟩
  next state _ =>
  have hp' : Pending { txn with dgpState := state } slot :=
    { hpending with }
  refine post_allocBody.bind fun r₂ h₂ => ?_
  obtain ⟨_ | b, n₂⟩ := r₂
  · obtain rfl : n₂ = _ := h₂
    dsimp only
    rw [← hpending.slot] at hstuck
    refine (post_store _ (hstuck.post_release hwf)).bind fun p hp => ?_
    obtain ⟨_, n₃⟩ := p
    obtain rfl : n₃.world = w := hp.1
    exact ⟨hwf, hp', fun _ _ h => by cases h; rfl, .inl ⟨_, rfl, hpending.slot ▸ hstuck⟩⟩
  obtain ⟨hfresh, rfl⟩ := h₂
  dsimp only
  have hleak : ∀ {m : Nucleus} {body}, m.strandBody b = some body → Leaked n m := by
    intro m body hbody
    exact ⟨b, hfresh, hbody ▸ Option.some_ne_none body⟩
  split
  · exact ⟨hwf, hp', fun _ _ h => by cases h; rfl, .inr (hleak (update_self ..))⟩
  refine (hwf.changeState _ .activate).bind fun w₃ hw₃ => (post_handlePtr w₃ _).bind fun p _ => ?_
  cases p with
  | none => exact ⟨hw₃, hp', fun _ _ h => by cases h; rfl, .inr (hleak (update_self ..))⟩
  | some _ => exact ⟨hw₃, hp', fun _ _ h => (by cases h), .inr (hleak (update_self ..))⟩

theorem post_createAddressSpace (h : WF cfg n.world x) :
    Post Trap.IsBenign (fun r => n.StoreStep cfg x r.2.2 ∧ ∀ step e, r.1 = .error (step, e) →
      step.beforeSeal = false ∧ r.2.1 = txn) (createAddressSpace cfg n d txn answers) := by
  unfold createAddressSpace
  split
  · trivial
  split
  · exact ⟨⟨h, rfl⟩, fun _ _ h => by cases h; exact ⟨rfl, rfl⟩⟩
  next lease _ =>
  refine (post_memoryObjectCreate h _ _ _ _ _ _ _).bind fun r hr => ?_
  obtain ⟨_ | o, n₁⟩ := r
  · exact ⟨hr, fun _ _ h => by cases h; exact ⟨rfl, rfl⟩⟩
  dsimp only
  split_ifs
  · refine (post_memoryObjectDestroy hr.wf).bind fun p hp => ?_
    exact ⟨hr.trans hp, fun _ _ h => by cases h; exact ⟨rfl, rfl⟩⟩
  · exact ⟨⟨hr.wf, hr.strandBody⟩, fun _ _ h => by cases h⟩

/-! ## The transaction -/

/-- What a failed `buildDomain` leaves behind. -/
inductive Trace (n : Nucleus) (d : Addr) (step : CreateStep) (txn : CreateTxn) (n' : Nucleus) :
    Prop where
  | undone (early : step.beforeSeal = true) (art : txn.hasArt = false)
      (world : n'.world = n.world) (strandBody : n'.strandBody = n.strandBody)
      (domain : ∀ b, b ≠ d → n'.domain b = n.domain b)
      (frames : txn.freeRoot (txn.freeStack n'.frames) = n.frames)
      (keys : (txn.revokeKey n'.keys).used = n.keys.used)
  | stuck (late : step.beforeSeal = false) (slot : Stuck n'.world txn.slot d)
  | leaked (late : step.beforeSeal = false) (body : Leaked n n')

theorem post_buildDomain (h : WF cfg n.world x) {handle : Nat}
    (hhandle : n.world.handle[handle]? = some (some d))
    (hptr : (n.world.table domainTable).objectPtr slot = some d)
    (hembryo : (n.world.header d).state = .embryo) (answers : CreateAnswers) :
    Post Trap.IsBenign (fun r => WF cfg r.2.2.world x ∧ ∀ step e, r.1 = .error (step, e) →
      Pending r.2.1 slot ∧ Trace n d step r.2.1 r.2.2)
      (buildDomain cfg n handle d { slot := slot, hasSlot := true } answers) := by
  unfold buildDomain
  refine post_acquireResources.bind fun r hr => ?_
  obtain ⟨result, txn₁, n₁⟩ := r
  obtain ⟨hworld, hbody, hdomain, hpending, hundone⟩ := hr
  dsimp only at hworld hbody hdomain hpending hundone
  cases result with
  | error e =>
    obtain ⟨step, e⟩ := e
    refine ⟨hworld ▸ h, fun _ _ heq => ?_⟩
    cases heq
    obtain ⟨hearly, hart, hframes, hkeys⟩ := hundone step e rfl
    exact ⟨hpending, .undone hearly hart hworld hbody hdomain hframes hkeys⟩
  | ok _ =>
    rw [← hworld] at h hhandle hptr hembryo
    refine (post_sealAndActivate h hhandle hptr hembryo hpending).bind fun r₂ h₂ => ?_
    obtain ⟨result₂, txn₂, n₂⟩ := r₂
    obtain ⟨hwf₂, hpending₂, hlate, htrace⟩ := h₂
    dsimp only at hwf₂ hpending₂ hlate htrace
    cases result₂ with
    | error e =>
      refine ⟨hwf₂, fun step e heq => ?_⟩
      cases heq
      refine ⟨hpending₂, ?_⟩
      rcases htrace with ⟨-, -, hstuck⟩ | ⟨b, hfresh, hthere⟩
      · exact .stuck (hlate _ _ rfl) (hpending₂.slot.symm ▸ hstuck)
      · exact .leaked (hlate _ _ rfl) ⟨b, hbody ▸ hfresh, hthere⟩
    | ok _ =>
      obtain ⟨_, herr, -⟩ | ⟨b, hfresh, hthere⟩ := htrace
      · cases herr
      refine (post_createAddressSpace hwf₂).mono fun r₃ h₃ => ⟨h₃.1.wf, ?_⟩
      intro step e heq
      obtain ⟨hlate₃, htxn⟩ := h₃.2 step e heq
      exact ⟨htxn ▸ hpending₂, .leaked hlate₃ ⟨b, hbody ▸ hfresh, h₃.1.strandBody ▸ hthere⟩⟩

/-! ## Handles that go out of scope -/

/-- Handles were dropped: the slots show what they showed, and no live object changed its state. -/
structure Dropped (cfg : Config) (x : Addr → Nat) (w w' : World) : Prop where
  wf : WF cfg w' x
  quiet : Quiet w w'
  state : ∀ {b bl}, w'.allocation b = some bl → (w'.header b).state = (w.header b).state

theorem post_dropHandle (h : WF cfg w x) {i : Nat} :
    Post Trap.IsBenign (Dropped cfg x w) (w.dropHandle cfg i) := by
  have hstate : Ensures (fun w' : World => ∀ {b bl}, w'.allocation b = some bl →
      (w'.header b).state = (w.header b).state) (w.dropHandle cfg i) := by
    refine post_any.bind fun p _ => .of_ok fun w' hput {b bl} hbl => ?_
    rw [((refStep_putPtr hput).live hbl).2]
    rfl
  exact ((h.dropHandle i).and (quiet_dropHandle.and hstate)).mono fun w' hw' =>
    ⟨hw'.1, hw'.2.1, hw'.2.2⟩

theorem post_dropHandles {first k : Nat} : ∀ {w : World}, WF cfg w x →
    Post Trap.IsBenign (Dropped cfg x w) (dropHandles cfg first k w) := by
  induction k with
  | zero => exact fun h => ⟨h, .refl, fun _ => rfl⟩
  | succ k ih =>
    refine fun h => (post_dropHandle h).bind fun w₁ h₁ => (ih h₁.wf).mono fun w₂ h₂ => ?_
    refine ⟨h₂.wf, h₁.quiet.trans h₂.quiet, fun hbl => ?_⟩
    exact (h₂.state hbl).trans (h₁.state (h₂.quiet.live hbl).1)

variable {w' : World}

theorem Stuck.dropped (h : Stuck w id d) (hdrop : Dropped cfg x w w') : Stuck w' id d := by
  have hptr : (w'.table domainTable).objectPtr id = some d :=
    (hdrop.quiet.objectPtr domainTable id).trans h.1
  obtain ⟨al, hal, -⟩ := hdrop.wf.books.slot hptr
  exact ⟨hptr, (hdrop.state hal).trans h.2⟩

theorem dropScope_born (hborn : Born w w' domainTable id d) :
    dropScope cfg w.handle.length w' = .ok ((w'.setHandle w.handle.length none).setHeader d
      { w'.header d with ref := 1 }) := by
  have hlength : w'.handle.length - w.handle.length = 1 := by
    rw [hborn.handle, List.length_append]
    exact Nat.add_sub_cancel_left ..
  have hptr : w'.handle[w.handle.length]? = some (some d) := by
    rw [hborn.handle]
    simp
  have hput := @put_eq_of_two_le cfg (w'.setHandle w.handle.length none) d hborn.ref.ge
  have href : ((w'.setHandle w.handle.length none).header d).ref - 1 = 1 :=
    congrArg (· - 1) hborn.ref
  rw [href] at hput
  rw [dropScope, hlength, dropHandles, World.dropHandle, World.handlePtr]
  simp only [Nat.add_zero, hptr, pure_bind, World.putPtr, hput]
  rfl

/-! ## What a failed creation leaves -/

/-- Everything that a creation takes is as it was: the slots and the count of the domain table, the
storage keys in use, the frames, the strand bodies, and the ART contexts of the domains. -/
structure Restored (n n' : Nucleus) : Prop where
  published : ∀ id, (n'.world.table domainTable).objectPtr id =
    (n.world.table domainTable).objectPtr id
  count : (n'.world.table domainTable).count = (n.world.table domainTable).count
  keys : n'.keys.used = n.keys.used
  frames : n'.frames = n.frames
  strandBodies : n'.strandBody = n.strandBody
  artContexts : ∀ id b, (n.world.table domainTable).objectPtr id = some b →
    (n'.domain b).art = (n.domain b).art

theorem Leaked.not_restored (h : Leaked n n') : ¬ Restored n n' := by
  obtain ⟨b, hfresh, hthere⟩ := h
  intro hres
  rw [hres.strandBodies] at hthere
  exact hthere hfresh

theorem Pending.destructor (h : Pending txn slot) :
    txn.destructor cfg n = txn.onRollback cfg n := by
  rw [CreateTxn.destructor, h.committed]
  rfl

/-- The destructor after a failure, given what the release of the slot does. It does not trap. -/
theorem Pending.rollback (h : Pending txn id) (n : Nucleus)
    (hrel : Post (fun _ => False) (fun r => Q r.2) (n.world.release cfg domainTable id)) :
    ∃ n₂, txn.destructor cfg n = .ok n₂ ∧ Q n₂.world ∧
      n₂ = (txn.releaseResources n).withWorld n₂.world := by
  rw [h.destructor]
  rw [← h.slot] at hrel
  exact (post_onRollback h.hasAddressSpace h.hasSlot hrel).total

theorem Stuck.destructor (hstuck : Stuck n'.world id d) (hwf : WF cfg n'.world x)
    (hpending : Pending txn id)
    (hvacant : (n.world.table domainTable).objectPtr id = none) :
    ∃ n₂, txn.destructor cfg n' = .ok n₂ ∧ ¬ Restored n n₂ := by
  obtain ⟨n₂, hrun, hworld, -⟩ :=
    hpending.rollback n' (Q := (· = n'.world)) (hstuck.post_release hwf)
  refine ⟨n₂, hrun, fun hres => ?_⟩
  have hptr := hres.published id
  rw [hworld, hstuck.1, hvacant] at hptr
  cases hptr

theorem Leaked.destructor (hleak : Leaked n n') (hwf : WF cfg n'.world x)
    (hpending : Pending txn id) :
    ∃ n₂, txn.destructor cfg n' = .ok n₂ ∧ ¬ Restored n n₂ := by
  obtain ⟨n₂, hrun, -, heq⟩ :=
    hpending.rollback n' (Q := (WF cfg · x)) hwf.release
  obtain ⟨b, hfresh, hthere⟩ := hleak
  have hbody : n₂.strandBody = n'.strandBody :=
    (congrArg strandBody heq).trans (releaseResources_kept txn n').2
  exact ⟨n₂, hrun, Leaked.not_restored ⟨b, hfresh, hbody ▸ hthere⟩⟩

/-- The object of a failed creation is still an embryo, nobody has attached anything to it, and only
the table refers to it: the release retires it. -/
theorem release_embryo (hborn : Born n.world w domainTable id d)
    (hchildless : w.Childless d) (hwf : WF cfg w₂ x)
    (hw₂ : w₂ = (w.setHandle n.world.handle.length none).setHeader d { w.header d with ref := 1 }) :
    Post (fun _ => False) (fun r => Emptied w r.2 domainTable id)
      (w₂.release cfg domainTable id) := by
  subst hw₂
  have hptr : (w.table domainTable).objectPtr id = some d := by
    rw [hborn.objectPtr, if_pos ⟨rfl, rfl⟩]
  refine (release_retires hwf hptr (.inl ?_) hchildless).mono fun r hr =>
    ⟨hr.2.2.objectPtr, hr.2.2.count⟩
  rw [header_setHeader_self, hborn.state]
  rfl

theorem undone_destructor (h : WF cfg n.world x)
    (hborn : Born n.world w domainTable id d) (hchildless : w.Childless d) (hwf : WF cfg w₂ x)
    (hw₂ : w₂ = (w.setHandle n.world.handle.length none).setHeader d { w.header d with ref := 1 })
    (hpending : Pending txn id) (hart : txn.hasArt = false)
    (hbody : n'.strandBody = n.strandBody) (hdomain : ∀ b, b ≠ d → n'.domain b = n.domain b)
    (hframes : txn.freeRoot (txn.freeStack n'.frames) = n.frames)
    (hkeys : (txn.revokeKey n'.keys).used = n.keys.used) :
    ∃ n₂, txn.destructor cfg (n'.withWorld w₂) = .ok n₂ ∧ Restored n n₂ := by
  obtain ⟨n₂, hrun, hempty, heq⟩ :=
    hpending.rollback (n'.withWorld w₂) (Q := (Emptied w · domainTable id))
      (release_embryo hborn hchildless hwf hw₂)
  obtain ⟨hptr, hcount⟩ := hborn.slots_restored h.books hempty
  rw [releaseResources_eq txn _ hart] at heq
  refine ⟨n₂, hrun, hptr domainTable, hcount domainTable, ?_, ?_, ?_, fun j b hb => ?_⟩
  · rw [heq]
    exact hkeys
  · rw [heq]
    exact hframes
  · rw [heq]
    exact hbody
  -- the new domain took storage that no published domain had
  obtain ⟨bl, hbl, -⟩ := h.books.slot hb
  have hbd : b ≠ d := by
    rintro rfl
    rw [hborn.new] at hbl
    cases hbl
  rw [heq]
  exact congrArg Domain.art (hdomain b hbd)

/-- What the destructor makes of a failed `execute`. -/
def RolledBack (cfg : Config) (n : Nucleus) (r : Progress Addr) : Prop :=
  ∀ step e, r.1 = .error (step, e) →
    ∃ n₂, r.2.1.destructor cfg r.2.2 = .ok n₂ ∧ (Restored n n₂ ↔ step.beforeSeal = true)

variable {e : KernelError}

theorem rolledBack_slot (h : Untouched n.world w) :
    RolledBack cfg n (.error (.slot, e), {}, n.withWorld w) := by
  intro step e' heq
  cases heq
  refine ⟨n.withWorld w, rfl, iff_of_true ?_ rfl⟩
  exact ⟨h.objectPtr domainTable, h.count domainTable, rfl, rfl, rfl, fun _ _ _ => rfl⟩

variable (h : WF cfg n.world x)
include h

theorem Trace.rolledBack {step : CreateStep} (hborn : Born n.world w domainTable id d)
    (hchildless : w.Childless d) (hdrop : dropScope cfg n.world.handle.length n'.world = .ok w₂)
    (hdropped : Dropped cfg x n'.world w₂) (hpending : Pending txn id)
    (htrace : Trace ((n.withWorld w).updateDomain d fun _ => {}) d step txn n') :
    RolledBack cfg n (.error (step, e), txn, n'.withWorld w₂) := by
  intro step' e' heq
  cases heq
  cases htrace with
  | undone hearly hart hworld hbody hdomain hframes hkeys =>
    have hworld : n'.world = w := hworld
    rw [hworld, dropScope_born hborn] at hdrop
    obtain ⟨n₂, hrun, hres⟩ := undone_destructor h hborn hchildless hdropped.wf
      (Except.ok.inj hdrop).symm hpending hart hbody
      (fun b hb => (hdomain b hb).trans (update_of_ne hb ..)) hframes hkeys
    exact ⟨n₂, hrun, iff_of_true hres hearly⟩
  | stuck hlate hslot =>
    have hstuck : Stuck (n'.withWorld w₂).world id d := hpending.slot ▸ hslot.dropped hdropped
    obtain ⟨n₂, hrun, hnot⟩ := hstuck.destructor hdropped.wf hpending hborn.vacant
    exact ⟨n₂, hrun, iff_of_false hnot (by simp [hlate])⟩
  | leaked hlate hbody =>
    have hleaked : Leaked n (n'.withWorld w₂) := hbody
    obtain ⟨n₂, hrun, hnot⟩ := hleaked.destructor hdropped.wf hpending
    exact ⟨n₂, hrun, iff_of_false hnot (by simp [hlate])⟩

theorem post_execute :
    Post Trap.IsBenign (fun r => WF cfg r.2.2.world x ∧ RolledBack cfg n r)
      (execute cfg n answers) := by
  unfold execute
  refine (n.post_store (alloc_outcome h domainTable .none answers.slot)).bind fun r hr => ?_
  obtain ⟨slot, n₁⟩ := r
  obtain ⟨hr, heq⟩ := hr
  obtain ⟨w, rfl⟩ : ∃ w, n₁ = n.withWorld w := ⟨_, heq⟩
  cases slot with
  | error e => exact ⟨hr.wf h, rolledBack_slot hr.untouched.1⟩
  | ok d =>
  obtain ⟨id, hborn⟩ := hr.born h none
  have hborn : Born n.world w domainTable id d := hborn
  have hchildless : w.Childless d := hr.childless rfl
  have hhandle : w.handle[n.world.handle.length]? = some (some d) := by
    rw [hborn.handle]
    simp
  have hptr : (w.table domainTable).objectPtr id = some d := by
    rw [hborn.objectPtr, if_pos ⟨rfl, rfl⟩]
  dsimp only
  rw [updateDomain_world, withWorld_world, hborn.named]
  have hbuild := post_buildDomain (n := (n.withWorld w).updateDomain d fun _ => {}) (hr.wf h)
    hhandle hptr hborn.state answers
  refine hbuild.bind fun r₂ h₂ => ?_
  obtain ⟨result, txn, n₂⟩ := r₂
  refine ((post_dropHandles h₂.1).with_eq).bind fun w₂ hw₂ => ⟨hw₂.1.wf, ?_⟩
  intro step e herr
  obtain rfl : result = .error (step, e) := herr
  obtain ⟨hpending, htrace⟩ := h₂.2 step e rfl
  exact htrace.rolledBack h hborn hchildless hw₂.2 hw₂.1 hpending step e rfl

/-! ## The books are kept -/

theorem post_destructor : Post E (fun n' => WF cfg n'.world x) (txn.destructor cfg n) := by
  unfold destructor
  split_ifs
  · exact h
  have hrel : WF cfg (txn.releaseResources n).world x := (releaseResources_kept txn n).1 ▸ h
  unfold onRollback
  dsimp only
  split_ifs
  · refine (post_memoryObjectDestroy hrel).bind fun p hp => ?_
    exact (post_storeStep hp.wf.release).bind fun q hq => hq.wf
  · exact (post_memoryObjectDestroy hrel).bind fun p hp => hp.wf
  · exact (post_storeStep hrel.release).bind fun q hq => hq.wf
  · exact hrel

theorem post_domainCreate {name : Option String} :
    Post Trap.IsBenign (fun r => WF cfg r.2.world x) (domainCreate cfg n name answers) := by
  unfold domainCreate
  split_ifs
  · exact h
  · exact h
  refine (post_execute h).bind fun r hr => ?_
  exact (post_destructor hr.1).bind fun n' hn' => hn'

theorem post_domainActivate :
    Post Trap.IsBenign (fun r => WF cfg r.2.world x) (domainActivate cfg n id) := by
  unfold domainActivate
  split_ifs
  · exact h
  split
  · exact h
  · exact (post_storeStep h.swapStateTo).bind fun p hp => hp.wf

theorem post_initNucleusDomain {cr1 : UInt64} {artDuct artAles : Except KernelError UInt64} :
    Post Trap.IsBenign (fun r => WF cfg r.2.world x)
      (initNucleusDomain n d cr1 artDuct artAles) := by
  unfold initNucleusDomain
  split_ifs
  · exact h
  refine (post_artContextInit _).bind fun r _ => ?_
  obtain ⟨_ | context, F⟩ := r
  · exact h
  refine (post_storeStep h.swapStateTo).bind fun p hp => ?_
  obtain ⟨done, n₁⟩ := p
  dsimp only
  split_ifs
  · exact hp.wf
  · exact hp.wf

theorem post_domainInitNucleus (faults : AllocFaults) (cr1 : UInt64)
    (artDuct artAles : Except KernelError UInt64) :
    Post Trap.IsBenign (fun r => WF cfg r.2.world x)
      (domainInitNucleus cfg n faults cr1 artDuct artAles) := by
  unfold domainInitNucleus
  split_ifs
  · exact h
  refine (n.post_store (allocAt_outcome h)).bind fun r hr => ?_
  obtain ⟨_ | d, n₁⟩ := r
  · exact hr.1.wf h
  refine (post_initNucleusDomain (hr.1.overwrite h (some 1))).bind fun p hp => ?_
  exact (post_dropHandles hp).bind fun w hw => hw.wf

end ZXFoundation.Dgp.Domain
