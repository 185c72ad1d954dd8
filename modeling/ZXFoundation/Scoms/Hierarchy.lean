import ZXFoundation.Lib.Forest
import ZXFoundation.Scoms.Dependency

/-!
# The parent relation

`attach` rejects a child that is its own parent and a child that already has one. It does not
look further up, so it accepts a parent that is below the child.

That missing check is the only obstacle. As long as every attached parent is not below the
child, the relation stays a forest and the objects can be unregistered children first.
-/

namespace ZXFoundation.Scoms

open Forest Runs Function ObjectCore

namespace ObjectCore

def parentOf (c : ObjectCore) (i : Nat) : Option Nat :=
  if (c.entry i).active = true ∧ (c.entry i).parentSlot ≠ 0 then
    some ((c.entry i).parentSlot - 1)
  else none

theorem parentOf_eq_some {c : ObjectCore} {i p : Nat} :
    c.parentOf i = some p ↔ (c.entry i).active = true ∧ (c.entry i).parentSlot = p + 1 := by
  unfold parentOf
  split_ifs with h
  · rw [Option.some.injEq]
    exact ⟨fun hp => ⟨h.1, by omega⟩, fun hp => by omega⟩
  constructor
  · intro hp
    cases hp
  · rintro ⟨hact, hslot⟩
    exact absurd ⟨hact, by omega⟩ h

end ObjectCore

def ObjectCore.IsForest (c : ObjectCore) : Prop := Acyclic c.parentOf

/-- What `attach` fails to check: the parent is neither the child nor below it. -/
def CoreOp.Guarded (c : ObjectCore) : CoreOp → Prop
  | .attach child parent => ∀ i p, c.findLocked child = some i → c.findLocked parent = some p →
      ¬ Relation.ReflTransGen (Edge c.parentOf) p i
  | _ => True

/-! ## Steps and links -/

variable {c c' : ObjectCore} {i : Nat}

theorem ObjectCore.IsForest.of_links (h : c.IsForest)
    (hsub : ∀ i p, (c'.entry i).active = true → (c'.entry i).parentSlot = p + 1 →
      (c.entry i).active = true ∧ (c.entry i).parentSlot = p + 1) : c'.IsForest := by
  refine Acyclic.anti h fun i p hip => ?_
  rw [parentOf_eq_some] at hip ⊢
  exact hsub i p hip.1 hip.2

theorem ObjectCore.parentOf_attach (h : CoreInv c) {child parent : Addr}
    (hok : c.attach child parent = .ok c') :
    ∃ i p, c.findLocked child = some i ∧ c.findLocked parent = some p ∧ c.parentOf i = none ∧
      c'.parentOf = update c.parentOf i (some p) := by
  obtain ⟨i, p, hip, hfi, hfp, hpar, rfl⟩ := attach_eq_ok hok
  obtain ⟨-, -, -, hi, -⟩ := findLocked_eq_some.mp hfi
  obtain ⟨hflags, -, -, -, -⟩ := findLocked_eq_some.mp hfp
  refine ⟨i, p, hfi, hfp, ?_, funext fun j => ?_⟩
  · simp [parentOf, h.orphan i (Or.inr hpar)]
  by_cases hji : j = i
  · subst hji
    rw [update_self, parentOf_eq_some, setEntry_entry_of_ne _ _ hip, setEntry_entry_self]
    exact ⟨hi, hflags⟩
  · rw [update_of_ne hji]
    simp only [parentOf, setEntry_entry, if_neg hji]
    split_ifs <;> simp_all

theorem ObjectCore.links_setEntry {j p : Nat} {e : ObjectMetadata}
    (hj : ((c.setEntry i e).entry j).active = true)
    (hs : ((c.setEntry i e).entry j).parentSlot = p + 1)
    (hact : e.active = (c.entry i).active) (hslot : e.parentSlot = (c.entry i).parentSlot) :
    (c.entry j).active = true ∧ (c.entry j).parentSlot = p + 1 := by
  by_cases hji : j = i
  · subst hji
    rw [setEntry_entry_self] at hj hs
    exact ⟨hact ▸ hj, hslot ▸ hs⟩
  · rw [setEntry_entry_of_ne _ _ hji] at hj hs
    exact ⟨hj, hs⟩

theorem ObjectCore.links_clearParentLocked {j p : Nat}
    (hs : ((c.clearParentLocked i).entry j).parentSlot = p + 1) :
    (c.entry j).parentSlot = p + 1 ∧
      ((c.clearParentLocked i).entry j).active = (c.entry j).active := by
  obtain ⟨n, hkept | ⟨-, hcleared⟩⟩ := c.clearParentLocked_entry_cases i j
  · rw [hkept] at hs ⊢
    exact ⟨hs, rfl⟩
  · rw [hcleared] at hs
    simp [ObjectMetadata.withoutParent] at hs

/-- Two objects can be attached to each other. Both then have a dependent for good: neither can
be unregistered, and no order of unregistering both exists. -/
theorem attach_mutual_cycle :
    ∃ c, coreMachine.Exec (.boot fun _ => {}) (attachedPair ++ [.attach 10 11]) c ∧
      Above c.parentOf 0 0 ∧ c.unregisterObject 10 = .error (.generic .invalidArg) ∧
      c.unregisterObject 11 = .error (.generic .invalidArg) := by
  refine ⟨_, .cons ⟨⟨by decide, by simp [boot]⟩, rfl⟩
    (.cons ⟨⟨by decide, by simp [boot, setObject]⟩, rfl⟩
    (.cons ⟨show _ ≠ _ by decide, rfl⟩ (.cons ⟨show _ ≠ _ by decide, rfl⟩
    (.cons ⟨trivial, rfl⟩ (.cons ⟨trivial, rfl⟩ (.nil _)))))), ?_, rfl, rfl⟩
  exact .tail (.single (show _ = some 1 by decide)) (show _ = some 0 by decide)

/-! ## Guarded runs -/

/-- Every guarded operation keeps the forest; only `attach` needs its guard. -/
theorem ObjectCore.IsForest.step {op : CoreOp} (hinv : CoreInv c)
    (h : c.IsForest) (hstep : coreMachine.step c op c') (hguard : op.Guarded c) : c'.IsForest := by
  obtain ⟨-, hrun⟩ := hstep
  have hcommit : ∀ {r : Except KernelError ObjectCore}, (∀ c₁, r = .ok c₁ → c₁.IsForest) →
      (c.commit r).IsForest := fun {r} hok => by
    cases r with
    | ok c₁ => exact hok c₁ rfl
    | error _ => exact h
  cases op with
  | initializeAs a id type generation => cases hrun; exact h.of_links fun _ _ hi hs => ⟨hi, hs⟩
  | writeGeneration a generation => cases hrun; exact h.of_links fun _ _ hi hs => ⟨hi, hs⟩
  | registerObject a d mem =>
    cases hrun
    refine hcommit fun c₁ hok => h.of_links fun j p hj hs => ?_
    obtain ⟨-, i, c₂, hscan, rfl⟩ := registerObject_eq_ok hok
    by_cases hji : j = i
    · subst hji
      simp [freshEntry] at hs
    rw [setObject_entry, setEntry_entry_of_ne _ _ hji] at hj hs
    rcases (registerScan_spec hscan).1.fresh j with heq | hdef
    · rw [heq] at hj hs
      exact ⟨hj, hs⟩
    · simp [hdef] at hs
  | setReclaimer a t =>
    cases hrun
    refine hcommit fun c₁ hok => h.of_links fun j p hj hs => ?_
    obtain ⟨i, -, rfl⟩ := setReclaimer_eq_ok hok
    exact links_setEntry hj hs rfl rfl
  | setOwner a d =>
    cases hrun
    refine hcommit fun c₁ hok => h.of_links fun j p hj hs => ?_
    obtain ⟨i, -, rfl⟩ := setOwner_eq_ok hok
    exact links_setEntry hj hs rfl rfl
  | attach child parent =>
    cases hrun
    refine hcommit fun c₁ hok => ?_
    obtain ⟨i, p, hfi, hfp, hroot, hlink⟩ := parentOf_attach hinv hok
    rw [ObjectCore.IsForest, hlink]
    exact (acyclic_link_iff h hroot).mpr (hguard i p hfi hfp)
  | detach child =>
    cases hrun
    refine hcommit fun c₁ hok => h.of_links fun j p hj hs => ?_
    obtain ⟨i, -, rfl⟩ := detach_eq_ok hok
    obtain ⟨hold, hact⟩ := links_clearParentLocked hs
    exact ⟨hact ▸ hj, hold⟩
  | unregisterObject a =>
    cases hrun
    refine hcommit fun c₁ hok => h.of_links fun j p hj hs => ?_
    obtain ⟨i, -, -, rfl⟩ := unregisterObject_eq_ok hok
    have hji : j ≠ i := fun heq => by simp [heq] at hj
    rw [setEntry_entry_of_ne _ _ hji] at hj hs
    obtain ⟨hold, hact⟩ := links_clearParentLocked hs
    exact ⟨hact ▸ hj, hold⟩
  | completeReclaim a =>
    obtain ⟨i, -, rfl⟩ := completeReclaim_eq_ok hrun
    refine h.of_links fun j p hj hs => ?_
    rw [setObject_entry] at hj hs
    exact links_setEntry hj hs rfl rfl

def guardedMachine : Machine ObjectCore CoreOp where
  start := coreMachine.start
  step := fun c op c' => coreMachine.step c op c' ∧ op.Guarded c

theorem forest_of_guarded (h : guardedMachine.Reachable c) : CoreInv c ∧ c.IsForest := by
  refine h.invariant (P := fun c => CoreInv c ∧ c.IsForest) (fun _ hstart => ?_) ?_
  · obtain ⟨heap, rfl⟩ := hstart
    refine ⟨.boot, fun a ha => ?_⟩
    obtain ⟨b, hab, -⟩ := Relation.TransGen.head'_iff.mp ha
    simp [Edge, parentOf, boot] at hab
  · rintro c₁ op c₂ ⟨hinv, hforest⟩ ⟨hstep, hguard⟩
    exact ⟨hinv.step hstep, hforest.step hinv hstep hguard⟩

/-! ## Unregistering everything -/

theorem ObjectCore.active_unregisterObject {a : Addr}
    (hfind : c.findLocked a = some i) (hok : c.unregisterObject a = .ok c') (j : Nat) :
    (c'.entry j).active = true ↔ (c.entry j).active = true ∧ j ≠ i := by
  obtain ⟨i', hfind', -, rfl⟩ := unregisterObject_eq_ok hok
  obtain rfl : i' = i := Option.some.inj (hfind'.symm.trans hfind)
  by_cases hji : j = i'
  · simp [hji]
  rw [setEntry_entry_of_ne _ _ hji]
  obtain ⟨n, heq | ⟨heq, -⟩⟩ := c.clearParentLocked_entry_cases i' j
  · simp [heq, hji]
  · exact absurd heq hji

def ObjectCore.activeSet (c : ObjectCore) : Finset Nat :=
  (Finset.range maxObjectMetadata).filter fun i => (c.entry i).active = true

theorem CoreInv.mem_activeSet (h : CoreInv c) : i ∈ c.activeSet ↔ (c.entry i).active = true := by
  simp only [activeSet, Finset.mem_filter, Finset.mem_range]
  exact ⟨fun hi => hi.2, fun hi => ⟨h.lt_max hi, hi⟩⟩

theorem unregister_all (hinv : CoreInv c) (hforest : c.IsForest) :
    ∃ (as : List Addr) (c' : ObjectCore),
      coreMachine.Exec c (as.map .unregisterObject) c' ∧ ∀ i, (c'.entry i).active = false := by
  induction hn : c.activeSet.card generalizing c with
  | zero =>
    refine ⟨[], c, .nil c, fun i => ?_⟩
    rw [Finset.card_eq_zero] at hn
    have hi : i ∉ c.activeSet := by simp [hn]
    rwa [hinv.mem_activeSet, Bool.not_eq_true] at hi
  | succ n ih =>
    -- a leaf has no attached child, so its object can go first
    have hne : c.activeSet.Nonempty := Finset.card_pos.mp (by rw [hn]; exact n.succ_pos)
    obtain ⟨leaf, hmem, hleaf⟩ := hforest.exists_leaf hne
    obtain ⟨a, -, hfind, -⟩ := hinv.active leaf (hinv.mem_activeSet.mp hmem)
    obtain ⟨c₁, hok⟩ := (hinv.unregisterObject_iff hfind).mpr fun i hi =>
      hleaf i (hinv.mem_activeSet.mpr hi.1) (parentOf_eq_some.mpr ⟨hi.1, hi.2.1⟩)
    have hstep : coreMachine.step c (.unregisterObject a) c₁ :=
      ⟨trivial, by simp [CoreOp.run, commit, hok]⟩
    have hinv₁ := hinv.step hstep
    have herase : c₁.activeSet = c.activeSet.erase leaf := by
      ext j
      rw [hinv₁.mem_activeSet, active_unregisterObject hfind hok, Finset.mem_erase,
        hinv.mem_activeSet, and_comm]
    have hcard : c₁.activeSet.card = n := by
      rw [herase, Finset.card_erase_of_mem hmem, hn, Nat.add_sub_cancel]
    obtain ⟨as, c', hexec, hoff⟩ := ih hinv₁ (hforest.step hinv hstep trivial) hcard
    exact ⟨a :: as, c', .cons hstep hexec, hoff⟩

/-- **The parent relation under guarded attaches.** When every `attach` of a run names a parent
that is not below the child, every state of the run is a forest, and from each of them all
objects can be unregistered. The guard is exactly what is needed: a successful `attach` keeps
the forest if and only if it is guarded. -/
theorem hierarchy_acyclic_iff_guarded {c : ObjectCore} (h : guardedMachine.Reachable c) :
    c.IsForest ∧
    (∃ (as : List Addr) (c' : ObjectCore),
      coreMachine.Exec c (as.map .unregisterObject) c' ∧ ∀ i, (c'.entry i).active = false) ∧
    ∀ child parent c', c.attach child parent = .ok c' →
      (c'.IsForest ↔ (CoreOp.attach child parent).Guarded c) := by
  obtain ⟨hinv, hforest⟩ := forest_of_guarded h
  refine ⟨hforest, unregister_all hinv hforest, fun child parent c' hok => ?_⟩
  obtain ⟨i, p, hfi, hfp, hroot, hlink⟩ := parentOf_attach hinv hok
  rw [ObjectCore.IsForest, hlink, acyclic_link_iff hforest hroot]
  constructor
  · intro hbelow i' p' hi' hp'
    obtain rfl : i = i' := Option.some.inj (hfi.symm.trans hi')
    obtain rfl : p = p' := Option.some.inj (hfp.symm.trans hp')
    exact hbelow
  · intro hguard
    exact hguard i p hfi hfp

theorem hierarchy_acyclic_pair :
    ∃ c, guardedMachine.Exec (.boot fun _ => {}) attachedPair c ∧
      c.parentOf 1 = some 0 ∧ c.IsForest := by
  have hrun : ∃ c, guardedMachine.Exec (.boot fun _ => {}) attachedPair c ∧
    c.parentOf 1 = some 0 := by
    refine ⟨_, .cons ⟨⟨⟨by decide, by simp [boot]⟩, rfl⟩, trivial⟩
      (.cons ⟨⟨⟨by decide, by simp [boot, setObject]⟩, rfl⟩, trivial⟩
      (.cons ⟨⟨show _ ≠ _ by decide, rfl⟩, trivial⟩
      (.cons ⟨⟨show _ ≠ _ by decide, rfl⟩, trivial⟩
      (.cons ⟨⟨trivial, rfl⟩, ?_⟩ (.nil _))))), by decide⟩
    intro i p hi hp hpi
    -- the parent's entry has no link of its own yet, so only the child itself could be reached
    obtain rfl : i = 1 := Option.some.inj (hi.symm.trans (show _ = some 1 by decide))
    obtain rfl : p = 0 := Option.some.inj (hp.symm.trans (show _ = some 0 by decide))
    rcases Relation.ReflTransGen.cases_head hpi with heq | ⟨q, hedge, -⟩
    · cases heq
    · exact absurd (hedge.symm.trans (show _ = none by decide)) (by simp)
  obtain ⟨c, hexec, hlink⟩ := hrun
  have hreach : guardedMachine.Reachable c := Machine.Reachable.exec (.start ⟨_, rfl⟩) hexec
  exact ⟨c, hexec, hlink, (hierarchy_acyclic_iff_guarded hreach).1⟩

end ZXFoundation.Scoms
