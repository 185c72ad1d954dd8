import ZXFoundation.Scoms.Invariant

/-!
# Handle operations keep the invariant

`robject` construction, copy, move, assignment, state change and destruction. A handle that is
taken out of the list puts its reference in flight (`WF.takeHandle`), a handle that is stored
ends the flight (`WF.pushHandle`, `WF.fillHandle`); the operations are sequences of these with
`acquire` and `put`.
-/

namespace ZXFoundation.Scoms

open Tally Outcome Dgp.Cap World

variable {cfg : Config} {w w' : World} {x x' : Addr → Nat}

/-! ## What `put` and `tryGet` leave alone -/

/-- `w'` is `w` with other reference counts, and perhaps objects reclaimed. -/
structure RefStep (w w' : World) : Prop where
  handle : w'.handle = w.handle
  caps : w'.caps = w.caps
  vacated : w'.vacated = w.vacated
  serial : w'.serial = w.serial
  generation : ∀ t, (w'.table t).generation = (w.table t).generation
  objects : ∀ t, SameObjects (w.table t) (w'.table t)
  live : ∀ {b bl}, w'.allocation b = some bl → w.allocation b = some bl ∧
    w'.header b = { w.header b with ref := (w'.header b).ref }

theorem RefStep.setRef {a : Addr} {n : Nat} :
    RefStep w (w.setHeader a { w.header a with ref := n }) := by
  refine ⟨rfl, rfl, rfl, rfl, fun _ => rfl, fun _ => .refl, fun {b bl} hbl => ⟨hbl, ?_⟩⟩
  by_cases hba : b = a
  · rw [hba, header_setHeader_self]
  · rw [header_setHeader_of_ne _ _ hba]

theorem RefStep.trans {w'' : World} (h : RefStep w w') (h' : RefStep w' w'') : RefStep w w'' := by
  refine ⟨h'.handle.trans h.handle, h'.caps.trans h.caps, h'.vacated.trans h.vacated,
    h'.serial.trans h.serial, fun t => (h'.generation t).trans (h.generation t),
    fun t => (h.objects t).trans (h'.objects t), fun {b bl} hbl => ?_⟩
  obtain ⟨hbl', heq'⟩ := h'.live hbl
  obtain ⟨hbl₀, heq⟩ := h.live hbl'
  exact ⟨hbl₀, by rw [heq', heq]⟩

theorem RefStep.refl : RefStep w w :=
  ⟨rfl, rfl, rfl, rfl, fun _ => rfl, fun _ => .refl, fun hbl => ⟨hbl, rfl⟩⟩

variable {a : Addr} {p q : Option Addr} {i : Nat}

/-- The storage of a retired object goes back, and its slot is free again. -/
theorem refStep_reclaimRetired {t : TableId} (h : w.reclaimRetired cfg t a = .ok w') :
    RefStep w w' := by
  unfold reclaimRetired at h
  dsimp only at h
  split_ifs at h
  cases hcore : w.core.completeReclaim a with
  | error e => simp [hcore, bind, Except.bind] at h
  | ok core =>
  simp only [hcore, bind, Except.bind, pure, Except.pure, Except.ok.injEq] at h
  subst h
  have htable : ∀ t', Function.update w.table t ((w.table t).pushFree (w.header a).id) t' =
      if t' = t then (w.table t).pushFree (w.header a).id else w.table t' :=
    fun t' => Function.update_apply ..
  refine ⟨rfl, rfl, rfl, rfl, fun t' => ?_, fun t' => ?_, fun {b bl} hbl => ?_⟩
  · dsimp only
    rw [htable]
    split_ifs with ht
    · rw [ht]
      rfl
    · rfl
  · dsimp only
    rw [htable]
    split_ifs with ht
    · rw [ht]
      exact ⟨fun _ => rfl, rfl, rfl, rfl⟩
    · exact .refl
  · have hba : b ≠ a := fun heq => by simp [heq] at hbl
    have hbl' : w.allocation b = some bl := by simpa [hba] using hbl
    obtain ⟨i, -, rfl⟩ := ObjectCore.completeReclaim_eq_ok hcore
    simp [header, ObjectCore.setObject_heap_of_ne _ _ hba, hbl']

/-- The last `put` of a retired object reclaims it; every other one counts down. -/
theorem refStep_put (h : w.put cfg a = .ok w') : RefStep w w' := by
  unfold put at h
  cases hkref : krefPut (w.header a).ref with
  | error e => simp [hkref, bind, Except.bind] at h
  | ok r =>
  obtain ⟨last, n⟩ := r
  simp only [hkref, bind, Except.bind] at h
  split_ifs at h with hlast hfin
  · -- the last reference: the finalizer runs the table's reclaimer
    unfold finalizeLastPut reclaimObject at h
    split at h
    · cases h
    split at h
    · cases h
    · split_ifs at h
      exact RefStep.setRef.trans (refStep_reclaimRetired h)
  · cases h
    exact RefStep.setRef

theorem refStep_putPtr (h : w.putPtr cfg p = .ok w') : RefStep w w' := by
  cases p with
  | none =>
    cases h
    exact RefStep.refl
  | some a => exact refStep_put h

theorem refStep_tryGet {got : Bool} (h : w.tryGet a = .ok (got, w')) : RefStep w w' := by
  unfold tryGet at h
  cases hkref : krefTryGet (w.header a).ref with
  | error e => simp [hkref, bind, Except.bind] at h
  | ok r =>
    simp only [hkref, bind, Except.bind, pure, Except.pure, Except.ok.injEq, Prod.mk.injEq] at h
    obtain ⟨-, rfl⟩ := h
    exact RefStep.setRef

/-- Taking a reference counts up, or fails. -/
theorem refStep_acquire (h : w.acquire p = .ok (q, w')) : RefStep w w' := by
  cases p with
  | none =>
    cases h
    exact RefStep.refl
  | some a =>
    unfold acquire at h
    cases hget : w.tryGet a with
    | error e => simp [hget, bind, Except.bind] at h
    | ok r =>
      simp only [hget, bind, Except.bind, pure, Except.pure, Except.ok.injEq, Prod.mk.injEq] at h
      obtain ⟨-, rfl⟩ := h
      exact refStep_tryGet hget

/-! ## Handles as places -/

/-- A place that is emptied holds one reference less. -/
theorem count_set_none {l : List (Option Addr)} (h : l[i]? = some p) (a : Addr) :
    (l.set i none).count (some a) + (if p = some a then 1 else 0) = l.count (some a) := by
  obtain ⟨hi, hget⟩ := List.getElem?_eq_some_iff.mp h
  have hpos : p = some a → 0 < l.count (some a) := fun hp =>
    List.count_pos_iff.mpr (hp ▸ hget ▸ List.getElem_mem hi)
  rw [List.count_set hi, hget]
  by_cases hp : p = some a
  · have := hpos hp
    simp [hp]
    omega
  · simp [hp]

variable (h : WF cfg w x)
include h

theorem WF.handle_live (hi : w.handle[i]? = some (some a)) : ∃ al, w.allocation a = some al := by
  cases hal : w.allocation a with
  | some al => exact ⟨al, rfl⟩
  | none =>
  have hzero := h.refs.dead hal
  have hpos : 0 < w.handle.count (some a) :=
    List.count_pos_iff.mpr (List.mem_of_getElem? hi)
  unfold references at hzero
  omega

/-- References may move between the handles and the hand of the caller. -/
theorem WF.moveHandles {l : List (Option Addr)}
    (hsum : ∀ a, l.count (some a) + x' a = w.handle.count (some a) + x a) :
    WF cfg { w with handle := l } x' := by
  refine ⟨h.books.frame rfl rfl rfl h.books.core h.books.entries fun _ => ?_, ?_, h.caps,
    h.history.frame rfl rfl rfl⟩
  · exact ⟨rfl, rfl, fun _ => rfl, fun _ hp => hp, fun _ _ _ _ => ⟨rfl, rfl, rfl, rfl⟩⟩
  refine h.refs.move rfl (fun _ => rfl) fun a => ?_
  have hcaps : capReferences { w with handle := l } a = w.capReferences a := rfl
  have hpub : published { w with handle := l } a = w.published a := rfl
  have := hsum a
  simp only [references, hcaps, hpub]
  omega

/-- The reference of a handle is taken into the hand. -/
theorem WF.takeHandle (hi : w.handle[i]? = some p) : WF cfg (w.setHandle i none) (held x p) := by
  refine h.moveHandles fun a => ?_
  have := count_set_none hi a
  unfold held
  omega

omit h in
theorem WF.pushHandle (h : WF cfg w (held x p)) : WF cfg (w.pushHandle p) x := by
  refine h.moveHandles fun a => ?_
  have hcount : (w.handle ++ [p]).count (some a) =
      w.handle.count (some a) + if p = some a then 1 else 0 := by
    rw [List.count_append, List.count_singleton]
    simp
  rw [hcount, held]
  omega

omit h in
/-- The reference in the hand is put into an empty handle. -/
theorem WF.fillHandle (h : WF cfg w (held x p))
    (hi : w.handle[i]? = some none) : WF cfg (w.setHandle i p) x := by
  refine h.moveHandles fun a => ?_
  obtain ⟨hlt, hget⟩ := List.getElem?_eq_some_iff.mp hi
  rw [List.count_set hlt, hget, held]
  simp
  omega

/-! ## The operations -/

omit h in
theorem post_handlePtr (w : World) (i : Nat) :
    Post Trap.IsBenign (fun p => w.handle[i]? = some p) (w.handlePtr i) := by
  unfold handlePtr
  split
  · trivial
  · next p hp => exact hp

omit h in
theorem post_checkLive :
    Post Trap.IsBenign (fun _ => ∃ al, w.allocation a = some al) (w.checkLive a) := by
  unfold checkLive
  split_ifs with h
  · exact Option.isSome_iff_exists.mp h
  · trivial

theorem WF.constructHandle : Post Trap.IsBenign (fun w' => WF cfg w' x) (w.constructHandle a) := by
  refine post_checkLive.bind fun _ hlive => ?_
  have hacq := h.acquire (p := some a) fun b hb => Option.some.inj hb ▸ hlive
  refine hacq.bind fun r hr => ?_
  obtain ⟨hptr, hwf⟩ := hr
  exact WF.pushHandle (hptr ▸ hwf)

theorem WF.copyHandle : Post Trap.IsBenign (fun w' => WF cfg w' x) (w.copyHandle i) := by
  refine (post_handlePtr w i).bind fun src hsrc => ?_
  have hacq := h.acquire (p := src) fun b hb => h.handle_live (hb ▸ hsrc)
  refine hacq.bind fun r hr => ?_
  obtain ⟨hptr, hwf⟩ := hr
  exact WF.pushHandle (hptr ▸ hwf)

theorem WF.moveHandle : Post Trap.IsBenign (fun w' => WF cfg w' x) (w.moveHandle i) := by
  refine (post_handlePtr w i).bind fun src hsrc => ?_
  exact (h.takeHandle hsrc).pushHandle

/-- The destructor of a handle. -/
theorem WF.dropHandle (i : Nat) :
    Post Trap.IsBenign (fun w' => WF cfg w' x) (w.dropHandle cfg i) := by
  refine (post_handlePtr w i).bind fun p hp => ?_
  exact (h.takeHandle hp).putPtr

omit h in
theorem getElem?_setHandle_self (hi : w.handle[i]? = some p) :
    (w.setHandle i q).handle[i]? = some q := by
  obtain ⟨hlt, -⟩ := List.getElem?_eq_some_iff.mp hi
  exact List.getElem?_set_self hlt

omit h in
theorem getElem?_setHandle_of_ne {j : Nat} (hij : i ≠ j) :
    (w.setHandle i q).handle[j]? = w.handle[j]? :=
  List.getElem?_set_ne hij

/-- The old reference is dropped before the new one is taken. -/
theorem WF.copyAssign {j : Nat} :
    Post Trap.IsBenign (fun w' => WF cfg w' x) (w.copyAssign cfg i j) := by
  unfold World.copyAssign
  split_ifs with hij
  · exact h
  refine (post_handlePtr w i).bind fun old hold => (post_handlePtr w j).bind fun src hsrc => ?_
  refine ((h.takeHandle hold).putPtr.with_eq).bind fun w₁ hw₁ => ?_
  obtain ⟨hwf₁, hput⟩ := hw₁
  -- the put does not touch the list: `i` is empty and `j` still holds its object
  have hlist := (refStep_putPtr hput).handle
  have hi₁ : w₁.handle[i]? = some none := hlist ▸ getElem?_setHandle_self hold
  have hj₁ : w₁.handle[j]? = some src := by
    rw [hlist, getElem?_setHandle_of_ne hij, hsrc]
  have hacq := hwf₁.acquire (p := src) fun b hb => hwf₁.handle_live (hb ▸ hj₁)
  refine (hacq.with_eq).bind fun r hr => ?_
  obtain ⟨⟨hptr, hwf₂⟩, hget⟩ := hr
  have hi₂ : r.2.handle[i]? = some none := (refStep_acquire hget).handle ▸ hi₁
  exact WF.fillHandle (hptr ▸ hwf₂) hi₂

/-- The source is empty afterwards. -/
theorem WF.moveAssign {j : Nat} :
    Post Trap.IsBenign (fun w' => WF cfg w' x) (w.moveAssign cfg i j) := by
  unfold World.moveAssign
  split_ifs with hij
  · exact h
  refine (post_handlePtr w i).bind fun old hold => (post_handlePtr w j).bind fun src hsrc => ?_
  refine ((h.takeHandle hold).putPtr.with_eq).bind fun w₁ hw₁ => ?_
  obtain ⟨hwf₁, hput⟩ := hw₁
  have hlist := (refStep_putPtr hput).handle
  have hi₁ : w₁.handle[i]? = some none := hlist ▸ getElem?_setHandle_self hold
  have hj₁ : w₁.handle[j]? = some src := by
    rw [hlist, getElem?_setHandle_of_ne hij, hsrc]
  refine (hwf₁.takeHandle hj₁).fillHandle ?_
  rw [getElem?_setHandle_of_ne (Ne.symm hij), hi₁]

/-! ## Lifecycle states -/

/-- A retired object is `destroyed`, so no transition in use changes its state. -/
theorem WF.transition {al : Allocation} {target : LifecycleState}
    (hal : w.allocation a = some al) (htarget : target ≠ .embryo) :
    WF cfg (w.setHeader a ((w.header a).transition target).1) x := by
  rw [Bobject.transition_fst]
  refine h.setHeader ⟨rfl, rfl, rfl, rfl⟩ rfl fun hret => ?_
  obtain ⟨i, -, -, -, -, -, hpend⟩ := (h.books.object hal).entry
  rw [hret] at hpend
  have hdestroyed : (w.header a).state = .destroyed := hpend.2
  have hadmits : transitionAdmits target (w.header a).state = false := by
    rw [hdestroyed, ← Bool.not_eq_true]
    exact fun hadm => htarget (transitionAdmits_destroyed hadm)
  simp [hadmits]

omit h in
theorem HandleChange.target_ne (change : HandleChange) : change.target ≠ .embryo := by
  cases change <;> decide

omit h in
theorem SwapTarget.toState_ne (target : SwapTarget) : target.toState ≠ .embryo := by
  cases target <;> decide

/-- A handle of one state becomes a handle of another. -/
theorem WF.changeState (i : Nat) (change : HandleChange) :
    Post Trap.IsBenign (fun w' => WF cfg w' x) (w.changeState i change) := by
  refine (post_handlePtr w i).bind fun p hp => ?_
  cases p with
  | none => trivial
  | some a =>
  obtain ⟨al, hal⟩ := h.handle_live hp
  have hwf := h.transition hal change.target_ne
  dsimp only
  split_ifs with hdone
  · exact (hwf.takeHandle hp).pushHandle
  · exact WF.pushHandle (by simpa using h)

theorem WF.swapStateTo {target : SwapTarget} :
    Post Trap.IsBenign (fun r => WF cfg r.2 x) (w.swapStateTo target a) := by
  refine post_checkLive.bind fun _ hlive => ?_
  obtain ⟨al, hal⟩ := hlive
  exact h.transition hal target.toState_ne

end ZXFoundation.Scoms
