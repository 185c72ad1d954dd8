import ZXFoundation.Nucleus
import ZXFoundation.Scoms.Release

/-!
# Strands

`strand_create_impl`, `strand_destroy_impl` and their idle counterparts in
`zxfoundation/dgp/domain.zcomponent/core.cxx`. A secondary strand is an object of the strand table,
a child of the domain that owns it, with a body and a kernel stack allocated apart; the body is
linked into the list of the owner. An idle strand is a child of the nucleus and has no body.
-/

namespace ZXFoundation.Dgp.Domain

open Scoms Outcome Memory

def maxStrandsPerDomain : Nat := 64

def domainKernelStackSize : UInt64 := 16384

/-- A kernel stack: `DOMAIN_KERNEL_STACK_ORDER`. -/
def stackFolio : Folio := ⟨2, .dma31, .stack⟩

/-- What the allocators answer during the creation of a strand. -/
structure StrandAnswers where
  slot : AllocFaults
  body : Option Addr := none
  stack : Except KernelError UInt64

/-- The handle of a new object is activated, and the handle of the new state goes out of scope at
once. -/
def activateNew (cfg : Config) (w : World) (handle : Nat) : Except Trap World := do
  let w ← w.changeState handle .activate
  w.dropHandle cfg (w.handle.length - 1)

/-- `strand_create_impl`. The failing exits before the stack is there release the slot; the handle
from `alloc` is dropped on every exit. -/
def strandCreateImpl (cfg : Config) (n : Nucleus) (owner : Addr) (cpu : Nat)
    (answers : StrandAnswers) : Except Trap (Except KernelError Addr × Nucleus) := do
  n.checkObject domainTable owner
  if (n.domain owner).strands.length ≥ maxStrandsPerDomain then
    return (.error (.memory .outOfMemory), n)
  if (n.world.header owner).state ≠ .active then return (.error (.generic .invalidArg), n)
  let handle := n.world.handle.length
  let (slot, n) ← n.store (n.world.alloc strandTable .none answers.slot)
  match slot with
  | .error e => return (.error e, n)
  | .ok s =>
    let generation := (n.world.header owner).generation
    let n := n.withWorld (n.world.overwriteGeneration (.ok s)
      (some (if generation = 0 then 1 else generation)))
    let n := n.updateStrand s fun _ => {}
    let (ownerResult, n) ← n.store (n.world.setOwner s (n.world.header owner).id)
    let (attachResult, n) ← n.store (n.world.attach s owner)
    if !(ownerResult.isOk && attachResult.isOk) then
      n.abandon cfg strandTable s handle (.generic .invalidArg)
    else
      let n := n.updateStrand s fun st =>
        { st with owner := some owner, substate := .idle, cpu := cpu, onRq := false }
      let (body, n) ← n.allocBody answers.body
      match body with
      | none => n.abandon cfg strandTable s handle (.memory .outOfMemory)
      | some b =>
        let n := n.updateStrand s fun st => { st with body := some b }
        let (stack, frames) ← n.frames.alloc stackFolio answers.stack
        match stack with
        | .error e => (n.setBody b none).abandon cfg strandTable s handle e
        | .ok phys =>
          let n := (n.withFrames frames).setBody b (some ⟨physToVirt phys⟩)
          let top := physToVirt phys + domainKernelStackSize
          let n := n.updateStrand s fun st => { st with kstackTop := top, ksp := top }
          let w ← activateNew cfg n.world handle
          let n := n.updateStrand s fun st => { st with substate := .runnable }
          let n := n.updateDomain owner fun d => { d with strands := d.strands ++ [b] }
          let w ← w.dropHandle cfg handle
          return (.ok s, n.withWorld w)

/-- `strand_destroy_impl`. The results of the state changes and of `detach` are discarded; the
result of the release is the result of the call. -/
def strandDestroyImpl (cfg : Config) (n : Nucleus) (s : Addr) :
    Except Trap (Except KernelError Unit × Nucleus) := do
  n.checkObject strandTable s
  if (n.strand s).onRq || (n.strand s).substate == .running then
    return (.error (.driver .busy), n)
  match (n.strand s).owner with
  | none => return (.error (.generic .invalidArg), n)
  | some owner =>
    let (_, n) ← n.store (n.world.swapStateTo .dying s)
    let (b, body) ← n.bodyAt (n.strand s).body
    let n := n.updateDomain owner fun d => { d with strands := d.strands.erase b }
    let (_, n) ← n.store (n.world.detach s)
    let frames := if body.kstackBase ≠ 0 then n.frames.free (virtToPhys body.kstackBase)
      else n.frames
    let n := (n.withFrames frames).setBody b none
    let (_, n) ← n.store (n.world.swapStateTo .destroyed s)
    n.store (n.world.release cfg strandTable (n.world.header s).id)

def idleStrandCreateImpl (cfg : Config) (n : Nucleus) (cpu : Nat) (answers : StrandAnswers) :
    Except Trap (Except KernelError Addr × Nucleus) := do
  let handle := n.world.handle.length
  let (slot, n) ← n.store (n.world.alloc strandTable .none answers.slot)
  match slot with
  | .error e => return (.error e, n)
  | .ok s =>
    let n := n.withWorld (n.world.overwriteGeneration (.ok s) (some 1))
    let n := n.updateStrand s fun _ => { owner := n.nucleusPtr }
    match n.nucleusPtr with
    | none => .error .nullDereference
    | some nucleus =>
      let (ownerResult, n) ← n.store (n.world.setOwner s (n.world.header nucleus).id)
      let (attachResult, n) ← n.store (n.world.attach s nucleus)
      if !(ownerResult.isOk && attachResult.isOk) then
        n.abandon cfg strandTable s handle (.generic .invalidArg)
      else
        let n := n.updateStrand s fun st =>
          { st with substate := .runnable, cpu := cpu, onRq := false, idle := true, body := none }
        let (stack, frames) ← n.frames.alloc stackFolio answers.stack
        match stack with
        | .error e => n.abandon cfg strandTable s handle e
        | .ok phys =>
          let top := physToVirt phys + domainKernelStackSize
          let n := (n.withFrames frames).updateStrand s fun st =>
            { st with kstackTop := top, ksp := top }
          let w ← activateNew cfg n.world handle
          let w ← w.dropHandle cfg handle
          return (.ok s, n.withWorld w)

/-- `idle_strand_destroy_impl`. The strand is not detached from the nucleus. -/
def idleStrandDestroyImpl (cfg : Config) (n : Nucleus) (s : Addr) :
    Except Trap (Except KernelError Unit × Nucleus) := do
  n.checkObject strandTable s
  if (n.strand s).onRq || (n.strand s).substate == .running then
    return (.error (.driver .busy), n)
  let (_, n) ← n.store (n.world.swapStateTo .dying s)
  let top := (n.strand s).kstackTop
  let frames := if top ≠ 0 then n.frames.free (virtToPhys (top - domainKernelStackSize))
    else n.frames
  let n := n.withFrames frames
  let (_, n) ← n.store (n.world.swapStateTo .destroyed s)
  n.store (n.world.release cfg strandTable (n.world.header s).id)

/-- The strands that can be passed to `strand_destroy`: an object of the strand table, or the
strand embedded in a domain. -/
inductive StrandRef where
  | object (s : Addr)
  | primary (domain : Addr)
  deriving DecidableEq, Repr

def strandCreate (cfg : Config) (n : Nucleus) (owner : Option Addr) (cpu : Nat)
    (answers : StrandAnswers) : Except Trap (Except KernelError Addr × Nucleus) :=
  match owner with
  | none => return (.error (.generic .invalidArg), n)
  | some d => strandCreateImpl cfg n d cpu answers

/-- `strand_destroy`. A strand without owner and the primary strand of its owner are refused; a
primary strand has no other owner than the domain around it. -/
def strandDestroy (cfg : Config) (n : Nucleus) :
    StrandRef → Except Trap (Except KernelError Unit × Nucleus)
  | .object s =>
    if (n.strand s).owner = none then return (.error (.generic .invalidArg), n)
    else strandDestroyImpl cfg n s
  | .primary d =>
    match (n.domain d).primaryStrand.owner with
    | none => return (.error (.generic .invalidArg), n)
    | some owner =>
      if owner = d then return (.error (.generic .invalidArg), n) else .error .wildPointer

/-! ## Creation -/

variable {cfg : Config} {n : Nucleus} {x : Addr → Nat} {s : Addr} {al : Allocation} {w : World}

theorem post_activateNew (h : WF cfg w x) {handle : Nat} :
    Post Trap.IsBenign (fun w' => WF cfg w' x ∧ Quiet w w') (activateNew cfg w handle) := by
  refine ((h.changeState handle .activate).and quiet_changeState).bind fun w₁ h₁ => ?_
  refine ((h₁.1.dropHandle _).and quiet_dropHandle).mono fun w₂ h₂ => ?_
  exact ⟨h₂.1, h₁.2.trans h₂.2⟩

/-- How the creation of a strand ends: on success a new object of the strand table is published. -/
def CreateOutcome (cfg : Config) (x : Addr → Nat) (n : Nucleus)
    (r : Except KernelError Addr × Nucleus) : Prop :=
  WF cfg r.2.world x ∧ ∀ s, r.1 = .ok s → ∃ w id, Born n.world w strandTable id s ∧
    SlotStep w r.2.world

variable {n' : Nucleus}

theorem CreateOutcome.failed (h : WF cfg n'.world x) (e : KernelError) :
    CreateOutcome cfg x n (.error e, n') :=
  ⟨h, fun _ hs => by cases hs⟩

variable {e : KernelError}

theorem CreateOutcome.abandoned (h : WF cfg n'.world x) {handle : Nat} :
    Post Trap.IsBenign (CreateOutcome cfg x n) (n'.abandon cfg strandTable s handle e) := by
  refine (Nucleus.post_abandon h strandTable s handle e).mono fun r hr => ⟨hr.2.wf, fun s hs => ?_⟩
  rw [hr.1] at hs
  cases hs

/-- The last steps of both creations: the strand is activated, and the first handle goes. -/
theorem post_activateStrand {w₁ : World} (h : WF cfg w₁ x) {id : Nat}
    (hborn : Born n.world w strandTable id s) (hquiet : Quiet w w₁) {handle : Nat} :
    Post Trap.IsBenign (CreateOutcome cfg x n) (do
      let w ← activateNew cfg w₁ handle
      let w ← w.dropHandle cfg handle
      return (.ok s, n'.withWorld w)) := by
  refine (post_activateNew h).bind fun w₂ h₂ => ?_
  refine ((h₂.1.dropHandle handle).and quiet_dropHandle).bind fun w₃ h₃ => ?_
  refine ⟨h₃.1, fun s' hs' => ?_⟩
  cases hs'
  exact ⟨w, id, hborn, ((hquiet.trans h₂.2).trans h₃.2).toSlotStep⟩

variable {n₁ : Nucleus}

theorem post_setOwner (h : WF cfg n₁.world x) {d : Nat} :
    Post Trap.IsBenign (fun p => WF cfg p.2.world x ∧ Quiet n₁.world p.2.world)
      (n₁.store (n₁.world.setOwner s d)) :=
  (n₁.post_store ((h.setOwner s d).and quiet_setOwner)).mono fun _ hp => hp.1

theorem post_attach (h : WF cfg n₁.world x) {parent : Addr} :
    Post Trap.IsBenign (fun p => WF cfg p.2.world x ∧ Quiet n₁.world p.2.world)
      (n₁.store (n₁.world.attach s parent)) :=
  (n₁.post_store (h.attach.and quiet_attach)).mono fun _ hp => hp.1

variable {answers : StrandAnswers} {cpu : Nat}

open CreateOutcome

theorem post_strandCreateImpl (h : WF cfg n.world x) {owner : Addr} :
    Post Trap.IsBenign (CreateOutcome cfg x n) (strandCreateImpl cfg n owner cpu answers) := by
  unfold strandCreateImpl
  refine (n.post_checkObject domainTable owner).bind fun _ _ => ?_
  split_ifs
  · exact .failed h _
  · exact .failed h _
  refine (n.post_store (alloc_outcome h strandTable .none answers.slot)).bind fun r hr => ?_
  obtain ⟨slot, n₁⟩ := r
  obtain ⟨hr, -⟩ := hr
  cases slot with
  | error e => exact .failed (hr.wf h) e
  | ok s =>
  dsimp only
  have hwf := hr.overwrite h (some (if (n₁.world.header owner).generation = 0 then 1
    else (n₁.world.header owner).generation))
  obtain ⟨id, hborn⟩ := hr.born h (some (if (n₁.world.header owner).generation = 0 then 1
    else (n₁.world.header owner).generation))
  refine (post_setOwner hwf).bind fun p hp => ?_
  refine (post_attach hp.1).bind fun p' hp' => ?_
  obtain ⟨_, n₂⟩ := p'
  obtain ⟨h₂, hquiet'⟩ := hp'
  have hquiet := hp.2.trans hquiet'
  split_ifs
  · apply abandoned
    exact h₂
  refine Nucleus.post_allocBody.bind fun r₃ h₃ => ?_
  obtain ⟨_ | b, n₃⟩ := r₃
  · obtain rfl : n₃ = _ := h₃
    dsimp only
    apply abandoned
    exact h₂
  obtain ⟨-, rfl⟩ := h₃
  dsimp only
  refine (Frames.post_alloc _ stackFolio answers.stack).bind fun r₄ _ => ?_
  obtain ⟨_ | phys, frames⟩ := r₄
  all_goals dsimp only
  · apply abandoned
    exact h₂
  · exact post_activateStrand h₂ hborn hquiet

theorem post_idleStrandCreateImpl (h : WF cfg n.world x) :
    Post Trap.IsBenign (CreateOutcome cfg x n) (idleStrandCreateImpl cfg n cpu answers) := by
  unfold idleStrandCreateImpl
  refine (n.post_store (alloc_outcome h strandTable .none answers.slot)).bind fun r hr => ?_
  obtain ⟨slot, n₁⟩ := r
  obtain ⟨hr, -⟩ := hr
  cases slot with
  | error e => exact .failed (hr.wf h) e
  | ok s =>
  dsimp only
  split
  · trivial
  next nucleus _ =>
  have hwf := hr.overwrite h (some 1)
  obtain ⟨id, hborn⟩ := hr.born h (some 1)
  refine (post_setOwner hwf).bind fun p hp => ?_
  refine (post_attach hp.1).bind fun p' hp' => ?_
  obtain ⟨_, n₂⟩ := p'
  obtain ⟨h₂, hquiet'⟩ := hp'
  have hquiet := hp.2.trans hquiet'
  split_ifs
  · apply abandoned
    exact h₂
  refine (Frames.post_alloc _ stackFolio answers.stack).bind fun r₃ _ => ?_
  obtain ⟨_ | phys, frames⟩ := r₃
  all_goals dsimp only
  · apply abandoned
    exact h₂
  · exact post_activateStrand h₂ hborn hquiet

/-! ## Destruction -/

theorem header_detach {a : Addr} :
    Ensures (fun r => r.2.header = w.header ∧ r.2.allocation = w.allocation) (w.detach a) := by
  refine post_any.bind fun _ _ => ?_
  cases hd : w.core.detach a with
  | error e => exact ⟨rfl, rfl⟩
  | ok c =>
    obtain ⟨i, -, rfl⟩ := ObjectCore.detach_eq_ok hd
    exact ⟨ObjectCore.clearParentLocked_heap _ _, rfl⟩

/-- How the destruction of a strand ends: with an error, and every table slot shows what it
showed. -/
def DestroyRefused (cfg : Config) (x : Addr → Nat) (n : Nucleus)
    (r : Except KernelError Unit × Nucleus) : Prop :=
  (∃ e, r.1 = .error e) ∧ WF cfg r.2.world x ∧ SlotStep n.world r.2.world

variable (h : WF cfg n.world x)
include h

theorem DestroyRefused.unchanged : DestroyRefused cfg x n (.error e, n) :=
  ⟨⟨e, rfl⟩, h, .refl⟩

omit h in
/-- The last steps of both destructions: the strand, no longer in a state that `release` moves to
`dying`, is marked destroyed and then cannot be released. -/
theorem refused_markDestroyed (h : WF cfg n₁.world x) (hal : n₁.world.allocation s = some al)
    (hhome : al.home = strandTable) (hstate : World.releasable (n₁.world.header s).state = false)
    (hslots : SlotStep n.world n₁.world) :
    Post Trap.IsBenign (DestroyRefused cfg x n) (do
      let (_, n) ← n₁.store (n₁.world.swapStateTo .destroyed s)
      n.store (n.world.release cfg strandTable (n.world.header s).id)) := by
  obtain ⟨e, hrel⟩ := release_after_destroyed h hal hstate
  rw [swapStateTo_eq hal]
  change Post _ _ ((n₁.withWorld _).store
    ((n₁.world.setHeader s ((n₁.world.header s).transition .destroyed).1).release cfg strandTable
      ((n₁.world.setHeader s ((n₁.world.header s).transition .destroyed).1).header s).id))
  rw [← hhome, hrel]
  exact ⟨⟨e, rfl⟩, h.transition hal (by decide), hslots.trans Quiet.transition.toSlotStep⟩

theorem post_markDying (hal : n.world.allocation s = some al) :
    Post Trap.IsBenign (fun p => WF cfg p.2.world x ∧ p.2.world.allocation s = some al ∧
      World.releasable (p.2.world.header s).state = false ∧ SlotStep n.world p.2.world)
      (n.store (n.world.swapStateTo .dying s)) := by
  rw [swapStateTo_eq hal]
  refine ⟨h.transition hal (by decide), hal, ?_, Quiet.transition.toSlotStep⟩
  exact (header_setHeader_self n.world s _).symm ▸ not_releasable_dying

theorem post_strandDestroyImpl :
    Post Trap.IsBenign (DestroyRefused cfg x n) (strandDestroyImpl cfg n s) := by
  unfold strandDestroyImpl
  refine (n.post_checkObject strandTable s).bind fun _ hs => ?_
  obtain ⟨al, hal, hhome⟩ := hs
  split_ifs
  · exact .unchanged h
  split
  · exact .unchanged h
  next owner _ =>
  refine (post_markDying h hal).bind fun p hp => ?_
  obtain ⟨_, n₁⟩ := p
  obtain ⟨hwf, hal₁, hstate, hslots⟩ := hp
  refine (n₁.post_bodyAt _).bind fun q _ => ?_
  obtain ⟨b, body⟩ := q
  have hdetach := (hwf.detach s).and (header_detach.and quiet_detach)
  refine (Nucleus.post_store _ hdetach).bind fun p' hp' => ?_
  obtain ⟨_, n₂⟩ := p'
  obtain ⟨⟨hwf₂, ⟨hheader, hkept⟩, hquiet⟩, -⟩ := hp'
  dsimp only at hheader hkept
  refine refused_markDestroyed hwf₂ (hkept ▸ hal₁) hhome ?_ (hslots.trans hquiet.toSlotStep)
  exact hheader ▸ hstate

theorem post_idleStrandDestroyImpl :
    Post Trap.IsBenign (DestroyRefused cfg x n) (idleStrandDestroyImpl cfg n s) := by
  unfold idleStrandDestroyImpl
  refine (n.post_checkObject strandTable s).bind fun _ hs => ?_
  obtain ⟨al, hal, hhome⟩ := hs
  split_ifs
  · exact .unchanged h
  refine (post_markDying h hal).bind fun p hp => ?_
  obtain ⟨_, n₁⟩ := p
  obtain ⟨hwf, hal₁, hstate, hslots⟩ := hp
  exact refused_markDestroyed hwf hal₁ hhome hstate hslots

theorem post_strandDestroy {s : StrandRef} :
    Ensures (DestroyRefused cfg x n) (strandDestroy cfg n s) := by
  unfold strandDestroy
  cases s with
  | object s =>
    dsimp only
    split_ifs
    · exact .unchanged h
    · exact (post_strandDestroyImpl h).forget
  | primary d =>
    dsimp only
    split
    · exact .unchanged h
    · split_ifs
      · exact .unchanged h
      · trivial

end ZXFoundation.Dgp.Domain
