import ZXFoundation.Lib.Run
import ZXFoundation.Sched.Classed

/-!
# The real-time mutex

`sync/rtmutex.zcomponent/core.cxx`: a lock word that newcomers claim with a compare-and-swap, an
owner that is written after the claim, a list of waiters in the order of their priorities, and
priority inheritance along the chain of owners that are themselves blocked.

What runs under `m_pi_lock` is one step. The claim of the fast path and the store of the owner are
two steps, since newcomers take no lock. When `schedule` returns in a waiter is left open.

`strand_from_pi_waiters` computes the strand of a queued node from the address of the node's
`strand_body`, as if the body lay inside the strand; but the strand only points to it. What it
returns is 104 bytes below the body, no strand at all (`Ptr.stray`). Everything the source does with
a queued strand goes through such a pointer: the order of the list, the top priority of a mutex, and
the owner that `unlock` stores.
-/

namespace ZXFoundation.Sync.Rtmutex

open Runs Function List
open Sched (StrandId DomainId)
open Sched.Rt (boostPrio unboostPrio effectiveRtPrio)
open Dgp.Isolation (IsolationRights hasAllRights)

abbrev MutexId := Nat

def maxPiDepth : Nat := 16

/-- A `strand*`: the address of a strand, or the one that `strand_from_pi_waiters` computes from the
strand's queued node. -/
inductive Ptr where
  | strand (s : StrandId)
  | stray (s : StrandId)
  deriving DecidableEq, Repr

/-- What is found through the stray pointer of a strand: the number that `effective_rt_prio` returns
and the answer of `pi_may_cross`. It is whatever other data lies there. -/
structure Stray where
  prio : Nat := 0
  crosses : Bool := false
  deriving DecidableEq, Repr

structure RtMutex where
  lockWord : Nat := 0
  owner : Option Ptr := none
  waiters : List StrandId := []
  deriving DecidableEq, Repr

inductive Phase where
  | outside
  /-- The claim of `lock` or `try_lock` has succeeded and the owner is not written. -/
  | claimed (m : MutexId)
  /-- At the head of the loop of `slow_lock`. -/
  | slow (m : MutexId)
  /-- In `schedule`, called from that loop. -/
  | sleeping (m : MutexId)
  deriving DecidableEq, Repr

/-- The mutexes and the strands. `held` lists what a strand has locked and not unlocked; the source
does not keep it. `rights` are the `granted_rights` of the domains. -/
structure PiSystem where
  mutex : MutexId → RtMutex := fun _ => {}
  strand : StrandId → Sched.Strand := fun _ => {}
  blockedOn : StrandId → Option MutexId := fun _ => none
  rights : DomainId → IsolationRights := fun _ => .none
  phase : StrandId → Phase := fun _ => .outside
  held : StrandId → List MutexId := fun _ => []
  stray : StrandId → Stray := fun _ => {}

namespace PiSystem

def setMutex (S : PiSystem) (m : MutexId) (v : RtMutex) : PiSystem :=
  { S with mutex := update S.mutex m v }

def setStrand (S : PiSystem) (s : StrandId) (v : Sched.Strand) : PiSystem :=
  { S with strand := update S.strand s v }

def setPhase (S : PiSystem) (s : StrandId) (p : Phase) : PiSystem :=
  { S with phase := update S.phase s p }

/-- `lock` or `try_lock` returns in the strand with the mutex. -/
def acquired (S : PiSystem) (s : StrandId) (m : MutexId) : PiSystem :=
  { S.setPhase s .outside with held := update S.held s (m :: S.held s) }

/-! ## Priorities -/

/-- `effective_rt_prio`. -/
def prio (S : PiSystem) (s : StrandId) : Nat := effectiveRtPrio (S.strand s)

def piMayCross (S : PiSystem) (waiter owner : StrandId) : Bool :=
  match (S.strand waiter).owner, (S.strand owner).owner with
  | some wd, some od =>
    wd == od || (hasAllRights (S.rights od) .delegate && hasAllRights (S.rights wd) .enter)
  | _, _ => true

/-- `top_waiter_prio`, which reads every waiter through its stray pointer. -/
def topWaiterPrio (S : PiSystem) (m : MutexId) : Nat :=
  (S.mutex m).waiters.foldl
    (fun best w => if (S.stray w).prio > best then (S.stray w).prio else best) 0

def boost (S : PiSystem) (s : StrandId) (prio : Nat) :
    PiSystem := S.setStrand s (boostPrio (S.strand s) prio)

def unboost (S : PiSystem) (s : StrandId) : PiSystem := S.setStrand s (unboostPrio (S.strand s))

/-- `reboost_owner`, for a top waiter known by its stray pointer. -/
def reboostOwner (S : PiSystem) (owner : StrandId) (newPrio : Nat) (topWaiter : StrandId) :
    PiSystem :=
  if newPrio = 0 then S.unboost owner
  else if !(S.stray topWaiter).crosses then S
  else S.boost owner newPrio

/-! ## The two walks -/

/-- The walk of `slow_lock`. What it writes through a stray owner is no field of a strand. -/
def propagate : Nat → PiSystem → StrandId → Option Ptr → Nat → PiSystem
  | 0, S, _, _, _ => S
  | _ + 1, S, _, none, _ => S
  | _ + 1, S, _, some (.stray _), _ => S
  | depth + 1, S, gate, some (.strand cur), prio =>
    if !S.piMayCross gate cur then S
    else
      let S := S.boost cur prio
      match S.blockedOn cur with
      | none => S
      | some next =>
        let nextTop := S.topWaiterPrio next
        let prio := if nextTop > prio then nextTop else prio
        if (S.mutex next).owner = some (.strand cur) then S
        else propagate depth S cur (S.mutex next).owner prio

/-- The walk of `unlock`. -/
def reboost : Nat → PiSystem → StrandId → PiSystem
  | 0, S, _ => S
  | depth + 1, S, cur =>
    match S.blockedOn cur with
    | none => S
    | some next =>
      match (S.mutex next).owner with
      | none | some (.stray _) => S
      | some (.strand nextOwner) =>
        let S := match (S.mutex next).waiters with
          | [] => S
          | top :: _ => S.reboostOwner nextOwner (S.topWaiterPrio next) top
        if nextOwner = cur then S else reboost depth S nextOwner

/-! ## The locked sections -/

/-- Where a waiter goes in the list: before the first whose stray pointer shows a lower priority. -/
def insertWaiter (S : PiSystem) (self : StrandId) : List StrandId → List StrandId
  | [] => [self]
  | w :: rest =>
    if (S.stray w).prio < S.prio self then self :: w :: rest else w :: S.insertWaiter self rest

/-- A waiter joins the list, unless it is blocked on the mutex already. -/
def queue (S : PiSystem) (self : StrandId) (m : MutexId) : PiSystem :=
  if S.blockedOn self = some m then S
  else
    { S.setMutex m { S.mutex m with waiters := S.insertWaiter self (S.mutex m).waiters } with
      blockedOn := update S.blockedOn self (some m) }

/-- The first section of the loop of `slow_lock`. -/
def slowLock (S : PiSystem) (self : StrandId) (m : MutexId) : PiSystem :=
  if (S.mutex m).lockWord = 0 then
    (S.setMutex m { S.mutex m with lockWord := 1, owner := some (.strand self) }).acquired self m
  else if (S.mutex m).owner = some (.strand self) then S.acquired self m
  else
    let S := S.queue self m
    (propagate maxPiDepth S self (S.mutex m).owner (S.prio self)).setPhase self (.sleeping m)

/-- The section after `schedule` has returned. -/
def woken (S : PiSystem) (self : StrandId) (m : MutexId) : PiSystem :=
  if (S.mutex m).owner = some (.strand self) then S.acquired self m else S.setPhase self (.slow m)

/-- `unlock` takes the first waiter off the list and stores its stray pointer as the owner. The
waiter's own `blocked_on` stays: the store that should clear it goes through that pointer too, as
does the wake-up. -/
def handOver (S : PiSystem) (m : MutexId) : PiSystem :=
  match (S.mutex m).waiters with
  | [] => S.setMutex m { S.mutex m with owner := none }
  | w :: rest => S.setMutex m { S.mutex m with owner := some (.stray w), waiters := rest }

/-- What `unlock` does to the priority of the old owner and along the chain from it. -/
def settle (S : PiSystem) : Option Ptr → PiSystem
  | none | some (.stray _) => S
  | some (.strand old) => reboost maxPiDepth (S.unboost old) old

/-- The section of `unlock`. The word is free again whether or not the mutex has an owner. -/
def unlock (S : PiSystem) (m : MutexId) : PiSystem :=
  let S := (S.handOver m).settle (S.mutex m).owner
  S.setMutex m { S.mutex m with lockWord := 0 }

end PiSystem

/-! ## The machine -/

inductive PiOp where
  | lock (s : StrandId) (m : MutexId)
  | tryLock (s : StrandId) (m : MutexId)
  | unlock (s : StrandId) (m : MutexId)
  | go (s : StrandId)
  /-- Somebody writes where the stray pointer of the strand points. -/
  | stir (s : StrandId) (v : Stray)
  deriving DecidableEq, Repr

/-- One step. Only a strand whose lock has returned unlocks. -/
def PiOp.next (S : PiSystem) : PiOp → Option PiSystem
  | .lock s m =>
    if S.phase s ≠ .outside then none
    else if (S.mutex m).lockWord = 0 then
      some ((S.setMutex m { S.mutex m with lockWord := 1 }).setPhase s (.claimed m))
    else some (S.setPhase s (.slow m))
  | .tryLock s m =>
    if S.phase s ≠ .outside then none
    else if (S.mutex m).lockWord = 0 then
      some ((S.setMutex m { S.mutex m with lockWord := 1 }).setPhase s (.claimed m))
    else some S
  | .unlock s m =>
    if S.phase s ≠ .outside ∨ m ∉ S.held s then none
    else some { S.unlock m with held := update S.held s ((S.held s).erase m) }
  | .go s =>
    match S.phase s with
    | .outside => none
    | .claimed m => some ((S.setMutex m { S.mutex m with owner := some (.strand s) }).acquired s m)
    | .slow m => some (S.slowLock s m)
    | .sleeping m => some (S.woken s m)
  | .stir s v => some { S with stray := update S.stray s v }

/-- No mutex is held and no strand is boosted. -/
structure Start (S : PiSystem) : Prop where
  mutex : ∀ m, S.mutex m = {}
  blockedOn : ∀ s, S.blockedOn s = none
  phase : ∀ s, S.phase s = .outside
  held : ∀ s, S.held s = []
  unboosted : ∀ s, (S.strand s).body.boostedPrio = 0

def piMachine : Machine PiSystem PiOp := .ofNext Start PiOp.next

/-!
## Who owns an rt-mutex

Ownership is recorded twice, in the lock word and in the owner field. `unlock` with a waiter frees
the word and stores a pointer that is no strand's, and goes on to write through it; no waiter is
ever handed the mutex. A strand that locks what it holds returns at once, and the first of its two
unlocks frees the mutex.

While no `unlock` finds a waiter and no strand locks what it holds, a mutex is either free in both
records or with one strand (`Excl`), which has claimed it or is its owner.
-/

variable {S S' : PiSystem} {m m' : MutexId} {s t w : StrandId}

/-- The strand is between a successful acquisition and its unlock, or is recorded as the owner. -/
def PiSystem.Owns (S : PiSystem) (m : MutexId) (s : StrandId) : Prop :=
  m ∈ S.held s ∨ S.phase s = .claimed m ∨ (S.mutex m).owner = some (.strand s)

/-- The step unlocks no mutex that has a waiter, and does not lock the mutex a second time. -/
def PiOp.KeepsApart (m : MutexId) (S : PiSystem) : PiOp → Prop
  | .lock s m' => m' = m → m ∉ S.held s
  | .unlock _ m' => (S.mutex m').waiters = []
  | _ => True

instance (m : MutexId) (S : PiSystem) (op : PiOp) : Decidable (op.KeepsApart m S) := by
  cases op <;> unfold PiOp.KeepsApart <;> infer_instance

/-! ## The walks change priorities only -/

open PiSystem

theorem propagate_frame (depth : Nat) (S : PiSystem) (gate : StrandId) (cur : Option Ptr)
    (prio : Nat) :
    ∃ f, S.propagate depth gate cur prio = { S with strand := f } := by
  induction depth generalizing S gate cur prio with
  | zero => exact ⟨S.strand, rfl⟩
  | succ depth ih =>
    cases cur with
    | none => exact ⟨S.strand, rfl⟩
    | some cur =>
    cases cur with
    | stray w => exact ⟨S.strand, rfl⟩
    | strand cur =>
    rw [propagate]
    split
    · exact ⟨S.strand, rfl⟩
    dsimp only
    split
    · exact ⟨_, rfl⟩
    split
    · exact ⟨_, rfl⟩
    · obtain ⟨f, hf⟩ := ih (S.boost cur prio) cur _ _
      exact ⟨f, hf⟩

theorem reboostOwner_frame (S : PiSystem) (owner : StrandId) (prio : Nat) (top : StrandId) :
    ∃ f, S.reboostOwner owner prio top = { S with strand := f } := by
  unfold reboostOwner
  split
  · exact ⟨_, rfl⟩
  · split
    · exact ⟨S.strand, rfl⟩
    · exact ⟨_, rfl⟩

theorem reboost_frame (depth : Nat) (S : PiSystem) (cur : StrandId) :
    ∃ f, S.reboost depth cur = { S with strand := f } := by
  induction depth generalizing S cur with
  | zero => exact ⟨S.strand, rfl⟩
  | succ depth ih =>
    rw [reboost]
    split
    · exact ⟨S.strand, rfl⟩
    split
    · exact ⟨S.strand, rfl⟩
    · exact ⟨S.strand, rfl⟩
    next nextOwner _ =>
    -- the owner of the next mutex may be boosted before the walk goes on from it
    have hhere : ∀ S₁ : PiSystem, (∃ f, S₁ = { S with strand := f }) →
        ∃ f, (if nextOwner = cur then S₁ else S₁.reboost depth nextOwner) =
          { S with strand := f } := by
      rintro S₁ ⟨f, rfl⟩
      split
      · exact ⟨f, rfl⟩
      · obtain ⟨g, hg⟩ := ih { S with strand := f } nextOwner
        exact ⟨g, hg⟩
    apply hhere
    split
    · exact ⟨S.strand, rfl⟩
    · exact reboostOwner_frame ..

theorem settle_frame {old : Option Ptr} : ∃ f, S.settle old = { S with strand := f } := by
  unfold settle
  split
  · exact ⟨S.strand, rfl⟩
  · exact ⟨S.strand, rfl⟩
  · next old =>
    obtain ⟨f, hf⟩ := reboost_frame maxPiDepth (S.unboost old) old
    exact ⟨f, hf⟩

/-! ## One owner -/

/-- The mutex is free in both records. -/
structure Free (S : PiSystem) (m : MutexId) : Prop where
  word : (S.mutex m).lockWord = 0
  owner : (S.mutex m).owner = none
  held : ∀ t, m ∉ S.held t
  claimed : ∀ t, S.phase t ≠ .claimed m

/-- The mutex is with the strand. -/
structure Taken (S : PiSystem) (m : MutexId) (s : StrandId) : Prop where
  word : (S.mutex m).lockWord = 1
  others : ∀ t, t ≠ s → m ∉ S.held t ∧ S.phase t ≠ .claimed m
  self : ((S.mutex m).owner = some (.strand s) ∧ (S.held s).count m = 1 ∧ S.phase s ≠ .claimed m) ∨
    ((S.mutex m).owner = none ∧ m ∉ S.held s ∧ S.phase s = .claimed m)

structure Excl (S : PiSystem) (m : MutexId) : Prop where
  waiting : ∀ t, S.phase t = .slow m ∨ S.phase t = .sleeping m → m ∉ S.held t
  state : Free S m ∨ ∃ s, Taken S m s

theorem Excl.of_word_zero (h : Excl S m) (hw : (S.mutex m).lockWord = 0) : Free S m := by
  rcases h.state with hfree | ⟨s, htaken⟩
  · exact hfree
  · rw [htaken.word] at hw
    cases hw

theorem Excl.of_held (h : Excl S m) (hs : m ∈ S.held s) : Taken S m s := by
  rcases h.state with hfree | ⟨t, htaken⟩
  · exact absurd hs (hfree.held s)
  · by_cases heq : s = t
    · exact heq ▸ htaken
    · exact absurd hs (htaken.others s heq).1

theorem Excl.of_claimed (h : Excl S m) (hs : S.phase s = .claimed m) : Taken S m s := by
  rcases h.state with hfree | ⟨t, htaken⟩
  · exact absurd hs (hfree.claimed s)
  · by_cases heq : s = t
    · exact heq ▸ htaken
    · exact absurd hs (htaken.others s heq).2

/-- The owner holds the mutex: `unlock` has made no other strand the owner. -/
theorem Excl.held_of_owner (h : Excl S m) (hs : (S.mutex m).owner = some (.strand s)) :
    m ∈ S.held s := by
  rcases h.state with hfree | ⟨t, htaken⟩
  · rw [hfree.owner] at hs
    cases hs
  rcases htaken.self with ⟨howner, hcount, -⟩ | ⟨howner, -, -⟩
  · rw [howner] at hs
    cases hs
    exact count_pos_iff.mp (by omega)
  · rw [howner] at hs
    cases hs

theorem Excl.frame (h : Excl S m) (hword : (S'.mutex m).lockWord = (S.mutex m).lockWord)
    (howner : (S'.mutex m).owner = (S.mutex m).owner)
    (hheld : ∀ t, (S'.held t).count m = (S.held t).count m)
    (hphase : ∀ t, S'.phase t = S.phase t ∨ S.phase t ≠ .claimed m ∧ S'.phase t ≠ .claimed m ∧
      (S'.phase t = .slow m ∨ S'.phase t = .sleeping m → m ∉ S.held t)) : Excl S' m := by
  have hmem : ∀ t, m ∈ S'.held t ↔ m ∈ S.held t := fun t => by
    rw [← count_pos_iff, ← count_pos_iff, hheld t]
  have hclaimed : ∀ t, S'.phase t = .claimed m ↔ S.phase t = .claimed m := by
    intro t
    rcases hphase t with heq | ⟨hnot, hnot', -⟩
    · rw [heq]
    · exact iff_of_false hnot' hnot
  refine ⟨fun t ht => ?_, ?_⟩
  · rw [hmem]
    rcases hphase t with heq | ⟨-, -, hwait⟩
    · rw [heq] at ht
      exact h.waiting t ht
    · exact hwait ht
  · rcases h.state with hfree | ⟨s, htaken⟩
    · exact .inl ⟨hword ▸ hfree.word, howner ▸ hfree.owner,
        fun t => (hmem t).not.mpr (hfree.held t),
        fun t => (hclaimed t).not.mpr (hfree.claimed t)⟩
    refine .inr ⟨s, hword ▸ htaken.word, fun t hts => ?_, ?_⟩
    · rw [hmem, Ne, hclaimed]
      exact htaken.others t hts
    · rw [howner, hheld, hmem, Ne, hclaimed]
      exact htaken.self

variable {p : Phase} {v : RtMutex}

theorem setPhase_of_ne (h : t ≠ s) : (S.setPhase s p).phase t = S.phase t := update_of_ne h ..

theorem setPhase_self : (S.setPhase s p).phase s = p := update_self ..

theorem setMutex_self : (S.setMutex m v).mutex m = v := update_self ..

theorem setMutex_of_ne (h : m ≠ m') : (S.setMutex m' v).mutex m = S.mutex m :=
  update_of_ne h ..

@[elab_as_elim]
theorem setPhase_cases {motive : StrandId → Phase → Prop} (t : StrandId) (self : motive s p)
    (other : ∀ t, t ≠ s → motive t (S.phase t)) : motive t ((S.setPhase s p).phase t) :=
  (forall_update_iff S.phase motive).mpr ⟨self, other⟩ t

@[elab_as_elim]
theorem setMutex_cases {motive : MutexId → RtMutex → Prop} (m' : MutexId) (self : motive m v)
    (other : ∀ m', m' ≠ m → motive m' (S.mutex m')) : motive m' ((S.setMutex m v).mutex m') :=
  (forall_update_iff S.mutex motive).mpr ⟨self, other⟩ m'

theorem acquired_phase_self : (S.acquired s m).phase s = .outside := setPhase_self

theorem acquired_held_self : (S.acquired s m).held s = m :: S.held s := update_self ..

theorem acquired_held_of_ne (h : t ≠ s) : (S.acquired s m).held t = S.held t := update_of_ne h ..

section

variable (h : Excl S m)
include h

theorem Excl.setPhase (hold : S.phase s ≠ .claimed m) (hnew : p ≠ .claimed m)
    (hwait : p = .slow m ∨ p = .sleeping m → m ∉ S.held s) : Excl (S.setPhase s p) m := by
  exact h.frame rfl rfl (fun _ => rfl) fun t =>
    setPhase_cases t (.inr ⟨hold, hnew, hwait⟩) fun _ _ => .inl rfl

theorem Excl.setOther (hne : m ≠ m') : Excl (S.setMutex m' v) m := by
  refine h.frame ?_ ?_ (fun _ => rfl) fun _ => .inl rfl <;> rw [setMutex_of_ne hne]

theorem Excl.acquireOther (hne : m ≠ m') (hold : S.phase s ≠ .claimed m) :
    Excl (S.acquired s m') m := by
  refine h.frame rfl rfl (fun t => ?_) fun t => ?_
  · dsimp only [acquired]
    exact update_cases t (count_cons_of_ne hne.symm) fun _ _ => rfl
  · exact setPhase_cases t (.inr ⟨hold, nofun, by rintro (h | h) <;> cases h⟩) fun _ _ => .inl rfl

/-! ## The steps that move the mutex -/

open RtMutex

theorem Excl.claim (hw : (S.mutex m).lockWord = 0) :
    Excl ((S.setMutex m { S.mutex m with lockWord := 1 }).setPhase s (.claimed m)) m := by
  have hfree := h.of_word_zero hw
  refine ⟨fun t _ => hfree.held t,
    .inr ⟨s, ?_, fun t hts => ⟨hfree.held t, ?_⟩, .inr ⟨?_, hfree.held s, setPhase_self⟩⟩⟩
  · exact congrArg lockWord setMutex_self
  · rw [setPhase_of_ne hts]
    exact hfree.claimed t
  · change ((S.setMutex m _).mutex m).owner = none
    rw [setMutex_self]
    exact hfree.owner

omit h in
theorem Excl.acquire (hword : (S.mutex m).lockWord = 1)
    (howner : (S.mutex m).owner = some (.strand s))
    (hheld : ∀ t, m ∉ S.held t) (hclaimed : ∀ t, t ≠ s → S.phase t ≠ .claimed m) :
    Excl (S.acquired s m) m := by
  refine ⟨fun t ht => ?_, .inr ⟨s, hword, fun t hts => ?_, .inl ⟨howner, ?_, ?_⟩⟩⟩
  · dsimp only [acquired] at ht
    induction t using setPhase_cases with
    | self => rcases ht with ht | ht <;> cases ht
    | other t hts => exact (acquired_held_of_ne hts).symm ▸ hheld t
  · rw [acquired_held_of_ne hts]
    exact ⟨hheld t, (setPhase_of_ne hts).trans_ne (hclaimed t hts)⟩
  · rw [acquired_held_self, count_cons_self, count_eq_zero_of_not_mem (hheld s)]
  · rw [acquired_phase_self]
    nofun

theorem Excl.store (hs : S.phase s = .claimed m) :
    Excl ((S.setMutex m { S.mutex m with owner := some (.strand s) }).acquired s m) m := by
  have htaken := h.of_claimed hs
  have hheld : ∀ t, m ∉ S.held t := by
    intro t
    by_cases hts : t = s
    · subst hts
      rcases htaken.self with ⟨-, -, hnot⟩ | ⟨-, hnot, -⟩
      · exact absurd hs hnot
      · exact hnot
    · exact (htaken.others t hts).1
  refine Excl.acquire ?_ ?_ hheld fun t hts => (htaken.others t hts).2
  · rw [setMutex_self]
    exact htaken.word
  · rw [setMutex_self]

theorem Excl.claimSlow (hw : (S.mutex m).lockWord = 0) :
    Excl ((S.setMutex m { S.mutex m with lockWord := 1, owner := some (.strand s) }).acquired s m)
      m := by
  have hfree := h.of_word_zero hw
  refine Excl.acquire ?_ ?_ hfree.held fun t _ => hfree.claimed t <;> rw [setMutex_self]

omit h in
theorem unlock_of_no_waiter (hwaiters : (S.mutex m).waiters = []) :
    ∃ f, S.unlock m = { S.setMutex m { S.mutex m with owner := none, lockWord := 0 } with
      strand := f } := by
  obtain ⟨f, hf⟩ := settle_frame
  refine ⟨f, ?_⟩
  unfold unlock handOver
  rw [hwaiters]
  dsimp only
  rw [hf]
  simp [setMutex, update_idem]

omit h in
theorem unlock_other (hne : m ≠ m') :
    (S.unlock m').mutex m = S.mutex m ∧ (S.unlock m').phase = S.phase ∧
      (S.unlock m').held = S.held := by
  have hover : (S.handOver m').mutex m = S.mutex m ∧ (S.handOver m').phase = S.phase ∧
      (S.handOver m').held = S.held := by
    unfold handOver
    split <;> exact ⟨setMutex_of_ne hne, rfl, rfl⟩
  obtain ⟨f, hf⟩ := settle_frame
  unfold unlock
  rw [hf]
  exact ⟨(setMutex_of_ne hne).trans hover.1, hover.2⟩

theorem Excl.unlock (hs : m ∈ S.held s) (hwaiters : (S.mutex m).waiters = []) :
    Excl { S.unlock m with held := update S.held s ((S.held s).erase m) } m := by
  obtain ⟨f, hf⟩ := unlock_of_no_waiter hwaiters
  have htaken := h.of_held hs
  rcases htaken.self with ⟨-, hcount, hnot⟩ | ⟨-, hnot, -⟩
  · rw [hf]
    have hheld : ∀ t, m ∉ update S.held s ((S.held s).erase m) t := by
      intro t
      refine update_cases t ?_ fun t hts => (htaken.others t hts).1
      rw [← count_pos_iff, count_erase_self, hcount]
      omega
    refine ⟨fun t _ => hheld t, .inl ⟨?_, ?_, hheld, fun t => ?_⟩⟩
    · exact congrArg lockWord setMutex_self
    · exact congrArg owner setMutex_self
    · by_cases hts : t = s
      · exact hts ▸ hnot
      · exact (htaken.others t hts).2
  · exact absurd hs hnot

theorem Excl.unlockOther (hne : m ≠ m') :
    Excl { S.unlock m' with held := update S.held s ((S.held s).erase m') } m := by
  obtain ⟨hmutex, hphase, -⟩ := unlock_other (S := S) hne
  refine h.frame (congrArg lockWord hmutex) (congrArg owner hmutex) (fun t => ?_) fun t =>
    .inl (congrFun hphase t)
  dsimp only
  exact update_cases t (count_erase_of_ne hne) fun _ _ => rfl

omit h in
theorem queue_frame (m m' : MutexId) :
    ((S.queue s m').mutex m).lockWord = (S.mutex m).lockWord ∧
      ((S.queue s m').mutex m).owner = (S.mutex m).owner ∧
      (S.queue s m').phase = S.phase ∧ (S.queue s m').held = S.held := by
  unfold queue
  split
  · exact ⟨rfl, rfl, rfl, rfl⟩
  · dsimp only
    exact setMutex_cases m ⟨rfl, rfl, rfl, rfl⟩ fun _ _ => ⟨rfl, rfl, rfl, rfl⟩

theorem Excl.slowLock (hs : S.phase s = .slow m') : Excl (S.slowLock s m') m := by
  have hold : S.phase s ≠ .claimed m := by
    rw [hs]
    nofun
  unfold PiSystem.slowLock
  split
  · next hw =>
    by_cases hm : m = m'
    · subst hm
      exact h.claimSlow hw
    · exact (h.setOther hm).acquireOther hm hold
  split
  · next howner =>
    by_cases hm : m = m'
    · subst hm
      exact absurd (h.held_of_owner howner) (h.waiting s (.inl hs))
    · exact h.acquireOther hm hold
  · dsimp only
    obtain ⟨f, hf⟩ := propagate_frame maxPiDepth (S.queue s m') s ((S.queue s m').mutex m').owner
      ((S.queue s m').prio s)
    rw [hf]
    obtain ⟨hword, howner, hphase, hheld⟩ := queue_frame (S := S) (s := s) m m'
    have hframe : Excl { S.queue s m' with strand := f } m :=
      h.frame hword howner (fun t => congrArg (count m) (congrFun hheld t)) fun t =>
        .inl (congrFun hphase t)
    refine hframe.setPhase (by change (S.queue s m').phase s ≠ _; rw [hphase]; exact hold) nofun ?_
    rintro (heq | heq)
    · cases heq
    cases heq
    change m ∉ (S.queue s m).held s
    rw [hheld]
    exact h.waiting s (.inl hs)

theorem Excl.woken (hs : S.phase s = .sleeping m') : Excl (S.woken s m') m := by
  have hold : S.phase s ≠ .claimed m := by
    rw [hs]
    nofun
  unfold PiSystem.woken
  split
  · next howner =>
    by_cases hm : m = m'
    · subst hm
      exact absurd (h.held_of_owner howner) (h.waiting s (.inr hs))
    · exact h.acquireOther hm hold
  · refine h.setPhase hold nofun ?_
    rintro (heq | heq)
    · cases heq
      exact h.waiting s (.inr hs)
    · cases heq

theorem Excl.claimAny (hs : S.phase s = .outside) (hw : (S.mutex m').lockWord = 0) :
    Excl ((S.setMutex m' { S.mutex m' with lockWord := 1 }).setPhase s (.claimed m')) m := by
  by_cases hm : m = m'
  · subst hm
    exact h.claim hw
  refine (h.setOther hm).setPhase ?_ (fun heq => hm (by cases heq; rfl))
    (by rintro (h | h) <;> cases h)
  change S.phase s ≠ _
  rw [hs]
  nofun

theorem Excl.step {op : PiOp} (hop : op.KeepsApart m S) (hstep : op.next S = some S') :
    Excl S' m := by
  cases op with
  | lock s m' =>
    simp only [PiOp.next] at hstep
    split_ifs at hstep with hout hw
    · cases hstep
      exact h.claimAny (not_not.mp hout) hw
    cases hstep
    -- on its way to `slow_lock` it does not hold the mutex, by the condition
    refine h.setPhase (by rw [not_not.mp hout]; nofun) nofun ?_
    rintro (heq | heq)
    · cases heq
      exact hop rfl
    · cases heq
  | tryLock s m' =>
    simp only [PiOp.next] at hstep
    split_ifs at hstep with hout hw
    · cases hstep
      exact h.claimAny (not_not.mp hout) hw
    · cases hstep
      exact h
  | unlock s m' =>
    obtain ⟨hout, rfl⟩ := of_guard hstep
    by_cases hm : m = m'
    · subst hm
      exact h.unlock (not_not.mp (not_or.mp hout).2) hop
    · exact h.unlockOther hm
  | go s =>
    simp only [PiOp.next] at hstep
    split at hstep
    · cases hstep
    · next m' hphase =>
      cases hstep
      by_cases hm : m = m'
      · subst hm
        exact h.store hphase
      refine (h.setOther hm).acquireOther hm ?_
      change S.phase s ≠ _
      rw [hphase]
      exact fun heq => hm (by cases heq; rfl)
    · next m' hphase =>
      cases hstep
      exact h.slowLock hphase
    · next m' hphase =>
      cases hstep
      exact h.woken hphase
  | stir s v =>
    cases hstep
    exact h.frame rfl rfl (fun _ => rfl) fun _ => .inl rfl

omit h in
theorem Start.excl (h : Start S) : Excl S m := by
  have hmutex := h.mutex m
  refine ⟨fun t _ => by rw [h.held t]; exact not_mem_nil, .inl ⟨by rw [hmutex],
    by rw [hmutex], fun t => ?_, fun t => ?_⟩⟩
  · rw [h.held t]
    exact not_mem_nil
  · rw [h.phase t]
    nofun

theorem Excl.exclusive :
    (∀ s t, S.Owns m s → S.Owns m t → s = t) ∧ ((S.mutex m).lockWord = 1 ↔ ∃ s, S.Owns m s) := by
  rcases h.state with hfree | ⟨u, htaken⟩
  · have hnone : ∀ s, ¬ S.Owns m s := by
      rintro s (hheld | hclaimed | howner)
      · exact hfree.held s hheld
      · exact hfree.claimed s hclaimed
      · rw [hfree.owner] at howner
        cases howner
    refine ⟨fun s _ hs => absurd hs (hnone s), iff_of_false ?_ (not_exists.mpr hnone)⟩
    rw [hfree.word]
    exact Nat.zero_ne_one
  · have hone : ∀ s, S.Owns m s → s = u := by
      intro s hs
      by_contra hne
      rcases hs with hheld | hclaimed | howner
      · exact (htaken.others s hne).1 hheld
      · exact (htaken.others s hne).2 hclaimed
      · exact (htaken.others s hne).1 (h.held_of_owner howner)
    have huser : S.Owns m u := by
      rcases htaken.self with ⟨howner, -, -⟩ | ⟨-, -, hclaimed⟩
      · exact .inr (.inr howner)
      · exact .inr (.inl hclaimed)
    exact ⟨fun s t hs ht => (hone s hs).trans (hone t ht).symm, iff_of_true htaken.word ⟨u, huser⟩⟩

end

/-- In every run in which no `unlock` finds a waiter and no strand locks the mutex while it holds
it, at most one strand owns the mutex in each state, and the word is 1 exactly while one does. -/
theorem rtmutex_exclusion {S : PiSystem} (m : MutexId)
    (h : (piMachine.restrict fun S op => op.KeepsApart m S).Reachable S) :
    (∀ s t, S.Owns m s → S.Owns m t → s = t) ∧ ((S.mutex m).lockWord = 1 ↔ ∃ s, S.Owns m s) := by
  have hexcl : Excl S m := by
    refine h.invariant (P := fun S => Excl S m) (fun _ h₀ => Start.excl h₀) ?_
    intro S₁ op S₂ hS hstep
    exact hS.step hstep.1 hstep.2
  exact hexcl.exclusive

theorem start_default :
    Start {} := ⟨fun _ => rfl, fun _ => rfl, fun _ => rfl, fun _ => rfl, fun _ => rfl⟩

/-- Strand 2 is refused by `try_lock`, enters `slow_lock`, and finds the mutex unlocked there. -/
def lateUnlock : List PiOp := [.lock 1 0, .go 1, .tryLock 2 0, .lock 2 0, .unlock 1 0, .go 2]

theorem rtmutex_exclusion_lateUnlock :
    ∃ S, (piMachine.restrict fun S op => op.KeepsApart 0 S).Reachable S ∧ S.held 1 = [] ∧
      S.held 2 = [0] ∧
      (S.mutex 0).lockWord = 1 ∧ ∀ s, S.Owns 0 s → s = 2 := by
  obtain ⟨S, hreach, hfirst, hsecond, hword⟩ :
    ∃ S, (piMachine.restrict fun S op => op.KeepsApart 0 S).Reachable S ∧
      S.held 1 = [] ∧ S.held 2 = [0] ∧ (S.mutex 0).lockWord = 1 :=
    Machine.exists_reachable_restrict_ofNext lateUnlock start_default (by decide +kernel)
  refine ⟨S, hreach, hfirst, hsecond, hword,
    fun s hs => (rtmutex_exclusion 0 hreach).1 s 2 hs (.inl ?_)⟩
  rw [hsecond]
  exact List.mem_singleton_self 0

/-- Strand 1 locks the mutex twice and unlocks it once, and strand 2 locks it. -/
def lockedTwice : List PiOp :=
  [.lock 1 0, .go 1, .lock 1 0, .go 1, .unlock 1 0, .lock 2 0, .go 2]

/-- Both locks have returned and neither strand has unlocked for the last time. And when strand 1
unlocks with strand 2 queued, the word is free and strand 2 off the list, but the owner is no
strand: strand 2 sleeps on, and the mutex is handed to nobody. -/
theorem two_owners_counterexample :
    (∃ S, piMachine.Exec {} lockedTwice S ∧ 0 ∈ S.held 1 ∧ 0 ∈ S.held 2) ∧
      ∃ S, piMachine.Exec {} [.lock 1 0, .go 1, .lock 2 0, .go 2, .unlock 1 0] S ∧
        S.mutex 0 = { lockWord := 0, owner := some (.stray 2), waiters := [] } ∧
        S.phase 2 = .sleeping 0 ∧ S.blockedOn 2 = some 0 := by
  exact ⟨Machine.exists_exec_ofNext (by decide +kernel),
    Machine.exists_exec_ofNext (by decide +kernel)⟩

/-!
## Chains of owners and waiters

A strand waits for one mutex at a time, a mutex has one owner, and the lists of waiters and the
field `blocked_on` say the same (`Links`). So from a blocked strand there is one way on, which the
walks of `slow_lock` and `unlock` follow.
-/

/-- The first strand waits for a mutex of the second. -/
def PiSystem.Blocks (S : PiSystem) (w s : StrandId) : Prop :=
  ∃ m, (S.mutex m).owner = some (.strand s) ∧ w ∈ (S.mutex m).waiters

structure Links (S : PiSystem) : Prop where
  nodup : ∀ m, (S.mutex m).waiters.Nodup
  linked : ∀ m w, w ∈ (S.mutex m).waiters ↔ S.blockedOn w = some m
  blocked : ∀ m w, S.blockedOn w = some m → S.phase w = .slow m ∨ S.phase w = .sleeping m
  apart : ∀ m s, (S.mutex m).owner = some (.strand s) → S.blockedOn s ≠ some m
  held : ∀ m s, (S.mutex m).owner = some (.strand s) → m ∈ S.held s ∨ S.phase s = .slow m ∨
    S.phase s = .sleeping m

section

variable (h : Links S)
include h

theorem Links.boost (s : StrandId) (p : Nat) : Links (S.boost s p) :=
  { h with }

/-! ## The links in a step -/

theorem Links.move (hmutex : ∀ m, (S'.mutex m).owner = (S.mutex m).owner ∧
      (S'.mutex m).waiters = (S.mutex m).waiters) (hblocked : S'.blockedOn = S.blockedOn)
    (hphase : ∀ t, t ≠ s → S'.phase t = S.phase t) (hheld : ∀ t, t ≠ s → S'.held t = S.held t)
    (hwaits : ∀ m, S.blockedOn s = some m → S'.phase s = .slow m ∨ S'.phase s = .sleeping m)
    (howns : ∀ m, (S.mutex m).owner = some (.strand s) → m ∈ S'.held s ∨ S'.phase s = .slow m ∨
      S'.phase s = .sleeping m) :
    Links S' where
  nodup m := (hmutex m).2 ▸ h.nodup m
  linked m w := by
    rw [(hmutex m).2, hblocked]
    exact h.linked m w
  blocked m w hw := by
    rw [hblocked] at hw
    by_cases hws : w = s
    · subst hws
      exact hwaits m hw
    · rw [hphase w hws]
      exact h.blocked m w hw
  apart m t ht := by
    rw [(hmutex m).1] at ht
    rw [hblocked]
    exact h.apart m t ht
  held m t ht := by
    rw [(hmutex m).1] at ht
    by_cases hts : t = s
    · subst hts
      exact howns m ht
    · rw [hphase t hts, hheld t hts]
      exact h.held m t ht

theorem Links.free (hs : ∀ m, S.phase s ≠ .slow m ∧ S.phase s ≠ .sleeping m) :
    S.blockedOn s = none ∧ ∀ m, (S.mutex m).owner = some (.strand s) → m ∈ S.held s := by
  refine ⟨Option.eq_none_iff_forall_ne_some.mpr fun m hm => ?_, fun m hm => ?_⟩
  · rcases h.blocked m s hm with hp | hp
    · exact (hs m).1 hp
    · exact (hs m).2 hp
  rcases h.held m s hm with hheld | hp | hp
  · exact hheld
  · exact absurd hp (hs m).1
  · exact absurd hp (hs m).2

theorem Links.inSlow (hs : S.phase s = .slow m ∨ S.phase s = .sleeping m)
    (hm : S.blockedOn s ≠ some m) :
    S.blockedOn s = none ∧ ∀ m', (S.mutex m').owner = some (.strand s) →
      m' ∈ S.held s ∨ m' = m := by
  refine ⟨Option.eq_none_iff_forall_ne_some.mpr fun m' hm' => ?_, fun m' hm' => ?_⟩
  · suffices heq : m' = m from hm (heq ▸ hm')
    rcases hs with hs | hs <;> rcases h.blocked m' s hm' with hp | hp <;> rw [hs] at hp
      <;> cases hp <;> rfl
  rcases h.held m' s hm' with hheld | hp
  · exact .inl hheld
  · right
    rcases hs with hs | hs <;> rcases hp with hp | hp <;> rw [hs] at hp <;> cases hp <;> rfl

theorem Links.acquired (hblocked : S.blockedOn s = none)
    (howns : ∀ m', (S.mutex m').owner = some (.strand s) → m' ∈ S.held s ∨ m' = m) :
    Links (S.acquired s m) := by
  refine h.move (fun _ => ⟨rfl, rfl⟩) rfl (fun t hts => setPhase_of_ne hts)
    (fun t hts => acquired_held_of_ne hts)
    (fun m' hm' => ?_) fun m' hm' => .inl ?_
  · rw [hblocked] at hm'
    cases hm'
  · rw [acquired_held_self, mem_cons]
    exact (howns m' hm').symm

theorem Links.own {v : RtMutex} (howner : v.owner = some (.strand s))
    (hwaiters : v.waiters = (S.mutex m).waiters)
    (hblocked : S.blockedOn s = none) (howns : ∀ m', (S.mutex m').owner = some (.strand s) →
      m' ∈ S.held s ∨ m' = m) :
    Links ((S.setMutex m v).acquired s m) := by
  have hw : ∀ m', ((S.setMutex m v).mutex m').waiters = (S.mutex m').waiters := fun m' =>
    setMutex_cases m' hwaiters fun _ _ => rfl
  have ho : ∀ m' t, ((S.setMutex m v).mutex m').owner = some (.strand t) →
    t = s ∧ m' = m ∨ (S.mutex m').owner = some (.strand t) := by
    intro m' t ht
    induction m' using setMutex_cases with
    | self =>
      rw [howner] at ht
      cases ht
      exact .inl ⟨rfl, rfl⟩
    | other => exact .inr ht
  refine ⟨fun m' => (hw m').symm ▸ h.nodup m', fun m' w => ?_, fun m' w hblk => ?_,
    fun m' t ht => ?_, fun m' t ht => ?_⟩
  · change w ∈ ((S.setMutex m v).mutex m').waiters ↔ _
    rw [hw m']
    exact h.linked m' w
  · have hws : w ≠ s := by
      rintro rfl
      exact absurd (hblocked.symm.trans hblk) nofun
    exact (setPhase_of_ne hws).symm ▸ h.blocked m' w hblk
  · change S.blockedOn t ≠ some m'
    rcases ho m' t ht with ⟨rfl, -⟩ | ht
    · rw [hblocked]
      nofun
    · exact h.apart m' t ht
  · by_cases hts : t = s
    · subst hts
      left
      rw [acquired_held_self, mem_cons]
      rcases ho m' t ht with ⟨-, heq⟩ | ht
      · exact .inl heq
      · exact (howns m' ht).symm
    · rw [acquired_held_of_ne hts]
      rcases ho m' t ht with ⟨rfl, -⟩ | ht
      · exact absurd rfl hts
      · exact (setPhase_of_ne hts).symm ▸ h.held m' t ht

omit h in
theorem insertWaiter_perm {l : List StrandId} : (S.insertWaiter s l).Perm (s :: l) := by
  induction l with
  | nil => exact .refl _
  | cons w l ih =>
    rw [insertWaiter]
    split
    · exact .refl _
    · exact (ih.cons w).trans (.swap ..)

theorem Links.queue (hblocked : S.blockedOn s = none ∨ S.blockedOn s = some m)
    (hphase : S.phase s = .slow m) (hne : (S.mutex m).owner ≠ some (.strand s)) :
    Links (S.queue s m) := by
  unfold PiSystem.queue
  split
  · exact h
  next hnot =>
  have hnone := hblocked.resolve_right hnot
  have hmem : ∀ m' w, w ∈ ((S.setMutex m { S.mutex m with
      waiters := S.insertWaiter s (S.mutex m).waiters }).mutex m').waiters ↔
      w ∈ (S.mutex m').waiters ∨ m' = m ∧ w = s := by
    intro m' w
    refine setMutex_cases m' ?_ fun m' hm => by simp [hm]
    rw [insertWaiter_perm.mem_iff, mem_cons, or_comm]
    simp
  have howner : ∀ m', ((S.setMutex m { S.mutex m with
      waiters := S.insertWaiter s (S.mutex m).waiters }).mutex m').owner =
        (S.mutex m').owner := fun m' =>
    setMutex_cases m' rfl fun _ _ => rfl
  refine ⟨fun m' => ?_, fun m' w => ?_, fun m' w hw => ?_, fun m' t ht => ?_, fun m' t ht => ?_⟩
    <;> dsimp only at *
  · refine setMutex_cases m' ?_ fun m' _ => h.nodup m'
    rw [insertWaiter_perm.nodup_iff, nodup_cons]
    refine ⟨fun hin => ?_, h.nodup m⟩
    rw [h.linked, hnone] at hin
    cases hin
  · rw [hmem, h.linked]
    induction w using update_cases with
    | self =>
      rw [hnone]
      simp [eq_comm]
    | other w hws => simp [hws]
  · induction w using update_cases with
    | self =>
      cases hw
      exact .inl hphase
    | other w => exact h.blocked m' w hw
  · rw [howner] at ht
    induction t using update_cases with
    | self =>
      rintro heq
      cases heq
      exact hne ht
    | other t => exact h.apart m' t ht
  · rw [howner] at ht
    exact h.held m' t ht

theorem Links.release {n : Nat} :
    Links (S.setMutex m { S.mutex m with owner := none, lockWord := n }) := by
  have hw :
    ∀ m', ((S.setMutex m { S.mutex m with owner := none, lockWord := n }).mutex m').waiters =
      (S.mutex m').waiters := fun m' => setMutex_cases m' rfl fun _ _ => rfl
  have howner :
    ∀ m' t, ((S.setMutex m { S.mutex m with owner := none, lockWord := n }).mutex m').owner =
      some (.strand t) → (S.mutex m').owner = some (.strand t) := fun m' t =>
    setMutex_cases m' nofun fun _ _ => id
  refine ⟨fun m' => (hw m').symm ▸ h.nodup m', fun m' w => ?_, h.blocked,
    fun m' t ht => h.apart m' t (howner m' t ht), fun m' t ht => h.held m' t (howner m' t ht)⟩
  rw [hw m']
  exact h.linked m' w

end

/-- The section of `unlock` by an owner that is not blocked, on a mutex without waiters: the chain
from it is empty. -/
theorem unlock_of_owner (howner : (S.mutex m).owner = some (.strand s))
    (hblocked : S.blockedOn s = none)
    (hwaiters : (S.mutex m).waiters = []) :
    S.unlock m = (S.setMutex m { S.mutex m with owner := none, lockWord := 0 }).unboost s := by
  have hstop : ∀ S₁ : PiSystem, S₁.blockedOn s = none → S₁.reboost maxPiDepth s = S₁ := by
    intro S₁ hnone
    unfold maxPiDepth
    rw [reboost, hnone]
  unfold unlock handOver
  rw [hwaiters, howner]
  dsimp only [settle]
  rw [hstop ((S.setMutex m _).unboost s) hblocked]
  simp [setMutex, unboost, setStrand, update_idem]

end ZXFoundation.Sync.Rtmutex
