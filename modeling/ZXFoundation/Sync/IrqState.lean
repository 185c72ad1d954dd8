import Mathlib.Data.List.Basic

/-!
# Interrupt and preemption state across blocking calls

`mutex::lock`, `rtmutex::lock` and `kmem_alloc` save the interrupt mask and restore it by hand, and
inside they use `irq_lock_guard`, which saves the mask once more and restores its own copy in its
destructor. Where a call restores the caller's mask inside a guarded block and returns, interrupts
are enabled while the guard's spinlock is held, and the destructor then disables them for the
caller.

The state is that of one processor as the calling strand sees it. Which path is taken is an argument
of each call.
-/

namespace ZXFoundation.Sync.IrqState

open Option List

/-- The spinlocks that the three calls take. -/
inductive SpinLock where
  /-- `m_wq.lock` of the mutex. -/
  | waitQueue
  /-- `m_pi_lock` of an rtmutex. -/
  | pi (m : Nat)
  | rq
  | context
  /-- `list_lock` of a cache's node. -/
  | nodeList (n : Nat)
  deriving DecidableEq, Repr

structure Cpu where
  /-- Byte 0 of the PSW. -/
  mask : UInt8
  preempt : Int
  held : List SpinLock
  /-- At some moment a spinlock was held with interrupts enabled. -/
  exposed : Bool
  deriving DecidableEq, Repr

/-- `irqs_enabled`, of a mask. -/
def enabled (mask : UInt8) : Bool := mask &&& 0x03 != 0

def disabled (mask : UInt8) : UInt8 := mask &&& 0xFC

namespace Cpu

variable (c : Cpu)

/-- What is noted after each step. -/
def watch : Cpu := { c with exposed := c.exposed || (!c.held.isEmpty && enabled c.mask) }

/-- `irq_save_disable`; the flags it returns are `c.mask`. -/
def irqSaveDisable : Cpu := { c with mask := disabled c.mask }.watch

def irqRestore (flags : UInt8) : Cpu := { c with mask := flags }.watch

/-- `qspinlock::lock`. A lock that its own processor holds is waited for in vain. -/
def lock (l : SpinLock) : Option Cpu :=
  if l ∈ c.held then none else some { c with held := l :: c.held }.watch

def unlock (l : SpinLock) : Cpu := { c with held := c.held.erase l }.watch

def preemptDisable : Cpu := { c with preempt := c.preempt + 1 }.watch

def preemptEnable : Cpu := { c with preempt := c.preempt - 1 }.watch

/-- A block under an `irq_lock_guard`. The body says whether it returns from the function; the
destructor runs in either case. -/
def irqLockGuard (l : SpinLock) (body : Cpu → Option (Bool × Cpu)) : Option (Bool × Cpu) := do
  let flags := c.mask
  let c ← c.irqSaveDisable.lock l
  let (returns, c) ← body c
  return (returns, (c.unlock l).irqRestore flags)

/-- `schedule`, as the strand that calls it sees it: it goes on with the mask that it had. -/
def schedule : Option Cpu := do
  let flags := c.mask
  let c ← c.irqSaveDisable.lock .rq
  let c ← (c.unlock .rq).lock .context
  return (c.unlock .context).irqRestore flags

def dequeueStrand : Option Cpu := do
  let flags := c.mask
  let c ← c.irqSaveDisable.lock .rq
  return (c.unlock .rq).irqRestore flags

/-! ## `mutex::lock` -/

/-- A guarded block of `mutex::slow_lock`: the lock word is tried, and `taken` says whether it was
free. -/
def mutexTry (flags : UInt8) (taken : Bool) : Option (Bool × Cpu) :=
  c.irqLockGuard .waitQueue fun c =>
    if taken then some (true, c.irqRestore flags) else some (false, c)

/-- The loop of `mutex::slow_lock`, where the list says how each turn finds the lock word. -/
def mutexWait (flags : UInt8) : List Bool → Cpu → Option Cpu
  | [], _ => none
  | taken :: turns, c => do
    let (returns, c) ← c.mutexTry flags taken
    if returns then return c
    mutexWait flags turns (← c.schedule)

def canSleep : Bool := enabled c.mask && c.preempt == 0

/-- `mutex::lock`. `fast` and `recheck` say how the first two attempts find the lock word. -/
def mutexLock (fast recheck : Bool) (turns : List Bool) : Option Cpu :=
  let flags := c.mask
  if !c.canSleep then none
  else if fast then some (c.irqSaveDisable.irqRestore flags)
  else do
    let (returns, c) ← c.irqSaveDisable.mutexTry flags recheck
    if returns then return c
    mutexWait flags turns c

/-! ## `rtmutex::lock` -/

/-- The walk of `rtmutex::slow_lock` along the owners, from one lock to the next; `held` is
`held_lock`. -/
def boostChain (this : Nat) : List Nat → Nat → Cpu → Option Cpu
  | [], held, c => return if held ≠ this then c.unlock (.pi held) else c
  | next :: chain, held, c => do
    let c ← if next ≠ held then c.lock (.pi next) else some c
    boostChain this chain next (if held ≠ this then c.unlock (.pi held) else c)

/-- The strand leaves its run queue, if it is on one, and sleeps. -/
def goToSleep (onRq : Bool) : Option Cpu :=
  if onRq then c.dequeueStrand.bind schedule else c.schedule

/-- A turn of the loop of `rtmutex::slow_lock`. -/
inductive RtTurn where
  /-- The lock word was free. -/
  | taken
  /-- The strand is the owner already. -/
  | owned
  /-- The strand waits: the locks of the chain it boosts, whether it was on a run queue, and whether
  it is the owner when it goes on. -/
  | waits (chain : List Nat) (onRq granted : Bool)
  deriving DecidableEq, Repr

/-- `rtmutex::slow_lock`. -/
def rtmutexWait (this : Nat) (flags : UInt8) : List RtTurn → Cpu → Option Cpu
  | [], _ => none
  | .taken :: _, c => do
    let (_, c) ← c.irqLockGuard (.pi this) fun c => some (true, c.irqRestore flags)
    return c
  | .owned :: _, c => do
    let (_, c) ← c.irqLockGuard (.pi this) fun c => some (true, c.irqRestore flags)
    return c
  | .waits chain onRq granted :: turns, c => do
    let (_, c) ← c.irqLockGuard (.pi this) fun c => do return (false,
      ← boostChain this chain this c)
    let c ← c.goToSleep onRq
    let (returns, c) ← c.irqLockGuard (.pi this) fun c =>
      if granted then some (true, c.irqRestore flags) else some (false, c)
    if returns then return c
    rtmutexWait this flags turns c

def rtmutexLock (this : Nat) (fast : Bool) (turns : List RtTurn) : Option Cpu :=
  let flags := c.mask
  if !c.canSleep then none
  else if fast then some (c.irqSaveDisable.irqRestore flags)
  else rtmutexWait this flags turns c.irqSaveDisable

/-! ## `kmem_alloc` -/

/-- What `kmem_alloc` finds. -/
structure AllocPath where
  /-- The processor's free list has an object. -/
  fast : Bool := false
  /-- The node of the slab that is retired, if there is one. -/
  retired : Option Nat := none
  /-- The node of the first slab of the processor's own list, and whether it has an object. -/
  cpuList : Option (Nat × Bool) := none
  /-- The nodes that are inspected, and whether they have a slab. -/
  nodes : List (Nat × Bool) := []
  /-- A new slab can be had. -/
  newSlab : Bool := true
  deriving DecidableEq, Repr

def deactivateCpuSlab (slab : Option Nat) : Option Cpu :=
  match slab with
  | none => some c
  | some n => do
    let (_, c) ← c.irqLockGuard (.nodeList n) fun c => some (false, c)
    return c

/-- The stage of `alloc_slow` that takes a slab from the processor's own list. -/
def fromCpuList (slab : Option (Nat × Bool)) : Option (Bool × Cpu) := do
  let c := c.preemptDisable
  let flags := c.mask
  let c := c.irqSaveDisable
  match slab with
  | none => return (false, (c.irqRestore flags).preemptEnable)
  | some (n, found) =>
    let (returns, c) ← c.irqLockGuard (.nodeList n) fun c =>
      if found then some (true, (c.irqRestore flags).preemptEnable) else some (false, c)
    if returns then return (true, c)
    return (false, (c.irqRestore flags).preemptEnable)

/-- The stage of `alloc_slow` that takes a slab from a node. A slab of a node has an object; the
trap otherwise does not return. -/
def fromNodes : List (Nat × Bool) → Cpu → Option (Bool × Cpu)
  | [], c => some (false, c)
  | (n, found) :: nodes, c => do
    let (returns, c) ← c.irqLockGuard (.nodeList n) fun c =>
      if found then
        let c := c.preemptDisable
        let iflags := c.mask
        some (true, (c.irqSaveDisable.irqRestore iflags).preemptEnable)
      else some (false, c)
    if returns then return (true, c)
    fromNodes nodes c

/-- The short sections of `kmem_alloc` and `alloc_slow` that take no spinlock. -/
def briefSection : Cpu :=
  let c := c.preemptDisable
  let flags := c.mask
  (c.irqSaveDisable.irqRestore flags).preemptEnable

def allocSlow (path : AllocPath) : Option Cpu := do
  let c := c.briefSection
  let c := c.preemptDisable
  let flags := c.mask
  let c ← c.irqSaveDisable.deactivateCpuSlab path.retired
  let c := (c.irqRestore flags).preemptEnable
  let (returns, c) ← c.fromCpuList path.cpuList
  if returns then return c
  let (returns, c) ← fromNodes path.nodes c
  if returns then return c
  return if path.newSlab then c.briefSection else c

/-- `kmem_alloc`. The fast path and the look at the free list are one section. -/
def kmemAlloc (path : AllocPath) : Option Cpu :=
  if path.fast then some c.briefSection else c.briefSection.allocSlow path

end Cpu

/-! ## Masks -/

theorem enabled_disabled {m : UInt8} : enabled (disabled m) = false := by
  unfold enabled disabled
  rw [UInt8.and_assoc]
  have hzero : (0xFC &&& 0x03 : UInt8) = 0 := by decide
  rw [hzero, UInt8.and_zero]
  rfl

theorem disabled_eq_iff {m : UInt8} : disabled m = m ↔ enabled m = false := by
  constructor
  · intro h
    rw [← h]
    exact enabled_disabled
  intro h
  have hlow : m &&& 0x03 = 0 := by simpa [enabled] using h
  have hsplit : m &&& 0xFC ||| m &&& 0x03 = m := by
    rw [← UInt8.toBitVec_inj, UInt8.toBitVec_or, UInt8.toBitVec_and, UInt8.toBitVec_and,
      ← BitVec.and_or_distrib_left]
    exact BitVec.and_allOnes
  rw [hlow, UInt8.or_zero] at hsplit
  exact hsplit

namespace Cpu

/-- No spinlock is held with interrupts enabled, unless that has been noted already. -/
def Clean (c : Cpu) : Prop := (c.exposed || (!c.held.isEmpty && enabled c.mask)) = c.exposed

variable {c c' : Cpu} {l : SpinLock} {flags : UInt8} {r : Bool}

theorem Clean.watch_eq (h : c.Clean) : c.watch = c := by
  unfold watch
  rw [h]

section

variable (h : enabled c.mask = false)
include h

theorem clean_of_disabled : c.Clean := by
  unfold Clean
  rw [h, Bool.and_false, Bool.or_false]

theorem lock_ok (hok : c.lock l = some c') : l ∉ c.held ∧ c' = { c with held := l :: c.held } := by
  unfold lock at hok
  split_ifs at hok with hheld
  cases hok
  exact ⟨hheld, (clean_of_disabled (c := { c with held := l :: c.held }) h).watch_eq⟩

theorem unlock_eq : c.unlock l = { c with held := c.held.erase l } :=
  (clean_of_disabled (c := { c with held := c.held.erase l }) h).watch_eq

theorem lock_unlock (hok : c.lock l = some c') : c'.unlock l = c := by
  obtain ⟨-, rfl⟩ := lock_ok h hok
  rw [unlock_eq (c := { c with held := l :: c.held }) h]
  dsimp only
  rw [erase_cons_head]

end

theorem irqSaveDisable_eq : c.irqSaveDisable = { c with mask := disabled c.mask } :=
  (clean_of_disabled (c := { c with mask := disabled c.mask }) enabled_disabled).watch_eq

theorem Clean.irqRestore_eq (h : c.Clean) :
    irqRestore { c with mask := disabled c.mask } c.mask = c :=
  h.watch_eq

theorem Clean.preemptDisable_eq (h : c.Clean) :
    c.preemptDisable = { c with preempt := c.preempt + 1 } :=
  Clean.watch_eq (c := { c with preempt := c.preempt + 1 }) h

theorem Clean.preemptEnable_eq (h : c.Clean) :
    preemptEnable { c with preempt := c.preempt + 1 } = c := by
  have hpreempt : c.preempt + 1 - 1 = c.preempt := by omega
  unfold preemptEnable
  dsimp only
  rw [hpreempt]
  exact h.watch_eq

theorem Clean.preempted (h : c.Clean) (p : Int) : Clean { c with preempt := p } := h

theorem Clean.leave_eq (h : c.Clean) : preemptEnable (irqRestore
    { c with mask := disabled c.mask, preempt := c.preempt + 1 } c.mask) = c := by
  have hrestore := (h.preempted (c.preempt + 1)).irqRestore_eq
  dsimp only at hrestore
  rw [hrestore]
  exact h.preemptEnable_eq

theorem Clean.briefSection_eq (h : c.Clean) : c.briefSection = c := by
  unfold briefSection
  dsimp only
  rw [h.preemptDisable_eq, irqSaveDisable_eq]
  exact h.leave_eq

/-! ## Guarded blocks -/

def inside (c : Cpu) (l : SpinLock) : Cpu :=
  { c with mask := disabled c.mask, held := l :: c.held }

theorem irqLockGuard_ok {body : Cpu → Option (Bool × Cpu)}
    (h : c.irqLockGuard l body = some (r, c')) :
    ∃ c₁, body (c.inside l) = some (r, c₁) ∧ c' = (c₁.unlock l).irqRestore c.mask := by
  unfold irqLockGuard at h
  simp only [bind_eq_bind, bind_eq_some_iff] at h
  obtain ⟨c₀, hlock, ⟨r₁, c₁⟩, hbody, hrest⟩ := h
  cases hrest
  rw [irqSaveDisable_eq] at hlock
  obtain ⟨-, rfl⟩ := lock_ok enabled_disabled hlock
  exact ⟨c₁, hbody, rfl⟩

theorem Clean.irqLockGuard_eq (hclean : c.Clean) {body : Cpu → Option (Bool × Cpu)}
    (h : c.irqLockGuard l body = some (r, c'))
    (hbody : ∀ r c₁, body (c.inside l) = some (r, c₁) → c₁ = c.inside l) : c' = c := by
  obtain ⟨c₁, hrun, rfl⟩ := irqLockGuard_ok h
  rw [hbody r c₁ hrun, unlock_eq enabled_disabled]
  unfold inside
  rw [erase_cons_head]
  exact hclean.irqRestore_eq

section

variable (hmask : enabled c.mask = false)
include hmask

/-- The way out of a block in which the caller's mask was restored: interrupts were enabled while
the lock was held, and the destructor disables them again. -/
theorem leave_restored :
    (((c.inside l).irqRestore flags).unlock l).irqRestore c.mask =
      { c with exposed := c.exposed || enabled flags } := by
  unfold irqRestore unlock watch inside
  dsimp only
  rw [erase_cons_head, hmask]
  cases enabled flags <;> simp

theorem irqLockGuard_restore
    (h : c.irqLockGuard l (fun c => some (true, c.irqRestore flags)) = some (r, c')) :
    r = true ∧ c' = { c with exposed := c.exposed || enabled flags } := by
  obtain ⟨c₁, hrun, rfl⟩ := irqLockGuard_ok h
  cases hrun
  exact ⟨rfl, leave_restored hmask⟩

theorem irqLockGuard_try {taken : Bool}
    (h : c.irqLockGuard l (fun c => if taken then some (true, c.irqRestore flags)
      else some (false, c)) =
      some (r, c')) : r = taken ∧
        c' = { c with exposed := c.exposed || (taken && enabled flags) } := by
  cases taken with
  | true => exact irqLockGuard_restore hmask h
  | false =>
  have hr : r = false := by
    obtain ⟨c₁, hrun, -⟩ := irqLockGuard_ok h
    cases hrun
    rfl
  have hc := (clean_of_disabled hmask).irqLockGuard_eq h fun r c₁ hrun => by cases hrun; rfl
  rw [hc, Bool.false_and, Bool.or_false]
  exact ⟨hr, rfl⟩

/-! ## The scheduler -/

theorem schedule_eq (h : c.schedule = some c') : c' = c := by
  unfold schedule at h
  simp only [bind_eq_bind, bind_eq_some_iff] at h
  obtain ⟨c₁, hrq, c₂, hcontext, hrest⟩ := h
  cases hrest
  rw [irqSaveDisable_eq] at hrq
  rw [lock_unlock enabled_disabled hrq] at hcontext
  rw [lock_unlock enabled_disabled hcontext]
  exact (clean_of_disabled hmask).irqRestore_eq

theorem dequeueStrand_eq (h : c.dequeueStrand = some c') : c' = c := by
  unfold dequeueStrand at h
  simp only [bind_eq_bind, bind_eq_some_iff] at h
  obtain ⟨c₁, hrq, hrest⟩ := h
  cases hrest
  rw [irqSaveDisable_eq] at hrq
  rw [lock_unlock enabled_disabled hrq]
  exact (clean_of_disabled hmask).irqRestore_eq

theorem goToSleep_eq {onRq : Bool} (h : c.goToSleep onRq = some c') : c' = c := by
  unfold goToSleep at h
  split_ifs at h
  · obtain ⟨c₁, hdequeue, hsched⟩ := bind_eq_some_iff.mp h
    cases dequeueStrand_eq hmask hdequeue
    exact schedule_eq hmask hsched
  · exact schedule_eq hmask h

/-! ## The two mutexes -/

end

/-- However the loop ends, the mask is the disabled one, and the caller's mask was set under the
lock. -/
theorem mutexWait_eq {turns : List Bool} : ∀ {c : Cpu}, enabled c.mask = false →
    mutexWait flags turns c = some c' → c' = { c with exposed := c.exposed || enabled flags } := by
  induction turns with
  | nil =>
    intro c _ h
    cases h
  | cons taken turns ih =>
    intro c hmask h
    rw [mutexWait] at h
    simp only [bind_eq_bind, bind_eq_some_iff] at h
    obtain ⟨⟨r, c₁⟩, htry, hrest⟩ := h
    obtain ⟨rfl, rfl⟩ := irqLockGuard_try hmask htry
    cases r with
    | true => cases hrest; rw [Bool.true_and]
    | false =>
    rw [Bool.false_and, Bool.or_false] at hrest
    dsimp only at hrest
    rw [if_neg Bool.false_ne_true, bind_eq_some_iff] at hrest
    obtain ⟨c₂, hsched, hloop⟩ := hrest
    cases schedule_eq hmask hsched
    exact ih hmask hloop

/-- What is held during the walk along the chain, apart from the locks it began with: at most
`held_lock`, which is never one of them. -/
def Walks (this : Nat) (base : List SpinLock) (held : Nat) (c : Cpu) : Prop :=
  (held = this ∧ c.held = base) ∨
    (held ≠ this ∧ .pi held ∉ base ∧ (c.held = base ∨ c.held = .pi held :: base))

variable {this : Nat} {base : List SpinLock}

theorem Walks.leave {held : Nat} (h : Walks this base held c) (hmask : enabled c.mask = false) :
    (if held ≠ this then c.unlock (.pi held) else c) = { c with held := base } := by
  rcases h with ⟨rfl, hbase⟩ | ⟨hne, hnot, hbase⟩
  · rw [if_neg (not_not.mpr rfl), ← hbase]
  rw [if_pos hne, unlock_eq hmask]
  rcases hbase with hbase | hbase
  · rw [hbase, erase_of_not_mem hnot]
  · rw [hbase, erase_cons_head]

theorem Walks.advance {held next : Nat} (h : Walks this base held c)
    (hthis : .pi this ∈ base) (hmask : enabled c.mask = false) (hne : next ≠ held)
    (hlock : c.lock (.pi next) = some c') :
    Walks this base next (if held ≠ this then c'.unlock (.pi held) else c') ∧
      (if held ≠ this then c'.unlock (.pi held) else c') = { c with held := .pi next :: base } := by
  obtain ⟨hfree, rfl⟩ := lock_ok hmask hlock
  have hnext : SpinLock.pi next ∉ base := by
    rcases h with ⟨-, hbase⟩ | ⟨-, -, hbase | hbase⟩ <;> rw [hbase] at hfree
    · exact hfree
    · exact hfree
    · exact fun hmem => hfree (mem_cons_of_mem _ hmem)
  have hstate : (if held ≠ this then unlock { c with held := .pi next :: c.held } (.pi held)
      else { c with held := .pi next :: c.held }) = { c with held := .pi next :: base } := by
    rcases h with ⟨rfl, hbase⟩ | ⟨hheld, hnot, hbase⟩
    · rw [if_neg (not_not.mpr rfl), hbase]
    rw [if_pos hheld, unlock_eq (c := { c with held := .pi next :: c.held }) hmask]
    have hpi : SpinLock.pi next ≠ .pi held := fun heq => hne (SpinLock.pi.inj heq)
    dsimp only
    rw [erase_cons_tail (by simpa using hpi)]
    rcases hbase with hbase | hbase
    · rw [hbase, erase_of_not_mem hnot]
    · rw [hbase, erase_cons_head]
  refine ⟨?_, hstate⟩
  rw [hstate]
  exact .inr ⟨fun heq => hnext (heq ▸ hthis), hnext, .inr rfl⟩

theorem boostChain_eq (hthis : .pi this ∈ base) {chain : List Nat} :
    ∀ {held : Nat} {c : Cpu}, enabled c.mask = false → Walks this base held c →
    boostChain this chain held c = some c' → c' = { c with held := base } := by
  induction chain with
  | nil =>
    intro held c hmask hwalks h
    cases h
    exact hwalks.leave hmask
  | cons next chain ih =>
    intro held c hmask hwalks h
    rw [boostChain] at h
    by_cases hne : next ≠ held
    · rw [if_pos hne] at h
      obtain ⟨c₁, hlock, hrest⟩ := bind_eq_some_iff.mp h
      dsimp only at hrest
      obtain ⟨hwalks', hstate⟩ := hwalks.advance hthis hmask hne hlock
      rw [hstate] at hrest hwalks'
      exact ih (c := { c with held := .pi next :: base }) hmask hwalks' hrest
    · rw [if_neg hne] at h
      obtain ⟨c₁, hkept, hrest⟩ := bind_eq_some_iff.mp h
      cases hkept
      dsimp only at hrest
      rw [hwalks.leave hmask] at hrest
      -- the chain goes on in the lock that was just left
      have hwalks' : Walks this base next { c with held := base } := by
        rw [not_not.mp hne]
        rcases hwalks with ⟨heq, -⟩ | ⟨hheld, hnot, -⟩
        · exact .inl ⟨heq, rfl⟩
        · exact .inr ⟨hheld, hnot, .inl rfl⟩
      exact ih (c := { c with held := base }) hmask hwalks' hrest

theorem rtmutexWait_eq {turns : List RtTurn} : ∀ {c : Cpu}, enabled c.mask = false →
    rtmutexWait this flags turns c = some c' →
      c' = { c with exposed := c.exposed || enabled flags } := by
  induction turns with
  | nil =>
    intro c _ h
    cases h
  | cons turn turns ih =>
    intro c hmask h
    cases turn with
    | taken | owned =>
      rw [rtmutexWait] at h
      simp only [bind_eq_bind, bind_eq_some_iff] at h
      obtain ⟨⟨r, c₁⟩, hguard, hrest⟩ := h
      cases hrest
      exact (irqLockGuard_restore hmask hguard).2
    | waits chain onRq granted =>
      rw [rtmutexWait] at h
      simp only [bind_eq_bind, bind_eq_some_iff] at h
      obtain ⟨⟨r, c₁⟩, hboost, c₂, hsleep, ⟨r', c₃⟩, hcheck, hrest⟩ := h
      have h₁ : c₁ = c := by
        refine (clean_of_disabled hmask).irqLockGuard_eq hboost fun r c₅ hbody => ?_
        obtain ⟨c₆, hchain, hpair⟩ := bind_eq_some_iff.mp hbody
        cases hpair
        have hthis : .pi this ∈ SpinLock.pi this :: c.held := mem_cons_self
        exact boostChain_eq hthis enabled_disabled (.inl ⟨rfl, rfl⟩) hchain
      subst h₁
      cases goToSleep_eq hmask hsleep
      obtain ⟨rfl, rfl⟩ := irqLockGuard_try hmask hcheck
      cases r' with
      | true => cases hrest; rw [Bool.true_and]
      | false =>
        rw [Bool.false_and, Bool.or_false] at hrest
        exact ih hmask hrest

/-! ## The allocator -/

theorem deactivateCpuSlab_eq (hmask : enabled c.mask = false) {slab : Option Nat}
    (h : c.deactivateCpuSlab slab = some c') : c' = c := by
  cases slab with
  | none => cases h; rfl
  | some n =>
    simp only [deactivateCpuSlab, bind_eq_bind, bind_eq_some_iff] at h
    obtain ⟨⟨r, c₁⟩, hguard, hrest⟩ := h
    cases hrest
    exact (clean_of_disabled hmask).irqLockGuard_eq hguard fun r c₂ hbody => by cases hbody; rfl

/-- The slab of the processor's own list that has an object is taken under the node's lock, and the
caller's mask is restored there. -/
theorem Clean.fromCpuList_eq (hclean : c.Clean) {slab : Option (Nat × Bool)}
    (h : c.fromCpuList slab = some (r, c')) :
    r = slab.any (·.2) ∧ c' = if r then
      { c with mask := disabled c.mask, exposed := c.exposed || enabled c.mask } else c := by
  unfold fromCpuList at h
  dsimp only at h
  rw [hclean.preemptDisable_eq, irqSaveDisable_eq] at h
  cases slab with
  | none =>
    cases h
    exact ⟨rfl, hclean.leave_eq⟩
  | some slab =>
    obtain ⟨n, found⟩ := slab
    simp only [bind_eq_bind, bind_eq_some_iff] at h
    obtain ⟨⟨r₁, c₁⟩, hguard, hrest⟩ := h
    have hoff : enabled (disabled c.mask) = false := enabled_disabled
    cases found with
    | false =>
      have hkept : c₁ = { c with mask := disabled c.mask, preempt := c.preempt + 1 } := by
        refine Clean.irqLockGuard_eq (clean_of_disabled hoff) hguard fun r c₂ hbody => ?_
        cases hbody
        rfl
      obtain ⟨c₂, hbody, -⟩ := irqLockGuard_ok hguard
      cases hbody
      cases hrest
      rw [hkept]
      exact ⟨rfl, hclean.leave_eq⟩
    | true =>
      obtain ⟨c₂, hbody, rfl⟩ := irqLockGuard_ok hguard
      cases hbody
      cases hrest
      refine ⟨rfl, ?_⟩
      rw [if_pos rfl]
      -- the lock is held, interrupts are enabled for two steps, and the guard disables them
      unfold preemptEnable irqRestore unlock watch inside
      dsimp only
      rw [erase_cons_head, hoff]
      have hpreempt : c.preempt + 1 - 1 = c.preempt := by omega
      rw [hpreempt]
      cases enabled c.mask <;> simp

theorem Clean.fromNodes_eq {nodes : List (Nat × Bool)} : ∀ {c : Cpu}, c.Clean →
    fromNodes nodes c = some (r, c') → c' = c := by
  induction nodes with
  | nil =>
    intro c _ h
    cases h
    rfl
  | cons node nodes ih =>
    intro c hclean h
    obtain ⟨n, found⟩ := node
    rw [fromNodes] at h
    simp only [bind_eq_bind, bind_eq_some_iff] at h
    obtain ⟨⟨r₁, c₁⟩, hguard, hrest⟩ := h
    -- the block saves and restores the mask that the guard has set, so it is undone before the
    -- guard
    have hkept : c₁ = c := by
      refine hclean.irqLockGuard_eq hguard fun r c₂ hbody => ?_
      split_ifs at hbody
      · cases hbody
        exact Clean.briefSection_eq (c := c.inside (.nodeList n))
          (clean_of_disabled enabled_disabled)
      · cases hbody
        rfl
    subst hkept
    cases r₁ with
    | true => cases hrest; rfl
    | false => exact ih hclean hrest

/-- `kmem_alloc` changes the state only by taking the slab of the processor's own list. -/
theorem Clean.kmemAlloc_eq (hclean : c.Clean) {path : AllocPath} (h : c.kmemAlloc path = some c') :
    c' = if !path.fast && path.cpuList.any (·.2) then
      { c with mask := disabled c.mask, exposed := c.exposed || enabled c.mask } else c := by
  unfold kmemAlloc at h
  rw [hclean.briefSection_eq] at h
  cases hfast : path.fast with
  | true =>
    rw [hfast, if_pos rfl] at h
    cases h
    rfl
  | false =>
    rw [hfast, if_neg Bool.false_ne_true] at h
    unfold allocSlow at h
    simp only [hclean.briefSection_eq, hclean.preemptDisable_eq, irqSaveDisable_eq,
      bind_eq_bind, bind_eq_some_iff] at h
    obtain ⟨c₁, hretire, ⟨r₂, c₂⟩, hcpu, hrest⟩ := h
    cases deactivateCpuSlab_eq enabled_disabled hretire
    rw [hclean.leave_eq] at hcpu
    obtain ⟨hr₂, hc₂⟩ := hclean.fromCpuList_eq hcpu
    dsimp only at hrest
    rw [← hr₂]
    cases r₂ with
    | true => cases hrest; exact hc₂
    | false =>
    cases hc₂
    rw [if_neg Bool.false_ne_true, bind_eq_some_iff] at hrest
    obtain ⟨⟨r₃, c₃⟩, hnodes, hrest⟩ := hrest
    cases Clean.fromNodes_eq hclean hnodes
    cases r₃ with
    | true => cases hrest; rfl
    | false =>
      cases hrest
      rw [hclean.briefSection_eq, ite_self]
      rfl

end Cpu

/-! ## The calls -/

/-- A call, with what decides its path. -/
inductive Call where
  | mutexLock (fast recheck : Bool) (turns : List Bool)
  | rtmutexLock (this : Nat) (fast : Bool) (turns : List Cpu.RtTurn)
  | kmemAlloc (path : Cpu.AllocPath)
  deriving DecidableEq, Repr

def Call.run (c : Cpu) : Call → Option Cpu
  | .mutexLock fast recheck turns => c.mutexLock fast recheck turns
  | .rtmutexLock this fast turns => c.rtmutexLock this fast turns
  | .kmemAlloc path => c.kmemAlloc path

/-- The mask and the preempt count are those of the entry, and no spinlock was held with interrupts
enabled. -/
def Preserved (c c' : Cpu) : Prop :=
  c'.mask = c.mask ∧ c'.preempt = c.preempt ∧ c'.exposed = false

instance (c c' : Cpu) : Decidable (Preserved c c') := inferInstanceAs (Decidable (_ ∧ _))

/-- A mutex is obtained at the first attempt; an allocation with interrupts enabled does not take a
slab from the processor's own list. -/
def Call.Straight (c : Cpu) : Call → Prop
  | .mutexLock fast _ _ => fast = true
  | .rtmutexLock _ fast _ => fast = true
  | .kmemAlloc path => (!path.fast && path.cpuList.any (·.2)) = true → enabled c.mask = false

variable {c c' : Cpu}

theorem preserved_self (hexposed : c.exposed = false) : Preserved c c := ⟨rfl, rfl, hexposed⟩

/-- Of a state with interrupts disabled and marked as exposed, nothing is preserved. -/
theorem not_preserved_of_exposed {mask : UInt8} {preempt : Int} {held : List SpinLock}
    {e flags : Bool}
    (h : flags = true) : ¬ Preserved c ⟨mask, preempt, held, e || flags⟩ := by
  rintro ⟨-, -, hexposed⟩
  rw [h, Bool.or_true] at hexposed
  cases hexposed

theorem enabled_of_canSleep (h : ¬ (!c.canSleep) = true) : enabled c.mask = true := by
  unfold Cpu.canSleep at h
  rw [Bool.not_eq_true, Bool.not_eq_false', Bool.and_eq_true] at h
  exact h.1

theorem mutexLock_preserved_iff (hclean : c.Clean) (hexposed : c.exposed = false)
    {fast recheck : Bool}
    {turns : List Bool} (h : c.mutexLock fast recheck turns = some c') : Preserved c c' ↔
      fast = true := by
  unfold Cpu.mutexLock at h
  dsimp only at h
  rw [Cpu.irqSaveDisable_eq] at h
  split_ifs at h with hsleep hfast
  · cases h
    rw [hclean.irqRestore_eq]
    exact iff_of_true (preserved_self hexposed) hfast
  have hflags := enabled_of_canSleep hsleep
  simp only [bind_eq_bind, bind_eq_some_iff] at h
  obtain ⟨⟨r, c₁⟩, htry, hrest⟩ := h
  obtain ⟨rfl, rfl⟩ := Cpu.irqLockGuard_try enabled_disabled htry
  refine iff_of_false ?_ hfast
  cases r with
  | true =>
    cases hrest
    exact not_preserved_of_exposed hflags
  | false =>
    have hslow := Cpu.mutexWait_eq enabled_disabled hrest
    rw [hslow]
    exact not_preserved_of_exposed hflags

theorem rtmutexLock_preserved_iff (hclean : c.Clean) (hexposed : c.exposed = false) {this : Nat}
    {fast : Bool} {turns : List Cpu.RtTurn} (h : c.rtmutexLock this fast turns = some c') :
    Preserved c c' ↔ fast = true := by
  unfold Cpu.rtmutexLock at h
  dsimp only at h
  rw [Cpu.irqSaveDisable_eq] at h
  split_ifs at h with hsleep hfast
  · cases h
    rw [hclean.irqRestore_eq]
    exact iff_of_true (preserved_self hexposed) hfast
  · have hslow := Cpu.rtmutexWait_eq enabled_disabled h
    rw [hslow]
    exact iff_of_false (not_preserved_of_exposed (enabled_of_canSleep hsleep)) hfast

theorem kmemAlloc_preserved_iff (hclean : c.Clean) (hexposed : c.exposed = false)
    {path : Cpu.AllocPath}
    (h : c.kmemAlloc path = some c') :
    Preserved c c' ↔ ((!path.fast && path.cpuList.any (·.2)) = true → enabled c.mask = false) := by
  rw [hclean.kmemAlloc_eq h]
  split_ifs with hown
  · constructor
    · rintro ⟨hmask, -, -⟩ -
      exact disabled_eq_iff.mp hmask
    intro hoff
    refine ⟨disabled_eq_iff.mpr (hoff hown), rfl, ?_⟩
    show (c.exposed || enabled c.mask) = false
    rw [hexposed, hoff hown]
    rfl
  · exact iff_of_true (preserved_self hexposed) fun h => absurd h hown

/-- **The interrupt state is preserved exactly on the straight paths.** A mutex that is not obtained
at the first attempt, and an allocation that takes a slab from the processor's own list, return with
interrupts disabled and have enabled them under a spinlock. -/
theorem irq_state_preserved_iff (hclean : c.Clean) (hexposed : c.exposed = false) {call : Call}
    (h : call.run c = some c') : Preserved c c' ↔ call.Straight c := by
  cases call with
  | mutexLock fast recheck turns => exact mutexLock_preserved_iff hclean hexposed h
  | rtmutexLock this fast turns => exact rtmutexLock_preserved_iff hclean hexposed h
  | kmemAlloc path => exact kmemAlloc_preserved_iff hclean hexposed h

def running : Cpu where
  mask := 0x07
  preempt := 0
  held := []
  exposed := false

/-- An allocation that finds no slab on its processor and the second node's list not empty. -/
theorem irq_state_preserved_node : ∃ c', Call.run running (.kmemAlloc
    { retired := some 0, cpuList := some (0, false), nodes := [(0, false), (1, true)] }) = some c' ∧
      Preserved running c' :=
  ⟨running, by decide, (irq_state_preserved_iff (c := running) rfl rfl
    (show Call.run running (.kmemAlloc
      { retired := some 0, cpuList := some (0, false), nodes := [(0, false), (1, true)] }) =
      some running
      by decide)).mpr fun h => nomatch h⟩

/-- A call with interrupts enabled returns with interrupts disabled. -/
def Loses (call : Call) : Prop :=
  ∃ c', call.run running = some c' ∧ c'.mask = 0x04 ∧ c'.exposed = true ∧ ¬ Preserved running c'

theorem loses_of_run {call : Call}
    (h : call.run running = some { running with mask := 0x04, exposed := true }) :
    Loses call :=
  ⟨_, h, rfl, rfl, by decide⟩

/-- The mutex is released between the first attempt and the second, or is obtained after one sleep;
the rtmutex is handed over; an allocation takes a slab from its processor's own list. -/
theorem irq_state_lost :
    Loses (.mutexLock false true []) ∧ Loses (.mutexLock false false [false, true]) ∧
    Loses (.rtmutexLock 0 false [.waits [1, 2] true true]) ∧
      Loses (.kmemAlloc { cpuList := some (0, true) }) :=
  ⟨loses_of_run (by decide), loses_of_run (by decide), loses_of_run (by decide),
    loses_of_run (by decide)⟩

end ZXFoundation.Sync.IrqState
