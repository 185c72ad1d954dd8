import Mathlib.Algebra.Group.Nat.Defs
import Mathlib.Order.Nat
import ZXFoundation.Lib.Run

/-!
# Grace periods

`sync/rcu.zcomponent/core.cxx`: readers count themselves in a per-CPU field, `tick` reports a
quiescent state of a CPU whose count is zero, and the tick of CPU 0 starts and ends grace periods. A
callback waits until the sequence number has passed the value at which it matures.

In the source the bodies of `read_lock` and `read_unlock` are exchanged. The functions are here
under the names that their callers use. Every access to a shared variable is a step of its own, also
under `g_gp_lock`: quiescent states are recorded without it. The tick may come between any two steps
of its CPU.
-/

namespace ZXFoundation.Sync.Rcu

open Runs

abbrev CpuId := Nat

/-! ## The state -/

/-- `gp_seq_t` has 64 bits. -/
def seqLimit : Nat := 2 ^ 64

def gpSeqAfter (a b : Nat) : Bool :=
  let d := (a + seqLimit - b) % seqLimit
  decide (0 < d) && decide (d < seqLimit / 2)

/-- The number less one, as an unsigned one. -/
def seqPred (a : Nat) : Nat := (a + seqLimit - 1) % seqLimit

def gpInProgress (seq : Nat) : Bool := seq % 2 == 1

def rcuMaxDrainPerTick : Nat := 64

/-- `rcu_head`. `called` is the time of the call of `call_rcu` and `loaded` the sequence number it
read; the source keeps neither. -/
structure RcuHead where
  called : Nat
  loaded : Nat
  deriving DecidableEq, Repr

/-- Where the code that is not an interrupt is. -/
inductive Phase where
  | outside
  /-- In `read_lock`, after the decrement that left zero. -/
  | leaving
  /-- In `read_lock`, before `record_qs`. -/
  | reporting
  /-- In `call_rcu`, after the load. -/
  | calling (head : RcuHead)
  /-- In `synchronize_rcu`, before or inside its locked section. -/
  | entering (called : Nat)
  /-- In the loop of `synchronize_rcu`. -/
  | waiting (called target : Nat)
  deriving DecidableEq, Repr

/-- Where `tick` is. -/
inductive TickPhase where
  | outside
  /-- Before `record_qs`. -/
  | report
  /-- Before or inside the locked section of CPU 0. -/
  | manage
  /-- Before the last load. -/
  | load
  /-- In `drain_callbacks`. -/
  | drain (done drained : Nat)
  deriving DecidableEq, Repr

/-- What `percpu_data` has of it. `sections` are the open read-side sections, each with the time
when it began; the source keeps only their number. -/
structure RcuCpu where
  inRcuReadSide : Nat := 0
  pendingCbs : List RcuHead := []
  pendingGp : Nat := 0
  phase : Phase := .outside
  tick : TickPhase := .outside
  sections : List Nat := []

/-- What the holder of `g_gp_lock` does next. A grace period starts with the reset of the mask and
the store of the number after it; at the end of one the order is the other way. -/
inductive GpStage where
  | startReset | startStore | endStore | endReset
  deriving DecidableEq, Repr

/-- `g_gp_lock` while it is held, by the tick of a CPU or by `synchronize_rcu` on it. -/
structure GpLock where
  holder : CpuId
  inTick : Bool
  stage : GpStage
  deriving DecidableEq, Repr

/-- `g_gp_seq`, `g_gp_lock`, `g_qs_mask` and the CPUs. `clock` counts calls, and `gpStart` is the
time when the grace period began. -/
structure RcuSystem where
  online : List CpuId
  seq : Nat := 0
  gpLock : Option GpLock := none
  mask : CpuId → Bool := fun _ => false
  cpu : CpuId → RcuCpu := fun _ => {}
  clock : Nat := 0
  gpStart : Nat := 0

variable (S : RcuSystem) (c : CpuId)

namespace RcuSystem

def setCpu (v : RcuCpu) : RcuSystem := { S with cpu := Function.update S.cpu c v }

def recordQs : RcuSystem := { S with mask := Function.update S.mask c true }

def allQsReported : Bool := S.online.all S.mask

def acquire (inTick : Bool) (stage : GpStage) : RcuSystem :=
  { S with gpLock := some ⟨c, inTick, stage⟩ }

/-- The next access of the lock's holder to the shared variables. -/
def accessGp (l : GpLock) : RcuSystem :=
  match l.stage with
  | .startReset => { S with mask := fun _ => false, gpLock := some { l with stage := .startStore } }
  | .startStore => { S with seq := (S.seq + 1) % seqLimit, gpStart := S.clock, gpLock := none }
  | .endStore =>
    { S with seq := (S.seq + 1) % seqLimit, gpLock := some { l with stage := .endReset } }
  | .endReset => { S with mask := fun _ => false, gpLock := none }

def openSection : RcuSystem :=
  S.setCpu c { S.cpu c with phase := .outside, sections := S.clock :: (S.cpu c).sections }

/-! ## The calls -/

inductive Call where
  | readLock | readUnlock | callRcu | synchronizeRcu
  deriving DecidableEq, Repr

/-- The first step of a call. -/
def enter : Call → Option RcuSystem
  | .readLock =>
    let n := if (S.cpu c).inRcuReadSide > 0 then (S.cpu c).inRcuReadSide - 1 else 0
    let S := S.setCpu c { S.cpu c with inRcuReadSide := n }
    some (if n = 0 then S.setCpu c { S.cpu c with phase := .leaving } else S.openSection c)
  | .readUnlock =>
    match (S.cpu c).sections with
    | [] => none
    | _ :: rest =>
      some (S.setCpu c { S.cpu c with
        inRcuReadSide := ((S.cpu c).inRcuReadSide + 1) % 256, sections := rest })
  | .callRcu =>
    let S := { S with clock := S.clock + 1 }
    some (S.setCpu c { S.cpu c with phase := .calling ⟨S.clock, S.seq⟩ })
  | .synchronizeRcu =>
    let S := { S with clock := S.clock + 1 }
    some (S.setCpu c { S.cpu c with phase := .entering S.clock })

/-- `call_rcu` after the load. -/
def push (head : RcuHead) : RcuSystem :=
  let matureAt := (head.loaded + 2) % seqLimit
  S.setCpu c { S.cpu c with
    phase := .outside
    pendingCbs := head :: (S.cpu c).pendingCbs
    pendingGp := if (S.cpu c).pendingGp < matureAt then matureAt else (S.cpu c).pendingGp }

/-- `synchronize_rcu` after the release of the lock. -/
def await (called : Nat) : RcuSystem :=
  S.setCpu c { S.cpu c with phase := .waiting called ((S.seq + 1) % seqLimit) }

/-- A step of `synchronize_rcu` up to the release of the lock. The lock is waited for in a loop. -/
def synchronize (called : Nat) : RcuSystem :=
  match S.gpLock with
  | none => if gpInProgress S.seq then S.await c called else S.acquire c false .startReset
  | some l =>
    if l.holder = c ∧ l.inTick = false then
      if l.stage = .startStore then (S.accessGp l).await c called else S.accessGp l
    else S

/-- The next step of the code that is not an interrupt. -/
def advance : Option RcuSystem :=
  match (S.cpu c).phase with
  | .outside => none
  | .leaving =>
    some (if gpInProgress S.seq then S.setCpu c { S.cpu c with phase := .reporting }
      else S.openSection c)
  | .reporting => some ((S.recordQs c).openSection c)
  | .calling head => some (S.push c head)
  | .entering called => some (S.synchronize c called)
  | .waiting _ target =>
    some (if gpSeqAfter S.seq (seqPred target) then S.setCpu c { S.cpu c with phase := .outside }
      else S)

/-! ## The tick -/

/-- After the report: CPU 0 has more to do. -/
def managePhase : TickPhase := if c = 0 then .manage else .load

/-- The first load of `tick`. -/
def tick (S : RcuSystem) (c : CpuId) : RcuSystem :=
  S.setCpu c { S.cpu c with
    tick := if gpInProgress S.seq && (S.cpu c).inRcuReadSide == 0 then .report else managePhase c }

/-- What the section of CPU 0 finds to do. -/
def duty : Option GpStage :=
  if gpInProgress S.seq then if S.allQsReported then some .endStore else none
  else if S.online.any fun c => !(S.cpu c).pendingCbs.isEmpty then some .startReset else none

/-- The tick has left the section of CPU 0. -/
def managed : RcuSystem := S.setCpu c { S.cpu c with tick := .load }

/-- A step of the tick up to the release of the lock. -/
def manage : RcuSystem :=
  match S.gpLock with
  | none =>
    match S.duty with
    | none => S.managed c
    | some stage => S.acquire c true stage
  | some l =>
    if l.holder = c ∧ l.inTick = true then
      if l.stage = .startStore ∨ l.stage = .endReset then (S.accessGp l).managed c else S.accessGp l
    else S

/-- The head of `drain_callbacks`. -/
def drainPhase : TickPhase :=
  if !gpInProgress S.seq && !(S.cpu c).pendingCbs.isEmpty &&
      gpSeqAfter S.seq (seqPred (S.cpu c).pendingGp) then .drain S.seq 0
  else .outside

/-- The next step of the tick. The loop of `drain_callbacks` invokes one callback a step. -/
def advanceTick : RcuSystem :=
  match (S.cpu c).tick with
  | .outside => S
  | .report =>
    let S := S.recordQs c
    S.setCpu c { S.cpu c with tick := managePhase c }
  | .manage => S.manage c
  | .load => S.setCpu c { S.cpu c with tick := S.drainPhase c }
  | .drain done drained =>
    match (S.cpu c).pendingCbs with
    | [] => S.setCpu c { S.cpu c with tick := .outside }
    | _ :: rest =>
      if drained < rcuMaxDrainPerTick then
        S.setCpu c { S.cpu c with pendingCbs := rest, tick := .drain done (drained + 1) }
      else S.setCpu c { S.cpu c with tick := .outside }

end RcuSystem

/-! ## The machine -/

inductive RcuOp where
  | call (c : CpuId) (what : RcuSystem.Call)
  | tick (c : CpuId)
  | go (c : CpuId)
  deriving DecidableEq, Repr

namespace RcuOp

def cpu : RcuOp → CpuId
  | .call c _ | .tick c | .go c => c

/-- A call begins when the CPU is in none, an interrupt is taken when it is in none, and nothing
else moves on a CPU that is in its tick. -/
def next (op : RcuOp) : Option RcuSystem :=
  if op.cpu ∉ S.online then none
  else match op with
    | .call c what => if (S.cpu c).phase = .outside ∧ (S.cpu c).tick = .outside then S.enter c what
      else none
    | .tick c => if (S.cpu c).tick = .outside then some (S.tick c) else none
    | .go c => if (S.cpu c).tick = .outside then S.advance c else some (S.advanceTick c)

end RcuOp

/-- The call that the step completes: it invokes a callback, or `synchronize_rcu` returns. With the
CPU, the time when it was made. -/
def RcuSystem.completes : RcuOp → Option (CpuId × Nat)
  | .go c =>
    match (S.cpu c).tick, (S.cpu c).phase, (S.cpu c).pendingCbs with
    | .drain _ drained, _, head :: _ => if drained < rcuMaxDrainPerTick then some (c, head.called)
      else none
    | .outside, .waiting called target, _ =>
      if gpSeqAfter S.seq (seqPred target) then some (c, called) else none
    | _, _, _ => none
  | _ => none

open Function

/-- The number of the first grace period that starts after a call that loaded the number. -/
def covering (loaded : Nat) : Nat := loaded + 1 + loaded % 2

/-- The mask has been reset for a grace period whose number is not stored yet. -/
def RcuSystem.Opening (S : RcuSystem) : Prop := ∃ l ∈ S.gpLock, l.stage = .startStore

instance (S : RcuSystem) : Decidable S.Opening := inferInstanceAs (Decidable (∃ l ∈ S.gpLock, _))

/-- The step decides to report no quiescent state of a CPU with an open section, records none while
a grace period is opening, does not join a grace period, and the sequence number is not near the
sign bit. -/
def RcuOp.Regular (S : RcuSystem) (op : RcuOp) : Prop :=
  S.seq + 3 < seqLimit / 2 ∧
  match op with
  | .call _ _ => True
  | .tick c => gpInProgress S.seq = true → (S.cpu c).inRcuReadSide = 0 → (S.cpu c).sections = []
  | .go c =>
    match (S.cpu c).tick, (S.cpu c).phase with
    | .report, _ => ¬ S.Opening
    | .outside, .leaving => gpInProgress S.seq = true → (S.cpu c).sections = []
    | .outside, .reporting => ¬ S.Opening
    | .outside, .entering _ => S.gpLock = none → gpInProgress S.seq = false
    | _, _ => True

instance (S : RcuSystem) (op : RcuOp) : Decidable (op.Regular S) := by
  unfold RcuOp.Regular
  cases op with
  | call c what => infer_instance
  | tick c => infer_instance
  | go c =>
    dsimp only
    split <;> infer_instance

variable {S S' : RcuSystem} {c : CpuId} {v w : RcuCpu} {called gp : Nat}

/-- The call is covered by the grace period. -/
structure Covered (S : RcuSystem) (called gp : Nat) : Prop where
  time : called ≤ S.clock
  odd : gp % 2 = 1
  during : S.seq = gp → called ≤ S.gpStart
  after : gp < S.seq → ∀ r, ∀ t ∈ (S.cpu r).sections, called ≤ t

/-- What holds of one CPU. -/
structure CpuGuarded (S : RcuSystem) (v : RcuCpu) : Prop where
  silent : v.tick = .report ∨ v.phase = .reporting → v.sections = []
  calling : ∀ {head}, v.phase = .calling head → Covered S head.called (covering head.loaded) ∧
    head.loaded ≤ S.seq
  entering : ∀ {called}, v.phase = .entering called → called ≤ S.clock
  waiting : ∀ {called target}, v.phase = .waiting called target →
    Covered S called (target - 1) ∧ 0 < target ∧ target ≤ S.seq + 1
  pending : ∀ {head}, head ∈ v.pendingCbs →
    Covered S head.called (covering head.loaded) ∧ covering head.loaded ≤ v.pendingGp
  bound : v.pendingGp ≤ S.seq + 2
  draining : ∀ {done drained}, v.tick = .drain done drained → done % 2 = 0 ∧ v.pendingGp ≤ done ∧
    done ≤ S.seq

/-- What the holder of the lock relies on at each stage. -/
def StageReady (S : RcuSystem) : GpStage → Prop
  | .startReset | .endReset => gpInProgress S.seq = false
  | .startStore => gpInProgress S.seq = false ∧ ∀ r, S.mask r = false
  | .endStore => gpInProgress S.seq = true ∧ S.allQsReported = true

structure Guarded (S : RcuSystem) : Prop where
  start : S.gpStart ≤ S.clock
  stage : ∀ {l}, S.gpLock = some l → StageReady S l.stage
  offline : ∀ {r}, r ∉ S.online → (S.cpu r).sections = []
  honest : gpInProgress S.seq = true → ∀ r, S.mask r = true →
    ∀ t ∈ (S.cpu r).sections, S.gpStart ≤ t
  cpu : ∀ r, CpuGuarded S (S.cpu r)

/-! ## Time passes -/

/-- What was covered stays covered. -/
structure Later (S S' : RcuSystem) : Prop where
  clock : S.clock ≤ S'.clock
  seq : S.seq ≤ S'.seq
  covered : ∀ {called gp}, Covered S called gp → Covered S' called gp

theorem CpuGuarded.mono (h : CpuGuarded S v) (hl : Later S S') : CpuGuarded S' v where
  silent := h.silent
  calling := fun hp => ⟨hl.covered (h.calling hp).1, (h.calling hp).2.trans hl.seq⟩
  entering := fun hp => (h.entering hp).trans hl.clock
  waiting := by
    intro called target hp
    obtain ⟨hcov, hpos, hle⟩ := h.waiting hp
    have := hl.seq
    exact ⟨hl.covered hcov, hpos, by omega⟩
  pending := fun hm => ⟨hl.covered (h.pending hm).1, (h.pending hm).2⟩
  bound := by
    have := hl.seq
    have := h.bound
    omega
  draining := by
    intro done drained ht
    obtain ⟨heven, hgp, hle⟩ := h.draining ht
    exact ⟨heven, hgp, hle.trans hl.seq⟩

theorem later_of_sections (hclock : S.clock ≤ S'.clock) (hseq : S'.seq = S.seq)
    (hstart : S'.gpStart = S.gpStart)
    (hsections : ∀ r, ∀ t ∈ (S'.cpu r).sections, t ∈ (S.cpu r).sections ∨ t = S.clock) :
    Later S S' where
  clock := hclock
  seq := hseq.ge
  covered := by
    intro called gp h
    refine ⟨h.time.trans hclock, h.odd, fun hgp => ?_, fun hgp r t ht => ?_⟩
    · rw [hstart]
      exact h.during (hseq ▸ hgp)
    · rcases hsections r t ht with hold | rfl
      · exact h.after (hseq ▸ hgp) r t hold
      · exact h.time

theorem setCpu_cpu_self : (S.setCpu c v).cpu c = v := update_self ..

theorem setCpu_cpu_of_ne {r : CpuId} (h : r ≠ c) :
    (S.setCpu c v).cpu r = S.cpu r := update_of_ne h ..

section

variable (h : Guarded S)
include h

theorem Guarded.setCpu (hc : c ∈ S.online)
    (hsections : ∀ t ∈ v.sections, t ∈ (S.cpu c).sections ∨ t = S.clock)
    (hv : CpuGuarded (S.setCpu c v) (S.cpu c) → CpuGuarded (S.setCpu c v) v) :
    Guarded (S.setCpu c v) := by
  have hall : ∀ r, ∀ t ∈ ((S.setCpu c v).cpu r).sections, t ∈ (S.cpu r).sections ∨ t = S.clock := by
    intro r t ht
    by_cases hr : r = c
    · subst hr
      rw [setCpu_cpu_self] at ht
      exact hsections t ht
    · rw [setCpu_cpu_of_ne hr] at ht
      exact .inl ht
  have hlater : Later S (S.setCpu c v) := later_of_sections le_rfl rfl rfl hall
  refine ⟨h.start, h.stage, fun {r} hr => ?_, fun hgp r hmask t ht => ?_, fun r => ?_⟩
  · have hne : r ≠ c := fun heq => hr (heq ▸ hc)
    rw [setCpu_cpu_of_ne hne]
    exact h.offline hr
  · rcases hall r t ht with hold | rfl
    · exact h.honest hgp r hmask t hold
    · exact h.start
  by_cases hr : r = c
  · subst hr
    rw [setCpu_cpu_self]
    exact hv ((h.cpu r).mono hlater)
  · rw [setCpu_cpu_of_ne hr]
    exact (h.cpu r).mono hlater

theorem Guarded.tickClock : Guarded { S with clock := S.clock + 1 } := by
  have hlater : Later S { S with clock := S.clock + 1 } :=
    later_of_sections (Nat.le_succ _) rfl rfl fun _ _ ht => .inl ht
  exact ⟨h.start.trans (Nat.le_succ _), h.stage, h.offline, h.honest,
    fun r => (h.cpu r).mono hlater⟩

theorem Guarded.recordQs (hc : (S.cpu c).sections = []) (hopen : ¬ S.Opening) :
    Guarded (S.recordQs c) := by
  have hlater : Later S (S.recordQs c) := later_of_sections le_rfl rfl rfl fun _ _ ht => .inl ht
  refine ⟨h.start, fun {l} hl => ?_, h.offline, fun hgp r hmask t ht => ?_,
    fun r => (h.cpu r).mono hlater⟩
  · have hready := h.stage (show S.gpLock = some l from hl)
    cases hstage : l.stage with
    | startStore => exact absurd ⟨l, hl, hstage⟩ hopen
    | startReset | endReset =>
      rw [hstage] at hready
      exact hready
    | endStore =>
      -- whoever has reported stays reported
      rw [hstage] at hready
      refine ⟨hready.1, List.all_eq_true.mpr fun r hr => ?_⟩
      show update S.mask c true r = true
      by_cases hrc : r = c
      · rw [hrc, update_self]
      · rw [update_of_ne hrc]
        exact List.all_eq_true.mp hready.2 r hr
  · change t ∈ (S.cpu r).sections at ht
    by_cases hr : r = c
    · subst hr
      rw [hc] at ht
      cases ht
    · change update S.mask c true r = true at hmask
      rw [update_of_ne hr] at hmask
      exact h.honest hgp r hmask t ht

omit h in
theorem even_of_idle (hidle : gpInProgress S.seq = false) : S.seq % 2 = 0 := by
  have := beq_eq_false_iff_ne.mp hidle
  omega

omit h in
theorem succ_seq (hwrap : S.seq + 3 < seqLimit / 2) : (S.seq + 1) % seqLimit = S.seq + 1 :=
  Nat.mod_eq_of_lt (by unfold seqLimit at *; omega)

theorem Guarded.acquire {inTick : Bool} {stage : GpStage} (hready : StageReady S stage) :
    Guarded (S.acquire c inTick stage) := by
  have hlater : Later S (S.acquire c inTick stage) :=
    later_of_sections le_rfl rfl rfl fun _ _ ht => .inl ht
  refine ⟨h.start, fun {l} hl => ?_, h.offline, h.honest, fun r => (h.cpu r).mono hlater⟩
  obtain rfl := Option.some.inj hl
  cases stage <;> exact hready

/-- A mask without reports is an honest one. -/
theorem Guarded.resetMask {lock : Option GpLock}
    (hstage : ∀ l, lock = some l → StageReady { S with mask := fun _ => false } l.stage) :
    Guarded { S with mask := fun _ => false, gpLock := lock } := by
  have hlater : Later S { S with mask := fun _ => false, gpLock := lock } :=
    later_of_sections le_rfl rfl rfl fun _ _ ht => .inl ht
  refine ⟨h.start, fun {l} hl => ?_, h.offline, fun _ _ hmask => ?_, fun r => (h.cpu r).mono hlater⟩
  · have hready := hstage l hl
    cases hl' : l.stage <;> rw [hl'] at hready <;> exact hready
  · cases hmask

/-- The number of a new grace period is stored: it covers every call so far that none has
covered. -/
theorem Guarded.startStore (hready : StageReady S .startStore) (hwrap : S.seq + 3 < seqLimit / 2) :
    Guarded { S with seq := (S.seq + 1) % seqLimit, gpStart := S.clock, gpLock := none } := by
  obtain ⟨hidle, hmask⟩ := hready
  have heven := even_of_idle hidle
  rw [succ_seq hwrap]
  have hlater : Later S { S with seq := S.seq + 1, gpStart := S.clock, gpLock := none } := by
    refine ⟨le_rfl, Nat.le_succ _, fun {called gp} hcov =>
      ⟨hcov.time, hcov.odd, fun _ => hcov.time, fun hgp r t ht => ?_⟩⟩
    -- the new number is odd, so a smaller odd one was passed before
    have hodd := hcov.odd
    change gp < S.seq + 1 at hgp
    exact hcov.after (by omega) r t ht
  refine ⟨le_rfl, nofun, h.offline, fun _ r hset => ?_, fun r => (h.cpu r).mono hlater⟩
  rw [show S.mask r = false from hmask r] at hset
  cases hset

/-- A grace period ends: every CPU has reported, so no section is older than the period. -/
theorem Guarded.endStore {l : GpLock} (hready : StageReady S .endStore)
    (hwrap : S.seq + 3 < seqLimit / 2) :
    Guarded { S with
      seq := (S.seq + 1) % seqLimit, gpLock := some { l with stage := .endReset } } := by
  obtain ⟨hgp, hall⟩ := hready
  have hodd : S.seq % 2 = 1 := beq_iff_eq.mp hgp
  rw [succ_seq hwrap]
  have hyoung : ∀ r, ∀ t ∈ (S.cpu r).sections, S.gpStart ≤ t := by
    intro r t ht
    by_cases hr : r ∈ S.online
    · exact h.honest hgp r (List.all_eq_true.mp hall r hr) t ht
    · rw [h.offline hr] at ht
      cases ht
  have hlater : Later S { S with
      seq := S.seq + 1, gpLock := some { l with stage := .endReset } } := by
    refine ⟨le_rfl, Nat.le_succ _, fun {called gp} hcov =>
      ⟨hcov.time, hcov.odd, fun heq => ?_, fun hlt r t ht => ?_⟩⟩
    · have := hcov.odd
      change S.seq + 1 = gp at heq
      omega
    · change gp < S.seq + 1 at hlt
      by_cases hnow : S.seq = gp
      · exact (hcov.during hnow).trans (hyoung r t ht)
      · exact hcov.after (by omega) r t ht
  have hidle : gpInProgress (S.seq + 1) = false := by
    unfold gpInProgress
    rw [beq_eq_false_iff_ne]
    omega
  refine ⟨h.start, fun {l'} hl => ?_, h.offline, fun hgp' => ?_, fun r => (h.cpu r).mono hlater⟩
  · obtain rfl := Option.some.inj hl
    exact hidle
  · rw [show gpInProgress _ = false from hidle] at hgp'
    cases hgp'

theorem Guarded.accessGp {l : GpLock} (hl : S.gpLock = some l) (hwrap : S.seq + 3 < seqLimit / 2) :
    Guarded (S.accessGp l) := by
  have hready := h.stage hl
  unfold RcuSystem.accessGp
  cases hstage : l.stage with
  | startReset =>
    rw [hstage] at hready
    refine h.resetMask fun l' hl' => ?_
    obtain rfl := Option.some.inj hl'
    exact ⟨hready, fun _ => rfl⟩
  | startStore => exact h.startStore (hstage ▸ hready) hwrap
  | endStore => exact h.endStore (hstage ▸ hready) hwrap
  | endReset => exact h.resetMask nofun

/-! ## The steps -/

omit h in
theorem covering_odd {loaded : Nat} : covering loaded % 2 = 1 := by
  unfold covering
  omega

omit h in
theorem lt_covering {loaded : Nat} : loaded < covering loaded := by
  unfold covering
  omega

omit h in
theorem covered_now (hgp : S.seq < gp) (hodd : gp % 2 = 1) (htime : called ≤ S.clock) :
    Covered S called gp :=
  ⟨htime, hodd, fun heq => by omega, fun hlt => by omega⟩

section

variable (hc : c ∈ S.online)
include hc

theorem Guarded.openSection (htick : (S.cpu c).tick = .outside) : Guarded (S.openSection c) := by
  refine h.setCpu hc (fun t ht => ?_) fun hg => ?_
  · rcases List.mem_cons.mp ht with rfl | ht
    · exact .inr rfl
    · exact .inl ht
  exact { hg with
    silent := fun hs => by simp [htick] at hs
    calling := nofun
    entering := nofun
    waiting := nofun }

theorem Guarded.setPhase {phase : Phase} (hsilent : phase = .reporting → (S.cpu c).sections = [])
    (hplain : phase = .outside ∨ phase = .leaving ∨ phase = .reporting) :
    Guarded (S.setCpu c { S.cpu c with phase := phase }) := by
  refine h.setCpu hc (fun t ht => .inl ht) fun hg => ?_
  refine { hg with
    silent := fun hs => hs.elim (fun ht => hg.silent (.inl ht)) hsilent
    calling := ?_, entering := ?_, waiting := ?_ }
  all_goals
    intros
    rcases hplain with rfl | rfl | rfl <;> contradiction

theorem Guarded.setTick {tick : TickPhase} (hsilent : tick = .report → (S.cpu c).sections = [])
    (hdrain : ∀ {done drained}, tick = .drain done drained →
      done % 2 = 0 ∧ (S.cpu c).pendingGp ≤ done ∧ done ≤ S.seq) :
    Guarded (S.setCpu c { S.cpu c with tick := tick }) :=
  h.setCpu hc (fun _ ht => .inl ht) fun hg =>
    { hg with
      silent := fun hs => hs.elim hsilent fun hp => hg.silent (.inr hp)
      draining := hdrain }

theorem Guarded.enter {what : RcuSystem.Call} (htick : (S.cpu c).tick = .outside)
    (hstep : S.enter c what = some S') : Guarded S' := by
  cases what with
  | readLock =>
    cases hstep
    generalize (if (S.cpu c).inRcuReadSide > 0 then (S.cpu c).inRcuReadSide - 1 else 0) = n
    have hdec : Guarded (S.setCpu c { S.cpu c with inRcuReadSide := n }) :=
      h.setCpu hc (fun _ ht => .inl ht) fun hg => { hg with }
    split
    · exact hdec.setPhase hc nofun (.inr (.inl rfl))
    · exact hdec.openSection hc (by rw [setCpu_cpu_self]; exact htick)
  | readUnlock =>
    simp only [RcuSystem.enter] at hstep
    split at hstep
    · cases hstep
    next began rest hsections =>
    cases hstep
    refine h.setCpu hc (fun t ht => .inl ?_) fun hg => ?_
    · rw [hsections]
      exact List.mem_cons_of_mem _ ht
    refine { hg with silent := fun hs => ?_ }
    have hnil := hg.silent hs
    rw [hsections] at hnil
    cases hnil
  | callRcu =>
    cases hstep
    refine h.tickClock.setCpu hc (fun _ ht => .inl ht) fun hg => ?_
    refine { hg with silent := fun hs => ?_, calling := ?_, entering := nofun, waiting := nofun }
    · simp [htick] at hs
    · intro head hhead
      cases hhead
      exact ⟨covered_now lt_covering covering_odd le_rfl, le_rfl⟩
  | synchronizeRcu =>
    cases hstep
    refine h.tickClock.setCpu hc (fun _ ht => .inl ht) fun hg => ?_
    refine { hg with silent := fun hs => ?_, calling := nofun, entering := ?_, waiting := nofun }
    · simp [htick] at hs
    · intro called hcalled
      cases hcalled
      exact le_rfl

theorem Guarded.push {head : RcuHead} (hphase : (S.cpu c).phase = .calling head)
    (htick : (S.cpu c).tick = .outside) (hwrap : S.seq + 3 < seqLimit / 2) :
    Guarded (S.push c head) := by
  have hloaded : head.loaded ≤ S.seq := ((h.cpu c).calling hphase).2
  have hmature : (head.loaded + 2) % seqLimit = head.loaded + 2 :=
    Nat.mod_eq_of_lt (by unfold seqLimit at *; omega)
  unfold RcuSystem.push
  rw [hmature]
  refine h.setCpu hc (fun _ ht => .inl ht) fun hg => ?_
  refine { hg with
    silent := fun hs => ?_, calling := nofun, entering := nofun, waiting := nofun
    pending := ?_, bound := ?_, draining := fun hd => ?_ }
  · simp [htick] at hs
  · intro head' hmem
    dsimp only
    rcases List.mem_cons.mp hmem with rfl | hmem
    · refine ⟨(hg.calling hphase).1, ?_⟩
      unfold covering
      split <;> omega
    · obtain ⟨hcov, hle⟩ := hg.pending hmem
      refine ⟨hcov, ?_⟩
      split <;> omega
  · have hbound := hg.bound
    change _ ≤ S.seq + 2 at hbound ⊢
    dsimp only
    split <;> omega
  · rw [show _ = TickPhase.outside from htick] at hd
    cases hd

/-- The call waits for a period that began after it. -/
theorem Guarded.await (hphase : (S.cpu c).phase = .entering called)
    (hgp : gpInProgress S.seq = true)
    (hstart : S.gpStart = S.clock) (hwrap : S.seq + 2 < seqLimit / 2) :
    Guarded (S.await c called) := by
  have hcalled : called ≤ S.clock := (h.cpu c).entering hphase
  have hodd : S.seq % 2 = 1 := beq_iff_eq.mp hgp
  have htarget : (S.seq + 1) % seqLimit = S.seq + 1 :=
    Nat.mod_eq_of_lt (by unfold seqLimit at *; omega)
  unfold RcuSystem.await
  rw [htarget]
  refine h.setCpu hc (fun _ ht => .inl ht) fun hg => ?_
  refine { hg with silent := fun hs => ?_, calling := nofun, entering := nofun, waiting := ?_ }
  · exact hg.silent (.inl (hs.resolve_right nofun))
  intro called' target heq
  cases heq
  refine ⟨⟨hcalled, hodd, fun _ => ?_, fun hlt => ?_⟩, Nat.succ_pos _, le_rfl⟩
  · show called ≤ S.gpStart
    rw [hstart]
    exact hcalled
  · change S.seq + 1 - 1 < S.seq at hlt
    omega

theorem Guarded.synchronize (hphase : (S.cpu c).phase = .entering called)
    (hidle : S.gpLock = none → gpInProgress S.seq = false) (hwrap : S.seq + 3 < seqLimit / 2) :
    Guarded (S.synchronize c called) := by
  unfold RcuSystem.synchronize
  split
  · rename_i hfree
    rw [hidle hfree, if_neg Bool.false_ne_true]
    exact h.acquire (hidle hfree)
  rename_i l hl
  split
  · have hg := h.accessGp hl hwrap
    split
    · rename_i hstage
      have hready := h.stage hl
      rw [hstage] at hready
      have heven := even_of_idle hready.1
      unfold RcuSystem.accessGp at hg ⊢
      rw [hstage] at hg ⊢
      refine hg.await hc hphase ?_ rfl ?_
      · show gpInProgress ((S.seq + 1) % seqLimit) = true
        rw [succ_seq hwrap]
        exact beq_iff_eq.mpr (by omega)
      · show (S.seq + 1) % seqLimit + 2 < _
        rw [succ_seq hwrap]
        omega
    · exact hg
  · exact h

theorem Guarded.advance (htick : (S.cpu c).tick = .outside)
    (hreg : (RcuOp.go c).Regular S) (hstep : S.advance c = some S') : Guarded S' := by
  obtain ⟨hwrap, hreg⟩ := hreg
  dsimp only at hreg
  rw [htick] at hreg
  unfold RcuSystem.advance at hstep
  cases hphase : (S.cpu c).phase with
  | outside =>
    rw [hphase] at hstep
    cases hstep
  | leaving =>
    rw [hphase] at hstep hreg
    cases hstep
    split
    · next hgp => exact h.setPhase hc (fun _ => hreg hgp) (.inr (.inr rfl))
    · exact h.openSection hc htick
  | reporting =>
    rw [hphase] at hstep hreg
    cases hstep
    exact (h.recordQs ((h.cpu c).silent (.inr hphase)) hreg).openSection hc htick
  | calling head =>
    rw [hphase] at hstep
    cases hstep
    exact h.push hc hphase htick hwrap
  | entering called =>
    rw [hphase] at hstep hreg
    cases hstep
    exact h.synchronize hc hphase hreg hwrap
  | waiting called target =>
    rw [hphase] at hstep
    obtain rfl := Option.some.inj hstep
    by_cases hafter : gpSeqAfter S.seq (seqPred target) = true
    · rw [if_pos hafter]
      exact h.setPhase hc nofun (.inl rfl)
    · rw [if_neg hafter]
      exact h

end

theorem Guarded.managed (hc : c ∈ S.online) : Guarded (S.managed c) := h.setTick hc nofun nofun

omit h in
theorem duty_ready {stage : GpStage} (hduty : S.duty = some stage) : StageReady S stage := by
  unfold RcuSystem.duty at hduty
  split_ifs at hduty with hgp hall hneed
  · cases hduty
    exact ⟨hgp, hall⟩
  · cases hduty
    exact Bool.eq_false_iff.mpr hgp

theorem Guarded.manage (hc : c ∈ S.online) (hwrap : S.seq + 3 < seqLimit / 2) :
    Guarded (S.manage c) := by
  unfold RcuSystem.manage
  split
  · split
    · exact h.managed hc
    · next hduty => exact h.acquire (duty_ready hduty)
  rename_i l hl
  have honline : c ∈ (S.accessGp l).online := by
    unfold RcuSystem.accessGp
    split <;> exact hc
  split
  · split
    · exact (h.accessGp hl hwrap).managed honline
    · exact h.accessGp hl hwrap
  · exact h

omit h in
theorem le_of_gpSeqAfter {a p : Nat} (hp : p ≤ a + 2) (h : gpSeqAfter a (seqPred p) = true) :
    p ≤ a := by
  unfold gpSeqAfter seqPred at h
  simp only [Bool.and_eq_true, decide_eq_true_eq] at h
  unfold seqLimit at *
  omega

theorem Guarded.drainPhase (hc : c ∈ S.online) :
    Guarded (S.setCpu c { S.cpu c with tick := S.drainPhase c }) := by
  refine h.setTick hc (fun heq => ?_) fun {done drained} heq => ?_
  · unfold RcuSystem.drainPhase at heq
    split at heq <;> cases heq
  unfold RcuSystem.drainPhase at heq
  split at heq
  · next hdrain =>
    cases heq
    simp only [Bool.and_eq_true, Bool.not_eq_true'] at hdrain
    have heven := beq_eq_false_iff_ne.mp hdrain.1.1
    exact ⟨by omega, le_of_gpSeqAfter (h.cpu c).bound hdrain.2, le_rfl⟩
  · cases heq

theorem Guarded.advanceTick (hc : c ∈ S.online) (hreg : (RcuOp.go c).Regular S) :
    Guarded (S.advanceTick c) := by
  obtain ⟨hwrap, hreg⟩ := hreg
  dsimp only at hreg
  unfold RcuSystem.advanceTick
  cases htick : (S.cpu c).tick with
  | outside => exact h
  | report =>
    have hsilent := (h.cpu c).silent (.inl htick)
    rw [htick] at hreg
    refine (h.recordQs hsilent hreg).setTick hc (fun _ => hsilent) fun heq => ?_
    unfold RcuSystem.managePhase at heq
    split at heq <;> cases heq
  | manage => exact h.manage hc hwrap
  | load => exact h.drainPhase hc
  | drain done drained =>
    dsimp only
    split
    · exact h.setTick hc nofun nofun
    next head rest hcbs =>
    split
    · refine h.setCpu hc (fun _ ht => .inl ht) fun hg => ?_
      refine { hg with silent := fun hs => hg.silent (.inr
        (hs.resolve_left nofun)), pending := ?_, draining := ?_ }
      · intro head' hmem
        exact hg.pending (by rw [hcbs]; exact List.mem_cons_of_mem _ hmem)
      · intro done' drained' heq
        cases heq
        exact hg.draining htick
    · exact h.setTick hc nofun nofun

theorem Guarded.step {op : RcuOp} (hreg : op.Regular S) (hstep : op.next S = some S') :
    Guarded S' := by
  unfold RcuOp.next at hstep
  split_ifs at hstep with honline
  have hc : op.cpu ∈ S.online := by simpa using honline
  cases op with
  | call c what =>
    dsimp only at hstep
    split_ifs at hstep with houtside
    exact h.enter hc houtside.2 hstep
  | tick c =>
    obtain ⟨houtside, rfl⟩ := of_allow hstep
    refine h.setTick hc (fun heq => ?_) fun heq => ?_
    · split at heq
      · next hreport =>
        rw [Bool.and_eq_true, beq_iff_eq] at hreport
        exact hreg.2 hreport.1 hreport.2
      · unfold RcuSystem.managePhase at heq
        split at heq <;> cases heq
    · unfold RcuSystem.managePhase at heq
      split at heq
      · cases heq
      · split at heq <;> cases heq
  | go c =>
    dsimp only at hstep
    split_ifs at hstep with houtside
    · exact h.advance hc houtside hreg hstep
    · cases hstep
      exact h.advanceTick hc hreg

end

def twoCpus : RcuSystem := { online := [0, 1] }

end ZXFoundation.Sync.Rcu
