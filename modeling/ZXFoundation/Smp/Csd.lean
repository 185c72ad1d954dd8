import Mathlib.Algebra.Group.Nat.Defs
import Mathlib.Data.List.Basic
import ZXFoundation.Lib.Run

/-!
# Cross-CPU function calls

`zxfoundation/smp/csd.zcomponent`. A caller pushes a descriptor on the stack of the target CPU and
sends an interrupt if the stack was empty; the target takes the whole stack and runs the functions.
A remote call first takes a lease on its target; `disable_cpu` sets a bit that refuses new leases
and waits until the last one is back.

Every atomic operation on shared memory is one step. The loops around `compare_exchange_weak` are
the one exchange that succeeds; a stack is the list of its nodes. A descriptor that is used again
after `init` gets a new number.
-/

namespace ZXFoundation.Smp.Csd

open Runs Function

inductive CallStage where
  | check
  /-- Admitted: the target is local, or the lease is held. -/
  | ready
  | pushed (needIpi : Bool)
  /-- `CSD_F_QUEUED` is set. -/
  | flagged (needIpi : Bool)
  /-- A call to the own CPU is in `drain_cpu`. -/
  | draining (j : Nat)
  | accepted
  | refused
  deriving DecidableEq, Repr

/-- Where the descriptor is. -/
inductive Place where
  /-- Only its caller has it. -/
  | out
  | queued (cpu : Nat)
  /-- On the list that a drain has taken. -/
  | listed (j : Nat)
  | running (j : Nat)
  /-- The function has returned. -/
  | ran (j : Nat)
  /-- The flags are written. -/
  | settled (j : Nat)
  | finished
  deriving DecidableEq, Repr

/-- `call_single_data` in one use. -/
structure CallData where
  target : Nat := 0
  caller : Nat := 0
  /-- `CSD_F_SYNC`, `CSD_F_ASYNC` and `CSD_F_RCU_FREE`. -/
  sync : Bool := false
  async : Bool := false
  rcuFree : Bool := false
  /-- `CSD_F_DISPATCH_LEASE`. -/
  lease : Bool := false
  /-- `CSD_F_DONE`. -/
  done : Bool := false
  call : CallStage := .check
  place : Place := .out
  /-- The CPUs on which the function has run. -/
  ranOn : List Nat := []
  deriving DecidableEq, Repr

inductive DrainStage where
  /-- Before `queue_drain_all`. -/
  | fetch
  | next
  | run (u : Nat)
  | after (u : Nat)
  | release (u : Nat)
  | finished
  deriving DecidableEq, Repr

/-- A call of `drain_cpu`. -/
structure Drain where
  cpu : Nat := 0
  rest : List Nat := []
  stage : DrainStage := .finished
  deriving DecidableEq, Repr

inductive CallerStage where
  | looping
  | calling (u : Nat)
  | waiting (left : List Nat)
  | returned
  deriving DecidableEq, Repr

/-- A call of `call_function_many`, or of `call_function_single_sync`, which does the same for one
target. -/
structure Caller where
  self : Nat := 0
  todo : List Nat := []
  uses : List Nat := []
  failed : Bool := false
  stage : CallerStage := .returned
  deriving DecidableEq, Repr

structure System where
  csd : Nat → CallData := fun _ => {}
  made : Nat := 0
  /-- `g_csd_head`. -/
  queue : Nat → List Nat := fun _ => []
  /-- `DEFERRED_CALL_FUNCTION_BIT`. -/
  pending : Nat → Bool := fun _ => false
  drain : Nat → Drain := fun _ => {}
  drains : Nat := 0
  caller : Nat → Caller := fun _ => {}
  callers : Nat := 0
  /-- `g_csd_dispatch_state`. -/
  word : Nat → UInt32 := fun _ => 0
  /-- The calls of `disable_cpu` that wait. -/
  disablers : Nat → Nat := fun _ => 0
  /-- `disable_cpu` has returned, and `enable_cpu` was not called since. -/
  closed : Nat → Bool := fun _ => false
  /-- The descriptors that hold a lease on the CPU. -/
  holders : Nat → List Nat := fun _ => []

def maxCpus : Nat := 768

def dispatchDisabled : UInt32 := 0x80000000

def dispatchCountMask : UInt32 := 0x7FFFFFFF

namespace System

variable (S : System)

def setCsd (u : Nat) (f : CallData → CallData) : System :=
  { S with csd := update S.csd u (f (S.csd u)) }

def setDrain (j : Nat) (d : Drain) : System := { S with drain := update S.drain j d }

def setCaller (k : Nat) (c : Caller) : System := { S with caller := update S.caller k c }

/-- `init`, and the start of a call with the descriptor. -/
def create (csd : CallData) : System :=
  { S with csd := update S.csd S.made csd, made := S.made + 1 }

/-- The start of `drain_cpu` on a CPU. -/
def enterDrain (cpu : Nat) : System :=
  { S.setDrain S.drains { cpu := cpu, stage := .fetch } with drains := S.drains + 1 }

/-! ## `call_function_single_async` -/

/-- `dispatch_lease_try_acquire` has a chance. -/
def admits (cpu : Nat) : Bool :=
  S.word cpu &&& dispatchDisabled == 0 && S.word cpu &&& dispatchCountMask != dispatchCountMask

/-- The checks and the lease. -/
def check (u : Nat) (online : Bool) : Option System :=
  let csd := S.csd u
  if u < S.made ∧ csd.call = .check then
    if csd.target ≥ maxCpus ∨ csd.sync = csd.async ∨ (csd.rcuFree ∧ !csd.async) then
      some (S.setCsd u fun csd => { csd with call := .refused })
    else if csd.target = csd.caller then some (S.setCsd u fun csd => { csd with call := .ready })
    else if !online ∨ !S.admits csd.target then
      some (S.setCsd u fun csd => { csd with call := .refused })
    else
      let S := S.setCsd u fun csd => { csd with call := .ready, lease := true }
      some { S with
        word := update S.word csd.target (S.word csd.target + 1)
        holders := update S.holders csd.target (u :: S.holders csd.target) }
  else none

def push (u : Nat) : Option System :=
  let csd := S.csd u
  if csd.call = .ready then
    let needIpi := (S.queue csd.target).isEmpty
    let S := S.setCsd u fun csd => { csd with call := .pushed needIpi, place := .queued csd.target }
    some { S with queue := update S.queue csd.target (u :: S.queue csd.target) }
  else none

def flag (u : Nat) : Option System :=
  match (S.csd u).call with
  | .pushed needIpi => some (S.setCsd u fun csd => { csd with call := .flagged needIpi })
  | _ => none

/-- The end of the call: `drain_cpu` for the own CPU, `send_call_function` for another. -/
def send (u : Nat) : Option System :=
  let csd := S.csd u
  match csd.call with
  | .flagged needIpi =>
    if csd.target = csd.caller then
      some ((S.setCsd u fun csd => { csd with call := .draining S.drains }).enterDrain csd.target)
    else
      let S := S.setCsd u fun csd => { csd with call := .accepted }
      some (if needIpi then { S with pending := update S.pending csd.target true } else S)
  | _ => none

/-- The call to the own CPU returns from `drain_cpu`. -/
def resume (u : Nat) : Option System :=
  match (S.csd u).call with
  | .draining j =>
    if (S.drain j).stage = .finished then
      some (S.setCsd u fun csd => { csd with call := .accepted })
    else none
  | _ => none

/-! ## `drain_cpu` -/

/-- The interrupt is taken: its bit is cleared and `drain_cpu` is entered. -/
def interrupt (cpu : Nat) : Option System :=
  if S.pending cpu then
    some ({ S with pending := update S.pending cpu false }.enterDrain cpu)
  else none

/-- The flags that `drain_cpu` writes after the function. -/
def settle (csd : CallData) : CallData :=
  if csd.rcuFree then csd else if csd.sync then { csd with done := true } else csd

def drainStep (j : Nat) : Option System :=
  let d := S.drain j
  match d.stage with
  | .fetch =>
    let nodes := S.queue d.cpu
    some { S.setDrain j { d with rest := nodes, stage := .next } with
      queue := update S.queue d.cpu []
      csd := fun u => if u ∈ nodes then { S.csd u with place := .listed j } else S.csd u }
  | .next =>
    match d.rest with
    | [] => some (S.setDrain j { d with stage := .finished })
    | u :: rest =>
      some ((S.setCsd u fun csd => { csd with place := .running j }).setDrain j
        { d with rest := rest, stage := .run u })
  | .run u =>
    some ((S.setCsd u fun csd =>
      { csd with place := .ran j, ranOn := d.cpu :: csd.ranOn }).setDrain j
        { d with stage := .after u })
  | .after u =>
    some ((S.setCsd u fun csd => { settle csd with place := .settled j }).setDrain j
      { d with stage := .release u })
  | .release u =>
    let T := (S.setCsd u fun csd => { csd with place := .finished }).setDrain j
      { d with stage := .next }
    some (if (S.csd u).lease then
        { T with
          word := update T.word d.cpu (T.word d.cpu - 1)
          holders := update T.holders d.cpu ((T.holders d.cpu).erase u) }
      else T)
  | .finished => none

/-! ## `call_function_many` and `call_function_single_sync` -/

def callerStep (k : Nat) : Option System :=
  let c := S.caller k
  match c.stage with
  | .looping =>
    match c.todo with
    | [] => some (S.setCaller k { c with stage := .waiting c.uses })
    | cpu :: todo =>
      -- after a failure the other targets are skipped; on the own CPU the function is called
      -- directly
      if c.failed ∨ cpu = c.self then some (S.setCaller k { c with todo := todo })
      else some ((S.create { target := cpu, caller := c.self, sync := true }).setCaller k
        { c with todo := todo, stage := .calling S.made })
  | .calling u =>
    match (S.csd u).call with
    | .accepted => some (S.setCaller k { c with uses := u :: c.uses, stage := .looping })
    | .refused => some (S.setCaller k { c with failed := true, stage := .looping })
    | _ => none
  | .waiting [] => some (S.setCaller k { c with stage := .returned })
  | .waiting (u :: left) =>
    -- `lock_wait`
    if (S.csd u).done then some (S.setCaller k { c with stage := .waiting left }) else none
  | .returned => none

end System

/-! ## Runs -/

inductive CsdOp where
  /-- `call_function_single_async` with a descriptor of these flags. -/
  | callAsync (self target : Nat) (sync async rcuFree : Bool)
  /-- `call_function_many` with a pool of descriptors of this size. -/
  | callMany (self : Nat) (targets : List Nat) (capacity : Nat)
  | callerStep (k : Nat)
  | check (u : Nat) (online : Bool)
  | push (u : Nat)
  | flag (u : Nat)
  | send (u : Nat)
  | resume (u : Nat)
  | interrupt (cpu : Nat)
  | drainStep (j : Nat)
  /-- `disable_cpu`: the bit is set. -/
  | disable (cpu : Nat)
  /-- `disable_cpu` finds no lease and returns. -/
  | disabled (cpu : Nat)
  /-- `enable_cpu`. -/
  | enable (cpu : Nat)
  deriving DecidableEq, Repr

def next (S : System) : CsdOp → Option System
  | .callAsync self target sync async rcuFree =>
    some (S.create
      { target := target, caller := self, sync := sync, async := async, rcuFree := rcuFree })
  | .callMany self targets capacity =>
    if capacity = 0 ∨ (targets.filter (· ≠ self)).length > capacity then some S
    else some { S.setCaller S.callers { self := self, todo := targets, stage := .looping } with
      callers := S.callers + 1 }
  | .callerStep k => S.callerStep k
  | .check u online => S.check u online
  | .push u => S.push u
  | .flag u => S.flag u
  | .send u => S.send u
  | .resume u => S.resume u
  | .interrupt cpu => S.interrupt cpu
  | .drainStep j => S.drainStep j
  | .disable cpu => some { S with
      word := update S.word cpu (S.word cpu ||| dispatchDisabled)
      disablers := update S.disablers cpu (S.disablers cpu + 1) }
  | .disabled cpu =>
    if S.disablers cpu ≠ 0 ∧ S.word cpu &&& dispatchCountMask = 0 then
      some { S with
        disablers := update S.disablers cpu (S.disablers cpu - 1)
        closed := update S.closed cpu true }
    else none
  | .enable cpu => some { S with
      word := update S.word cpu 0
      closed := update S.closed cpu false }

def csdMachine : Machine System CsdOp := .ofNext (· = {}) next

/-- `enable_cpu` is called only when no lease on the CPU is out and no `disable_cpu` of it is in
progress. -/
def Enables (S : System) : CsdOp → Prop
  | .enable cpu => S.holders cpu = [] ∧ S.disablers cpu = 0
  | _ => True

/-! ## What is to hold -/

/-- A call that has pushed a node and has its interrupt still to send, or its own drain still to
enter. -/
def System.Announces (S : System) (u : Nat) : Prop :=
  if (S.csd u).target = (S.csd u).caller then
    ∃ needIpi, (S.csd u).call = .pushed needIpi ∨ (S.csd u).call = .flagged needIpi
  else (S.csd u).call = .pushed true ∨ (S.csd u).call = .flagged true

/-- Nothing is under way. -/
def System.Quiet (S : System) : Prop :=
  (∀ cpu, S.pending cpu = false) ∧ (∀ j, (S.drain j).stage = .finished) ∧
    ∀ u < S.made, (S.csd u).call = .accepted ∨ (S.csd u).call = .refused

structure Sound (S : System) : Prop where
  /-- A function runs at most once, on its target, and not at all for a call that was refused. -/
  once : ∀ u, (S.csd u).ranOn = [] ∨ (S.csd u).ranOn = [(S.csd u).target] ∧
    (S.csd u).call ≠ .refused
  /-- When nothing is under way, the function of every accepted descriptor has run. -/
  all : S.Quiet → ∀ u < S.made, (S.csd u).call = .accepted → (S.csd u).ranOn = [(S.csd u).target]
  /-- A descriptor that is done, and every one that a synchronous call which has returned had
  queued, has run. -/
  done : ∀ u, (S.csd u).done = true → (S.csd u).ranOn = [(S.csd u).target]
  sync : ∀ k, (S.caller k).stage = .returned → ∀ u ∈ (S.caller k).uses,
    (S.csd u).ranOn = [(S.csd u).target]
  /-- A stack that is not empty is taken by an interrupt, a drain, or the call that found it
  empty. -/
  taken : ∀ cpu, S.queue cpu ≠ [] → S.pending cpu = true ∨
    (∃ j, (S.drain j).cpu = cpu ∧ (S.drain j).stage = .fetch) ∨
    ∃ u, (S.csd u).target = cpu ∧ S.Announces u
  /-- Between the return of `disable_cpu` and `enable_cpu` no remote call to the CPU is
  unfinished. -/
  closed : ∀ cpu, S.closed cpu = true → ∀ u, (S.csd u).target = cpu → (S.csd u).caller ≠ cpu →
    (S.csd u).call ≠ .check → (S.csd u).call ≠ .refused → (S.csd u).ranOn = [cpu]

/-!
## Calls run once

Every descriptor is in one place: with its caller, on the stack of its target, on the list of a
drain, in one of the steps of a drain, or finished. Each step moves one descriptor on, except the
exchange of a drain, which moves a whole stack; so nothing is lost or run twice. The leases of a CPU
are counted exactly as long as `enable_cpu`, which resets the count, finds it at zero.
-/

/-! ## Places -/

namespace Place

def hasRun : Place → Bool
  | .ran _ | .settled _ | .finished => true
  | _ => false

def drain? : Place → Option Nat
  | .listed j | .running j | .ran j | .settled j => some j
  | _ => none

/-- The places in which the shared lists have the descriptor. -/
def tracked : Place → Bool
  | .out | .finished => false
  | _ => true

end Place

namespace System

def members (S : System) : Place → List Nat
  | .queued cpu => S.queue cpu
  | .listed j => (S.drain j).rest
  | .running j => match (S.drain j).stage with
    | .run u => [u]
    | _ => []
  | .ran j => match (S.drain j).stage with
    | .after u => [u]
    | _ => []
  | .settled j => match (S.drain j).stage with
    | .release u => [u]
    | _ => []
  | .out | .finished => []

def Located (S : System) : Prop :=
  ∀ p : Place, p.tracked = true → (S.members p).Nodup ∧ ∀ u, u ∈ S.members p ↔ (S.csd u).place = p

variable {S S' : System}

theorem Located.same (h : S.Located) (hplace : ∀ u, (S'.csd u).place = (S.csd u).place)
    (hmembers : ∀ p, p.tracked = true → S'.members p = S.members p) : S'.Located := by
  intro p hp
  rw [hmembers p hp]
  simp only [hplace]
  exact h p hp

theorem Located.move (h : S.Located) {u : Nat} {p q : Place} (hp : (S.csd u).place = p)
    (hpq : q ≠ p)
    (hu : (S'.csd u).place = q) (hplace : ∀ v, v ≠ u → (S'.csd v).place = (S.csd v).place)
    (hsource : p.tracked = true → S'.members p = (S.members p).erase u)
    (htarget : q.tracked = true → S'.members q = u :: S.members q)
    (hother : ∀ r, r.tracked = true → r ≠ p → r ≠ q → S'.members r = S.members r) : S'.Located := by
  intro r hr
  obtain ⟨hnodup, hiff⟩ := h r hr
  by_cases hrp : r = p
  · subst hrp
    rw [hsource hr]
    refine ⟨hnodup.erase u, fun v => ?_⟩
    rw [hnodup.mem_erase_iff, hiff]
    by_cases hv : v = u
    · subst hv
      simp [hu, hpq]
    · simp [hv, hplace v hv]
  by_cases hrq : r = q
  · subst hrq
    rw [htarget hr]
    have hnot : u ∉ S.members r := fun hmem => hpq (((hiff u).mp hmem).symm.trans hp)
    refine ⟨List.nodup_cons.mpr ⟨hnot, hnodup⟩, fun v => ?_⟩
    rw [List.mem_cons, hiff]
    by_cases hv : v = u
    · subst hv
      simp [hu]
    · simp [hv, hplace v hv]
  · rw [hother r hr hrp hrq]
    refine ⟨hnodup, fun v => ?_⟩
    rw [hiff]
    by_cases hv : v = u
    · subst hv
      rw [hu, hp]
      exact iff_of_false (fun heq => hrp heq.symm) (fun heq => hrq heq.symm)
    · rw [hplace v hv]

theorem Located.moveAll (h : S.Located) {p q : Place} (hp : p.tracked = true) (hpq : q ≠ p)
    (hplace : ∀ v, (S'.csd v).place = if v ∈ S.members p then q else (S.csd v).place)
    (hsource : S'.members p = []) (hempty : S.members q = []) (htarget : S'.members q = S.members p)
    (hother : ∀ r, r.tracked = true → r ≠ p → r ≠ q → S'.members r = S.members r) : S'.Located := by
  obtain ⟨hnodup, hiff⟩ := h p hp
  intro r hr
  by_cases hrp : r = p
  · subst hrp
    rw [hsource]
    refine ⟨List.nodup_nil, fun v => iff_of_false List.not_mem_nil ?_⟩
    rw [hplace]
    split_ifs with hv
    · exact hpq
    · exact fun heq => hv ((hiff v).mpr heq)
  by_cases hrq : r = q
  · subst hrq
    rw [htarget]
    refine ⟨hnodup, fun v => ?_⟩
    rw [hplace]
    split_ifs with hv
    · exact iff_of_true hv rfl
    refine iff_of_false hv fun heq => ?_
    have hmem := ((h r hr).2 v).mpr heq
    rw [hempty] at hmem
    cases hmem
  · obtain ⟨hnodup', hiff'⟩ := h r hr
    rw [hother r hr hrp hrq]
    refine ⟨hnodup', fun v => ?_⟩
    rw [hplace, hiff']
    split_ifs with hv
    · rw [(hiff v).mp hv]
      exact iff_of_false (fun heq => hrp heq.symm) (fun heq => hrq heq.symm)
    · rfl

end System

/-! ## Descriptors -/

/-- The call has not pushed the descriptor. -/
def CallStage.before : CallStage → Bool
  | .check | .ready | .refused => true
  | _ => false

/-- What holds of a descriptor, given the CPUs of the first `n` drains. -/
structure UseOk (cpuOf : Nat → Nat) (n : Nat) (x : CallData) : Prop where
  queued : ∀ cpu, x.place = .queued cpu → cpu = x.target
  drained : ∀ j, x.place.drain? = some j → j < n ∧ cpuOf j = x.target
  ran : x.ranOn = if x.place.hasRun then [x.target] else []
  out : x.place = .out ↔ x.call.before = true
  done : x.done = true → x.place.hasRun = true
  unleased : x.call = .check → x.lease = false
  leased : x.caller ≠ x.target → x.call ≠ .check → x.call ≠ .refused → x.lease = true

theorem UseOk.moved {cpuOf : Nat → Nat} {n j : Nat} {x y : CallData} (h : UseOk cpuOf n x)
    (hx : x.place.drain? = some j) (hy : y.place.drain? = some j ∨ y.place = .finished)
    (hsame : y.target = x.target ∧ y.caller = x.caller ∧ y.call = x.call ∧ y.lease = x.lease)
    (hran : y.ranOn = if y.place.hasRun then [y.target] else [])
    (hdone : y.done = true → y.place.hasRun = true) : UseOk cpuOf n y := by
  obtain ⟨htarget, hcaller, hcall, hlease⟩ := hsame
  have hout : ∀ {p : Place}, p.drain? = some j ∨ p = .finished → p ≠ .out := by
    rintro p (hp | hp) rfl <;> cases hp
  refine ⟨fun cpu hcpu => ?_, fun i hi => ?_, hran, ?_, hdone, ?_, ?_⟩
  · rcases hy with hy | hy <;> rw [hcpu] at hy <;> cases hy
  · rcases hy with hy | hy
    · rw [hy] at hi
      cases hi
      rw [htarget]
      exact h.drained j hx
    · rw [hy] at hi
      cases hi
  · rw [hcall, ← h.out]
    exact iff_of_false (hout hy) (hout (.inl hx))
  · rw [hcall, hlease]
    exact h.unleased
  · rw [hcaller, htarget, hcall, hlease]
    exact h.leased

theorem callerStep_shape {S S' : System} {k : Nat} (hok : S.callerStep k = some S') :
    ∃ c, S' = S.setCaller k c ∨ ∃ cpu, S' =
      (S.create { target := cpu, caller := (S.caller k).self, sync := true }).setCaller k c := by
  unfold System.callerStep at hok
  dsimp only at hok
  split at hok
  · split at hok
    · cases hok
      exact ⟨_, .inl rfl⟩
    · split_ifs at hok <;> cases hok
      · exact ⟨_, .inl rfl⟩
      · exact ⟨_, .inr ⟨_, rfl⟩⟩
  · split at hok <;> cases hok <;> exact ⟨_, .inl rfl⟩
  · cases hok
    exact ⟨_, .inl rfl⟩
  · split_ifs at hok
    cases hok
    exact ⟨_, .inl rfl⟩
  · cases hok

/-- Descriptors, lists and drains fit together. -/
structure Placed (S : System) : Prop where
  located : S.Located
  uses : ∀ u, UseOk (fun j => (S.drain j).cpu) S.drains (S.csd u)
  made : ∀ u, S.made ≤ u → S.csd u = {}
  drains : ∀ j, S.drains ≤ j → S.drain j = {}
  idle : ∀ j, (S.drain j).stage = .fetch ∨ (S.drain j).stage = .finished → (S.drain j).rest = []

namespace Placed

variable {S S' : System} {u j : Nat}

theorem lt_made (h : Placed S) (hu : (S.csd u).call ≠ .check) : u < S.made := by
  by_contra hge
  rw [h.made u (Nat.le_of_not_lt hge)] at hu
  exact hu rfl

theorem lt_drains (h : Placed S) (hj : (S.drain j).stage ≠ .finished) : j < S.drains := by
  by_contra hge
  rw [h.drains j (Nat.le_of_not_lt hge)] at hj
  exact hj rfl

theorem start : Placed {} where
  located := fun p hp => by
    cases p with
    | out | finished => cases hp
    | _ => simp [System.members]
  uses := fun u => by constructor <;> simp [Place.drain?, Place.hasRun, CallStage.before]
  made := fun _ _ => rfl
  drains := fun _ _ => rfl
  idle := fun _ _ => rfl

/-! A change of one descriptor or of one drain. -/

variable {x : CallData} {d : Drain}

variable (h : Placed S)
include h

theorem uses_update (hx : UseOk (fun j => (S.drain j).cpu) S.drains x) :
    ∀ v, UseOk (fun j => (S.drain j).cpu) S.drains (update S.csd u x v) := fun v =>
  update_cases v hx fun v _ => h.uses v

theorem made_update (hu : u < S.made) : ∀ v, S.made ≤ v → update S.csd u x v = {} := fun v =>
  update_cases v (fun hge => absurd hu (Nat.not_lt.mpr hge)) fun v _ => h.made v

theorem drains_update (hj : j < S.drains) :
    ∀ i, S.drains ≤ i → update S.drain j d i = {} := fun i =>
  update_cases i (fun hge => absurd hj (Nat.not_lt.mpr hge)) fun i _ => h.drains i

theorem idle_update (hd : d.stage = .fetch ∨ d.stage = .finished → d.rest = []) :
    ∀ i, (update S.drain j d i).stage = .fetch ∨
      (update S.drain j d i).stage = .finished → (update S.drain j d i).rest = [] := fun i =>
  update_cases i hd fun i _ => h.idle i

omit h in
theorem cpu_update (hcpu : d.cpu = (S.drain j).cpu) :
    (fun i => (update S.drain j d i).cpu) = fun i => (S.drain i).cpu :=
  funext fun i => update_cases i hcpu fun _ _ => rfl

omit h in
theorem place_update (hx : x.place = (S.csd u).place) :
    ∀ v, (update S.csd u x v).place = (S.csd v).place :=
  fun v => update_cases v hx fun _ _ => rfl

theorem relabel {f : CallData → CallData} (hu : u < S.made)
    (hplace : (f (S.csd u)).place = (S.csd u).place)
    (hok : UseOk (fun j => (S.drain j).cpu) S.drains (f (S.csd u))) : Placed (S.setCsd u f) where
  located := h.located.same (place_update hplace) fun p _ => by cases p <;> rfl
  uses := h.uses_update hok
  made := h.made_update hu
  drains := h.drains
  idle := h.idle

theorem create (hcall : x.call = .check) (hplace : x.place = .out)
    (hran : x.ranOn = []) (hdone : x.done = false) (hlease : x.lease = false) :
    Placed (S.create x) := by
  have hnew : (S.csd S.made).place = .out := by rw [h.made S.made (Nat.le_refl _)]
  refine ⟨?_, h.uses_update ?_, fun v hv => ?_, h.drains, h.idle⟩
  · exact h.located.same (place_update (hplace.trans hnew.symm)) fun p _ => by cases p <;> rfl
  · constructor <;> simp [hcall, hplace, hran, hdone, hlease, Place.drain?, Place.hasRun,
      CallStage.before]
  · have hv' : S.made + 1 ≤ v := hv
    have hne : v ≠ S.made := by omega
    simpa only [System.create, update_of_ne hne] using h.made v (by omega)

theorem enterDrain {cpu : Nat} : Placed (S.enterDrain cpu) := by
  have hnew : S.drain S.drains = {} := h.drains S.drains (Nat.le_refl _)
  refine ⟨?_, fun v => ?_, h.made, fun i hi => ?_, h.idle_update fun _ => rfl⟩
  · refine h.located.same (fun v => rfl) fun p _ => ?_
    cases p with
    | out | finished | queued _ => rfl
    | listed i | running i | ran i | settled i =>
      by_cases hi : i = S.drains
      · subst hi
        simp only [System.members, System.enterDrain, System.setDrain, update_self, hnew]
      · simp only [System.members, System.enterDrain, System.setDrain, update_of_ne hi]
  · obtain ⟨hqueued, hdrained, hran, hout, hdone, hunleased, hleased⟩ := h.uses v
    refine ⟨hqueued, fun i hi => ?_, hran, hout, hdone, hunleased, hleased⟩
    obtain ⟨hlt, hcpu⟩ := hdrained i hi
    refine ⟨Nat.lt_succ_of_lt hlt, ?_⟩
    simpa only [System.enterDrain, System.setDrain, update_of_ne (Nat.ne_of_lt hlt)] using hcpu
  · have hi' : S.drains + 1 ≤ i := hi
    have hne : i ≠ S.drains := by omega
    simpa only [System.enterDrain, System.setDrain, update_of_ne hne] using h.drains i (by omega)

theorem check {online : Bool} (hok : S.check u online = some S') : Placed S' := by
  unfold System.check at hok
  dsimp only at hok
  obtain ⟨hqueued, hdrained, hran, hout, hdone, -⟩ := h.uses u
  split_ifs at hok with hstage hbad hlocal hrefused <;> cases hok
  all_goals have hplace : (S.csd u).place = .out := hout.mpr (by rw [hstage.2]; rfl)
  · refine h.relabel hstage.1 rfl ⟨hqueued, hdrained, hran, iff_of_true hplace rfl, hdone, ?_, ?_⟩
    · simp
    · exact fun _ _ hcall => absurd rfl hcall
  · refine h.relabel hstage.1 rfl ⟨hqueued, hdrained, hran, iff_of_true hplace rfl, hdone, ?_, ?_⟩
    · simp
    · exact fun hne => absurd hlocal.symm hne
  · refine h.relabel hstage.1 rfl ⟨hqueued, hdrained, hran, iff_of_true hplace rfl, hdone, ?_, ?_⟩
    · simp
    · exact fun _ _ hcall => absurd rfl hcall
  have h' := h.relabel (f := fun csd => { csd with call := .ready, lease := true }) hstage.1 rfl
    ⟨hqueued, hdrained, hran, iff_of_true hplace rfl, hdone, (by simp), fun _ _ _ => rfl⟩
  exact { h' with }

theorem push (hok : S.push u = some S') : Placed S' := by
  obtain ⟨hready, rfl⟩ := of_allow hok
  have hu : u < S.made := h.lt_made (by rw [hready]; decide)
  obtain ⟨-, -, hran, hout, hdone, -, hleased⟩ := h.uses u
  have hplace : (S.csd u).place = .out := hout.mpr (by rw [hready]; rfl)
  refine ⟨?_, h.uses_update ?_, h.made_update hu, h.drains, h.idle⟩
  · refine h.located.move hplace (q := .queued (S.csd u).target) (by simp) ?_ (fun v hv => ?_)
      (fun htracked => by cases htracked) (fun _ => ?_) fun r hr _ hne => ?_
    · simp only [System.setCsd, update_self]
    · simp only [System.setCsd, update_of_ne hv]
    · exact update_self ..
    · cases r with
      | queued c => exact update_of_ne (fun heq => hne (by rw [heq])) ..
      | _ => rfl
  · refine ⟨fun cpu hcpu => ?_, (fun i hi => nomatch hi), ?_,
      iff_of_false (by simp) Bool.false_ne_true, ?_, ?_, ?_⟩
    · cases hcpu
      rfl
    · rw [hran, hplace]
      rfl
    · intro hd
      rw [hplace] at hdone
      exact absurd (hdone hd) Bool.false_ne_true
    · simp
    · exact fun hne _ _ => hleased hne (by rw [hready]; decide) (by rw [hready]; decide)

theorem advance (stage : CallStage) (hnow : (S.csd u).call.before = false)
    (hstage : stage.before = false) :
    Placed (S.setCsd u fun csd => { csd with call := stage }) := by
  obtain ⟨hqueued, hdrained, hran, hout, hdone, -, hleased⟩ := h.uses u
  have hcheck : (S.csd u).call ≠ .check := fun heq => by rw [heq] at hnow; cases hnow
  have hrefused : (S.csd u).call ≠ .refused := fun heq => by rw [heq] at hnow; cases hnow
  have hplace : (S.csd u).place ≠ .out := fun heq => by
    rw [hout.mp heq] at hnow
    cases hnow
  refine h.relabel (h.lt_made hcheck) rfl ⟨hqueued, hdrained, hran, iff_of_false hplace ?_,
    hdone, ?_, ?_⟩
  · rw [hstage]
    exact Bool.false_ne_true
  · rintro rfl
    cases hstage
  · exact fun hne _ _ => hleased hne hcheck hrefused

theorem flag (hok : S.flag u = some S') : Placed S' := by
  unfold System.flag at hok
  split at hok <;> cases hok
  next needIpi hcall => exact h.advance _ (by rw [hcall]; rfl) rfl

theorem send (hok : S.send u = some S') : Placed S' := by
  unfold System.send at hok
  dsimp only at hok
  split at hok
  · next needIpi hcall =>
    have hnow : (S.csd u).call.before = false := by rw [hcall]; rfl
    split_ifs at hok <;> cases hok
    · exact (h.advance _ hnow rfl).enterDrain
    · have h' := h.advance .accepted hnow rfl
      exact { h' with }
    · exact h.advance _ hnow rfl
  · cases hok

theorem resume (hok : S.resume u = some S') : Placed S' := by
  unfold System.resume at hok
  split at hok
  · next i hcall =>
    split_ifs at hok
    cases hok
    exact h.advance _ (by rw [hcall]; rfl) rfl
  · cases hok

theorem interrupt {cpu : Nat} (hok : S.interrupt cpu = some S') : Placed S' := by
  obtain ⟨_, rfl⟩ := of_allow hok
  have h' : Placed { S with pending := update S.pending cpu false } :=
    { h with }
  exact h'.enterDrain

omit h in
theorem cases_drain {r : Place} (hr : r.drain? = some j) :
    r = .listed j ∨ r = .running j ∨ r = .ran j ∨ r = .settled j := by
  cases r <;> simp_all [Place.drain?]

/-- A drain moves the descriptor `u` on, from the place `p` to the place `q`. -/
theorem moveOn {f : CallData → CallData} {p q : Place}
    (hp : (S.csd u).place = p) (hq : (f (S.csd u)).place = q) (hpq : q ≠ p)
    (hpj : p.drain? = some j) (hqj : q.drain? = some j ∨ q = .finished)
    (hcpu : d.cpu = (S.drain j).cpu) (hfetch : d.stage ≠ .fetch) (hfinished : d.stage ≠ .finished)
    (hsame : (f (S.csd u)).target = (S.csd u).target ∧ (f (S.csd u)).caller = (S.csd u).caller ∧
      (f (S.csd u)).call = (S.csd u).call ∧ (f (S.csd u)).lease = (S.csd u).lease)
    (hran : (f (S.csd u)).ranOn = if q.hasRun then [(f (S.csd u)).target] else [])
    (hdone : (f (S.csd u)).done = true → q.hasRun = true)
    (hlists : ∀ r, r.drain? = some j → ((S.setCsd u f).setDrain j d).members r =
      if r = p then (S.members r).erase u else if r = q then u :: S.members r else S.members r) :
    Placed ((S.setCsd u f).setDrain j d) := by
  have hj : j < S.drains := ((h.uses u).drained j (by rw [hp, hpj])).1
  have hu : u < S.made := by
    by_contra hge
    rw [h.made u (Nat.le_of_not_lt hge)] at hp
    rw [← hp] at hpj
    cases hpj
  have hidle : d.stage = .fetch ∨ d.stage = .finished → d.rest = [] := fun hd =>
    hd.elim (absurd · hfetch) (absurd · hfinished)
  refine ⟨?_, fun v => ?_, h.made_update hu, h.drains_update hj, h.idle_update hidle⟩
  · refine h.located.move hp hpq ?_ (fun v hv => ?_) (fun _ => ?_) (fun hq' => ?_)
      fun r hr hrp hrq => ?_
    · simpa only [System.setCsd, System.setDrain, update_self] using hq
    · simp only [System.setCsd, System.setDrain, update_of_ne hv]
    · rw [hlists p hpj, if_pos rfl]
    · rcases hqj with hqj | rfl
      · rw [hlists q hqj, if_neg hpq, if_pos rfl]
      · cases hq'
    by_cases hrj : r.drain? = some j
    · rw [hlists r hrj, if_neg hrp, if_neg hrq]
    -- the lists of the other drains and the stacks are as they were
    cases r with
    | out | finished | queued _ => rfl
    | listed i | running i | ran i | settled i =>
      have hi : i ≠ j := fun heq => hrj (by rw [← heq]; rfl)
      simp only [System.members, System.setDrain, System.setCsd, update_of_ne hi]
  · show UseOk (fun i => (update S.drain j d i).cpu) S.drains (update S.csd u _ v)
    rw [cpu_update hcpu]
    rw [← hq] at hqj hran hdone
    exact h.uses_update ((h.uses u).moved (by rw [hp, hpj]) hqj hsame hran hdone) v

theorem place_of_stage : (∀ u rest, (S.drain j).rest = u :: rest → (S.csd u).place = .listed j) ∧
    (∀ u, (S.drain j).stage = .run u → (S.csd u).place = .running j) ∧
    (∀ u, (S.drain j).stage = .after u → (S.csd u).place = .ran j) ∧
    ∀ u, (S.drain j).stage = .release u → (S.csd u).place = .settled j := by
  refine ⟨fun u rest hrest => ?_, fun u hstage => ?_, fun u hstage => ?_, fun u hstage => ?_⟩
  · refine ((h.located (.listed j) rfl).2 u).mp ?_
    simp only [System.members, hrest, List.mem_cons_self]
  · refine ((h.located (.running j) rfl).2 u).mp ?_
    simp only [System.members, hstage, List.mem_singleton]
  · refine ((h.located (.ran j) rfl).2 u).mp ?_
    simp only [System.members, hstage, List.mem_singleton]
  · refine ((h.located (.settled j) rfl).2 u).mp ?_
    simp only [System.members, hstage, List.mem_singleton]

theorem fetch (hstage : (S.drain j).stage = .fetch) : Placed
    { S.setDrain j { S.drain j with rest := S.queue (S.drain j).cpu, stage := .next } with
      queue := update S.queue (S.drain j).cpu []
      csd := fun u => if u ∈ S.queue (S.drain j).cpu then { S.csd u with place := .listed j }
        else S.csd u } := by
  have hj : j < S.drains := h.lt_drains (by rw [hstage]; decide)
  generalize hcpu : (S.drain j).cpu = cpu
  have hmem := (h.located (.queued cpu) rfl).2
  refine ⟨?_, fun v => ?_, fun v hv => ?_, h.drains_update hj, h.idle_update fun hd => ?_⟩
  · refine h.located.moveAll (p := .queued cpu) (q := .listed j) rfl (by simp) (fun v => ?_)
      (update_self ..) (h.idle j (.inl hstage)) ?_ fun r hr hrp hrq => ?_
    · show (if v ∈ S.queue cpu then _ else _ : CallData).place = if v ∈ S.queue cpu then _ else _
      split_ifs <;> rfl
    · simp only [System.members, System.setDrain, update_self]
    cases r with
    | out | finished => rfl
    | queued c => exact update_of_ne (fun heq => hrp (by rw [heq])) ..
    | listed i =>
      have hi : i ≠ j := fun heq => hrq (by rw [heq])
      simp only [System.members, System.setDrain, update_of_ne hi]
    | running i | ran i | settled i =>
      by_cases hi : i = j
      · subst hi
        simp only [System.members, System.setDrain, update_self, hstage]
      · simp only [System.members, System.setDrain, update_of_ne hi]
  · show UseOk (fun i => (update S.drain j _ i).cpu) S.drains
      (if v ∈ S.queue cpu then _ else _)
    rw [cpu_update (by rfl)]
    split_ifs with hv
    · obtain ⟨hqueued, -, hran, hout, hdone, hunleased, hleased⟩ := h.uses v
      have hp := (hmem v).mp hv
      refine ⟨(by simp), fun i hi => ?_, ?_, ?_, ?_, hunleased, hleased⟩
      · cases hi
        exact ⟨hj, hcpu.trans (hqueued cpu hp)⟩
      · rw [hran, hp]
        rfl
      · rw [← hout, hp]
        exact iff_of_false (by simp) (by simp)
      · rw [hp] at hdone
        exact hdone
    · exact h.uses v
  · have hnot : v ∉ S.queue cpu := fun hmem' => by
      have hp := (hmem v).mp hmem'
      rw [h.made v hv] at hp
      cases hp
    simpa only [if_neg hnot] using h.made v hv
  · rcases hd with hd | hd <;> cases hd

theorem finish (hj : j < S.drains) (hstage : (S.drain j).stage = .next)
    (hrest : (S.drain j).rest = []) :
    Placed (S.setDrain j { S.drain j with stage := .finished }) := by
  refine ⟨?_, fun v => ?_, h.made, h.drains_update hj, h.idle_update fun _ => hrest⟩
  · refine h.located.same (fun _ => rfl) fun p _ => ?_
    cases p with
    | out | finished | queued _ => rfl
    | listed i | running i | ran i | settled i =>
      by_cases hi : i = j
      · subst hi
        simp only [System.members, System.setDrain, update_self, hstage]
      · simp only [System.members, System.setDrain, update_of_ne hi]
  · show UseOk (fun i => (update S.drain j _ i).cpu) S.drains (S.csd v)
    rw [cpu_update (by rfl)]
    exact h.uses v

theorem drainStep (hok : S.drainStep j = some S') : Placed S' := by
  unfold System.drainStep at hok
  dsimp only at hok
  obtain ⟨hlisted, hrunning, hrun, hsettled⟩ := h.place_of_stage (j := j)
  split at hok
  · next hstage =>
    cases hok
    exact h.fetch hstage
  · next hstage =>
    split at hok
    · next hrest =>
      cases hok
      exact h.finish (h.lt_drains (by rw [hstage]; decide)) hstage hrest
    next u rest hrest =>
    cases hok
    have hp := hlisted u rest hrest
    refine h.moveOn hp rfl (by simp) rfl (.inl rfl) rfl (by simp) (by simp) ⟨rfl, rfl, rfl,
      rfl⟩ ?_ ?_ fun r hr => ?_
    · rw [(h.uses u).ran, hp]
      rfl
    · intro hd
      have hran := (h.uses u).done hd
      rw [hp] at hran
      exact hran
    · rcases cases_drain hr with rfl | rfl | rfl | rfl <;>
        simp [System.members, System.setDrain, System.setCsd, hstage, hrest]
  · next u hstage =>
    cases hok
    have hp := hrunning u hstage
    refine h.moveOn hp rfl (by simp) rfl (.inl rfl) rfl (by simp) (by simp) ⟨rfl, rfl, rfl, rfl⟩ ?_
        (fun _ => rfl) fun r hr => ?_
    · obtain ⟨-, hcpu⟩ := (h.uses u).drained j (by rw [hp]; rfl)
      have hnone : (S.csd u).ranOn = [] := by
        rw [(h.uses u).ran, hp]
        rfl
      show (S.drain j).cpu :: (S.csd u).ranOn = [(S.csd u).target]
      rw [hnone, hcpu]
    · rcases cases_drain hr with rfl | rfl | rfl | rfl <;>
        simp [System.members, System.setDrain, System.setCsd, hstage]
  · next u hstage =>
    cases hok
    have hp := hrun u hstage
    have hsettle : ∀ x : CallData, (System.settle x).target = x.target ∧
        (System.settle x).caller = x.caller ∧ (System.settle x).call = x.call ∧
        (System.settle x).lease = x.lease ∧ (System.settle x).ranOn = x.ranOn := by
      intro x
      unfold System.settle
      split_ifs <;> exact ⟨rfl, rfl, rfl, rfl, rfl⟩
    obtain ⟨htarget, hcaller, hcall, hlease, hranOn⟩ := hsettle (S.csd u)
    refine h.moveOn hp rfl (by simp) rfl (.inl rfl) rfl (by simp) (by simp) ⟨htarget, hcaller,
      hcall, hlease⟩ ?_
      (fun _ => rfl)
      fun r hr => ?_
    · show (System.settle (S.csd u)).ranOn = [(System.settle (S.csd u)).target]
      rw [hranOn, htarget, (h.uses u).ran, hp]
      rfl
    · rcases cases_drain hr with rfl | rfl | rfl | rfl <;>
        simp [System.members, System.setDrain, System.setCsd, hstage]
  · next u hstage =>
    have hp := hsettled u hstage
    have h' : Placed ((S.setCsd u fun csd => { csd with place := .finished }).setDrain j
        { S.drain j with stage := .next }) := by
      refine h.moveOn hp rfl (by simp) rfl (.inr rfl) rfl (by simp) (by simp)
        ⟨rfl, rfl, rfl, rfl⟩ ?_
        (fun _ => rfl) fun r hr => ?_
      · rw [(h.uses u).ran, hp]
        rfl
      · rcases cases_drain hr with rfl | rfl | rfl | rfl <;>
          simp [System.members, System.setDrain, System.setCsd, hstage]
    split_ifs at hok <;> cases hok
    · exact { h' with }
    · exact h'
  · cases hok

theorem callerStep {k : Nat} (hok : S.callerStep k = some S') : Placed S' := by
  obtain ⟨c, rfl | ⟨cpu, rfl⟩⟩ := callerStep_shape hok
  · exact { h with }
  · have h' := h.create (x := { target := cpu, caller := (S.caller k).self, sync := true })
      rfl rfl rfl rfl rfl
    exact { h' with }

theorem next {op : CsdOp} (hnext : next S op = some S') : Placed S' := by
  cases op with
  | callAsync self target sync async rcuFree =>
    cases hnext
    exact h.create rfl rfl rfl rfl rfl
  | callMany self targets capacity =>
    unfold Csd.next at hnext
    dsimp only at hnext
    split_ifs at hnext <;> cases hnext
    · exact h
    · exact { h with }
  | callerStep k => exact h.callerStep hnext
  | check u online => exact h.check hnext
  | push u => exact h.push hnext
  | flag u => exact h.flag hnext
  | send u => exact h.send hnext
  | resume u => exact h.resume hnext
  | interrupt cpu => exact h.interrupt hnext
  | drainStep j => exact h.drainStep hnext
  | disable cpu => cases hnext; exact { h with }
  | disabled cpu =>
    obtain ⟨_, rfl⟩ := of_allow hnext
    exact { h with }
  | enable cpu => cases hnext; exact { h with }

end Placed

end ZXFoundation.Smp.Csd
