import ZXFoundation.Lib.MinHeap
import ZXFoundation.Lib.Run
import ZXFoundation.Sched.Timer

/-!
# Kernel timers and their clients

`sys/timer.zcomponent/core.cxx` keeps one `lib::min_heap` of pointers to timers for each CPU; a
timer says in `armed` whether it is in a heap and in `cpu` in whose. The clients own the timers and
write these fields themselves: `rt/bandwidth.cxx`, `cbs.zcomponent/core.cxx` with
`deadline.zcomponent/core.cxx`, the ticks of `sched/core.cxx` and `nohz.zcomponent/core.cxx`, and
the watchdog. `Sched.Timer` has the part that the scheduling classes see, with a list for the heap.

A call is one step, on the CPU that makes it. The clock comparator is left out.
-/

namespace ZXFoundation.Sys.Timer

open Runs Function Multiset
open Sched (KernelTimer CpuId StrandId)
open Sched.System (nsToTod timerHeapCapacity)

/-- The timers of the kernel, by their owners. -/
inductive TimerId where
  | cbs (s : StrandId)
  | rtPeriod (cpu : CpuId)
  | bspTick
  | apTick (cpu : CpuId)
  | watchdog
  deriving DecidableEq, Repr, Inhabited

/-- `g_heaps` and the timers. `stamp` is the deadline a timer had when it was last pushed; the
source does not keep it. -/
structure TimerSystem where
  timer : TimerId → KernelTimer := fun _ => {}
  heap : CpuId → MinHeap TimerId := fun _ => { entries := fun _ => default }
  stamp : TimerId → Nat := fun _ => 0

def wrap (tod : Nat) : Nat := tod % 2 ^ 64

def tickIntervalTod : Nat := 40_960_000

def watchdogIntervalTod : Nat := 5 * 4096 * 1_000_000

/-- `RT_PERIOD_DEFAULT_NS`, in TOD units. -/
def rtPeriodTod : Nat := nsToTod Sched.rtPeriodDefaultNs

namespace TimerSystem

variable (S : TimerSystem)

def setTimer (t : TimerId) (v : KernelTimer) : TimerSystem := { S with timer := update S.timer t v }

def deadline (t : TimerId) : Nat := (S.timer t).deadlineTod

def timerLess : TimerId → TimerId → Bool := MinHeap.keyLess S.deadline

def heapPush (cpu : CpuId) (t : TimerId) : Option TimerSystem :=
  ((S.heap cpu).push S.timerLess timerHeapCapacity t).map fun h =>
    { S with heap := update S.heap cpu h, stamp := update S.stamp t (S.deadline t) }

/-- The answer of `remove` is discarded everywhere. -/
def heapRemove (cpu : CpuId) (t : TimerId) : TimerSystem :=
  match (S.heap cpu).remove S.timerLess t with
  | none => S
  | some h => { S with heap := update S.heap cpu h }

/-! ## The timer calls -/

def timerAdd (here : CpuId) (t : TimerId) : Except KernelError Unit × TimerSystem :=
  if (S.timer t).armed then (.error (.generic .invalidArg), S)
  else
    let S := S.setTimer t { S.timer t with cpu := here }
    match S.heapPush here t with
    | none => (.error (.memory .outOfMemory), S)
    | some S => (.ok (), S.setTimer t { S.timer t with armed := true })

def timerCancel (here : CpuId) (t : TimerId) : Except KernelError Unit × TimerSystem :=
  if !(S.timer t).armed then (.error (.generic .invalidArg), S)
  else if (S.timer t).cpu ≠ here then (.error (.generic .notSupported), S)
  else
    let S := S.heapRemove here t
    (.ok (), S.setTimer t { S.timer t with armed := false })

def cbsCancelTimer (here : CpuId) (s : StrandId) : TimerSystem :=
  if (S.timer (.cbs s)).armed then
    let S := (S.timerCancel here (.cbs s)).2
    S.setTimer (.cbs s) { S.timer (.cbs s) with armed := false }
  else S

/-- What the callbacks do to the timers: only the one of a deadline strand touches one, its own,
when the owner of the strand is gone. -/
def callback (here : CpuId) (gone : List StrandId) : TimerId → TimerSystem
  | .cbs s => if s ∈ gone then S.cbsCancelTimer here s else S
  | _ => S

def nextDeadline (t : KernelTimer) (now : Nat) : Nat :=
  let next := wrap (t.deadlineTod + t.intervalTod)
  if next ≤ now then
    wrap (t.deadlineTod + ((now - t.deadlineTod) / t.intervalTod + 1) * t.intervalTod) else next

/-- One turn of the loop of `timer_interrupt`. -/
def fire (cpu : CpuId) (now : Nat) (gone : List StrandId) (t : TimerId) : TimerSystem :=
  let S := S.heapRemove cpu t
  let S := S.setTimer t { S.timer t with armed := false }
  let S := if (S.timer t).callback then S.callback cpu gone t else S
  if (S.timer t).periodic && 0 < (S.timer t).intervalTod then
    let S := S.setTimer t { S.timer t with deadlineTod := nextDeadline (S.timer t) now, cpu }
    match S.heapPush cpu t with
    | none => S
    | some S => S.setTimer t { S.timer t with armed := true }
  else S

/-- The first turns of the loop of `timer_interrupt`. Without a bound: a deadline that wraps around
is due at once. -/
def timerInterrupt (cpu : CpuId) (now : Nat) (gone : List StrandId) :
    Nat → TimerSystem → TimerSystem
  | 0, S => S
  | turns + 1, S =>
    match (S.heap cpu).peek with
    | none => S
    | some t => if now < S.deadline t then S else
      timerInterrupt cpu now gone turns (S.fire cpu now gone t)

/-! ## The clients -/

/-- `bw_init` of a CPU's control block, called on `here`. -/
def bwInit (here cpu : CpuId) (tod : Nat) : TimerSystem :=
  let S := S.setTimer (.rtPeriod cpu)
    { deadlineTod := wrap (tod + rtPeriodTod), intervalTod := rtPeriodTod, callback := true,
      periodic := true
      armed := false, cpu }
  (S.timerAdd here (.rtPeriod cpu)).2

/-- A tick timer or the watchdog's is set up. Its `armed` is not written. -/
def startPeriodic (here : CpuId) (t : TimerId) (interval tod : Nat) : TimerSystem :=
  let S := S.setTimer t { S.timer t with
    deadlineTod := wrap (tod + interval), intervalTod := interval, callback := true,
      periodic := true }
  (S.timerAdd here t).2

/-- The timers of `sched_init`, with the clock readings of the two. -/
def schedInit (here : CpuId) (tod tod' : Nat) : TimerSystem :=
  (S.bwInit here 0 tod).startPeriodic here .bspTick tickIntervalTod tod'

/-- The timers of `sched_init_ap`. -/
def schedInitAp (here cpu : CpuId) (tod tod' : Nat) : TimerSystem :=
  (S.bwInit here cpu tod).startPeriodic here (.apTick cpu) tickIntervalTod tod'

def cpuUp (here cpu : CpuId) (tod : Nat) : TimerSystem := S.bwInit here cpu tod

def watchdogInit (here : CpuId) (tod : Nat) :
    TimerSystem := S.startPeriodic here .watchdog watchdogIntervalTod tod

/-- The timer of `deadline::admit`: `cbs::init` clears it, `cbs::install_timer` fills it in and
marks it armed, and then it is added. -/
def dlAdmit (here : CpuId) (s : StrandId) (cpu : CpuId) (nowNs : Nat) : TimerSystem :=
  let S := S.setTimer (.cbs s) {}
  let S := S.setTimer (.cbs s)
    { deadlineTod := wrap (nowNs + Sched.cbsPeriodDefaultNs),
      intervalTod := Sched.cbsPeriodDefaultNs
      callback := true, periodic := false, armed := true, cpu }
  (S.timerAdd here (.cbs s)).2

/-- The timer of `deadline::release_admission`. -/
def dlRelease (here : CpuId) (s : StrandId) : TimerSystem := S.cbsCancelTimer here s

def cpuTimer (cpu : CpuId) : TimerId := if cpu = 0 then .bspTick else .apTick cpu

def tickStop (here : CpuId) : TimerSystem :=
  if (S.timer (cpuTimer here)).armed then (S.timerCancel here (cpuTimer here)).2 else S

def tickStart (here : CpuId) (tod : Nat) : TimerSystem :=
  let t := cpuTimer here
  if !(S.timer t).armed then
    ((S.setTimer t { S.timer t with deadlineTod := wrap (tod + tickIntervalTod) }).timerAdd
      here t).2
  else S

end TimerSystem

/-! ## The machine -/

inductive TimerOp where
  | add (here : CpuId) (t : TimerId)
  | cancel (here : CpuId) (t : TimerId)
  | interrupt (here : CpuId) (now : Nat) (gone : List StrandId) (turns : Nat)
  | schedInit (here : CpuId) (tod tod' : Nat)
  | schedInitAp (here cpu : CpuId) (tod tod' : Nat)
  | cpuUp (here cpu : CpuId) (tod : Nat)
  | watchdogInit (here : CpuId) (tod : Nat)
  | dlAdmit (here : CpuId) (s : StrandId) (cpu : CpuId) (nowNs : Nat)
  | dlRelease (here : CpuId) (s : StrandId)
  | tickStop (here : CpuId)
  | tickStart (here : CpuId) (tod : Nat)
  deriving DecidableEq, Repr

def TimerOp.next (S : TimerSystem) : TimerOp → TimerSystem
  | .add here t => (S.timerAdd here t).2
  | .cancel here t => (S.timerCancel here t).2
  | .interrupt here now gone turns => S.timerInterrupt here now gone turns
  | .schedInit here tod tod' => S.schedInit here tod tod'
  | .schedInitAp here cpu tod tod' => S.schedInitAp here cpu tod tod'
  | .cpuUp here cpu tod => S.cpuUp here cpu tod
  | .watchdogInit here tod => S.watchdogInit here tod
  | .dlAdmit here s cpu nowNs => S.dlAdmit here s cpu nowNs
  | .dlRelease here s => S.dlRelease here s
  | .tickStop here => S.tickStop here
  | .tickStart here tod => S.tickStart here tod

structure Start (S : TimerSystem) : Prop where
  armed : ∀ t, (S.timer t).armed = false
  empty : ∀ c, (S.heap c).count = 0

def timerMachine : Machine TimerSystem TimerOp := .ofNext Start fun S op => some (op.next S)

/-!
## Armed timers are the ones in a heap

`Exact` is what the fields of a timer promise: an armed timer occurs once in the heap of its CPU and
nowhere else, with the deadline it was pushed with, and the heaps are ordered. The heap compares
deadlines through the pointers, so a client that writes the deadline of a queued timer breaks the
order; and one that writes `armed` makes a claim that nothing checks.

The two clients that reset a timer without asking whether it is queued (`bw_init` and the set-up of
a tick) keep this for a timer that is not; `cbs::install_timer` never does.
-/

open TimerSystem

namespace TimerSystem

/-- The timer is in the heap of its CPU, once, and in no other. -/
def Registered (S : TimerSystem) (t : TimerId) : Prop :=
  (S.heap (S.timer t).cpu).contents.count t = 1 ∧ ∀ c, c ≠ (S.timer t).cpu → t ∉ (S.heap c).contents

end TimerSystem

structure Exact (S : TimerSystem) : Prop where
  counted : ∀ c t, (S.heap c).contents.count t = if (S.timer t).armed = true ∧
    (S.timer t).cpu = c then 1 else 0
  stamped : ∀ t, (S.timer t).armed = true → S.deadline t = S.stamp t
  ordered : ∀ c, (S.heap c).IsHeap S.deadline

section Lookups

variable {S : TimerSystem} {t u : TimerId} {v : KernelTimer}

@[simp] theorem setTimer_self : (S.setTimer t v).timer t = v := update_self ..

theorem setTimer_of_ne (h : u ≠ t) : (S.setTimer t v).timer u = S.timer u := update_of_ne h ..

theorem deadline_setTimer_of_ne (h : u ≠ t) : (S.setTimer t v).deadline u = S.deadline u :=
  congrArg KernelTimer.deadlineTod (setTimer_of_ne h)

end Lookups

namespace Exact

variable {S S' : TimerSystem} {c : CpuId} {t : TimerId}

variable (h : Exact S)
include h

theorem mem_iff : t ∈ (S.heap c).contents ↔ (S.timer t).armed = true ∧ (S.timer t).cpu = c := by
  rw [← count_pos, h.counted]
  split
  · simp [*]
  · simp [*]

theorem not_mem (harmed : (S.timer t).armed = false) : t ∉ (S.heap c).contents :=
  fun hmem => by
    have := (h.mem_iff.mp hmem).1
    rw [harmed] at this
    cases this

/-- An armed timer is a registered one, and the others are in no heap. -/
theorem registered_iff : (S.timer t).armed = true ↔ S.Registered t := by
  constructor
  · intro harmed
    refine ⟨by rw [h.counted, if_pos ⟨harmed, rfl⟩], fun c hc hmem => ?_⟩
    exact hc (h.mem_iff.mp hmem).2.symm
  · intro hreg
    exact (h.mem_iff.mp (count_pos.mp (by rw [hreg.1]; exact Nat.one_pos))).1

theorem edited {v : KernelTimer} (hold : (S.timer t).armed = false) (hnew : v.armed = false) :
    Exact (S.setTimer t v) := by
  refine ⟨fun c u => ?_, fun u hu => ?_, fun c => (h.ordered c).congr fun u hu => ?_⟩
  · show (S.heap c).contents.count u = _
    rw [h.counted]
    by_cases hut : u = t
    · subst hut
      rw [setTimer_self, hold, hnew]
      rfl
    · rw [setTimer_of_ne hut]
  · by_cases hut : u = t
    · subst hut
      rw [setTimer_self, hnew] at hu
      cases hu
    · rw [setTimer_of_ne hut] at hu
      rw [deadline_setTimer_of_ne hut]
      exact h.stamped u hu
  · -- the entries of a heap are armed, and this timer is not
    exact deadline_setTimer_of_ne fun hut => h.not_mem hold (hut ▸ hu)

/-- A heap is replaced and the mark of one timer written, with the count of that timer in the heap
to match. -/
theorem refiled {q : MinHeap TimerId} {b : Bool} {stamp : TimerId → Nat}
    (hcpu : (S.timer t).cpu = c) (hself : q.contents.count t = if b = true then 1 else 0)
    (hother : ∀ u, u ≠ t → q.contents.count u = (S.heap c).contents.count u)
    (hheap : q.IsHeap S.deadline)
    (hstamp : b = true → stamp t = S.deadline t) (hstamps : ∀ u, u ≠ t → stamp u = S.stamp u) :
    Exact (setTimer { S with heap := update S.heap c q, stamp } t
      { S.timer t with armed := b }) := by
  generalize hS' : setTimer { S with heap := update S.heap c q, stamp } t
    { S.timer t with armed := b } = S'
  have htimer : S'.timer t = { S.timer t with armed := b } := by rw [← hS', setTimer_self]
  have htimers : ∀ u, u ≠ t → S'.timer u = S.timer u := fun u hu => by rw [← hS', setTimer_of_ne hu]
  have hqueue : S'.heap c = q := by rw [← hS']; exact update_self ..
  have hqueues : ∀ d, d ≠ c → S'.heap d = S.heap d :=
    fun d hd => by rw [← hS']; exact update_of_ne hd ..
  have hstamp' : S'.stamp = stamp := by rw [← hS']; rfl
  -- no deadline has changed
  have hdeadline : ∀ u, S'.deadline u = S.deadline u := by
    intro u
    unfold deadline
    by_cases hu : u = t
    · rw [hu, htimer]
    · rw [htimers u hu]
  refine ⟨fun d u => ?_, fun u harmed => ?_, fun d => ?_⟩
  · by_cases hd : d = c
    · subst hd
      rw [hqueue]
      by_cases hu : u = t
      · subst hu
        rw [htimer, hself]
        simp [hcpu]
      · rw [htimers u hu, hother u hu, h.counted]
    · rw [hqueues d hd, h.counted]
      by_cases hu : u = t
      · subst hu
        rw [htimer]
        simp [hcpu, Ne.symm hd]
      · rw [htimers u hu]
  · rw [hdeadline, hstamp']
    by_cases hu : u = t
    · subst hu
      rw [htimer] at harmed
      exact (hstamp harmed).symm
    · rw [htimers u hu] at harmed
      rw [hstamps u hu]
      exact h.stamped u harmed
  · by_cases hd : d = c
    · subst hd
      rw [hqueue]
      exact hheap.congr fun u _ => hdeadline u
    · rw [hqueues d hd]
      exact (h.ordered d).congr fun u _ => hdeadline u

theorem pushed (harmed : (S.timer t).armed = false) (hcpu : (S.timer t).cpu = c)
    (hpush : S.heapPush c t = some S') :
    Exact (S'.setTimer t { S'.timer t with armed := true }) := by
  obtain ⟨q, hq, rfl⟩ := Option.map_eq_some_iff.mp hpush
  have hcontents : q.contents = t ::ₘ (S.heap c).contents := MinHeap.contents_push hq
  refine h.refiled hcpu ?_ (fun u hu => ?_) ((h.ordered c).pushed hq) (fun _ => update_self ..)
    fun u hu => update_of_ne hu ..
  · rw [hcontents, count_cons_self, count_eq_zero_of_notMem (h.not_mem harmed), if_pos rfl]
  · rw [hcontents, count_cons_of_ne hu]

theorem removed (harmed : (S.timer t).armed = true) (hcpu : (S.timer t).cpu = c) :
    Exact ((S.heapRemove c t).setTimer t { (S.heapRemove c t).timer t with armed := false }) := by
  have hmem : t ∈ (S.heap c).contents := h.mem_iff.mpr ⟨harmed, hcpu⟩
  have hsome : ((S.heap c).remove S.timerLess t).isSome := MinHeap.remove_isSome hmem
  obtain ⟨q, hq⟩ := Option.isSome_iff_exists.mp hsome
  have hcontents : q.contents = (S.heap c).contents.erase t := (MinHeap.contents_remove hq).2
  have heq : S.heapRemove c t = { S with heap := update S.heap c q } := by
    simp only [heapRemove, hq]
  rw [heq]
  refine h.refiled hcpu ?_ (fun u hu => ?_) ((h.ordered c).removed hq) nofun fun _ _ => rfl
  · rw [hcontents, count_erase_self, h.counted, if_pos ⟨harmed, hcpu⟩]
    rfl
  · rw [hcontents, count_erase_of_ne hu]

/-! ## The calls -/

theorem added {here : CpuId} : Exact (S.timerAdd here t).2 := by
  unfold timerAdd
  split
  · exact h
  rename_i harmed
  have hoff : (S.timer t).armed = false := by simpa using harmed
  have hplaced : Exact (S.setTimer t { S.timer t with cpu := here }) := h.edited hoff hoff
  simp only
  split
  · exact hplaced
  · rename_i S' hpush
    exact hplaced.pushed (by rw [setTimer_self]; exact hoff) (by rw [setTimer_self]) hpush

theorem cancelled {here : CpuId} : Exact (S.timerCancel here t).2 := by
  unfold timerCancel
  split
  · exact h
  split
  · exact h
  · rename_i harmed hcpu
    exact h.removed (by simpa using harmed) (not_not.mp hcpu)

theorem cbsCancelled {here : CpuId} {s : StrandId}
    (hhere : (S.timer (.cbs s)).armed = true → (S.timer (.cbs s)).cpu = here) :
    Exact (S.cbsCancelTimer here s) := by
  unfold cbsCancelTimer
  split
  · rename_i harmed
    have hoff : ((S.timerCancel here (.cbs s)).2.timer (.cbs s)).armed = false := by
      simp [timerCancel, harmed, hhere harmed]
    exact h.cancelled.edited hoff rfl
  · exact h

variable {gone : List StrandId} {now : Nat}

theorem fired (hpeek : (S.heap c).peek = some t) : Exact (S.fire c now gone t) := by
  obtain ⟨harmed, hcpu⟩ := h.mem_iff.mp (MinHeap.mem_contents_of_peek hpeek)
  unfold fire
  simp only
  have hout := h.removed harmed hcpu
  generalize hS₁ : (S.heapRemove c t).setTimer t
    { (S.heapRemove c t).timer t with armed := false } = S₁ at hout ⊢
  have hoff : (S₁.timer t).armed = false := by rw [← hS₁, setTimer_self]
  -- the callback of a deadline strand finds its timer disarmed
  have hcallback : S₁.callback c gone t = S₁ := by
    cases t with
    | cbs s =>
      simp [callback, cbsCancelTimer, hoff]
    | _ => rfl
  rw [hcallback, ite_self]
  split
  · have hnext : Exact (S₁.setTimer t { S₁.timer t with
        deadlineTod := nextDeadline (S₁.timer t) now, cpu := c }) := hout.edited hoff hoff
    split
    · exact hnext
    · rename_i S' hpush
      exact hnext.pushed (by rw [setTimer_self]; exact hoff) (by rw [setTimer_self]) hpush
  · exact hout

theorem interrupted {turns : Nat} : Exact (S.timerInterrupt c now gone turns) := by
  induction turns generalizing S with
  | zero => exact h
  | succ turns ih =>
    unfold timerInterrupt
    split
    · exact h
    split
    · exact h
    · rename_i t hpeek _
      exact ih (h.fired hpeek)

/-! ## The clients -/

variable {tod : Nat}

theorem bwInited {cpu : CpuId} (hoff : (S.timer (.rtPeriod cpu)).armed = false) {here : CpuId} :
    Exact (S.bwInit here cpu tod) :=
  (h.edited hoff rfl).added

theorem periodicStarted (hoff : (S.timer t).armed = false) {here : CpuId} {interval : Nat} :
    Exact (S.startPeriodic here t interval tod) := by
  have hset : Exact (S.setTimer t { S.timer t with
      deadlineTod := wrap (tod + interval), intervalTod := interval, callback := true,
        periodic := true }) :=
    h.edited hoff hoff
  exact hset.added

theorem tickStopped {here : CpuId} : Exact (S.tickStop here) := by
  unfold tickStop
  split
  · exact h.cancelled
  · exact h

theorem tickStarted {here : CpuId} : Exact (S.tickStart here tod) := by
  unfold tickStart
  simp only
  split
  · rename_i harmed
    have hoff : (S.timer (cpuTimer here)).armed = false := by simpa using harmed
    have hset : Exact (S.setTimer (cpuTimer here) { S.timer (cpuTimer here) with
        deadlineTod := wrap (tod + tickIntervalTod) }) := h.edited hoff hoff
    exact hset.added
  · exact h

end Exact

/-- A timer that is set up again is not in a heap, a deadline strand is not admitted, and its timer
is cancelled on the CPU that has it. -/
def TimerOp.Orderly (S : TimerSystem) : TimerOp → Prop
  | .schedInit .. => (S.timer (.rtPeriod 0)).armed = false ∧ (S.timer .bspTick).armed = false
  | .schedInitAp _ cpu _ _ => (S.timer (.rtPeriod cpu)).armed = false ∧
    (S.timer (.apTick cpu)).armed = false
  | .cpuUp _ cpu _ => (S.timer (.rtPeriod cpu)).armed = false
  | .watchdogInit .. => (S.timer .watchdog).armed = false
  | .dlAdmit .. => False
  | .dlRelease here s => (S.timer (.cbs s)).armed = true → (S.timer (.cbs s)).cpu = here
  | _ => True

instance (S : TimerSystem) : DecidablePred (TimerOp.Orderly S) := fun op => by
  cases op <;> unfold TimerOp.Orderly <;> infer_instance

variable {S : TimerSystem}

theorem timerAdd_timer_of_ne {here : CpuId} {t u : TimerId} (hu : u ≠ t) :
    (S.timerAdd here t).2.timer u = S.timer u := by
  unfold timerAdd
  split
  · rfl
  simp only
  split
  · exact setTimer_of_ne hu
  rename_i S' hpush
  obtain ⟨q, _, rfl⟩ := Option.map_eq_some_iff.mp hpush
  rw [setTimer_of_ne hu]
  exact setTimer_of_ne hu

theorem bwInit_timer_of_ne {here cpu : CpuId} {tod : Nat} {t : TimerId} (ht : t ≠ .rtPeriod cpu) :
    (S.bwInit here cpu tod).timer t = S.timer t :=
  (timerAdd_timer_of_ne ht).trans (setTimer_of_ne ht)

theorem Start.exact (h : Start S) : Exact S where
  counted c t := by
    have hempty : (S.heap c).contents = 0 := by
      rw [MinHeap.contents, h.empty c]
      rfl
    rw [hempty, count_zero, h.armed t]
    rfl
  stamped t ht := by
    rw [h.armed t] at ht
    cases ht
  ordered c i _ hi := by
    rw [h.empty c] at hi
    cases hi

theorem Exact.step {op : TimerOp} (h : Exact S) (hop : op.Orderly S) : Exact (op.next S) := by
  cases op with
  | add here t => exact h.added
  | cancel here t => exact h.cancelled
  | interrupt here now gone turns => exact h.interrupted
  | schedInit here tod tod' =>
    have hoff : ((S.bwInit here 0 tod).timer .bspTick).armed = false := by
      rw [bwInit_timer_of_ne TimerId.noConfusion]
      exact hop.2
    exact (h.bwInited hop.1).periodicStarted hoff
  | schedInitAp here cpu tod tod' =>
    have hoff : ((S.bwInit here cpu tod).timer (.apTick cpu)).armed = false := by
      rw [bwInit_timer_of_ne TimerId.noConfusion]
      exact hop.2
    exact (h.bwInited hop.1).periodicStarted hoff
  | cpuUp here cpu tod => exact h.bwInited hop
  | watchdogInit here tod => exact h.periodicStarted hop
  | dlAdmit here s cpu nowNs => exact hop.elim
  | dlRelease here s => exact h.cbsCancelled hop
  | tickStop here => exact h.tickStopped
  | tickStart here tod => exact h.tickStarted

/-- The run invariant: every state that orderly steps reach is exact. -/
theorem Exact.of_reachable (h : (timerMachine.restrict fun S op => op.Orderly S).Reachable S) :
    Exact S := by
  refine h.invariant (P := Exact) (fun _ => Start.exact) ?_
  rintro S₁ op S₂ h₁ ⟨hop, hnext⟩
  obtain rfl := Option.some.inj hnext
  exact h₁.step hop

/-- In every state that orderly steps reach a timer is armed if and only if it is in the heap of its
CPU, once, and in no other; a timer that is not armed is in no heap; a queued timer has the deadline
it was pushed with; and the heaps are ordered. -/
theorem timer_registration_exact {S : TimerSystem}
    (h : (timerMachine.restrict fun S op => op.Orderly S).Reachable S) :
    (∀ t, ((S.timer t).armed = true ↔ S.Registered t) ∧
      ((S.timer t).armed = false → ∀ c, t ∉ (S.heap c).contents)) ∧
    (∀ c, ∀ t ∈ (S.heap c).contents, S.deadline t = S.stamp t) ∧
      ∀ c, (S.heap c).IsHeap S.deadline := by
  have hexact := Exact.of_reachable h
  refine ⟨fun t => ⟨hexact.registered_iff, fun hoff c => hexact.not_mem hoff⟩, fun c t ht => ?_,
    hexact.ordered⟩
  exact hexact.stamped t (hexact.mem_iff.mp ht).1

theorem timer_registration_exact_boot :
    ∃ S, (timerMachine.restrict fun S op => op.Orderly S).Reachable S ∧
      (S.timer .bspTick).armed = true ∧ S.deadline .bspTick = 81_920_000 ∧
      S.Registered .bspTick ∧ ∀ c, .apTick 1 ∉ (S.heap c).contents := by
  obtain ⟨S, hreach, harmed, hdeadline, hoff⟩ :
    ∃ S, (timerMachine.restrict fun S op => op.Orderly S).Reachable S ∧
      (S.timer .bspTick).armed = true ∧ S.deadline .bspTick = 81_920_000 ∧
        (S.timer (.apTick 1)).armed = false :=
    Machine.exists_reachable_restrict_ofNext (s := {})
      [.schedInit 0 0 0, .schedInitAp 1 1 0 0, .watchdogInit 0 0, .interrupt 0 41_000_000 [] 5,
        .tickStop 1]
      ⟨fun _ => rfl, fun _ => rfl⟩ (by decide +kernel)
  have hexact := (timer_registration_exact hreach).1
  exact ⟨S, hreach, harmed, hdeadline, (hexact .bspTick).1.mp harmed, (hexact (.apTick 1)).2 hoff⟩

/-- A turn of `timer_interrupt`, in any state that orderly steps reach, so also between two turns:
it fires the earliest armed timer of the CPU, which is due, or the loop ends and no armed timer of
the CPU is due. -/
theorem timer_interrupt_in_order {S : TimerSystem}
    (h : (timerMachine.restrict fun S op => op.Orderly S).Reachable S) (cpu : CpuId) (now : Nat)
    (gone : List StrandId) :
    (∃ t, S.timerInterrupt cpu now gone 1 = S.fire cpu now gone t ∧ (S.timer t).armed = true ∧
      (S.timer t).cpu = cpu ∧ S.deadline t ≤ now ∧
      ∀ u, (S.timer u).armed = true → (S.timer u).cpu = cpu → S.deadline t ≤ S.deadline u) ∨
    S.timerInterrupt cpu now gone 1 = S ∧
      ∀ u, (S.timer u).armed = true → (S.timer u).cpu = cpu → now < S.deadline u := by
  have hexact := Exact.of_reachable h
  have hleast : ∀ u, (S.timer u).armed = true → (S.timer u).cpu = cpu →
      ∃ t, (S.heap cpu).peek = some t ∧ S.deadline t ≤ S.deadline u := fun u harmed hcpu =>
    (hexact.ordered cpu).exists_peek_le (hexact.mem_iff.mpr ⟨harmed, hcpu⟩)
  unfold timerInterrupt
  cases hpeek : (S.heap cpu).peek with
  | none =>
    refine .inr ⟨rfl, fun u harmed hcpu => ?_⟩
    obtain ⟨t, ht, _⟩ := hleast u harmed hcpu
    cases hpeek.symm.trans ht
  | some t =>
    have hle : ∀ u, (S.timer u).armed = true → (S.timer u).cpu = cpu →
      S.deadline t ≤ S.deadline u := by
      intro u harmed hcpu
      obtain ⟨v, hv, hle⟩ := hleast u harmed hcpu
      obtain rfl := Option.some.inj (hpeek.symm.trans hv)
      exact hle
    by_cases hdue : now < S.deadline t
    · exact .inr ⟨if_pos hdue, fun u harmed hcpu => hdue.trans_le (hle u harmed hcpu)⟩
    · obtain ⟨harmed, hcpu⟩ := hexact.mem_iff.mp (MinHeap.mem_contents_of_peek hpeek)
      exact .inl ⟨t, if_neg hdue, harmed, hcpu, not_lt.mp hdue, hle⟩

theorem timer_interrupt_in_order_boot :
    ∃ S t, (timerMachine.restrict fun S op => op.Orderly S).Reachable S ∧
    S.timerInterrupt 0 41_000_000 [] 1 = S.fire 0 41_000_000 [] t := by
  obtain ⟨S, hreach, harmed, hcpu, hdue⟩ :
    ∃ S, (timerMachine.restrict fun S op => op.Orderly S).Reachable S ∧
      (S.timer .bspTick).armed = true ∧ (S.timer .bspTick).cpu = 0 ∧
        S.deadline .bspTick ≤ 41_000_000 :=
    Machine.exists_reachable_restrict_ofNext (s := {}) [.schedInit 0 0 0]
      ⟨fun _ => rfl, fun _ => rfl⟩ (by decide +kernel)
  rcases timer_interrupt_in_order hreach 0 41_000_000 [] with ⟨t, hfire, _⟩ | ⟨_, hnone⟩
  · exact ⟨S, t, hreach, hfire⟩
  · exact absurd (hnone _ harmed hcpu) (not_lt.mpr hdue)

/-- A deadline admission leaves an armed timer in no heap. A CPU that is brought up from another one
and then sets itself up has its period timer in the heaps of both. A second set-up of a tick moves
the deadline of the queued timer, and the heap is out of order. -/
theorem timer_registration_counterexample :
    (∃ S, timerMachine.Exec {} [.dlAdmit 0 7 0 0] S ∧ (S.timer (.cbs 7)).armed = true ∧
      ∀ c, .cbs 7 ∉ (S.heap c).contents) ∧
    (∃ S, timerMachine.Exec {} [.cpuUp 0 1 0, .schedInitAp 1 1 0 0] S ∧
      .rtPeriod 1 ∈ (S.heap 0).contents ∧ .rtPeriod 1 ∈ (S.heap 1).contents) ∧
    ∃ S, timerMachine.Exec {} [.schedInit 0 0 0, .schedInit 0 0 5_000_000_000] S ∧
      .bspTick ∈ (S.heap 0).contents ∧ S.deadline .bspTick ≠ S.stamp .bspTick ∧
      (S.heap 0).contents.count (.rtPeriod 0) = 2 ∧ ¬ (S.heap 0).IsHeap S.deadline := by
  refine ⟨?_, ?_, ?_⟩
  · refine ⟨_, .single rfl, rfl, fun c hmem => ?_⟩
    have hempty : ((TimerOp.dlAdmit 0 7 0 0).next {}).heap c =
      { entries := fun _ => default } := rfl
    rw [hempty] at hmem
    cases hmem
  · exact Machine.exists_exec_ofNext (by decide +kernel)
  · obtain ⟨S, hexec, hqueued, hmoved, htwice, hcount, hless⟩ : ∃ S,
        timerMachine.Exec {} [.schedInit 0 0 0, .schedInit 0 0 5_000_000_000] S ∧
        .bspTick ∈ (S.heap 0).contents ∧ S.deadline .bspTick ≠ S.stamp .bspTick ∧
        (S.heap 0).contents.count (.rtPeriod 0) = 2 ∧
        1 < (S.heap 0).count ∧
          S.deadline ((S.heap 0).entries 1) < S.deadline ((S.heap 0).entries 0) :=
      Machine.exists_exec_ofNext (by decide +kernel)
    exact ⟨S, hexec, hqueued, hmoved, htwice, fun hheap =>
      absurd (hheap 1 Nat.one_pos hcount) (not_le.mpr hless)⟩

/-!
## What the scheduler sees

`Sched.Timer` knows the timers of the scheduling classes only, and has a list for the heap of a CPU.
Both calls answer alike on the two sides, and the lists stay what the heaps hold of these timers.
The one difference is the room in a heap: the ticks and the watchdog take some of it, and the
scheduler does not count them.
-/

def ofName : Sched.TimerName → TimerId
  | .cbs s => .cbs s
  | .rtPeriod cpu => .rtPeriod cpu

theorem ofName_injective : Injective ofName := by
  rintro (s | c) (s' | c') h
  all_goals cases h
  all_goals rfl

/-- The scheduler has its timers as they are, and in its lists those of them that are in a heap. -/
structure Views (R : Sched.System) (S : TimerSystem) : Prop where
  timer : ∀ n, S.timer (ofName n) = R.timer n
  heap : ∀ c n, (S.heap c).contents.count (ofName n) = (R.heap c).count n

namespace Views

variable {R : Sched.System} {S : TimerSystem} {here : CpuId} {n : Sched.TimerName}

theorem setTimer (h : Views R S) (v : KernelTimer) :
    Views (R.setTimer n v) (S.setTimer (ofName n) v) := by
  refine ⟨fun m => ?_, fun c m => ?_⟩
  · rw [Sched.timer_setTimer]
    by_cases hm : m = n
    · rw [hm, setTimer_self, if_pos rfl]
    · rw [setTimer_of_ne (ofName_injective.ne hm), if_neg hm, h.timer]
  · rw [Sched.setTimer_heap]
    exact h.heap c m

/-- The heap of a CPU is replaced, and so is the list. -/
theorem refiled (h : Views R S) {c : CpuId} {q : MinHeap TimerId} {l : List Sched.TimerName}
    {stamp : TimerId → Nat} (hq : ∀ m, q.contents.count (ofName m) = l.count m) :
    Views { R with heap := update R.heap c l } { S with heap := update S.heap c q, stamp } := by
  refine ⟨fun m => (h.timer m).trans Sched.timer_heap.symm, fun d m => ?_⟩
  by_cases hd : d = c
  · subst hd
    simpa using hq m
  · simpa [update_of_ne hd] using h.heap d m

theorem length_le (h : Views R S) (c : CpuId) : (R.heap c).length ≤ (S.heap c).count := by
  have hle : (R.heap c : Multiset Sched.TimerName).map ofName ≤ (S.heap c).contents := by
    refine le_iff_count.mpr fun t => ?_
    by_cases ht : ∃ m, ofName m = t
    · obtain ⟨m, rfl⟩ := ht
      rw [count_map_eq_count' _ _ ofName_injective, h.heap, coe_count]
    · rw [count_eq_zero_of_notMem fun hmem => ht ?_]
      · exact Nat.zero_le _
      · obtain ⟨m, _, rfl⟩ := mem_map.mp hmem
        exact ⟨m, rfl⟩
  simpa [MinHeap.contents, MinHeap.first] using card_le_card hle

theorem marked (h : Views R S) (armed : Bool) :
    Views (R.setTimer n { R.timer n with armed })
      (S.setTimer (ofName n) { S.timer (ofName n) with armed }) := by
  rw [h.timer]
  exact h.setTimer _

theorem pushed (h : Views R S) {S' : TimerSystem} (hpush : S.heapPush here (ofName n) = some S') :
    Views { R with heap := update R.heap here (n :: R.heap here) } S' := by
  obtain ⟨q, hq, rfl⟩ := Option.map_eq_some_iff.mp hpush
  refine h.refiled fun m => ?_
  rw [MinHeap.contents_push hq, count_cons, List.count_cons, h.heap]
  by_cases hm : m = n
  · simp [hm]
  · simp [ofName_injective.ne hm, Ne.symm hm]

theorem removed (h : Views R S) :
    Views { R with heap := update R.heap here ((R.heap here).erase n) }
      (S.heapRemove here (ofName n)) := by
  unfold heapRemove
  cases hq : (S.heap here).remove S.timerLess (ofName n) with
  | some q =>
    refine h.refiled fun m => ?_
    rw [(MinHeap.contents_remove hq).2]
    by_cases hm : m = n
    · rw [hm, count_erase_self, List.count_erase_self, h.heap]
    · rw [count_erase_of_ne (ofName_injective.ne hm), List.count_erase_of_ne hm, h.heap]
  | none =>
    -- the timer is in neither, and the list stays as it is
    have hout : n ∉ R.heap here := by
      intro hmem
      have hin : ofName n ∈ (S.heap here).contents := by
        rw [← count_pos, h.heap]
        exact List.count_pos_iff.mpr hmem
      have hsome : ((S.heap here).remove S.timerLess (ofName n)).isSome :=
        MinHeap.remove_isSome hin
      rw [hq] at hsome
      cases hsome
    rw [List.erase_of_not_mem hout, update_eq_self]
    exact h

/-- `timer_add` on a CPU whose heap is not full. -/
theorem timerAdd (h : Views R S) (hroom : (S.heap here).count < timerHeapCapacity) :
    (S.timerAdd here (ofName n)).1 = (R.timerAdd here n).1 ∧
      Views (R.timerAdd here n).2 (S.timerAdd here (ofName n)).2 := by
  unfold TimerSystem.timerAdd Sched.System.timerAdd
  rw [h.timer]
  by_cases harmed : (R.timer n).armed = true
  · rw [if_pos harmed, if_pos harmed]
    exact ⟨rfl, h⟩
  have hplaced := h.setTimer (n := n) { R.timer n with cpu := here }
  have hshort := Nat.lt_of_le_of_lt (hplaced.length_le here) hroom
  rw [if_neg harmed, if_neg harmed]
  simp only [if_neg (Nat.not_le.mpr hshort)]
  cases hpush : (S.setTimer (ofName n) { R.timer n with cpu := here }).heapPush here (ofName n) with
  | none =>
    rw [heapPush, Option.map_eq_none_iff, MinHeap.push, ite_eq_left_iff] at hpush
    cases hpush (Nat.not_le.mpr hroom)
  | some S' => exact ⟨rfl, (hplaced.pushed hpush).marked true⟩

theorem timerCancel (h : Views R S) :
    (S.timerCancel here (ofName n)).1 = (R.timerCancel here n).1 ∧
      Views (R.timerCancel here n).2 (S.timerCancel here (ofName n)).2 := by
  unfold TimerSystem.timerCancel Sched.System.timerCancel
  rw [h.timer]
  split_ifs
  · exact ⟨rfl, h⟩
  · exact ⟨rfl, h⟩
  · exact ⟨rfl, h.removed.marked false⟩

end Views
end ZXFoundation.Sys.Timer
