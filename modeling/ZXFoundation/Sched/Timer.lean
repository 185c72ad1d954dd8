import ZXFoundation.Sched.Types

/-!
# Kernel timers

`sys/timer.zcomponent/core.cxx`. Every CPU has a heap of armed timers; `timer_add` refuses a timer
that is marked armed, and the clock-comparator interrupt takes the due timers out in the order of
their deadlines. The heap is a list here, of which the least deadline is taken.
-/

namespace ZXFoundation.Sched

open Function

variable (S : System) (here : CpuId) (cpu : CpuId) (name : TimerName)

namespace System

def nsToTod (ns : Nat) : Nat := ns * 4096 / 1000

def timerHeapCapacity : Nat := 256

def timer : TimerName → KernelTimer
  | .cbs s => (S.strand s).body.cbs.timer
  | .rtPeriod cpu => (S.rq cpu).rtBw.rtPeriodTimer

def setTimer (t : KernelTimer) : System :=
  match name with
  | .cbs s =>
    S.setStrand s { S.strand s with
      body := { (S.strand s).body with cbs := { (S.strand s).body.cbs with timer := t } } }
  | .rtPeriod cpu =>
    S.setRq cpu { S.rq cpu with rtBw := { (S.rq cpu).rtBw with rtPeriodTimer := t } }

def timerAdd : Except KernelError Unit × System :=
  if (S.timer name).armed then (.error (.generic .invalidArg), S)
  else
    let S := S.setTimer name { S.timer name with cpu := here }
    if timerHeapCapacity ≤ (S.heap here).length then (.error (.memory .outOfMemory), S)
    else
      let S := { S with heap := update S.heap here (name :: S.heap here) }
      (.ok (), S.setTimer name { S.timer name with armed := true })

def timerCancel : Except KernelError Unit × System :=
  if !(S.timer name).armed then (.error (.generic .invalidArg), S)
  else if (S.timer name).cpu ≠ here then (.error (.generic .notSupported), S)
  else
    let S := { S with heap := update S.heap here ((S.heap here).erase name) }
    (.ok (), S.setTimer name { S.timer name with armed := false })

/-- `heap.peek()`. -/
def nextTimer : Option TimerName :=
  (S.heap cpu).foldl (fun best name =>
    match best with
    | none => some name
    | some b => if (S.timer name).deadlineTod < (S.timer b).deadlineTod then some name
      else some b) none

def bwReplenish : System :=
  S.setRq cpu { S.rq cpu with rtBw := { (S.rq cpu).rtBw with rtTimeNs := 0, rtThrottled := false } }

def cbsCancelTimer (s : StrandId) : System :=
  if (S.timer (.cbs s)).armed then
    let S := (S.timerCancel here (.cbs s)).2
    S.setTimer (.cbs s) { S.timer (.cbs s) with armed := false }
  else S

/-- `cbs::replenish` and the new key of the callback that `deadline::admit` installs. -/
def cbsReplenish (s : StrandId) : System :=
  let cbs := (S.strand s).body.cbs
  let cbs := { cbs with periodDeadline := S.monotonicNow + cbs.periodNs, usedRuntimeNs := 0 }
  S.setStrand s { S.strand s with
    body := { (S.strand s).body with cbs, absoluteDeadlineNs := cbs.periodDeadline } }

def timerCallback : TimerName → System
  | .rtPeriod cpu => S.bwReplenish cpu
  | .cbs s =>
    match (S.strand s).owner with
    | none => S.cbsCancelTimer here s
    | some d => if (S.domain d).state = .active then S.cbsReplenish s else S.cbsCancelTimer here s

/-- One turn of the loop of `timer_interrupt`: the timer is taken out, runs, and a periodic one goes
back with its next deadline after now. -/
def fireTimer : System :=
  let S := { S with heap := update S.heap cpu ((S.heap cpu).erase name) }
  let S := S.setTimer name { S.timer name with armed := false }
  let S := if (S.timer name).callback then S.timerCallback cpu name else S
  let t := S.timer name
  if t.periodic && 0 < t.intervalTod then
    let next := t.deadlineTod + t.intervalTod
    let next :=
      if next ≤ S.tod then t.deadlineTod + ((S.tod - t.deadlineTod) / t.intervalTod + 1) *
        t.intervalTod
      else next
    let S := S.setTimer name { t with deadlineTod := next, cpu }
    if timerHeapCapacity ≤ (S.heap cpu).length then S
    else
      let S := { S with heap := update S.heap cpu (name :: S.heap cpu) }
      S.setTimer name { S.timer name with armed := true }
  else S

end System

/-! ## The timers after a write -/

section Writes

open Sched.System

variable {S : System} {name n : TimerName} {t : KernelTimer}

theorem timer_setTimer : (S.setTimer name t).timer n = if n = name then t else S.timer n := by
  cases name <;> cases n <;> simp only [System.setTimer, timer, setStrand_strand, setRq_rq,
    setStrand_rq, setRq_strand, TimerName.cbs.injEq, TimerName.rtPeriod.injEq, reduceCtorEq,
    if_false]
  all_goals split <;> simp_all [update_of_ne]

theorem setTimer_heap : (S.setTimer name t).heap = S.heap := by
  cases name <;> rfl

theorem timer_heap {heap : CpuId → List TimerName} :
    timer { S with heap } name = S.timer name := by
  cases name <;> rfl

end Writes

end ZXFoundation.Sched
