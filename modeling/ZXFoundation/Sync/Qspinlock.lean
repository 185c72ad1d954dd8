import Mathlib.Data.List.Chain
import Mathlib.Data.List.Nodup
import Mathlib.Data.List.Pairwise
import ZXFoundation.Lib.Run

/-!
# The queued spin lock

`sync/qspinlock.zcomponent`: one 32-bit word holds the lock bit, the bit of one pending waiter and
the tail of a queue of MCS nodes, which are the four `qnodes` of each CPU's `percpu_data`.

Every access to a lock word or to a node that another CPU can see is a step of its own. A handler
may interrupt a CPU at any step and lock other locks before it returns; `lock_depth` gives each of
these contexts a node of its own. The stores that make a fresh node ready, and `lock_depth` with its
check, are one step each.
-/

namespace ZXFoundation.Sync.Qspinlock

open Runs Function

abbrev LockId := Nat
abbrev CpuId := UInt16
abbrev Word := BitVec 32

/-! ## The word -/

def lockedVal : Word := 1#32

def pendingVal : Word := 2#32

def lockedMask : Word := lockedVal ||| pendingVal

def tailOffset : Nat := 2

def tailMask : Word := ~~~lockedMask

def nodeBits : Nat := 2

def nodeMask : Word := (1#32 <<< nodeBits) - 1#32

def encodeTail (cpu : CpuId) (idx : Nat) : Word :=
  (((BitVec.ofNat 32 cpu.toNat + 1#32) <<< nodeBits) |||
    (BitVec.ofNat 32 idx &&& nodeMask)) <<< tailOffset

def decodeTailCpu (v : Word) : CpuId :=
  UInt16.ofNat ((((v &&& tailMask) >>> tailOffset) >>> nodeBits) - 1#32).toNat

def decodeTailNode (v : Word) : Nat := (((v &&& tailMask) >>> tailOffset) &&& nodeMask).toNat

/-! ## Nodes and contexts -/

def mcsMaxLockDepth : Nat := 4

/-- A pointer to `qnodes[idx]` of a CPU. -/
structure NodeRef where
  cpu : CpuId
  idx : Nat
  deriving DecidableEq, Repr

structure McsNode where
  next : Option NodeRef := none
  locked : Bool := false
  deriving DecidableEq, Repr

/-- A context of a CPU: level 0 is what the CPU does when no handler runs, level 1 the handler that
interrupted it, and so on. -/
structure Thread where
  cpu : CpuId
  level : Nat
  deriving DecidableEq, Repr

/-- Where a context is, with the local variables that are live there. -/
inductive Place where
  | out
  /-- The swap of `try_lock`, and that of `lock`. -/
  | tryCas (l : LockId)
  | fastCas (l : LockId)
  /-- The first load of `lock_slow`. -/
  | slowLoad (l : LockId)
  | pendingCas (l : LockId)
  | pendingSpin (l : LockId)
  /-- `pending_to_locked`: the load, and the loop with `expected`. -/
  | convertLoad (l : LockId)
  | convertCas (l : LockId) (expected : Word)
  | takeNode (l : LockId)
  | initNode (l : LockId) (idx : Nat)
  | tailLoad (l : LockId) (idx : Nat)
  | tailCas (l : LockId) (idx : Nat) (oldVal : Word)
  /-- The store to `prev_node->next`. -/
  | link (l : LockId) (idx : Nat) (prev : NodeRef)
  /-- The wait for `node->locked`, and that for the two bits of the word. -/
  | spinLocked (l : LockId) (idx : Nat)
  | spinWord (l : LockId) (idx : Nat)
  | soloCas (l : LockId) (idx : Nat)
  | fetchOr (l : LockId) (idx : Nat)
  /-- The wait for `node->next`, and the store to `next_node->locked`. -/
  | spinNext (l : LockId) (idx : Nat)
  | passOn (l : LockId) (idx : Nat) (next : NodeRef)
  | giveNode (l : LockId) (idx : Nat)
  /-- `disabled_wait`. -/
  | stopped
  deriving DecidableEq, Repr

/-- The locks and the CPUs. `level` is the context that runs on a CPU. The source keeps none of the
last three: the locks a context has and has not given back, and for each lock the contexts that have
put themselves on its queue and those that have got it from there, in the order they did. -/
structure LockSystem where
  word : LockId → Word := fun _ => 0#32
  node : NodeRef → McsNode := fun _ => {}
  depth : CpuId → Nat := fun _ => 0
  level : CpuId → Nat := fun _ => 0
  place : Thread → Place := fun _ => .out
  held : Thread → List LockId := fun _ => []
  entered : LockId → List Thread := fun _ => []
  served : LockId → List Thread := fun _ => []

variable (S : LockSystem) (t : Thread) (l : LockId)

namespace LockSystem

def setPlace (p : Place) : LockSystem :=
  { S with place := update S.place t p }

def setWord (v : Word) : LockSystem :=
  { S with word := update S.word l v }

def setNode (n : NodeRef) (v : McsNode) : LockSystem :=
  { S with node := update S.node n v }

def setDepth (c : CpuId) (d : Nat) : LockSystem :=
  { S with depth := update S.depth c d }

def setHeld (ls : List LockId) : LockSystem :=
  { S with held := update S.held t ls }

/-- The context has the lock from here on. -/
def acquired : LockSystem := S.setHeld t (l :: S.held t)

/-- The context is on the queue of the lock from here on. -/
def enqueued : LockSystem :=
  { S with entered := update S.entered l (S.entered l ++ [t]) }

/-- The context gets the lock from the queue. -/
def dequeued : LockSystem :=
  { S with served := update S.served l (S.served l ++ [t]) }

/-- Where `lock_slow` goes with the value that its swap of the tail replaced. -/
def afterTail (idx : Nat) (oldVal : Word) : Place :=
  if oldVal &&& tailMask ≠ 0#32 then .link l idx ⟨decodeTailCpu oldVal, decodeTailNode oldVal⟩
  else .spinWord l idx

/-- One step of a context in `lock` or `try_lock`. `fails` makes a weak compare-and-swap fail
although the word is the expected one. -/
def go (fails : Bool) : Option LockSystem :=
  match S.place t with
  | .out => none
  | .tryCas l =>
    if S.word l = 0#32 then some (((S.setWord l lockedVal).acquired t l).setPlace t .out)
    else some (S.setPlace t .out)
  | .fastCas l =>
    if S.word l = 0#32 then some (((S.setWord l lockedVal).acquired t l).setPlace t .out)
    else some (S.setPlace t (.slowLoad l))
  | .slowLoad l =>
    if S.word l &&& lockedMask = lockedVal ∧ S.word l &&& tailMask = 0#32 then
      some (S.setPlace t (.pendingCas l))
    else some (S.setPlace t (.takeNode l))
  | .pendingCas l =>
    if S.word l = lockedVal then
      some ((S.setWord l (lockedVal ||| pendingVal)).setPlace t (.pendingSpin l))
    else some (S.setPlace t (.takeNode l))
  | .pendingSpin l =>
    if S.word l &&& lockedVal ≠ 0#32 then some S else some (S.setPlace t (.convertLoad l))
  | .convertLoad l => some (S.setPlace t (.convertCas l (S.word l)))
  | .convertCas l expected =>
    if expected &&& lockedVal ≠ 0#32 then some (S.setPlace t (.convertLoad l))
    else if S.word l = expected ∧ !fails then
      some (((S.setWord l ((expected &&& ~~~pendingVal) ||| lockedVal)).acquired t l).setPlace t
        .out)
    else some (S.setPlace t (.convertCas l (S.word l)))
  | .takeNode l =>
    if S.depth t.cpu ≥ mcsMaxLockDepth then some (S.setPlace t .stopped)
    else some ((S.setDepth t.cpu (S.depth t.cpu + 1)).setPlace t (.initNode l (S.depth t.cpu)))
  | .initNode l idx =>
    some ((S.setNode ⟨t.cpu, idx⟩ { next := none, locked := true }).setPlace t (.tailLoad l idx))
  | .tailLoad l idx => some (S.setPlace t (.tailCas l idx (S.word l)))
  | .tailCas l idx oldVal =>
    if S.word l = oldVal ∧ !fails then
      some (((S.setWord l
        ((oldVal &&& lockedMask) ||| encodeTail t.cpu idx)).enqueued t l).setPlace t
          (afterTail l idx oldVal))
    else some (S.setPlace t (.tailCas l idx (S.word l)))
  | .link l idx prev =>
    some ((S.setNode prev { S.node prev with next := some ⟨t.cpu, idx⟩ }).setPlace t
      (.spinLocked l idx))
  | .spinLocked l idx =>
    if (S.node ⟨t.cpu, idx⟩).locked then some S else some (S.setPlace t (.spinWord l idx))
  | .spinWord l idx =>
    if S.word l &&& lockedMask ≠ 0#32 then some S else some (S.setPlace t (.soloCas l idx))
  | .soloCas l idx =>
    if S.word l = encodeTail t.cpu idx then
      some ((((S.setWord l lockedVal).acquired t l).dequeued t l).setPlace t (.giveNode l idx))
    else some (S.setPlace t (.fetchOr l idx))
  | .fetchOr l idx =>
    some ((((S.setWord l (S.word l ||| lockedVal)).acquired t l).dequeued t l).setPlace t
      (.spinNext l idx))
  | .spinNext l idx =>
    match (S.node ⟨t.cpu, idx⟩).next with
    | none => some S
    | some next => some (S.setPlace t (.passOn l idx next))
  | .passOn l idx next =>
    some ((S.setNode next { S.node next with locked := false }).setPlace t (.giveNode l idx))
  | .giveNode _ _ => some ((S.setDepth t.cpu (S.depth t.cpu - 1)).setPlace t .out)
  | .stopped => none

def unlock : LockSystem :=
  (S.setWord l (S.word l &&& ~~~lockedVal)).setHeld t ((S.held t).erase l)

def running (c : CpuId) : Thread := ⟨c, S.level c⟩

end LockSystem

/-! ## The machine -/

inductive LockOp where
  | lock (c : CpuId) (l : LockId)
  | tryLock (c : CpuId) (l : LockId)
  | unlock (c : CpuId) (l : LockId)
  | go (c : CpuId) (fails : Bool)
  /-- A handler starts on the CPU, and returns. -/
  | interrupt (c : CpuId)
  | resume (c : CpuId)
  deriving DecidableEq, Repr

/-- One step. A context unlocks what it has locked itself, a handler returns when it has given back
what it has taken, and at most four contexts are nested. -/
def LockOp.next : LockOp → Option LockSystem
  | .lock c l => if S.place (S.running c) = .out then some (S.setPlace (S.running c) (.fastCas l))
    else none
  | .tryLock c l => if S.place (S.running c) = .out then some (S.setPlace (S.running c) (.tryCas l))
    else none
  | .unlock c l =>
    if S.place (S.running c) = .out ∧ l ∈ S.held (S.running c) then some (S.unlock (S.running c) l)
      else none
  | .go c fails => S.go (S.running c) fails
  | .interrupt c =>
    if S.level c + 1 < mcsMaxLockDepth then
      some { S with level := update S.level c (S.level c + 1) }
    else none
  | .resume c =>
    if S.level c ≠ 0 ∧ S.place (S.running c) = .out ∧ S.held (S.running c) = [] then
      some { S with level := update S.level c (S.level c - 1) }
    else none

/-- Every lock is free and no CPU is in a lock; the nodes hold anything. -/
structure Start (S : LockSystem) : Prop where
  word : ∀ l, S.word l = 0#32
  depth : ∀ c, S.depth c = 0
  level : ∀ c, S.level c = 0
  place : ∀ t, S.place t = .out
  held : ∀ t, S.held t = []
  entered : ∀ l, S.entered l = []
  served : ∀ l, S.served l = []

def lockMachine : Machine LockSystem LockOp := .ofNext Start LockOp.next

/-!
## The lock word

A lock word is a tail joined with the two low bits. What `core.cxx` does to a word is stated here on
these two parts, and `decode_tail_cpu` and `decode_tail_node` are shown to give back what
`encode_tail` was given, whatever the low bits are.
-/

open Place LockSystem List BitVec Option

theorem and_not_of_and_eq_zero {v m : Word} (h : v &&& m = 0#32) : v &&& ~~~m = v := by
  calc v &&& ~~~m = v &&& m ||| v &&& ~~~m := by rw [h, zero_or]
    _ = v &&& (m ||| ~~~m) := and_or_distrib_left.symm
    _ = v := by rw [or_not_self, and_allOnes]

/-! ## The two low bits -/

/-- The low bits of a word whose lock bit and pending bit are as given. -/
def lowBits (held pending : Bool) : Word :=
  (if held then lockedVal else 0#32) ||| (if pending then pendingVal else 0#32)

def IsTail (v : Word) : Prop := v &&& lockedMask = 0#32

theorem IsTail.zero : IsTail 0#32 := by
  unfold IsTail
  decide

variable {v v' : Word} {k k' p p' : Bool}

section

variable (h : IsTail v)
include h

theorem IsTail.and_lockedVal : v &&& lockedVal = 0#32 := by
  have hmask : lockedVal = lockedMask &&& lockedVal := by decide
  rw [hmask, ← BitVec.and_assoc, show v &&& lockedMask = 0#32 from h, zero_and]

theorem IsTail.and_pendingVal : v &&& pendingVal = 0#32 := by
  have hmask : pendingVal = lockedMask &&& pendingVal := by decide
  rw [hmask, ← BitVec.and_assoc, show v &&& lockedMask = 0#32 from h, zero_and]

theorem IsTail.or_and_lockedMask : (v ||| lowBits k p) &&& lockedMask = lowBits k p := by
  rw [and_or_distrib_right, show v &&& lockedMask = 0#32 from h, zero_or]
  revert k p
  decide

theorem IsTail.or_and_tailMask : (v ||| lowBits k p) &&& tailMask = v := by
  have hlow : lowBits k p &&& tailMask = 0#32 := by
    revert k p
    decide
  rw [and_or_distrib_right, hlow, or_zero]
  exact and_not_of_and_eq_zero h

theorem IsTail.or_and_lockedVal : (v ||| lowBits k p) &&& lockedVal = lowBits k false := by
  rw [and_or_distrib_right, h.and_lockedVal, zero_or]
  revert k p
  decide

omit h in
theorem or_or_lockedVal : (v ||| lowBits k p) ||| lockedVal = v ||| lowBits true p := by
  have hlow : lowBits k p ||| lockedVal = lowBits true p := by
    revert k p
    decide
  rw [BitVec.or_assoc, hlow]

theorem IsTail.or_and_not_lockedVal :
    (v ||| lowBits k p) &&& ~~~lockedVal = v ||| lowBits false p := by
  have hlow : lowBits k p &&& ~~~lockedVal = lowBits false p := by
    revert k p
    decide
  rw [and_or_distrib_right, hlow, and_not_of_and_eq_zero h.and_lockedVal]

theorem IsTail.or_converted :
    ((v ||| lowBits k p) &&& ~~~pendingVal) ||| lockedVal = v ||| lowBits true false := by
  have hlow : lowBits k p &&& ~~~pendingVal ||| lockedVal = lowBits true false := by
    revert k p
    decide
  rw [and_or_distrib_right, and_not_of_and_eq_zero h.and_pendingVal, BitVec.or_assoc, hlow]

omit h in
theorem lowBits_inj : lowBits k p = lowBits k' p' ↔ k = k' ∧ p = p' := by
  revert k p k' p'
  decide

theorem IsTail.or_inj (h' : IsTail v') :
    v ||| lowBits k p = v' ||| lowBits k' p' ↔ v = v' ∧ k = k' ∧ p = p' := by
  constructor
  · intro heq
    refine ⟨?_, ?_⟩
    · have hmasked := congrArg (· &&& tailMask) heq
      simpa only [h.or_and_tailMask, h'.or_and_tailMask] using hmasked
    · have hmasked := congrArg (· &&& lockedMask) heq
      simpa only [h.or_and_lockedMask, h'.or_and_lockedMask, lowBits_inj] using hmasked
  · rintro ⟨rfl, rfl, rfl⟩
    rfl

/-! ## The tail -/

end

variable {i : Nat}

theorem encodeTail_toNat (c : CpuId) (hi : i < mcsMaxLockDepth) :
    (encodeTail c i).toNat = 16 * (c.toNat + 1) + 4 * i := by
  have hc : c.toNat < 2 ^ 16 := c.toNat_lt
  have hi' : i < 4 := hi
  -- the index fits in the two bits that the number of the CPU leaves free
  have hnode : (BitVec.ofNat 32 i &&& nodeMask).toNat = i := by
    rw [BitVec.toNat_and, show nodeMask.toNat = 2 ^ 2 - 1 from by decide,
      Nat.and_two_pow_sub_one_eq_mod,
      BitVec.toNat_ofNat]
    omega
  have hcpu : ((BitVec.ofNat 32 c.toNat + 1#32) <<< nodeBits).toNat = (c.toNat + 1) <<< 2 := by
    rw [BitVec.toNat_shiftLeft, BitVec.toNat_add, BitVec.toNat_ofNat, BitVec.toNat_ofNat, nodeBits,
      Nat.shiftLeft_eq, Nat.shiftLeft_eq]
    omega
  rw [encodeTail, BitVec.toNat_shiftLeft, BitVec.toNat_or, hnode, hcpu,
    ← Nat.shiftLeft_add_eq_or_of_lt hi',
    tailOffset, Nat.shiftLeft_eq, Nat.shiftLeft_eq]
  omega

theorem isTail_encodeTail {c : CpuId} : IsTail (encodeTail c i) := by
  unfold IsTail encodeTail tailOffset
  generalize ((BitVec.ofNat 32 c.toNat + 1#32) <<< nodeBits) ||| (BitVec.ofNat 32 i &&& nodeMask) =
    x
  apply BitVec.eq_of_toNat_eq
  rw [BitVec.toNat_and, show lockedMask.toNat = 2 ^ 2 - 1 from by decide,
    Nat.and_two_pow_sub_one_eq_mod,
    BitVec.toNat_shiftLeft, Nat.shiftLeft_eq, BitVec.toNat_ofNat]
  omega

theorem encodeTail_ne_zero (c : CpuId) (hi : i < mcsMaxLockDepth) : encodeTail c i ≠ 0#32 := by
  intro hzero
  have hnat := encodeTail_toNat c hi
  rw [hzero, toNat_ofNat] at hnat
  omega

/-- `decode_tail_cpu` and `decode_tail_node` undo `encode_tail`, whatever the low bits are. -/
theorem decode_encodeTail (c : CpuId) (hi : i < mcsMaxLockDepth) :
    decodeTailCpu (encodeTail c i ||| lowBits k p) = c ∧
      decodeTailNode (encodeTail c i ||| lowBits k p) = i := by
  have hc : c.toNat < 2 ^ 16 := c.toNat_lt
  have hi' : i < 4 := hi
  have hnat := encodeTail_toNat c hi
  refine ⟨?_, ?_⟩
  · rw [decodeTailCpu, isTail_encodeTail.or_and_tailMask]
    have hcpu : ((encodeTail c i >>> tailOffset) >>> nodeBits - 1#32).toNat = c.toNat := by
      rw [toNat_sub, toNat_ushiftRight, toNat_ushiftRight, hnat, tailOffset, nodeBits,
        Nat.shiftRight_eq_div_pow, Nat.shiftRight_eq_div_pow, toNat_ofNat]
      omega
    rw [hcpu, UInt16.ofNat_toNat]
  · rw [decodeTailNode, isTail_encodeTail.or_and_tailMask, toNat_and,
      show nodeMask.toNat = 2 ^ 2 - 1 from by
        decide, Nat.and_two_pow_sub_one_eq_mod, toNat_ushiftRight,
      hnat, tailOffset, Nat.shiftRight_eq_div_pow]
    omega

theorem encodeTail_inj {c c' : CpuId} {i' : Nat} (hi : i < mcsMaxLockDepth)
    (hi' : i' < mcsMaxLockDepth) :
    encodeTail c i = encodeTail c' i' ↔ c = c' ∧ i = i' := by
  constructor
  · intro heq
    have h := decode_encodeTail (k := false) (p := false) c hi
    have h' := decode_encodeTail (k := false) (p := false) c' hi'
    rw [heq] at h
    exact ⟨h.1.symm.trans h'.1, h.2.symm.trans h'.2⟩
  · rintro ⟨rfl, rfl⟩
    rfl

/-!
## The nodes

`lock_depth` hands out the nodes of a CPU to its nested contexts. Only the innermost context runs,
and it has given back its node before the one below it goes on; so no two contexts have one node at
a time (`Stacked`), and four nested contexts never find the four nodes used up.
-/

/-! ## What a place says about its context -/

namespace Place

/-- The lock that the call is for. -/
def lock : Place → Option LockId
  | .out | .stopped => none
  | .tryCas l | .fastCas l | .slowLoad l | .pendingCas l | .pendingSpin l | .convertLoad l
  | .convertCas l _
  | .takeNode l | .initNode l _ | .tailLoad l _ | .tailCas l _ _ | .link l _ _ | .spinLocked l _
  | .spinWord l _ | .soloCas l _ | .fetchOr l _ | .spinNext l _ | .passOn l _ _ | .giveNode l _ =>
    some l

def idx : Place → Option Nat
  | .initNode _ i | .tailLoad _ i | .tailCas _ i _ | .link _ i _ | .spinLocked _ i | .spinWord _ i
  | .soloCas _ i | .fetchOr _ i | .spinNext _ i | .passOn _ i _ | .giveNode _ i => some i
  | _ => none

def pendsOn : Place → Option LockId
  | .pendingSpin l | .convertLoad l | .convertCas l _ => some l
  | _ => none

def waitsOn : Place → Option LockId
  | .link l _ _ | .spinLocked l _ | .spinWord l _ | .soloCas l _ | .fetchOr l _ => some l
  | _ => none

/-- The lock that the context has got from its queue and whose next waiter it has not told. -/
def passesOn : Place → Option LockId
  | .spinNext l _ | .passOn l _ _ => some l
  | _ => none

variable {p : Place} {l : LockId}

theorem lock_of_pendsOn (h : p.pendsOn = some l) : p.lock = some l := by
  cases p <;> simp_all [pendsOn, lock]

theorem lock_of_waitsOn (h : p.waitsOn = some l) : p.lock = some l := by
  cases p <;> simp_all [waitsOn, lock]

theorem lock_of_passesOn (h : p.passesOn = some l) : p.lock = some l := by
  cases p <;> simp_all [passesOn, lock]

theorem idx_of_waitsOn (h : p.waitsOn = some l) : ∃ i, p.idx = some i := by
  cases p <;> simp_all [waitsOn, idx]

theorem idx_of_passesOn (h : p.passesOn = some l) : ∃ i, p.idx = some i := by
  cases p <;> simp_all [passesOn, idx]

end Place

/-! ## The nodes of a CPU -/

namespace LockSystem

/-- The nodes that the contexts of a CPU below a level have. -/
def nodesBelow (S : LockSystem) (c : CpuId) (n : Nat) : List Nat :=
  (List.range n).filterMap fun m => (S.place ⟨c, m⟩).idx

/-- The node of a context that has one. -/
def nodeOf (S : LockSystem) (t : Thread) : NodeRef := ⟨t.cpu, (S.place t).idx.getD 0⟩

variable {S S' : LockSystem} {t : Thread} {c : CpuId} {i n : Nat} {p : Place}

theorem nodesBelow_succ :
    S.nodesBelow c (n + 1) = S.nodesBelow c n ++ (S.place ⟨c, n⟩).idx.toList := by
  rw [nodesBelow, range_succ, filterMap_append, nodesBelow]
  cases h : (S.place ⟨c, n⟩).idx <;> simp [h]

theorem nodesBelow_congr (h : ∀ m < n, (S'.place ⟨c, m⟩).idx = (S.place ⟨c, m⟩).idx) :
    S'.nodesBelow c n = S.nodesBelow c n :=
  filterMap_congr fun m hm => h m (mem_range.mp hm)

theorem mem_nodesBelow (hlt : t.level < n) (ht : (S.place t).idx = some i) :
    i ∈ S.nodesBelow t.cpu n :=
  mem_filterMap.mpr ⟨t.level, mem_range.mpr hlt, ht⟩

theorem nodeOf_congr (h : (S'.place t).idx = (S.place t).idx) : S'.nodeOf t = S.nodeOf t := by
  rw [nodeOf, nodeOf, h]

theorem nodeOf_of_idx (h : (S.place t).idx = some i) : S.nodeOf t = ⟨t.cpu, i⟩ := by
  rw [nodeOf, h, getD_some]

end LockSystem

/-- On each CPU the contexts that have a node have `0`, `1`, … in the order in which they are
nested. -/
structure Stacked (S : LockSystem) : Prop where
  stack : ∀ c, S.nodesBelow c (S.level c + 1) = List.range (S.depth c)
  above : ∀ t : Thread, S.level t.cpu < t.level → S.place t = .out
  nested : ∀ c, S.level c < mcsMaxLockDepth

namespace Stacked

variable {S S' : LockSystem} {t t' : Thread} {c : CpuId} {i i' : Nat} {p : Place}

variable (h : Stacked S)
include h

theorem level_le (ht : (S.place t).idx = some i) : t.level ≤ S.level t.cpu := by
  by_contra hlt
  rw [h.above t (by omega)] at ht
  exact absurd ht (by simp [idx])

theorem depth_le (c : CpuId) : S.depth c ≤ S.level c + 1 := by
  have hlen := congrArg length (h.stack c)
  rw [length_range] at hlen
  calc S.depth c = (S.nodesBelow c (S.level c + 1)).length := hlen.symm
    _ ≤ (range (S.level c + 1)).length := length_filterMap_le _ _
    _ = S.level c + 1 := length_range

theorem idx_lt (ht : (S.place t).idx = some i) : i < mcsMaxLockDepth := by
  have hmem := mem_nodesBelow (Nat.lt_succ_of_le (h.level_le ht)) ht
  rw [h.stack, mem_range] at hmem
  have hdepth := h.depth_le t.cpu
  have hnested := h.nested t.cpu
  omega

theorem depth_lt (hnone : (S.place (S.running c)).idx = none) : S.depth c < mcsMaxLockDepth := by
  have hstack := h.stack c
  rw [nodesBelow_succ, show S.place ⟨c, S.level c⟩ = S.place (S.running c) from rfl, hnone,
    toList_none, append_nil] at hstack
  have hlen := congrArg length hstack
  rw [length_range] at hlen
  calc S.depth c = (S.nodesBelow c (S.level c)).length := hlen.symm
    _ ≤ (range (S.level c)).length := length_filterMap_le _ _
    _ = S.level c := length_range
    _ < mcsMaxLockDepth := h.nested c

theorem nodeOf_inj (ht : (S.place t).idx = some i) (ht' : (S.place t').idx = some i')
    (heq : S.nodeOf t = S.nodeOf t') : t = t' := by
  rw [nodeOf_of_idx ht, nodeOf_of_idx ht', NodeRef.mk.injEq] at heq
  obtain ⟨c, n⟩ := t
  obtain ⟨c', n'⟩ := t'
  obtain ⟨rfl, rfl⟩ : c = c' ∧ i = i' := heq
  -- the nodes of the CPU are all different, so the two levels that have this one are the same
  have hnodup : (S.nodesBelow c (S.level c + 1)).Nodup := h.stack c ▸ nodup_range
  rw [List.Nodup, nodesBelow, pairwise_filterMap] at hnodup
  have hsymm : Std.Symm fun n m : Nat =>
      ∀ b, (S.place ⟨c, n⟩).idx = some b → ∀ b', (S.place ⟨c, m⟩).idx = some b' → b ≠ b' :=
    ⟨fun n m hnm b hb b' hb' => (hnm b' hb' b hb).symm⟩
  have hmem := mem_range.mpr (Nat.lt_succ_of_le (h.level_le ht))
  have hmem' := mem_range.mpr (Nat.lt_succ_of_le (h.level_le ht'))
  by_contra hne
  have hlevel : n ≠ n' := fun hlevel => hne (by rw [hlevel])
  exact hnodup.forall hmem hmem' hlevel i ht i ht' rfl

section

variable (hplace : S'.place = update S.place (S.running c) p)
include hplace

/-- The running context moves and the nodes of the contexts below it are as they were. -/
theorem moved (hlevel : S'.level = S.level) (hdepth : ∀ c' ≠ c, S'.depth c' = S.depth c')
    (hstack : S.nodesBelow c (S.level c) ++ p.idx.toList = range (S'.depth c)) : Stacked S' := by
  refine ⟨?_, ?_, ?_⟩
  · intro c'
    rw [hlevel, nodesBelow_succ]
    by_cases hc : c' = c
    · subst hc
      have hself : S'.place ⟨c', S.level c'⟩ = p := by
        rw [hplace]
        exact update_self _ _ _
      have hbelow : S'.nodesBelow c' (S.level c') = S.nodesBelow c' (S.level c') := by
        refine nodesBelow_congr fun m hm => ?_
        rw [hplace, update_of_ne]
        intro heq
        exact absurd (congrArg Thread.level heq) (Nat.ne_of_lt hm)
      rw [hself, hbelow, hstack]
    · have hother : ∀ m, S'.place ⟨c', m⟩ = S.place ⟨c', m⟩ := by
        intro m
        rw [hplace, update_of_ne]
        intro heq
        exact hc (congrArg Thread.cpu heq)
      have hbelow : S'.nodesBelow c' (S.level c') = S.nodesBelow c' (S.level c') :=
        nodesBelow_congr fun m _ => by rw [hother]
      rw [hbelow, hother, ← nodesBelow_succ, h.stack, hdepth c' hc]
  · intro t ht
    rw [hlevel] at ht
    rw [hplace, update_of_ne, h.above t ht]
    rintro rfl
    exact Nat.lt_irrefl _ ht
  · intro c'
    rw [hlevel]
    exact h.nested c'

omit hplace in
theorem stack_running (c : CpuId) :
    S.nodesBelow c (S.level c) ++ (S.place (S.running c)).idx.toList = range (S.depth c) := by
  rw [← h.stack, nodesBelow_succ]
  rfl

theorem kept (hlevel : S'.level = S.level) (hdepth : S'.depth = S.depth)
    (hidx : p.idx = (S.place (S.running c)).idx) : Stacked S' := by
  refine h.moved hplace hlevel (fun c' _ => by rw [hdepth]) ?_
  rw [hidx, hdepth]
  exact h.stack_running c

theorem took (hlevel : S'.level = S.level) (hdepth : S'.depth = update S.depth c (S.depth c + 1))
    (hnone : (S.place (S.running c)).idx = none) (hidx : p.idx = some (S.depth c)) :
    Stacked S' := by
  refine h.moved hplace hlevel (fun c' hc => by rw [hdepth, update_of_ne hc]) ?_
  have hrun := h.stack_running c
  rw [hnone, toList_none, append_nil] at hrun
  rw [hdepth, update_self, hidx, toList_some, hrun, range_succ]

theorem gave (hlevel : S'.level = S.level) (hdepth : S'.depth = update S.depth c (S.depth c - 1))
    (hsome : (S.place (S.running c)).idx = some i) (hidx : p.idx = none) : Stacked S' := by
  refine h.moved hplace hlevel (fun c' hc => by rw [hdepth, update_of_ne hc]) ?_
  have hrun := h.stack_running c
  rw [hsome, toList_some] at hrun
  rw [hdepth, update_self, hidx, toList_none, append_nil]
  obtain ⟨d, hd⟩ : ∃ d, S.depth c = d + 1 := by
    refine Nat.exists_eq_succ_of_ne_zero ?_
    intro hzero
    rw [hzero, range_zero] at hrun
    simp at hrun
  rw [hd, range_succ] at hrun
  rw [hd, Nat.add_sub_cancel]
  exact (append_inj' hrun rfl).1

end

theorem relevelled {n : Nat} (hn : n < mcsMaxLockDepth)
    (hstack : S.nodesBelow c (n + 1) = range (S.depth c)) (habove : ∀ m, n < m →
      S.place ⟨c, m⟩ = .out) :
    Stacked { S with level := update S.level c n } := by
  refine ⟨?_, ?_, ?_⟩
  · intro c'
    show S.nodesBelow c' (update S.level c n c' + 1) = range (S.depth c')
    exact update_cases c' hstack fun c' _ => h.stack c'
  · rintro ⟨c', m⟩
    show update S.level c n c' < m → S.place ⟨c', m⟩ = .out
    exact update_cases c' (habove m) fun c' _ => h.above ⟨c', m⟩
  · intro c'
    show update S.level c n c' < mcsMaxLockDepth
    exact update_cases c' hn fun c' _ => h.nested c'

theorem interrupted (hlt : S.level c + 1 < mcsMaxLockDepth) :
    Stacked { S with level := update S.level c (S.level c + 1) } := by
  have hout : ∀ m, S.level c < m → S.place ⟨c, m⟩ = .out := fun m hm => h.above ⟨c, m⟩ hm
  refine h.relevelled hlt ?_ fun m hm => hout m (Nat.lt_of_succ_lt hm)
  rw [nodesBelow_succ, hout _ (Nat.lt_succ_self _), h.stack]
  exact append_nil _

theorem resumed (hpos : S.level c ≠ 0) (hout : S.place (S.running c) = .out) :
    Stacked { S with level := update S.level c (S.level c - 1) } := by
  have hlevel : S.level c - 1 + 1 = S.level c := Nat.succ_pred hpos
  have hnested := h.nested c
  refine h.relevelled (by omega) ?_ ?_
  · have hrun := h.stack_running c
    rw [hout] at hrun
    rw [hlevel]
    exact (append_nil _).symm.trans hrun
  · intro m hm
    by_cases heq : m = S.level c
    · rw [heq]
      exact hout
    · exact h.above ⟨c, m⟩ (show S.level c < m by omega)

end Stacked

/-!
## The queue

For each lock there is a holder or none, a pending waiter or none, and a line of contexts in the
order of their tails, of which only the first may look at the two low bits. `Good` says how the
word, the nodes and the places of the contexts show this line. The first of a line that others stand
behind takes the lock before it has told the second; until it has stored to the second's `locked` it
is passing the line on.

What a step leaves to the other locks is in `Local`; what it does to its own lock is the change of a
`Line`.
-/

/-- Who has a lock and who waits for it. -/
structure Line where
  holder : Option Thread := none
  pending : Option Thread := none
  passing : Option Thread := none
  waiters : List Thread := []

/-- The contexts whose nodes are linked, first to last. -/
def Line.chain (q : Line) : List Thread := q.passing.toList ++ q.waiters

namespace LockSystem

/-- The tail of the word when these contexts are on the queue. -/
def tailOf (S : LockSystem) (ts : List Thread) : Word :=
  match ts.getLast? with
  | none => 0#32
  | some t => encodeTail t.cpu ((S.place t).idx.getD 0)

/-- `b` stands behind `a`: it is about to store its node to the `next` of `a`, or has done so and
waits. -/
def Behind (S : LockSystem) (a b : Thread) : Prop :=
  (S.node (S.nodeOf b)).locked = true ∧
    match S.place b with
    | .link _ _ prev => prev = S.nodeOf a ∧ (S.node (S.nodeOf a)).next = none
    | .spinLocked _ _ => (S.node (S.nodeOf a)).next = some (S.nodeOf b)
    | _ => False

/-- The context waits for the word, or will as soon as it looks at its node. -/
def AtFront (S : LockSystem) (t : Thread) : Prop :=
  match S.place t with
  | .spinLocked _ _ => (S.node (S.nodeOf t)).locked = false
  | .spinWord _ _ | .soloCas _ _ | .fetchOr _ _ => True
  | _ => False

/-- What a context may rely on at its place. -/
def Ready (S : LockSystem) (q : Line) (t : Thread) : Prop :=
  match S.place t with
  | .tailLoad _ _ | .tailCas _ _ _ => S.node (S.nodeOf t) = { next := none, locked := true }
  | .soloCas _ _ => q.holder = none ∧ q.pending = none
  | .fetchOr _ _ => q.holder = none ∧ q.pending = none ∧ q.waiters ≠ [t]
  | .passOn _ _ next => (S.node (S.nodeOf t)).next = some next
  | _ => True

end LockSystem

/-- Places where a context relies on nothing. -/
def Place.careless : Place → Bool
  | .tailLoad _ _ | .tailCas _ _ _ | .soloCas _ _ | .fetchOr _ _ | .passOn _ _ _ => false
  | _ => true

theorem ready_of_careless {S : LockSystem} {q : Line} {t : Thread} (h : (S.place t).careless) :
    S.Ready q t := by
  unfold LockSystem.Ready
  cases hp : S.place t <;> simp_all [careless]

/-- The state shows this line for the lock. -/
structure Good (S : LockSystem) (l : LockId) (q : Line) : Prop where
  word : S.word l = S.tailOf q.waiters ||| lowBits q.holder.isSome q.pending.isSome
  held : ∀ t, l ∈ S.held t ↔ q.holder = some t
  once : ∀ t, (S.held t).count l ≤ 1
  pends : ∀ t, (S.place t).pendsOn = some l ↔ q.pending = some t
  waits : ∀ t, (S.place t).waitsOn = some l ↔ t ∈ q.waiters
  passes : ∀ t, (S.place t).passesOn = some l ↔ q.passing = some t
  nodup : q.waiters.Nodup
  followed : ∀ t, q.passing = some t → q.holder = some t ∧ q.waiters ≠ []
  linked : q.chain.IsChain S.Behind
  ended : ∀ t ∈ q.chain.getLast?, (S.node (S.nodeOf t)).next = none
  front : q.passing = none → ∀ t ∈ q.waiters.head?, S.AtFront t
  ready : ∀ t, (S.place t).lock = some l → S.Ready q t
  log : S.entered l = S.served l ++ q.waiters

/-- What a step of a context for a lock leaves as it was. -/
structure Local (S S' : LockSystem) (t : Thread) (l : LockId) (p : Place) : Prop where
  place : S'.place = update S.place t p
  lockBefore : ∀ l', (S.place t).lock = some l' → l' = l
  lockAfter : ∀ l', p.lock = some l' → l' = l
  word : ∀ l', l' ≠ l → S'.word l' = S.word l'
  held : ∀ t' l', t' ≠ t ∨ l' ≠ l → (S'.held t').count l' = (S.held t').count l'
  log : ∀ l', l' ≠ l → S'.entered l' = S.entered l' ∧ S'.served l' = S.served l'
  node : ∀ t' i, t' ≠ t → (S.place t').idx = some i → (S.place t').lock ≠ some l →
    S'.node (S.nodeOf t') = S.node (S.nodeOf t')

variable {S S' : LockSystem} {t t' : Thread} {l l' : LockId} {p : Place} {q : Line} {i : Nat}

/-! ## Congruence -/

namespace LockSystem

theorem tailOf_congr {ts : List Thread} (h : ∀ t ∈ ts, (S'.place t).idx = (S.place t).idx) :
    S'.tailOf ts = S.tailOf ts := by
  unfold tailOf
  cases hlast : ts.getLast? with
  | none => rfl
  | some t => simp only [h t (mem_of_getLast? hlast)]

theorem Behind.congr {a b : Thread} (h : S.Behind a b) (hplace : S'.place b = S.place b)
    (hidx : (S'.place a).idx = (S.place a).idx)
    (hnext : (S'.node (S.nodeOf a)).next = (S.node (S.nodeOf a)).next)
    (hlocked : (S'.node (S.nodeOf b)).locked = (S.node (S.nodeOf b)).locked) : S'.Behind a b := by
  have ha : S'.nodeOf a = S.nodeOf a := nodeOf_congr hidx
  have hb : S'.nodeOf b = S.nodeOf b := nodeOf_congr (by rw [hplace])
  unfold Behind at h ⊢
  rw [hplace, ha, hb, hnext, hlocked]
  exact h

theorem AtFront.congr (h : S.AtFront t) (hplace : S'.place t = S.place t)
    (hlocked : (S'.node (S.nodeOf t)).locked = (S.node (S.nodeOf t)).locked) : S'.AtFront t := by
  have hnode : S'.nodeOf t = S.nodeOf t := nodeOf_congr (by rw [hplace])
  unfold AtFront at h ⊢
  rw [hplace, hnode, hlocked]
  exact h

theorem Ready.congr (h : S.Ready q t) (hplace : S'.place t = S.place t)
    (hnode : ∀ i, (S.place t).idx = some i → S'.node (S.nodeOf t) = S.node (S.nodeOf t)) :
    S'.Ready q t := by
  have hnodeOf : S'.nodeOf t = S.nodeOf t := nodeOf_congr (by rw [hplace])
  unfold Ready at h ⊢
  rw [hplace, hnodeOf]
  cases hp : S.place t <;> simp only [hp] at h ⊢ <;> try exact h
  all_goals
    rw [hnode _ (by rw [hp]; rfl)]
    exact h

end LockSystem

theorem Line.mem_chain : t ∈ q.chain ↔ q.passing = some t ∨ t ∈ q.waiters := by
  rw [Line.chain, mem_append, mem_toList]

namespace Good

theorem lock_of_mem (h : Good S l q) (ht : t ∈ q.chain) : (S.place t).lock = some l := by
  rcases Line.mem_chain.mp ht with ht | ht
  · exact lock_of_passesOn ((h.passes t).mpr ht)
  · exact lock_of_waitsOn ((h.waits t).mpr ht)

theorem idx_of_mem (h : Good S l q) (ht : t ∈ q.chain) : ∃ i, (S.place t).idx = some i := by
  rcases Line.mem_chain.mp ht with ht | ht
  · exact idx_of_passesOn ((h.passes t).mpr ht)
  · exact idx_of_waitsOn ((h.waits t).mpr ht)

theorem mem_chain_of_mem (ht : t ∈ q.waiters) : t ∈ q.chain := Line.mem_chain.mpr (.inr ht)

end Good

/-! ## The locks that a step is not for -/

namespace Local

variable (h : Local S S' t l p)
include h

theorem place_of_ne (hne : t' ≠ t) : S'.place t' = S.place t' := by
  rw [h.place, update_of_ne hne]

theorem place_self : S'.place t = p := by
  rw [h.place, update_self]

theorem idx_eq (hidx : p.idx = (S.place t).idx) (t' : Thread) :
    (S'.place t').idx = (S.place t').idx := by
  rw [h.place]
  exact update_cases t' hidx fun _ _ => rfl

theorem ne_of_lock (hne : l' ≠ l) (ht : (S.place t').lock = some l') : t' ≠ t := by
  rintro rfl
  exact hne (h.lockBefore l' ht)

theorem role_iff (hne : l' ≠ l) {f : Place → Option LockId}
    (hf : ∀ {p : Place} {l : LockId}, f p = some l → p.lock = some l) :
    f (S'.place t') = some l' ↔ f (S.place t') = some l' := by
  rw [h.place]
  refine update_cases t' ?_ fun _ _ => Iff.rfl
  exact ⟨fun hp => absurd (h.lockAfter l' (hf hp)) hne,
    fun hp => absurd (h.lockBefore l' (hf hp)) hne⟩

theorem good (hne : l' ≠ l) (hg : Good S l' q) : Good S' l' q := by
  have hplace : ∀ t' ∈ q.chain, S'.place t' = S.place t' := fun t' ht' =>
    h.place_of_ne (h.ne_of_lock hne (hg.lock_of_mem ht'))
  have hnode : ∀ t' ∈ q.chain, S'.node (S.nodeOf t') = S.node (S.nodeOf t') := by
    intro t' ht'
    obtain ⟨i, hi⟩ := hg.idx_of_mem ht'
    have hlock := hg.lock_of_mem ht'
    refine h.node t' i (h.ne_of_lock hne hlock) hi ?_
    rw [hlock]
    exact fun heq => hne (some.inj heq)
  have hwaiters : ∀ t' ∈ q.waiters, S'.place t' = S.place t' := fun t' ht' =>
    hplace t' (Good.mem_chain_of_mem ht')
  have hcount : ∀ t', (S'.held t').count l' = (S.held t').count l' :=
    fun t' => h.held t' l' (.inr hne)
  constructor
  case word =>
    rw [h.word l' hne, hg.word, tailOf_congr fun t' ht' => by rw [hwaiters t' ht']]
  case held =>
    intro t'
    rw [← hg.held, ← count_pos_iff, ← count_pos_iff, hcount]
  case once =>
    intro t'
    rw [hcount]
    exact hg.once t'
  case pends => exact fun t' => (h.role_iff hne lock_of_pendsOn).trans (hg.pends t')
  case waits => exact fun t' => (h.role_iff hne lock_of_waitsOn).trans (hg.waits t')
  case passes => exact fun t' => (h.role_iff hne lock_of_passesOn).trans (hg.passes t')
  case nodup => exact hg.nodup
  case followed => exact hg.followed
  case linked =>
    refine hg.linked.imp_of_mem_imp fun a b ha hb hab => ?_
    exact hab.congr (hplace b hb) (by rw [hplace a ha]) (by rw [hnode a ha]) (by rw [hnode b hb])
  case ended =>
    intro t' ht'
    have hmem := mem_of_getLast? ht'
    rw [nodeOf_congr (S := S) (by rw [hplace t' hmem]), hnode t' hmem]
    exact hg.ended t' ht'
  case front =>
    intro hpass t' ht'
    have hmem := Good.mem_chain_of_mem (mem_of_head? ht')
    exact (hg.front hpass t' ht').congr (hplace t' hmem) (by rw [hnode t' hmem])
  case ready =>
    intro t' ht'
    have hlock : (S.place t').lock = some l' := (h.role_iff hne id).mp ht'
    have hself := h.ne_of_lock hne hlock
    refine (hg.ready t' hlock).congr (h.place_of_ne hself) fun i hi => h.node t' i hself hi ?_
    rw [hlock]
    exact fun heq => hne (some.inj heq)
  case log =>
    rw [(h.log l' hne).1, (h.log l' hne).2]
    exact hg.log

/-! ## The lock that a step is for -/

theorem role_self {f : Place → Option LockId} {G G' : Thread → Prop}
    (hbefore : ∀ t', f (S.place t') = some l ↔ G t') (hself : f p = some l ↔ G' t)
    (hother : ∀ t', t' ≠ t → (G' t' ↔ G t')) (t' : Thread) : f (S'.place t') = some l ↔ G' t' := by
  rw [h.place]
  exact update_cases t' hself fun t' ht => (hbefore t').trans (hother t' ht).symm

/-- Who holds the lock after the step, from how often the context that moves has it on its list. -/
theorem held_self (hg : Good S l q) {holder : Option Thread}
    (hself : (S'.held t).count l = if holder = some t then 1 else 0)
    (hother : ∀ t', t' ≠ t → (holder = some t' ↔ q.holder = some t')) (t' : Thread) :
    (l ∈ S'.held t' ↔ holder = some t') ∧ (S'.held t').count l ≤ 1 := by
  rw [← count_pos_iff]
  by_cases ht : t' = t
  · rw [ht, hself]
    split <;> simp_all
  · rw [h.held t' l (.inl ht), hother t' ht, count_pos_iff]
    exact ⟨hg.held t', hg.once t'⟩

end Local

namespace Good

variable (h : Good S l q)
include h

theorem exists_behind (ht : t ∈ q.chain.tail) : ∃ a, S.Behind a t := by
  have hlinked := h.linked
  generalize q.chain = c at ht hlinked
  induction c with
  | nil => exact absurd ht not_mem_nil
  | cons a c ih =>
    cases c with
    | nil => exact absurd ht not_mem_nil
    | cons b c =>
      rw [isChain_cons_cons] at hlinked
      rcases mem_cons.mp ht with rfl | ht
      · exact ⟨a, hlinked.1⟩
      · exact ih ht hlinked.2

/-- A waiter that stands behind no one is the first, and no one passes the line on. -/
theorem first_of_not_behind (ht : (S.place t).waitsOn = some l) (hnot : ∀ a, ¬ S.Behind a t) :
    q.passing = none ∧ ∃ rest, q.waiters = t :: rest := by
  have hmem : t ∈ q.waiters := (h.waits t).mp ht
  have htail : t ∉ q.chain.tail := by
    intro htail
    obtain ⟨a, ha⟩ := h.exists_behind htail
    exact hnot a ha
  cases hpass : q.passing with
  | some a =>
    rw [Line.chain, hpass] at htail
    exact absurd hmem htail
  | none =>
    rw [Line.chain, hpass] at htail
    cases hw : q.waiters with
    | nil => exact absurd (hw ▸ hmem) not_mem_nil
    | cons a rest =>
      rw [hw] at htail hmem
      rcases mem_cons.mp hmem with rfl | hrest
      · exact ⟨rfl, rest, rfl⟩
      · exact absurd hrest htail

theorem count_held (t : Thread) : (S.held t).count l = if q.holder = some t then 1 else 0 := by
  have honce := h.once t
  split
  case isTrue hholder =>
    have hpos := count_pos_iff.mpr ((h.held t).mpr hholder)
    omega
  case isFalse hholder => exact count_eq_zero.mpr fun hmem => hholder ((h.held t).mp hmem)

section

variable (hloc : Local S S' t l p)
  (hnode : ∀ t' i, t' ≠ t → (S.place t').idx = some i →
    S'.node (S.nodeOf t') = S.node (S.nodeOf t'))
include hloc hnode

/-- The step changes who holds the lock or is pending, and the line stands as it was. The context
that moves is out of the line or the first of it. -/
theorem relabelled {holder pending : Option Thread}
    (hword : S'.word l = S.tailOf q.waiters ||| lowBits holder.isSome pending.isSome)
    (hcount : (S'.held t).count l = if holder = some t then 1 else 0)
    (hholder : ∀ t', t' ≠ t → (holder = some t' ↔ q.holder = some t'))
    (hpends : p.pendsOn = some l ↔ pending = some t)
    (hpending : ∀ t', t' ≠ t → (pending = some t' ↔ q.pending = some t'))
    (hwaits : p.waitsOn = (S.place t).waitsOn) (hpasses : p.passesOn = (S.place t).passesOn)
    (hfirst : t ∈ q.chain → t ∉ q.chain.tail ∧ p.idx = (S.place t).idx ∧
      S'.node (S.nodeOf t) = S.node (S.nodeOf t)) (hfront : p.waitsOn = some l → S'.AtFront t)
    (hfollowed : ∀ t', q.passing = some t' → holder = some t')
    (hself : p.lock = some l → S'.Ready { q with holder, pending } t)
    (hothers : ∀ t', t' ≠ t → (S.place t').lock = some l → S.Ready q t' →
      S.Ready { q with holder, pending } t') (hlog : S'.entered l = S.entered l ∧
        S'.served l = S.served l) :
    Good S' l { q with holder, pending } := by
  have hidx : ∀ t' ∈ q.chain, (S'.place t').idx = (S.place t').idx := by
    rw [hloc.place]
    exact fun t' => update_cases t' (fun ht => (hfirst ht).2.1) fun _ _ _ => rfl
  have hnodes : ∀ t' ∈ q.chain, S'.node (S.nodeOf t') = S.node (S.nodeOf t') := by
    intro t' ht'
    by_cases ht : t' = t
    · subst ht
      exact (hfirst ht').2.2
    · obtain ⟨i, hi⟩ := h.idx_of_mem ht'
      exact hnode t' i ht hi
  constructor
  case word =>
    rw [hword, tailOf_congr fun t' ht' => hidx t' (mem_chain_of_mem ht')]
  case held => exact fun t' => (hloc.held_self h hcount hholder t').1
  case once => exact fun t' => (hloc.held_self h hcount hholder t').2
  case pends => exact hloc.role_self h.pends hpends hpending
  case waits => exact hloc.role_self h.waits (hwaits ▸ h.waits t) fun _ _ => Iff.rfl
  case passes => exact hloc.role_self h.passes (hpasses ▸ h.passes t) fun _ _ => Iff.rfl
  case nodup => exact h.nodup
  case followed => exact fun t' ht' => ⟨hfollowed t' ht', (h.followed t' ht').2⟩
  case linked =>
    -- only a context that stands behind another counts by its place, and the one that moves does
    -- not
    show q.chain.IsChain S'.Behind
    refine h.linked.imp_of_mem_tail_imp fun a b ha hb hab => ?_
    have hb' := mem_of_mem_tail hb
    have hne : b ≠ t := by
      rintro rfl
      exact (hfirst hb').1 hb
    exact hab.congr (hloc.place_of_ne hne) (hidx a ha) (by rw [hnodes a ha]) (by rw [hnodes b hb'])
  case ended =>
    intro t' ht'
    have hmem : t' ∈ q.chain := mem_of_getLast? ht'
    rw [nodeOf_congr (hidx t' hmem), hnodes t' hmem]
    exact h.ended t' ht'
  case front =>
    intro hpass t' ht'
    have hmem : t' ∈ q.waiters := mem_of_head? ht'
    by_cases ht : t' = t
    · subst ht
      exact hfront (hwaits ▸ (h.waits t').mpr hmem)
    · exact (h.front hpass t' ht').congr (hloc.place_of_ne ht)
        (by rw [hnodes t' (mem_chain_of_mem hmem)])
  case ready =>
    intro t' ht'
    by_cases ht : t' = t
    · subst ht
      rw [hloc.place_self] at ht'
      exact hself ht'
    · rw [hloc.place_of_ne ht] at ht'
      exact (hothers t' ht ht' (h.ready t' ht')).congr (hloc.place_of_ne ht) fun i hi =>
        hnode t' i ht hi
  case log =>
    rw [hlog.1, hlog.2]
    exact h.log

theorem moved (hword : S'.word l = S.word l) (hheld : S'.held t = S.held t)
    (hlog : S'.entered l = S.entered l ∧ S'.served l = S.served l)
    (hpends : p.pendsOn = (S.place t).pendsOn) (hwaits : p.waitsOn = (S.place t).waitsOn)
    (hpasses : p.passesOn = (S.place t).passesOn)
    (hfirst : t ∈ q.chain → t ∉ q.chain.tail ∧ p.idx = (S.place t).idx ∧
      S'.node (S.nodeOf t) = S.node (S.nodeOf t))
    (hfront : p.waitsOn = some l → S'.AtFront t) (hself : p.lock = some l → S'.Ready q t) :
    Good S' l q :=
  h.relabelled hloc hnode (hword.trans h.word) (hheld ▸ h.count_held t) (fun _ _ => Iff.rfl)
    (hpends ▸ h.pends t) (fun _ _ => Iff.rfl) hwaits hpasses hfirst hfront
    (fun t' ht' => (h.followed t' ht').1)
    hself (fun _ _ _ hready => hready) hlog

theorem moved_outside (hword : S'.word l = S.word l) (hheld : S'.held t = S.held t)
    (hlog : S'.entered l = S.entered l ∧ S'.served l = S.served l)
    (hpends : p.pendsOn = (S.place t).pendsOn)
    (hbefore : (S.place t).waitsOn = none ∧ (S.place t).passesOn = none)
    (hafter : p.waitsOn = none ∧ p.passesOn = none) (hself : p.lock = some l → S'.Ready q t) :
    Good S' l q := by
  have hout : t ∉ q.chain := by
    rw [Line.mem_chain, ← h.passes, ← h.waits, hbefore.1, hbefore.2]
    simp
  refine h.moved hloc hnode hword hheld hlog hpends ?_ ?_ (fun hmem => absurd hmem hout) ?_ hself
  · rw [hafter.1, hbefore.1]
  · rw [hafter.2, hbefore.2]
  · rw [hafter.1]
    exact fun h => absurd h (by simp)

end

/-! ## What the word says -/

omit h in
theorem isTail_tailOf {ts : List Thread} : IsTail (S.tailOf ts) := by
  unfold tailOf
  split
  · exact IsTail.zero
  · exact isTail_encodeTail

theorem tailOf_eq_zero (hs : Stacked S) : S.tailOf q.waiters = 0#32 ↔ q.waiters = [] := by
  unfold tailOf
  cases hlast : q.waiters.getLast? with
  | none => simpa using getLast?_eq_none_iff.mp hlast
  | some t =>
  have hmem := mem_of_getLast? hlast
  obtain ⟨i, hi⟩ := idx_of_waitsOn ((h.waits t).mpr hmem)
  have hne : encodeTail t.cpu i ≠ 0#32 := encodeTail_ne_zero _ (hs.idx_lt hi)
  simp only [hi, getD_some, hne, false_iff]
  exact ne_nil_of_mem hmem

theorem word_eq_low (hs : Stacked S) {k m : Bool} (hword : S.word l = lowBits k m) :
    q.waiters = [] ∧ q.holder.isSome = k ∧ q.pending.isSome = m := by
  rw [h.word, ← zero_or (x := lowBits k m), isTail_tailOf.or_inj IsTail.zero] at hword
  exact ⟨(h.tailOf_eq_zero hs).mp hword.1, hword.2⟩

omit h in
theorem lockedVal_eq : lockedVal = lowBits true false := by decide

theorem and_lockedMask_eq : S.word l &&& lockedMask = lowBits q.holder.isSome q.pending.isSome := by
  rw [h.word, isTail_tailOf.or_and_lockedMask]

theorem and_tailMask_eq : S.word l &&& tailMask = S.tailOf q.waiters := by
  rw [h.word, isTail_tailOf.or_and_tailMask]

theorem and_lockedVal_eq : S.word l &&& lockedVal = lowBits q.holder.isSome false := by
  rw [h.word, isTail_tailOf.or_and_lockedVal]

/-- While the lock is held or has a pending waiter no one has seen it free. -/
theorem ready_relabelled (hbusy : q.waiters ≠ [] → q.holder ≠ none ∨ q.pending ≠ none)
    {holder pending : Option Thread} (ht : (S.place t').lock = some l) (hready : S.Ready q t') :
    S.Ready { q with holder, pending } t' := by
  have hwaits := h.waits t'
  unfold LockSystem.Ready at hready ⊢
  cases hp : S.place t' <;> simp only [hp] at hready ⊢ <;> try exact hready
  case soloCas l' i =>
    obtain rfl : l' = l := by simpa [hp, lock] using ht
    have hmem : t' ∈ q.waiters := hwaits.mp (by rw [hp]; rfl)
    rcases hbusy (ne_nil_of_mem hmem) with hne | hne
    · exact absurd hready.1 hne
    · exact absurd hready.2 hne
  case fetchOr l' i =>
    obtain rfl : l' = l := by simpa [hp, lock] using ht
    have hmem : t' ∈ q.waiters := hwaits.mp (by rw [hp]; rfl)
    rcases hbusy (ne_nil_of_mem hmem) with hne | hne
    · exact absurd hready.1 hne
    · exact absurd hready.2.1 hne

end Good

end ZXFoundation.Sync.Qspinlock
