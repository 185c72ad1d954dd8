import ZXFoundation.Base

/-!
# SCOMS kernel objects

`zxfoundation/scoms/kobject.zcomponent`: the object header `bobject` that sits at offset 0 of
every SCOMS-managed resource, its lifecycle transitions and its saturating reference count.

An object is named by the address of its header. Headers live in a memory `Addr → Bobject`;
which addresses currently hold an allocated object is a matter of the tables that allocate
them (`Scoms/World.lean`), not of the header.

The `__builtin_trap` branches are explicit outcomes: an operation that can stop the nucleus
returns `Except Trap`.
-/

namespace ZXFoundation.Scoms

abbrev Addr := Nat

/-- Which `scoms_table` instance. Each `scoms_table<T, N>` instantiation has one table, so the
static `reclaim_object` of an instantiation names its table. -/
abbrev TableId := Nat

/-- `KOBJECT_ID_INVALID`, also written `~0U`: no object, end of the free list. -/
def kobjectIdInvalid : Nat := 0xFFFFFFFF

inductive KobjectType where
  | none | domain | gate | portal | vmRegion | ioBinding | capability | strand | irqDesc
  | memoryResource | memoryExtent | memoryFolio | page | storage | grant | mapping | addressSpace
  | pageTable | key | endpoint | message | kmemCache | policyServer | serviceEntry | deviceBinding
  | datasetExtent
  deriving DecidableEq, Repr

/-- Where a run ends. -/
inductive Trap where
  /-- `kref::try_get`: the count has saturated. -/
  | krefSaturated
  /-- `kref::put`: the count was already zero. -/
  | krefUnderflow
  /-- `bobject::put`: no finalizer installed. -/
  | noFinalizer
  /-- `finalize_last_put`: the object is not retired, or has no reclaimer. -/
  | finalizeLastPut
  /-- `complete_reclaim`: the object is not retired. -/
  | completeReclaim
  /-- `reclaim_object`: the table was never initialized. -/
  | reclaimNoInstance
  /-- `reclaim_retired`: the object's id is outside the table. -/
  | reclaimBadId
  /-- `reclaim_retired`: the slot is still published. -/
  | reclaimPublished
  /-- A loop of the source does not end. -/
  | diverges
  /-- The caller makes the nucleus dereference a null pointer. -/
  | nullDereference
  /-- The caller indexes an array past its end. -/
  | outOfBounds
  /-- The caller passes a pointer to storage that holds no object. -/
  | danglingPointer
  /-- `kmalloc` hands out storage that is in use. -/
  | allocatorOverlap
  /-- The nucleus follows a pointer that it computed itself and that leads to no object. -/
  | wildPointer
  /-- `syschk_fatal`: the nucleus stops itself. -/
  | syschkFatal
  deriving DecidableEq, Repr

/-- The ends that are not a failure of the bookkeeping: the caller or the allocator broke its
contract, or one object has more than two thousand million references. -/
def Trap.IsBenign : Trap → Prop
  | .krefSaturated | .nullDereference | .outOfBounds | .danglingPointer | .allocatorOverlap => True
  | _ => False

/-! ## Reference counts -/

/-- The count at which `kref::try_get` refuses to go on. -/
def krefLimit : Nat := 0x7FFFFFFE

/-- `kref::try_get` on the count: whether a reference was taken, and the new count. -/
def krefTryGet (count : Nat) : Except Trap (Bool × Nat) :=
  if count = 0 then .ok (false, count)
  else if count ≥ krefLimit then .error .krefSaturated
  else .ok (true, count + 1)

/-- `kref::put` on the count: whether this was the last reference, and the new count. -/
def krefPut (count : Nat) : Except Trap (Bool × Nat) :=
  if count = 0 then .error .krefUnderflow
  else .ok (count == 1, count - 1)

/-! ## The object header -/

/-- `bobject`, less its padding and its spin lock. -/
structure Bobject where
  id : Nat := kobjectIdInvalid
  type : KobjectType := .none
  state : LifecycleState := .embryo
  /-- `ref.count`. -/
  ref : Nat := 1
  generation : Nat := 0
  /-- `object_flags`: one more than the index of the object's metadata entry, or zero. -/
  objectFlags : Nat := 0
  deriving DecidableEq, Repr

/-- The states from which `bobject::transition` admits the target. -/
def transitionAdmits (target state : LifecycleState) : Bool :=
  match target with
  | .embryo => state == .destroyed
  | .sealed => state == .embryo
  | .active => state == .embryo || state == .sealed || state == .suspended
  | .suspended => state == .active
  | .dying => state == .embryo || state == .active || state == .suspended
  | .destroyed => state == .dying

/-- `bobject::transition`: the header afterwards and whether the transition was performed. -/
def Bobject.transition (o : Bobject) (target : LifecycleState) : Bobject × Bool :=
  if transitionAdmits target o.state then ({ o with state := target }, true) else (o, false)

/-- `bobject::initialize`. The generation is the caller's. -/
def Bobject.initializeAs (o : Bobject) (id : Nat) (type : KobjectType) : Bobject :=
  { o with id := id, type := type, state := .embryo, ref := 1, objectFlags := 0 }

theorem Bobject.transition_fst {o : Bobject} {target : LifecycleState} :
    (o.transition target).1 =
      { o with state := if transitionAdmits target o.state then target else o.state } := by
  unfold Bobject.transition
  split <;> rfl

/-- The only way out of `destroyed` is back to `embryo`. -/
theorem transitionAdmits_destroyed {target : LifecycleState}
    (h : transitionAdmits target .destroyed = true) : target = .embryo := by
  cases target <;> first | rfl | exact absurd h (by decide)

end ZXFoundation.Scoms
