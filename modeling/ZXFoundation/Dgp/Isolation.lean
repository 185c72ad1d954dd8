import ZXFoundation.Base

/-!
# Isolation state of a domain

`zxfoundation/dgp/isolation.zcomponent`. A domain owns one hardware storage key out of a global
registry of sixteen, of which the upper eight go to user domains. A key is taken by
`create_domain`, drained by `begin_storage_key_revocation` and given back by
`complete_storage_key_revocation`; `destroy_domain` does the last two in one call.

`create_destroy_used` is the round trip: whoever destroys the state that `create_domain` returned
leaves the registry with the keys that were in use before.
-/

namespace ZXFoundation.Dgp.Isolation

open Function

abbrev IsolationRights := UInt32

namespace IsolationRights

def none : IsolationRights := 0
def enter : IsolationRights := 1
def map : IsolationRights := 2
def share : IsolationRights := 4
def signal : IsolationRights := 8
def io : IsolationRights := 16
def lifecycle : IsolationRights := 32
def delegate : IsolationRights := 64
def quota : IsolationRights := 128
def debug : IsolationRights := 256
def sched : IsolationRights := 512
def console : IsolationRights := 1024
def service : IsolationRights := 2048
def all : IsolationRights := 0xFFFF

end IsolationRights

def hasAllRights (available requested : IsolationRights) : Bool :=
  available &&& requested == requested

inductive SkeyRevocationState where
  | none | active | draining | reusable
  deriving DecidableEq, Repr

/-! ## The key registry -/

def storageKeyAuto : Nat := 0xFF

def storageKeyUserBase : Nat := 8

def storageKeyUserMax : Nat := 15

def IsUserKey (key : Nat) : Prop := storageKeyUserBase ≤ key ∧ key ≤ storageKeyUserMax

instance (key : Nat) : Decidable (IsUserKey key) := inferInstanceAs (Decidable (_ ∧ _))

/-- `g_isolation_initialized`, `g_storage_key_used` and `g_storage_key_generation`. -/
structure KeyRegistry where
  initialized : Bool := false
  used : Nat → Bool := fun _ => false
  generation : Nat → Nat := fun _ => 0

namespace KeyRegistry

/-- `isolation::init`. Key 0 is the nucleus's own. -/
def init : KeyRegistry where
  initialized := true
  used := fun key => key == 0
  generation := fun _ => 1

def take (R : KeyRegistry) (key : Nat) : KeyRegistry :=
  { R with used := update R.used key true }

def firstUnused (R : KeyRegistry) : Nat → Nat → Option Nat
  | 0, _ => none
  | fuel + 1, key => if R.used key then firstUnused R fuel (key + 1) else some key

def allocateStorageKey (R : KeyRegistry) (requested : Nat) :
    Except KernelError (Nat × KeyRegistry) :=
  if requested ≠ storageKeyAuto then
    if requested < storageKeyUserBase ∨ requested > storageKeyUserMax then
      .error (.generic .invalidArg)
    else if R.used requested then .error (.memory .outOfMemory)
    else .ok (requested, R.take requested)
  else
    match R.firstUnused (storageKeyUserMax + 1 - storageKeyUserBase) storageKeyUserBase with
    | some key => .ok (key, R.take key)
    | none => .error (.memory .outOfMemory)

/-- `release_storage_key`: the key's generation afterwards. Releasing an unused key changes
nothing. -/
def releaseStorageKey (R : KeyRegistry) (key : Nat) : Nat × KeyRegistry :=
  if IsUserKey key then
    if R.used key then
      let generation := succ32 (R.generation key)
      (generation, { R with
        used := update R.used key false
        generation := update R.generation key generation })
    else (R.generation key, R)
  else (0, R)

end KeyRegistry

/-! ## The state of one domain -/

/-- `isolation_policy`, less the three fields that `create_domain` does not read. -/
structure IsolationPolicy where
  defaultRights : IsolationRights := .none
  storageKey : Nat := storageKeyAuto
  numaNode : Nat := 0
  bootstrapAdmin : Bool := false

structure IsolationDomainState where
  domainId : Nat := 0
  asce : UInt64 := 0
  rootPhys : UInt64 := 0
  storageKey : Nat := 0
  numaNode : Nat := 0
  revocationEpoch : Nat := 0
  storageKeyGeneration : Nat := 0
  storageKeyState : SkeyRevocationState := .none
  grantedRights : IsolationRights := .none

def adminRights : IsolationRights :=
  IsolationRights.lifecycle ||| IsolationRights.delegate ||| IsolationRights.quota |||
    IsolationRights.debug ||| IsolationRights.sched ||| IsolationRights.console |||
    IsolationRights.service

def IsolationPolicy.grantedRights (policy : IsolationPolicy) : IsolationRights :=
  if policy.bootstrapAdmin then policy.defaultRights ||| adminRights else policy.defaultRights

def createDomain (R : KeyRegistry) (domainId : Nat) (policy : IsolationPolicy) :
    Except KernelError (IsolationDomainState × KeyRegistry) :=
  if !R.initialized then .error (.generic .uninitialized)
  else
    match R.allocateStorageKey policy.storageKey with
    | .error e => .error e
    | .ok (key, R) =>
      .ok ({ domainId := domainId
             storageKey := key
             storageKeyGeneration := R.generation key
             storageKeyState := .active
             numaNode := policy.numaNode
             grantedRights := policy.grantedRights }, R)

def bindAsceRoot (state : IsolationDomainState) (current : LifecycleState)
    (asce rootPhys : UInt64) : Except KernelError IsolationDomainState :=
  if current ≠ .sealed ∨ rootPhys = 0 ∨ asce = 0 then .error (.generic .invalidArg)
  else .ok { state with asce := asce, rootPhys := rootPhys }

/-- `activate_domain`. It checks and changes nothing. -/
def activateDomain (current : LifecycleState) (asce rootPhys : UInt64) : Except KernelError Unit :=
  if current ≠ .sealed ∨ rootPhys = 0 ∨ asce = 0 then .error (.generic .invalidArg) else .ok ()

/-! ## Giving the key back -/

/-- The fields that the revocation functions take by reference. -/
structure KeyHolding where
  state : LifecycleState
  storageKey : Nat
  storageKeyGeneration : Nat
  storageKeyState : SkeyRevocationState
  revocationEpoch : Nat
  deriving DecidableEq, Repr

/-- `begin_storage_key_revocation`. It writes the lifecycle state without a transition check. -/
def beginStorageKeyRevocation (h : KeyHolding) : KeyHolding :=
  if h.state = .destroyed ∨ h.storageKeyState = .reusable then h
  else { h with
    state := .dying
    storageKeyState := .draining
    revocationEpoch := succ16 h.revocationEpoch }

def completeStorageKeyRevocation (R : KeyRegistry) (h : KeyHolding) :
    Except KernelError Unit × KeyHolding × KeyRegistry :=
  if h.storageKeyState = .reusable ∨ h.storageKey = 0 then
    (.ok (), { h with storageKeyState := .reusable }, R)
  else if h.storageKeyState ≠ .draining then (.error (.generic .invalidArg), h, R)
  else
    let (generation, R) := R.releaseStorageKey h.storageKey
    (.ok (), { h with storageKeyGeneration := generation, storageKeyState := .reusable }, R)

def destroyDomain (R : KeyRegistry) (h : KeyHolding) :
    Except KernelError Unit × KeyHolding × KeyRegistry :=
  if h.state = .destroyed then (.ok (), h, R)
  else completeStorageKeyRevocation R (beginStorageKeyRevocation h)

/-! ## Round trip -/

variable {R R' : KeyRegistry} {key : Nat}

open KeyRegistry

theorem KeyRegistry.firstUnused_eq_some {fuel start : Nat}
    (h : R.firstUnused fuel start = some key) :
    R.used key = false ∧ start ≤ key ∧ key < start + fuel := by
  induction fuel generalizing start with
  | zero => cases h
  | succ fuel ih =>
    rw [firstUnused] at h
    split_ifs at h with hused
    · obtain ⟨hfree, hle, hlt⟩ := ih h
      exact ⟨hfree, by omega, by omega⟩
    · cases h
      exact ⟨by simpa using hused, Nat.le_refl _, by omega⟩

theorem KeyRegistry.allocateStorageKey_eq_ok {requested : Nat}
    (h : R.allocateStorageKey requested = .ok (key, R')) :
    R.used key = false ∧ IsUserKey key ∧ R' = R.take key := by
  unfold allocateStorageKey at h
  split_ifs at h with hauto hrange hused
  · cases h
    exact ⟨by simpa using hused, by unfold IsUserKey; omega, rfl⟩
  split at h
  · next hfirst =>
    cases h
    obtain ⟨hfree, hle, hlt⟩ := firstUnused_eq_some hfirst
    simp only [storageKeyUserMax, storageKeyUserBase] at hle hlt
    exact ⟨hfree, by simp only [IsUserKey, storageKeyUserMax, storageKeyUserBase]; omega, rfl⟩
  · cases h

theorem createDomain_eq_ok {domainId : Nat} {policy : IsolationPolicy} {st : IsolationDomainState}
    (h : createDomain R domainId policy = .ok (st, R')) :
    R.used st.storageKey = false ∧ IsUserKey st.storageKey ∧ st.storageKeyState = .active ∧
      R' = R.take st.storageKey := by
  unfold createDomain at h
  split_ifs at h
  split at h
  · cases h
  next halloc =>
  cases h
  obtain ⟨hfree, huser, rfl⟩ := allocateStorageKey_eq_ok halloc
  exact ⟨hfree, huser, rfl, rfl⟩

theorem destroyDomain_used {h : KeyHolding} (hstate : h.state ≠ .destroyed)
    (hkey : h.storageKeyState ≠ .reusable) (huser : IsUserKey h.storageKey)
    (hused : R.used h.storageKey = true) :
    (destroyDomain R h).1 = .ok () ∧
      (destroyDomain R h).2.2.used = update R.used h.storageKey false := by
  have hzero : h.storageKey ≠ 0 := by
    have hle : 8 ≤ h.storageKey := huser.1
    omega
  simp [destroyDomain, beginStorageKeyRevocation, completeStorageKeyRevocation,
    releaseStorageKey, hstate, hkey, hzero, huser, hused]

theorem create_destroy_used {domainId : Nat} {policy : IsolationPolicy}
    {st : IsolationDomainState} (h : createDomain R domainId policy = .ok (st, R'))
    {ls : LifecycleState} (hls : ls ≠ .destroyed) (generation epoch : Nat) :
    (destroyDomain R' ⟨ls, st.storageKey, generation, st.storageKeyState, epoch⟩).2.2.used =
      R.used := by
  obtain ⟨hfree, huser, hactive, rfl⟩ := createDomain_eq_ok h
  have hkey : st.storageKeyState ≠ .reusable := by
    rw [hactive]
    decide
  have hgiven := (@destroyDomain_used (R.take st.storageKey)
    ⟨ls, st.storageKey, generation, st.storageKeyState, epoch⟩ hls hkey huser
    (update_self ..)).2
  rw [hgiven, take, update_idem, ← hfree, update_eq_self]

end ZXFoundation.Dgp.Isolation
