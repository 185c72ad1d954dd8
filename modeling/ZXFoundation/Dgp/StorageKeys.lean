import ZXFoundation.Dgp.Domain.Lifecycle

/-!
# Storage keys over whole runs

The functions of `Dgp/Isolation.lean` take their state by reference, and a state may be copied:
`domain_create_txn::execute` writes the state that `create_domain` returned into the new domain and
keeps a copy for the rollback. A run is any sequence of isolation calls on states at numbered
places, with copies.
-/

open Function

namespace ZXFoundation.Dgp.Isolation

open Runs

/-! ## States at places -/

/-- A state and the successful `create_domain` call, by number, that it goes back to. -/
structure KeyState where
  holding : KeyHolding
  origin : Nat
  deriving DecidableEq, Repr

/-- A user key belongs to the state: the key has been taken and not been given back. -/
def KeyState.Holds (s : KeyState) : Prop :=
  IsUserKey s.holding.storageKey ∧
    (s.holding.storageKeyState = .active ∨ s.holding.storageKeyState = .draining)

instance (s : KeyState) : Decidable s.Holds := inferInstanceAs (Decidable (_ ∧ _))

/-- The registry and the states by their places: the local state of a transaction, or the fields
of a domain. `created` counts the successful `create_domain` calls, and `revoked` holds of those
whose state has been revoked through one of its copies. -/
structure KeySystem where
  registry : KeyRegistry
  place : Nat → Option KeyState
  created : Nat
  revoked : Nat → Bool

namespace KeySystem

def start : KeySystem where
  registry := .init
  place := fun _ => none
  created := 0
  revoked := fun _ => false

def put (S : KeySystem) (p : Nat) (s : Option KeyState) : KeySystem :=
  { S with place := update S.place p s }

def add (S : KeySystem) (p : Nat) (h : KeyHolding) (R : KeyRegistry) : KeySystem where
  registry := R
  place := update S.place p (some ⟨h, S.created⟩)
  created := S.created + 1
  revoked := S.revoked

def write (S : KeySystem) (p : Nat) (s : KeyState) (h : KeyHolding) (R : KeyRegistry) :
    KeySystem where
  registry := R
  place := update S.place p (some ⟨h, s.origin⟩)
  created := S.created
  revoked := fun o => S.revoked o || (o == s.origin && h.storageKeyState == .reusable)

end KeySystem

/-- A step of a run. The two overloads of `begin_storage_key_revocation` and of `destroy_domain`
differ in the type of the epoch counter only. -/
inductive KeyCall where
  /-- `create_domain`; the result is stored at `p` next to a lifecycle state. -/
  | createDomain (p domainId : Nat) (policy : IsolationPolicy) (state : LifecycleState)
  /-- The nucleus domain, which has key 0 without a `create_domain`. -/
  | nucleus (p : Nat)
  | beginRevocation (p : Nat)
  | completeRevocation (p : Nat)
  | destroyDomain (p : Nat)
  /-- The state at `p` is copied to `q`. -/
  | copy (p q : Nat)
  /-- The lifecycle state of an object is its header's, and moves without the isolation core. -/
  | setLifecycle (p : Nat) (state : LifecycleState)
  /-- The storage of the state is given up, whatever it holds. -/
  | drop (p : Nat)

namespace KeyCall

def callAt (S : KeySystem) (p : Nat)
    (f : KeyRegistry → KeyHolding → KeyHolding × KeyRegistry) : KeySystem :=
  match S.place p with
  | none => S
  | some s =>
    let (h, R) := f S.registry s.holding
    S.write p s h R

def run (S : KeySystem) : KeyCall → KeySystem
  | createDomain p domainId policy state =>
    match Isolation.createDomain S.registry domainId policy with
    | .error _ => S
    | .ok (st, R) => S.add p ⟨state, st.storageKey, st.storageKeyGeneration, st.storageKeyState,
        st.revocationEpoch⟩ R
  | nucleus p => S.add p ⟨.embryo, 0, 1, .active, 0⟩ S.registry
  | beginRevocation p => callAt S p fun R h => (beginStorageKeyRevocation h, R)
  | completeRevocation p => callAt S p fun R h => (completeStorageKeyRevocation R h).2
  | destroyDomain p => callAt S p fun R h => (Isolation.destroyDomain R h).2
  | copy p q => S.put q (S.place p)
  | setLifecycle p state =>
    S.put p ((S.place p).map fun s => { s with holding := { s.holding with state := state } })
  | drop p => S.put p none

/-- The condition on a step: a call that gives the key back finds no other copy that holds it. -/
def Sole (S : KeySystem) : KeyCall → Prop
  | completeRevocation p | destroyDomain p => ∀ q s t, S.place p = some s → S.place q = some t →
      q ≠ p → t.origin = s.origin → ¬ t.Holds
  | _ => True

/-- The calls that work on the state at `p`. -/
def On (p : Nat) (c : KeyCall) : Prop :=
  c = beginRevocation p ∨ c = completeRevocation p ∨ c = destroyDomain p

end KeyCall

def keyMachine : Machine KeySystem KeyCall where
  start := fun S => S = .start
  step := fun S c S' => S' = c.run S

structure Exclusive (S : KeySystem) : Prop where
  /-- A key that a state holds is marked used. -/
  marked : ∀ p s, S.place p = some s → s.Holds → S.registry.used s.holding.storageKey = true
  /-- States that hold the same key are copies of one state. -/
  distinct : ∀ p q s t, S.place p = some s → S.place q = some t → s.Holds → t.Holds →
    s.holding.storageKey = t.holding.storageKey → s.origin = t.origin
  /-- A new state gets a user key, so not key 0, and one that no state holds. -/
  handedOut : ∀ domainId policy st R, createDomain S.registry domainId policy = .ok (st, R) →
    IsUserKey st.storageKey ∧ st.storageKey ≠ 0 ∧
      ∀ p s, S.place p = some s → s.Holds → s.holding.storageKey ≠ st.storageKey
  /-- No call on a state that has been revoked changes the registry. -/
  revoked : ∀ p s, S.place p = some s → S.revoked s.origin = true →
    ∀ c, KeyCall.On p c → (c.run S).registry = S.registry

/-! ## What a call does to a state -/

/-- The state is as before or has begun to drain. -/
def Drained (h h' : KeyHolding) : Prop :=
  h'.storageKeyState = h.storageKeyState ∨ h'.storageKeyState = .draining ∧
    h.storageKeyState ≠ .reusable

/-- A call leaves the registry alone, or gives back the key that the state held. -/
inductive KeyOutcome (R : KeyRegistry) (h h' : KeyHolding) (R' : KeyRegistry) : Prop where
  | quiet (registry : R' = R) (key : h'.storageKey = h.storageKey)
      (state : Drained h h' ∨ h'.storageKeyState = .reusable)
  | released (user : IsUserKey h.storageKey)
      (held : h.storageKeyState = .active ∨ h.storageKeyState = .draining)
      (used : R'.used = update R.used h.storageKey false)
      (key : h'.storageKey = h.storageKey) (state : h'.storageKeyState = .reusable)

variable {R : KeyRegistry} {h : KeyHolding}

theorem beginStorageKeyRevocation_drained :
    (beginStorageKeyRevocation h).storageKey = h.storageKey ∧
      Drained h (beginStorageKeyRevocation h) := by
  unfold beginStorageKeyRevocation
  split_ifs with hdone
  · exact ⟨rfl, .inl rfl⟩
  · exact ⟨rfl, .inr ⟨rfl, fun hreusable => hdone (.inr hreusable)⟩⟩

theorem completeStorageKeyRevocation_outcome :
    KeyOutcome R h (completeStorageKeyRevocation R h).2.1
      (completeStorageKeyRevocation R h).2.2 := by
  unfold completeStorageKeyRevocation
  split_ifs with hdone hdraining
  · exact .quiet rfl rfl (.inr rfl)
  · exact .quiet rfl rfl (.inl (.inl rfl))
  show KeyOutcome R h { h with storageKeyGeneration := _, storageKeyState := .reusable }
    (R.releaseStorageKey h.storageKey).2
  unfold KeyRegistry.releaseStorageKey
  split_ifs with huser hused
  · exact .released huser (.inr (not_not.mp hdraining)) rfl rfl rfl
  · exact .quiet rfl rfl (.inr rfl)
  · exact .quiet rfl rfl (.inr rfl)

theorem Drained.held {h' : KeyHolding} (hdrained : Drained h h')
    (hknown : h.storageKeyState ≠ .none)
    (hheld : h'.storageKeyState = .active ∨ h'.storageKeyState = .draining) :
    h.storageKeyState = .active ∨ h.storageKeyState = .draining := by
  rcases hdrained with hsame | ⟨-, hne⟩
  · rwa [← hsame]
  cases hs : h.storageKeyState with
  | none => exact absurd hs hknown
  | active => exact .inl rfl
  | draining => exact .inr rfl
  | reusable => exact absurd hs hne

theorem Drained.trans {h₁ h₂ : KeyHolding} (hfirst : Drained h h₁) (hsecond : Drained h₁ h₂) :
    Drained h h₂ := by
  rcases hsecond with hsame | ⟨hdraining, hne⟩
  · unfold Drained
    rwa [hsame]
  refine .inr ⟨hdraining, fun hspent => ?_⟩
  rcases hfirst with hsame | ⟨-, hne'⟩
  · exact hne (hsame.trans hspent)
  · exact hne' hspent

theorem KeyOutcome.of_drained {h₁ h₂ : KeyHolding} {R' : KeyRegistry}
    (hcall : KeyOutcome R h₁ h₂ R') (hkey : h₁.storageKey = h.storageKey) (hdrained : Drained h h₁)
    (hknown : h.storageKeyState ≠ .none) : KeyOutcome R h h₂ R' := by
  cases hcall with
  | quiet registry key state =>
    exact .quiet registry (key.trans hkey) (state.imp_left hdrained.trans)
  | released user held used key state =>
    rw [hkey] at user used
    exact .released user (hdrained.held hknown held) used (key.trans hkey) state

theorem destroyDomain_outcome (hknown : h.storageKeyState ≠ .none) :
    KeyOutcome R h (destroyDomain R h).2.1 (destroyDomain R h).2.2 := by
  unfold destroyDomain
  split_ifs with hdestroyed
  · exact .quiet rfl rfl (.inl (.inl rfl))
  · obtain ⟨hkey, hdrained⟩ := beginStorageKeyRevocation_drained
    exact completeStorageKeyRevocation_outcome.of_drained hkey hdrained hknown

theorem KeyOutcome.registry_eq {s : KeyState} (hfree : ¬ s.Holds) {hold : KeyHolding}
    {R R' : KeyRegistry} (hcall : KeyOutcome R s.holding hold R') : R' = R := by
  cases hcall with
  | quiet registry _ _ => exact registry
  | released user held _ _ _ => exact absurd ⟨user, held⟩ hfree

/-! ## The invariant -/

/-- What a run keeps as long as every step is `Sole`. -/
structure KeyInv (S : KeySystem) : Prop where
  known : ∀ p s, S.place p = some s → s.holding.storageKeyState ≠ .none
  origin_lt : ∀ p s, S.place p = some s → s.origin < S.created
  revoked_lt : ∀ o, S.revoked o = true → o < S.created
  marked : ∀ p s, S.place p = some s → s.Holds → S.registry.used s.holding.storageKey = true
  distinct : ∀ p q s t, S.place p = some s → S.place q = some t → s.Holds → t.Holds →
    s.holding.storageKey = t.holding.storageKey → s.origin = t.origin
  /-- A spent state goes back to a revoked creation. -/
  spent : ∀ p s, S.place p = some s → s.holding.storageKeyState = .reusable →
    S.revoked s.origin = true
  /-- No copy of a revoked state holds the key. -/
  given : ∀ p s, S.place p = some s → S.revoked s.origin = true → ¬ s.Holds

namespace KeyInv

variable {S : KeySystem} {p : Nat} {s : KeyState}

theorem start : KeyInv .start where
  known := fun _ _ h => nomatch h
  origin_lt := fun _ _ h => nomatch h
  revoked_lt := fun _ h => nomatch h
  marked := fun _ _ h => nomatch h
  distinct := fun _ _ _ _ h => nomatch h
  spent := fun _ _ h => nomatch h
  given := fun _ _ h => nomatch h

/-- A state is overwritten by nothing, or by one that is somewhere already, up to its lifecycle
state. -/
theorem put (h : KeyInv S) {new : Option KeyState}
    (hnew : ∀ s, new = some s → ∃ q t, S.place q = some t ∧ t.origin = s.origin ∧
      t.holding.storageKey = s.holding.storageKey ∧
      t.holding.storageKeyState = s.holding.storageKeyState) : KeyInv (S.put p new) := by
  have hplace : ∀ r s, (S.put p new).place r = some s → ∃ q t, S.place q = some t ∧
      t.origin = s.origin ∧ t.holding.storageKey = s.holding.storageKey ∧
      t.holding.storageKeyState = s.holding.storageKeyState := by
    intro r s hs
    change update S.place p new r = some s at hs
    by_cases hr : r = p
    · subst hr
      rw [update_self] at hs
      exact hnew s hs
    · rw [update_of_ne hr] at hs
      exact ⟨r, s, hs, rfl, rfl, rfl⟩
  have hholds : ∀ {s t : KeyState}, t.holding.storageKey = s.holding.storageKey →
      t.holding.storageKeyState = s.holding.storageKeyState → s.Holds → t.Holds := by
    intro s t hkey hstate hs
    unfold KeyState.Holds
    rwa [hkey, hstate]
  constructor
  · intro p s hs
    obtain ⟨q, t, ht, -, -, hstate⟩ := hplace p s hs
    rw [← hstate]
    exact h.known q t ht
  · intro p s hs
    obtain ⟨q, t, ht, horigin, -, -⟩ := hplace p s hs
    rw [← horigin]
    exact h.origin_lt q t ht
  · exact h.revoked_lt
  · intro p s hs hhold
    obtain ⟨q, t, ht, -, hkey, hstate⟩ := hplace p s hs
    rw [← hkey]
    exact h.marked q t ht (hholds hkey hstate hhold)
  · intro p₁ p₂ s₁ s₂ hs₁ hs₂ hhold₁ hhold₂ heq
    obtain ⟨q₁, t₁, ht₁, horigin₁, hkey₁, hstate₁⟩ := hplace p₁ s₁ hs₁
    obtain ⟨q₂, t₂, ht₂, horigin₂, hkey₂, hstate₂⟩ := hplace p₂ s₂ hs₂
    rw [← horigin₁, ← horigin₂]
    exact h.distinct q₁ q₂ t₁ t₂ ht₁ ht₂ (hholds hkey₁ hstate₁ hhold₁)
      (hholds hkey₂ hstate₂ hhold₂) (hkey₁.trans (heq.trans hkey₂.symm))
  · intro p s hs hspent
    obtain ⟨q, t, ht, horigin, -, hstate⟩ := hplace p s hs
    rw [← horigin]
    exact h.spent q t ht (hstate.trans hspent)
  · intro p s hs hrev hhold
    obtain ⟨q, t, ht, horigin, hkey, hstate⟩ := hplace p s hs
    rw [← horigin] at hrev
    exact h.given q t ht hrev (hholds hkey hstate hhold)

theorem eq_or_of_update {f : Nat → Option KeyState} {q : Nat} {t u : KeyState}
    (h : update f p (some u) q = some t) : t = u ∨ q ≠ p ∧ f q = some t := by
  by_cases hq : q = p
  · subst hq
    rw [update_self] at h
    exact .inl (Option.some.inj h).symm
  · rw [update_of_ne hq] at h
    exact .inr ⟨hq, h⟩

theorem add (h : KeyInv S) {hold : KeyHolding} {R : KeyRegistry}
    (hactive : hold.storageKeyState = .active)
    (hgrow : ∀ k, S.registry.used k = true → R.used k = true) (hfresh : IsUserKey hold.storageKey →
      S.registry.used hold.storageKey = false ∧ R.used hold.storageKey = true) :
        KeyInv (S.add p hold R) := by
  have hplace : ∀ q t, (S.add p hold R).place q = some t →
    t = ⟨hold, S.created⟩ ∨ S.place q = some t :=
    fun q t ht => (eq_or_of_update ht).imp_right And.right
  -- nobody holds the new key, because it was not marked
  have hother : ∀ q t, S.place q = some t → t.Holds → IsUserKey hold.storageKey →
      t.holding.storageKey ≠ hold.storageKey := by
    intro q t ht hhold huser heq
    have hused := h.marked q t ht hhold
    rw [heq, (hfresh huser).1] at hused
    cases hused
  constructor
  · intro q t ht
    obtain rfl | ht := hplace q t ht
    · rw [hactive]
      decide
    · exact h.known q t ht
  · intro q t ht
    obtain rfl | ht := hplace q t ht
    · exact Nat.lt_succ_self _
    · exact Nat.lt_succ_of_lt (h.origin_lt q t ht)
  · exact fun o ho => Nat.lt_succ_of_lt (h.revoked_lt o ho)
  · intro q t ht hhold
    obtain rfl | ht := hplace q t ht
    · exact (hfresh hhold.1).2
    · exact hgrow _ (h.marked q t ht hhold)
  · intro q₁ q₂ t₁ t₂ ht₁ ht₂ hhold₁ hhold₂ heq
    obtain rfl | ht₁ := hplace q₁ t₁ ht₁ <;> obtain rfl | ht₂ := hplace q₂ t₂ ht₂
    · rfl
    · exact absurd heq.symm (hother q₂ t₂ ht₂ hhold₂ hhold₁.1)
    · exact absurd heq (hother q₁ t₁ ht₁ hhold₁ hhold₂.1)
    · exact h.distinct q₁ q₂ t₁ t₂ ht₁ ht₂ hhold₁ hhold₂ heq
  · intro q t ht hspent
    obtain rfl | ht := hplace q t ht
    · rw [hactive] at hspent
      cases hspent
    · exact h.spent q t ht hspent
  · intro q t ht hrev
    obtain rfl | ht := hplace q t ht
    · exact absurd (h.revoked_lt _ hrev) (Nat.lt_irrefl _)
    · exact h.given q t ht hrev

/-- A call on the state at `p`. Unless it leaves the state as spent as it was, no other copy may
hold the key. -/
theorem write (h : KeyInv S) (hs : S.place p = some s) {hold : KeyHolding} {R : KeyRegistry}
    (hcall : KeyOutcome S.registry s.holding hold R)
    (hsole : hold.storageKeyState = .reusable → ∀ q t, S.place q = some t → q ≠ p →
      t.origin = s.origin → ¬ t.Holds) : KeyInv (S.write p s hold R) := by
  have hplace : ∀ q t, (S.write p s hold R).place q = some t →
      t = ⟨hold, s.origin⟩ ∨ q ≠ p ∧ S.place q = some t :=
    fun q t ht => eq_or_of_update ht
  have hkey : hold.storageKey = s.holding.storageKey := by cases hcall <;> assumption
  have hheld : KeyState.Holds ⟨hold, s.origin⟩ → s.Holds ∧ R = S.registry := by
    rintro ⟨huser, hstate⟩
    cases hcall with
    | quiet registry key state =>
      rcases state with hdrained | hdone
      · exact ⟨⟨hkey ▸ huser, hdrained.held (h.known p s hs) hstate⟩, registry⟩
      · simp [hdone] at hstate
    | released _ _ _ _ hdone => simp [hdone] at hstate
  have hused : ∀ q t, S.place q = some t → q ≠ p → t.Holds →
    R.used t.holding.storageKey = true := by
    intro q t ht hq hhold
    cases hcall with
    | quiet registry key state =>
      rw [registry]
      exact h.marked q t ht hhold
    | released user held used key state =>
      rw [used, update_of_ne]
      · exact h.marked q t ht hhold
      · intro heq
        exact hsole state q t ht hq (h.distinct q p t s ht hs hhold ⟨user, held⟩ heq) hhold
  have hrevoked : ∀ o, (S.write p s hold R).revoked o = true ↔
      S.revoked o = true ∨ o = s.origin ∧ hold.storageKeyState = .reusable := by
    intro o
    simp [KeySystem.write]
  constructor
  · intro q t ht
    obtain rfl | ⟨-, ht⟩ := hplace q t ht
    · show hold.storageKeyState ≠ .none
      cases hcall with
      | quiet registry key state =>
        rcases state with (hsame | ⟨hdraining, -⟩) | hdone
        · exact hsame ▸ h.known p s hs
        · simp [hdraining]
        · simp [hdone]
      | released _ _ _ _ hdone => simp [hdone]
    · exact h.known q t ht
  · intro q t ht
    obtain rfl | ⟨-, ht⟩ := hplace q t ht
    · exact h.origin_lt p s hs
    · exact h.origin_lt q t ht
  · intro o ho
    obtain ho | ⟨rfl, -⟩ := (hrevoked o).mp ho
    · exact h.revoked_lt o ho
    · exact h.origin_lt p s hs
  · intro q t ht hhold
    obtain rfl | ⟨hq, ht⟩ := hplace q t ht
    · obtain ⟨hhold, rfl⟩ := hheld hhold
      show S.registry.used hold.storageKey = true
      rw [hkey]
      exact h.marked p s hs hhold
    · exact hused q t ht hq hhold
  · intro q₁ q₂ t₁ t₂ ht₁ ht₂ hhold₁ hhold₂ heq
    obtain rfl | ⟨-, ht₁⟩ := hplace q₁ t₁ ht₁ <;> obtain rfl | ⟨-, ht₂⟩ := hplace q₂ t₂ ht₂
    · rfl
    · exact h.distinct p q₂ s t₂ hs ht₂ (hheld hhold₁).1 hhold₂ (hkey.symm.trans heq)
    · exact h.distinct q₁ p t₁ s ht₁ hs hhold₁ (hheld hhold₂).1 (heq.trans hkey)
    · exact h.distinct q₁ q₂ t₁ t₂ ht₁ ht₂ hhold₁ hhold₂ heq
  · intro q t ht hspent
    rw [hrevoked]
    obtain rfl | ⟨-, ht⟩ := hplace q t ht
    · exact .inr ⟨rfl, hspent⟩
    · exact .inl (h.spent q t ht hspent)
  · intro q t ht hrev hhold
    rw [hrevoked] at hrev
    obtain rfl | ⟨hq, ht⟩ := hplace q t ht
    · rcases hrev with hrev | ⟨-, hdone⟩
      · exact h.given p s hs hrev (hheld hhold).1
      · rcases hhold.2 with hstate | hstate <;> simp [hdone] at hstate
    · rcases hrev with hrev | ⟨horigin, hdone⟩
      · exact h.given q t ht hrev hhold
      · exact hsole hdone q t ht hq horigin hhold

theorem callAt (h : KeyInv S) {f : KeyRegistry → KeyHolding → KeyHolding × KeyRegistry}
    (hcall : ∀ s, S.place p = some s →
      KeyOutcome S.registry s.holding (f S.registry s.holding).1 (f S.registry s.holding).2)
    (hsole : ∀ s, S.place p = some s → (f S.registry s.holding).1.storageKeyState = .reusable →
      ∀ q t, S.place q = some t → q ≠ p → t.origin = s.origin → ¬ t.Holds) :
    KeyInv (KeyCall.callAt S p f) := by
  unfold KeyCall.callAt
  split
  · exact h
  · next s hs => exact h.write hs (hcall s hs) (hsole s hs)

theorem step (h : KeyInv S) {c : KeyCall} (hsole : c.Sole S) : KeyInv (c.run S) := by
  cases c with
  | createDomain p domainId policy state =>
    rw [KeyCall.run]
    split
    · exact h
    next st R hcreate =>
    obtain ⟨hfree, huser, hactive, rfl⟩ := createDomain_eq_ok hcreate
    refine h.add hactive (fun k hk => ?_) fun _ => ⟨hfree, update_self ..⟩
    by_cases hkey : k = st.storageKey
    · subst hkey
      exact update_self ..
    · exact (update_of_ne hkey ..).trans hk
  | nucleus p => exact h.add rfl (fun _ hk => hk) fun huser => absurd huser (by decide)
  | beginRevocation p =>
    rw [KeyCall.run]
    refine h.callAt (fun s _ => ?_) fun s hs hdone q t ht _ horigin => ?_
    · obtain ⟨hkey, hdrained⟩ := beginStorageKeyRevocation_drained
      exact .quiet rfl hkey (.inl hdrained)
    -- a state that is spent afterwards was spent before
    have hspent : s.holding.storageKeyState = .reusable := by
      rcases beginStorageKeyRevocation_drained.2 with hsame | ⟨hdraining, -⟩
      · exact hsame.symm.trans hdone
      · exact absurd (hdraining.symm.trans hdone) nofun
    exact h.given q t ht (horigin ▸ h.spent p s hs hspent)
  | completeRevocation p =>
    rw [KeyCall.run]
    exact h.callAt (fun s _ => completeStorageKeyRevocation_outcome)
      fun s hs _ q t ht hq horigin => hsole q s t hs ht hq horigin
  | destroyDomain p =>
    rw [KeyCall.run]
    exact h.callAt (fun s hs => destroyDomain_outcome (h.known p s hs))
      fun s hs _ q t ht hq horigin => hsole q s t hs ht hq horigin
  | copy p q => exact h.put fun s hs => ⟨p, s, hs, rfl, rfl, rfl⟩
  | setLifecycle p state =>
    refine h.put fun t ht => ?_
    obtain ⟨s, hs, rfl⟩ := Option.map_eq_some_iff.mp ht
    exact ⟨p, s, hs, rfl, rfl, rfl⟩
  | drop p => exact h.put fun s hs => nomatch hs

theorem exclusive (h : KeyInv S) : Exclusive S where
  marked := h.marked
  distinct := h.distinct
  handedOut := by
    intro domainId policy st R hcreate
    obtain ⟨hfree, huser, -, -⟩ := createDomain_eq_ok hcreate
    refine ⟨huser, fun hzero => absurd (hzero ▸ huser) (by decide), fun p s hs hhold heq => ?_⟩
    have hused := h.marked p s hs hhold
    rw [heq, hfree] at hused
    cases hused
  revoked := by
    intro p s hs hrev c hon
    have hfree := h.given p s hs hrev
    rcases hon with rfl | rfl | rfl <;> simp only [KeyCall.run, KeyCall.callAt, hs]
    · rfl
    · exact completeStorageKeyRevocation_outcome.registry_eq hfree
    · exact (destroyDomain_outcome (h.known p s hs)).registry_eq hfree

end KeyInv

/-- **Storage keys are exclusive** as long as a key is given back through the last copy that holds
it. -/
theorem keys_exclusive_of_sole {S : KeySystem}
    (hreach : (keyMachine.restrict fun S c => c.Sole S).Reachable S) : Exclusive S := by
  refine KeyInv.exclusive (hreach.invariant (P := KeyInv) ?_ ?_)
  · rintro S rfl
    exact .start
  · rintro S c S' hinv ⟨hsole, rfl⟩
    exact hinv.step hsole

/-- A state that was handed over and then destroyed twice: the second call leaves the key with the
next creation. -/
theorem keys_exclusive_of_sole_handover : ∃ S,
    (keyMachine.restrict fun S c => c.Sole S).Reachable S ∧ Exclusive S ∧
      S.registry.used 8 = true ∧ (KeyCall.run S (.destroyDomain 1)).registry.used 8 = true := by
  have hsole : KeyCall.Sole (KeyCall.run (KeyCall.run (KeyCall.run .start
      (.createDomain 0 1 {} .sealed)) (.copy 0 1)) (.drop 0)) (.destroyDomain 1) := by
    intro q s t _ ht hq
    -- place 0 is empty again, and no other place was used
    by_cases hzero : q = 0
    · subst hzero
      exact absurd ht nofun
    · have hnone := ht.symm.trans (update_of_ne hzero ..)
      exact absurd (hnone.trans ((update_of_ne hq ..).trans (update_of_ne hzero ..))) nofun
  have hreach : (keyMachine.restrict fun S c => c.Sole S).Reachable _ :=
    ⟨.start, [.createDomain 0 1 {} .sealed, .copy 0 1, .drop 0, .destroyDomain 1,
      .createDomain 2 2 {} .sealed], rfl,
      .cons ⟨trivial, rfl⟩ (.cons ⟨trivial, rfl⟩ (.cons ⟨trivial, rfl⟩ (.cons ⟨hsole, rfl⟩
        (.cons ⟨trivial, rfl⟩ (.nil _)))))⟩
  exact ⟨_, hreach, keys_exclusive_of_sole hreach, by decide, by decide⟩

end ZXFoundation.Dgp.Isolation

namespace ZXFoundation.Dgp.Domain

open Runs Scoms Outcome Isolation

/-- The creation of domain 1 fails at the body of its strand, after the seal. -/
def failedThenCreated : List NucleusOp :=
  bootOps ++ [.domainCreate (some "first") { plenty with body := none },
    .domainCreate (some "second") { plenty with slot := { object := some 2001 } }]

/-- The first domain stays in its slot with the key that its rollback has given back, and the second
domain gets the same key. When the first is activated and destroyed, the second is left with a key
that counts as unused. The calls alone, with the copy that the creation makes, do the same. -/
theorem key_of_failed_creation_shared : (∃ S, keyMachine.Reachable S ∧ ¬ Exclusive S) ∧
    ∃ n n', (nucleusMachine smallConfig).Reachable n ∧
      ((n.world.table domainTable).objectPtr 1 = some 2000 ∧
        (n.world.table domainTable).objectPtr 2 = some 2001 ∧
        (n.domain 2000).storageKeyState = .active ∧ (n.domain 2001).storageKeyState = .active ∧
        (n.domain 2000).storageKey = 8 ∧ (n.domain 2001).storageKey = 8) ∧
      (nucleusMachine smallConfig).Exec n [.domainActivate 1, .domainDestroy 1 {}] n' ∧
      (n'.world.header 2001).state = .active ∧ (n'.domain 2001).storageKeyState = .active ∧
      (n'.domain 2001).storageKey = 8 ∧ n'.keys.used 8 = false := by
  constructor
  · have hreach : keyMachine.Reachable _ :=
      ⟨.start, [.createDomain 0 1 {} .sealed, .copy 0 1, .destroyDomain 0,
        .createDomain 2 2 {} .sealed], rfl,
        .cons rfl (.cons rfl (.cons rfl (.cons rfl (.nil _))))⟩
    refine ⟨_, hreach, fun h => ?_⟩
    -- the copy of the first creation and the state of the second
    exact absurd (h.distinct 1 2 _ _ rfl rfl (by decide) (by decide) rfl) (by decide)
  · obtain ⟨n, hreach, hshared, hrun⟩ := reachable_with (Q := fun n =>
      ((n.world.table domainTable).objectPtr 1 = some 2000 ∧
        (n.world.table domainTable).objectPtr 2 = some 2001 ∧
        (n.domain 2000).storageKeyState = .active ∧ (n.domain 2001).storageKeyState = .active ∧
        (n.domain 2000).storageKey = 8 ∧ (n.domain 2001).storageKey = 8) ∧
      Post (fun _ => False) (fun n' => (n'.world.header 2001).state = .active ∧
        (n'.domain 2001).storageKeyState = .active ∧ (n'.domain 2001).storageKey = 8 ∧
        n'.keys.used 8 = false) (runOps smallConfig [.domainActivate 1, .domainDestroy 1 {}] n))
      failedThenCreated (by decide +kernel)
    obtain ⟨n', hrun, hafter⟩ := hrun.total
    exact ⟨n, n', hreach, hshared, exec_of_runOps hrun, hafter⟩

end ZXFoundation.Dgp.Domain
