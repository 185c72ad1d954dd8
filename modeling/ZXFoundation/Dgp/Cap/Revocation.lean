import ZXFoundation.Dgp.Cap.Confinement

/-!
# How final a revocation is

What separates the token of an ended entry from the next occupant of its slot is the slot's 16-bit
generation, which advances whenever the slot is vacated. After `2 ^ 16` times it is back where it
was.
-/

namespace ZXFoundation.Scoms

open Runs Dgp.Cap Function World

variable {cfg : Config} {w : World} {L : Ledger} {t : CapToken}

/-- No capability operation accepts the token, and none of them changes anything. -/
structure Refused (cfg : Config) (w : World) (t : CapToken) : Prop where
  validate : ∀ needed, ∃ e, w.capValidateGeneric t needed = .error e
  validateFor : ∀ needed domainId, ∃ e, w.capValidateGenericFor t needed domainId = .error e
  resolve : ∀ needed, ∃ e, w.capResolve t needed = .error e
  acquire : ∀ mem rights owner, ∃ e, capAcquire cfg w mem t rights owner = .ok (.error e, w)
  duplicate : ∀ mem rights owner, ∃ e, capDuplicate cfg w mem t rights owner = .ok (.error e, w)
  duplicateFor : ∀ mem rights source owner,
    ∃ e, w.capDuplicateFor cfg mem t rights source owner = .ok (.error e, w)
  release : ∃ e, capRelease cfg w t = .ok (.error e, w)
  revoke : ∃ e, capRevoke cfg w t = .ok (.error e, w)

/-- Every operation starts with `slot_for`. -/
theorem refused_of_slotFor (h : w.slotFor t = none) : Refused cfg w t := by
  have hval : ∀ needed owner check,
      w.validateSlot t needed owner check = .error (.generic .notFound) := by
    intro needed owner check
    rw [validateSlot, h]
  have hderive : ∀ mem rights owner,
      w.deriveOwn cfg mem t rights owner = .ok (.error (.generic .notFound), w) := by
    intro mem rights owner
    rw [deriveOwn, hval]
    rfl
  have hvacate : ∃ e, w.vacateToken cfg t = .ok (.error e, w) := by
    unfold vacateToken
    split_ifs
    · exact ⟨_, rfl⟩
    rw [h]
    cases w.caps with
    | none => exact ⟨_, rfl⟩
    | some caps => exact ⟨_, rfl⟩
  refine ⟨fun needed => ?_, fun needed d => ⟨_, by rw [capValidateGenericFor, hval]; rfl⟩,
    fun needed => ⟨_, hval needed 0 false⟩, fun mem rights owner => ⟨_, hderive mem rights owner⟩,
    fun mem rights owner => ⟨_, hderive mem rights owner⟩, fun mem rights source owner => ?_,
    hvacate, hvacate⟩
  · unfold capValidateGeneric
    split_ifs
    · exact ⟨_, rfl⟩
    · rw [hval]
      exact ⟨_, rfl⟩
  · rw [capDuplicateFor, hval]
    exact ⟨_, rfl⟩

/-- The generation of the slot differs from that of an ended token for `2 ^ 16` rounds. -/
theorem LedgerInv.slotFor_ended (h : LedgerInv cfg w L) {k : Nat} {g : Grant}
    (hg : L.grants[k]? = some g) (hk : L.live k = false)
    (hround : w.vacated g.token.objectId.toNat < g.round + 2 ^ 16) : w.slotFor g.token = none := by
  cases hopen : w.slotFor g.token with
  | none => rfl
  | some p =>
  obtain ⟨i, s⟩ := p
  obtain ⟨caps, hcaps, rfl, rfl, -, -, -, hgen, -, -⟩ := slotFor_eq_some hopen
  have hslot := h.generation g.token.objectId.toNat
  rw [capSlots_of_some hcaps, hgen, h.issued (List.mem_of_getElem? hg), ← UInt16.toNat_inj,
    UInt16.toNat_ofNat', UInt16.toNat_ofNat'] at hslot
  have hlt := h.ended hg hk
  omega

/-- **A revoked token stays dead** while its slot has been vacated fewer than `2 ^ 16` times since
the token was issued, the revocation itself included. -/
theorem revocation_final {s : World × Ledger} (h : (auditMachine cfg).Reachable s) {k : Nat}
    {g : Grant} (hg : s.2.grants[k]? = some g) (hended : s.2.live k = false)
    (hround : s.1.vacated g.token.objectId.toNat < g.round + 2 ^ 16) : Refused cfg s.1 g.token :=
  refused_of_slotFor ((LedgerInv.of_reachable h).2.slotFor_ended hg hended hround)

/-- Domain 5 gets a capability and releases it. -/
def releasedOnce : List Call :=
  activeDomain ++ [.capIssue true CapType.domain 0 17 5, .capRelease rootToken]

theorem revocation_final_releasedOnce :
    ∃ s, (auditMachine smallConfig).Exec auditStart releasedOnce s ∧
      Refused smallConfig s.1 rootToken := by
  obtain ⟨s, g, hrun, hg, hlive, hround, htoken⟩ : ∃ s g,
      observeCalls smallConfig Ledger.record releasedOnce auditStart = .ok s ∧
        s.2.grants[0]? = some g ∧
      s.2.live 0 = false ∧ s.1.vacated g.token.objectId.toNat < g.round + 2 ^ 16 ∧
      g.token = rootToken := by
    refine ⟨_, _, rfl, rfl, ?_⟩
    decide
  exact ⟨s, exec_of_observeCalls hrun,
    htoken ▸ revocation_final (reachable_of_observeCalls hrun) hg hlive hround⟩

/-! ## Wearing a slot out

One domain issues and releases a capability for the same object over and over. -/

/-- The token of the slot's `n`-th occupant. -/
def wornToken (n : Nat) : CapToken := .make CapType.domain 1 (UInt16.ofNat (1 + n)) 17

/-- Slot 1 is idle and has been vacated `n` times modulo `2 ^ 16`, the first entry of the ledger was
for `rootToken` and is ended, and the domain object with id 0 is active. -/
structure Worn (n : Nat) (s : World × Ledger) : Prop where
  slot : ∃ caps, s.1.caps = some caps ∧ (caps 1).active = false ∧
    (caps 1).generation = UInt16.ofNat (1 + n)
  published : (s.1.table 0).objectPtr 0 = some 0
  identity : (s.1.header 0).id = 0
  state : (s.1.header 0).state = .active
  references : (s.1.header 0).ref = 2
  entry : ∃ g, s.2.grants[0]? = some g ∧ g.token = rootToken
  ended : s.2.live 0 = false

theorem wornToken_isValid {n : Nat} : (wornToken n).isValid = true := by
  have htype : (wornToken n).type = CapType.domain := CapToken.type_make ..
  have hraw : (wornToken n).raw ≠ 0 := by
    intro hzero
    rw [CapToken.type, hzero] at htype
    exact absurd htype (by decide)
  rw [CapToken.isValid, htype, bne_iff_ne.mpr hraw]
  rfl

def reissued (s : World × Ledger) (n : Nat) : World × Ledger :=
  let w := s.1.withSlot 1 0 CapType.domain 17 5
  (w, s.2.add w (wornToken n) 5 none)

theorem Worn.issue {n : Nat} {s : World × Ledger} (h : Worn n s) :
    (auditMachine smallConfig).step s (.capIssue true CapType.domain 0 17 5) (reissued s n) := by
  obtain ⟨caps, hcaps, hidle, hgen⟩ := h.slot
  have hens : s.1.ensureCapabilities true = some (s.1, caps) := by
    rw [ensureCapabilities, hcaps]
  have hraw : s.1.findRaw smallConfig 0 0 = some 0 := by
    rw [findRaw, if_neg (by decide), h.published]
    dsimp only
    rw [if_neg (by rw [h.identity]; decide)]
  have hlookup : s.1.lookupKobject smallConfig CapType.domain 0 =
      .ok (0, (s.1.header 0).generation) := by
    have hl : smallConfig.lookup CapType.domain.toNat = some ⟨0, fun _ => true⟩ := rfl
    rw [lookupKobject, if_neg (by decide), hl]
    dsimp only
    rw [show (0 : UInt16).toNat = 0 from rfl, hraw]
    rfl
  have hfree : freeSlot caps (maxCapabilities - 1) 1 = some 1 := by
    rw [show maxCapabilities - 1 = 1022 + 1 from rfl, freeSlot, hidle]
    rfl
  have hget : s.1.tryGet 0 =
      .ok (true, s.1.setHeader 0 { s.1.header 0 with ref := (s.1.header 0).ref + 1 }) := by
    refine tryGet_eq ?_ ?_
    all_goals
      rw [h.references]
      decide
  refine ⟨.token (.ok (wornToken n)), ?_, rfl⟩
  change (s.1.issueLocked smallConfig true CapType.domain 0 17 5 >>= fun r =>
    pure (Reply.token r.1, r.2)) = _
  rw [issueLocked, hens]
  dsimp only
  rw [hlookup]
  dsimp only
  rw [hfree]
  dsimp only
  rw [if_neg (by rw [h.state]; decide), hget]
  have hslots : s.1.capSlots = caps := capSlots_of_some hcaps
  simp only [bind, Except.bind, pure, Except.pure, reissued, withSlot, wornToken, hslots,
    filledSlot, hgen, if_true]
  rfl

def rereleased (s : World × Ledger) (n : Nat) : World × Ledger :=
  let w := (reissued s n).1
  ((w.vacateSlot w.capSlots 1).setHeader 0 { s.1.header 0 with ref := 2 },
    (reissued s n).2.endWhere fun g => g.token == wornToken n)

section Cycle

variable {n : Nat} {s : World × Ledger}

theorem capSlots_reissued :
    (reissued s n).1.capSlots 1 = filledSlot (s.1.capSlots 1) 0 CapType.domain 17 5
      (s.1.header 0).generation := by
  rw [reissued, capSlots_withSlot, if_pos rfl]

theorem Worn.slotFor_reissued (h : Worn n s) :
    (reissued s n).1.slotFor (wornToken n) = some (1, (reissued s n).1.capSlots 1) := by
  obtain ⟨caps, hcaps, -, hgen⟩ := h.slot
  have hobj : (wornToken n).objectId = 1 := CapToken.objectId_make ..
  have hmatch : slotMatches ((reissued s n).1.capSlots 1) (wornToken n) = true := by
    rw [capSlots_reissued, capSlots_of_some hcaps]
    simp [slotMatches, filledSlot, wornToken, hgen]
  rw [slotFor, show (reissued s n).1.caps = some (reissued s n).1.capSlots from rfl]
  simp only [wornToken_isValid, hobj]
  rw [if_neg (by decide)]
  exact if_pos hmatch

theorem Worn.header_reissued (h : Worn n s) :
    (reissued s n).1.header 0 = { s.1.header 0 with ref := 3 } := by
  change (s.1.setHeader 0 _).header 0 = _
  rw [header_setHeader_self, h.references]

theorem Worn.validate_reissued (h : Worn n s) :
    (reissued s n).1.capValidateGenericFor (wornToken n) CapRights.read 5 = .ok () := by
  have hrights : checkRights (wornToken n) CapRights.read = .ok () := by
    rw [checkRights, wornToken, CapToken.rights_make]
    rfl
  rw [capValidateGenericFor, validateSlot, h.slotFor_reissued]
  simp [capSlots_reissued, filledSlot, h.header_reissued, h.state, hrights, Except.map]

theorem Worn.release (h : Worn n s) :
    (auditMachine smallConfig).step (reissued s n) (.capRelease (wornToken n))
      (rereleased s n) := by
  have hput : ((reissued s n).1.vacateSlot (reissued s n).1.capSlots 1).put smallConfig 0 =
      .ok (rereleased s n).1 := by
    have hheader : ((reissued s n).1.vacateSlot (reissued s n).1.capSlots 1).header 0 =
        { s.1.header 0 with ref := 3 } := h.header_reissued
    have htwo : 2 ≤ (((reissued s n).1.vacateSlot (reissued s n).1.capSlots 1).header 0).ref := by
      simp [hheader]
    rw [put_eq_of_two_le htwo, hheader]
    rfl
  refine ⟨.status (.ok ()), ?_, rfl⟩
  change (vacateToken smallConfig (reissued s n).1 (wornToken n) >>= fun r =>
    pure (Reply.status r.1, r.2)) = _
  rw [vacateToken, wornToken_isValid, if_neg (by decide), h.slotFor_reissued,
    show (reissued s n).1.caps = some (reissued s n).1.capSlots from rfl]
  dsimp only
  rw [show ((reissued s n).1.capSlots 1).target = some 0 by rw [capSlots_reissued]; rfl]
  dsimp only
  rw [hput]
  rfl

theorem Worn.cycle (h : Worn n s) : Worn (n + 1) (rereleased s n) := by
  obtain ⟨caps, hcaps, -, hgen⟩ := h.slot
  obtain ⟨g, hg, htoken⟩ := h.entry
  have hlen : 0 ≠ s.2.grants.length := ((List.getElem?_eq_some_iff.mp hg).1).ne
  have hheader : (rereleased s n).1.header 0 = { s.1.header 0 with ref := 2 } :=
    header_setHeader_self ..
  have hslots : (rereleased s n).1.caps = some (update (reissued s n).1.capSlots 1
      (vacatedSlot ((reissued s n).1.capSlots 1))) := rfl
  refine ⟨⟨_, hslots, ?_, ?_⟩, h.published, ?_, ?_, ?_, ⟨g, ?_, htoken⟩, ?_⟩
  · rw [update_self]
    rfl
  · rw [update_self, capSlots_reissued, capSlots_of_some hcaps]
    change (caps 1).generation + 1 = _
    rw [hgen]
    exact (UInt16.ofNat_add (1 + n) 1).symm
  · rw [hheader]
    exact h.identity
  · rw [hheader]
    exact h.state
  · rw [hheader]
  · change (s.2.add _ (wornToken n) 5 none).grants[0]? = some g
    rw [Ledger.getElem?_add, if_neg hlen, hg]
  · change ((s.2.add _ (wornToken n) 5 none).live 0 && _) = false
    rw [Ledger.live_add, if_neg hlen, h.ended, Bool.false_and]

theorem Worn.rounds (h : Worn n s) {m : Nat} :
    ∃ cs s', (auditMachine smallConfig).Exec s cs s' ∧ Worn (n + m) s' := by
  induction m with
  | zero => exact ⟨[], s, .nil s, h⟩
  | succ m ih =>
    obtain ⟨cs, s', hrun, hworn⟩ := ih
    exact ⟨_, _, (hrun.snoc hworn.issue).snoc hworn.release, hworn.cycle⟩

end Cycle

/-- **A revoked token comes back to life.** After its release it is dead; after `2 ^ 16 - 1` more
rounds on its slot the next issue returns the same word. -/
theorem revoked_token_revived :
    ∃ s₁ s₂ cs, (auditMachine smallConfig).Exec auditStart releasedOnce s₁ ∧
      (∃ g, s₁.2.grants[0]? = some g ∧ g.token = rootToken) ∧ s₁.2.live 0 = false ∧
      (∃ e, s₁.1.capValidateGenericFor rootToken CapRights.read 5 = .error e) ∧
      (auditMachine smallConfig).Exec s₁ cs s₂ ∧ s₂.2.live 0 = false ∧
      s₂.1.capValidateGenericFor rootToken CapRights.read 5 = .ok () := by
  obtain ⟨s₁, hrun, hdead, hworn⟩ :
    ∃ s₁, observeCalls smallConfig Ledger.record releasedOnce auditStart = .ok s₁ ∧
      s₁.1.capValidateGenericFor rootToken CapRights.read 5 = .error (.generic .notFound) ∧
      Worn 1 s₁ := by
    refine ⟨_, rfl, by decide, ⟨_, rfl, ?_, ?_⟩, ?_, ?_, ?_, ?_, ⟨_, rfl, ?_⟩, ?_⟩
    all_goals decide
  obtain ⟨cs, s, hrounds, hs⟩ := hworn.rounds
  have hlen : 0 ≠ s.2.grants.length := by
    obtain ⟨g, hg, -⟩ := hs.entry
    exact ((List.getElem?_eq_some_iff.mp hg).1).ne
  refine ⟨s₁, _, _, exec_of_observeCalls hrun, hworn.entry, hworn.ended, ⟨_, hdead⟩,
    hrounds.snoc hs.issue, ?_, ?_⟩
  · change (s.2.add _ _ 5 none).live 0 = false
    rw [Ledger.live_add, if_neg hlen, hs.ended]
  · -- `2 ^ 16` rounds are none
    have htoken : wornToken (1 + (2 ^ 16 - 1)) = rootToken := by decide
    exact htoken ▸ hs.validate_reissued

end ZXFoundation.Scoms
