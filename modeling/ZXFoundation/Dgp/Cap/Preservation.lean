import ZXFoundation.Dgp.Cap.Core
import ZXFoundation.Scoms.Slots

/-!
# Capability operations keep the invariant

An active slot is one of the places that refer to an object. Issuing moves a fresh reference into
a slot (`IssueOutcome`), vacating a slot puts its reference in flight again
(`WF.vacateSlot`).
-/

namespace ZXFoundation.Scoms

open Tally Outcome Dgp.Cap Function World

variable {cfg : Config} {w w' : World} {x x' : Addr → Nat} {caps : Nat → CapabilitySlot}

/-! ## The slots -/

/-- The contents of the capability table; before it is allocated all slots are in their initial
state. -/
def World.capSlots (w : World) : Nat → CapabilitySlot := w.caps.getD fun _ => {}

theorem capSlots_of_some (h : w.caps = some caps) : w.capSlots = caps := by
  simp [capSlots, h]

def SlotNames (a : Addr) (s : CapabilitySlot) : Prop :=
  s.active = true ∧ s.target = some a

instance (a : Addr) : DecidablePred (SlotNames a) :=
  fun _ => inferInstanceAs (Decidable (_ ∧ _))

theorem capReferences_eq (w : World) (a : Addr) :
    w.capReferences a = tally (Finset.range maxCapabilities) (SlotNames a) w.capSlots := by
  unfold capReferences capSlots
  cases w.caps with
  | none =>
    refine (tally_eq_zero.mpr fun i _ hi => ?_).symm
    exact Bool.false_ne_true hi.1
  | some caps => exact tally_congr fun i _ => Iff.rfl

variable {i : Nat} {s : CapabilitySlot}

theorem WF.setCaps (h : WF cfg w x) {v : Nat → Nat} (hi : i < maxCapabilities)
    (hs : s.active = true → ∃ a, s.target = some a)
    (hsum : ∀ a, (if SlotNames a s then 1 else 0) + x' a =
      (if SlotNames a (w.capSlots i) then 1 else 0) + x a) :
    WF cfg { w with caps := some (update w.capSlots i s), vacated := v } x' := by
  refine ⟨h.books.frame rfl rfl rfl h.books.core h.books.entries fun _ => ?_, ?_, ?_,
    h.history.frame rfl rfl rfl⟩
  · exact ⟨rfl, rfl, fun _ => rfl, fun _ hp => hp, fun _ _ _ _ => ⟨rfl, rfl, rfl, rfl⟩⟩
  · refine h.refs.move rfl (fun _ => rfl) fun a => ?_
    have hmove := tally_update (SlotNames a) w.capSlots (Finset.mem_range.mpr hi) s
    have hafter := capReferences_eq { w with caps := some (update w.capSlots i s), vacated := v } a
    rw [@capSlots_of_some { w with caps := some (update w.capSlots i s), vacated := v } _
      rfl] at hafter
    have hbefore := capReferences_eq w a
    have hrefs : ∀ n, n = capReferences
        { w with caps := some (update w.capSlots i s), vacated := v } a →
        references { w with caps := some (update w.capSlots i s), vacated := v } a =
          (if w.published a then 1 else 0) + w.handle.count (some a) + n := fun n hn => hn ▸ rfl
    rw [hrefs _ hafter.symm, references, hbefore]
    have := hsum a
    omega
  · intro caps j hcaps hj
    cases hcaps
    by_cases hji : j = i
    · subst hji
      rw [update_self] at hj ⊢
      exact ⟨hi, hs hj⟩
    rw [update_of_ne hji] at hj ⊢
    unfold capSlots at hj ⊢
    cases hw : w.caps with
    | none =>
      rw [hw] at hj
      exact (Bool.false_ne_true hj).elim
    | some caps =>
      rw [hw] at hj
      exact h.caps hw hj

theorem WF.allocateCaps (h : WF cfg w x) (hnone : w.caps = none) :
    WF cfg { w with caps := some fun _ => {} } x := by
  have hslots : capSlots { w with caps := some fun _ => {} } = w.capSlots := by
    simp [capSlots, hnone]
  refine ⟨h.books.frame rfl rfl rfl h.books.core h.books.entries fun _ => ?_, ?_, ?_,
    h.history.frame rfl rfl rfl⟩
  · exact ⟨rfl, rfl, fun _ => rfl, fun _ hp => hp, fun _ _ _ _ => ⟨rfl, rfl, rfl, rfl⟩⟩
  · refine h.refs.move rfl (fun _ => rfl) fun a => ?_
    have hcaps : capReferences { w with caps := some fun _ => {} } a = w.capReferences a := by
      rw [capReferences_eq, capReferences_eq, hslots]
    unfold references
    rw [hcaps]
    rfl
  · intro caps i hcaps hi
    cases hcaps
    exact (Bool.false_ne_true hi).elim

/-! ## Issuing -/

variable {a : Addr}

theorem findRaw_eq_some {t : TableId} {id : Nat} (h : w.findRaw cfg t id = some a) :
    id < (cfg.capacity t).N ∧ (w.table t).objectPtr id = some a := by
  unfold findRaw at h
  split_ifs at h with hlt
  split at h
  · cases h
  next b hb =>
  split_ifs at h
  cases h
  exact ⟨Nat.not_le.mp hlt, hb⟩

variable {type : CapType} {objId : UInt16}

theorem lookupKobject_eq_ok {g : Nat} (h : w.lookupKobject cfg type objId = .ok (a, g)) :
    ∃ l, cfg.lookup type.toNat = some l ∧ objId.toNat < (cfg.capacity l.table).N ∧
      (w.table l.table).objectPtr objId.toNat = some a ∧ g = (w.header a).generation := by
  unfold lookupKobject at h
  split_ifs at h
  split at h
  · cases h
  next l hl =>
  split at h
  · cases h
  next b hb =>
  split_ifs at h
  cases h
  obtain ⟨hlt, hptr⟩ := findRaw_eq_some hb
  exact ⟨l, hl, hlt, hptr, rfl⟩

theorem freeSlot_eq_some {fuel start : Nat} (h : freeSlot caps fuel start = some i) :
    (caps i).active = false ∧ start ≤ i ∧ i < start + fuel := by
  induction fuel generalizing start with
  | zero => cases h
  | succ fuel ih =>
    rw [freeSlot] at h
    split_ifs at h with hact
    · obtain ⟨hidle, hle, hlt⟩ := ih h
      exact ⟨hidle, by omega, by omega⟩
    · cases h
      exact ⟨by simpa using hact, le_rfl, by omega⟩

/-- The world after slot `i` was filled with a capability for `a`. -/
def World.withSlot (w : World) (i : Nat) (a : Addr) (type : CapType) (rights : CapRights)
    (ownerDomain : Nat) : World :=
  { w.setHeader a { w.header a with ref := (w.header a).ref + 1 } with
    caps := some (update w.capSlots i
      (World.filledSlot (w.capSlots i) a type rights ownerDomain (w.header a).generation)) }

inductive IssueOutcome (cfg : Config) (w : World) (type : CapType) (objId : UInt16)
    (rights : CapRights) (ownerDomain : Nat) : Except KernelError CapToken × World → Prop
  /-- At most the table was allocated. -/
  | refused {e : KernelError} {w' : World}
      (idle : w' = w ∨ w.caps = none ∧ w' = { w with caps := some fun _ => {} }) :
      IssueOutcome cfg w type objId rights ownerDomain (.error e, w')
  | issued {l : Lookup} {a : Addr} {i : Nat} (lookup : cfg.lookup type.toNat = some l)
      (id_lt : objId.toNat < (cfg.capacity l.table).N)
      (published : (w.table l.table).objectPtr objId.toNat = some a)
      (pos : 1 ≤ i) (lt : i < maxCapabilities) (idle : (w.capSlots i).active = false)
      (active : (w.header a).state = .active) :
      IssueOutcome cfg w type objId rights ownerDomain
        (.ok (.make type (UInt16.ofNat i) (w.capSlots i).generation rights),
          w.withSlot i a type rights ownerDomain)

theorem issue_outcome (h : WF cfg w x) (mem : Bool) (type : CapType) (objId : UInt16)
    (rights : CapRights) (ownerDomain : Nat) :
    Post Trap.IsBenign (IssueOutcome cfg w type objId rights ownerDomain)
      (w.issueLocked cfg mem type objId rights ownerDomain) := by
  unfold issueLocked
  split
  · exact .refused (.inl rfl)
  next w₁ caps hens =>
  -- the table is there now, with the slots as they were
  obtain ⟨hcaps, hidle, hwf, hsame⟩ : caps = w.capSlots ∧
      (w₁ = w ∨ w.caps = none ∧ w₁ = { w with caps := some fun _ => {} }) ∧ WF cfg w₁ x ∧
      w = { w₁ with caps := w.caps } := by
    unfold ensureCapabilities at hens
    split at hens
    · next hsome =>
      cases hens
      exact ⟨(capSlots_of_some hsome).symm, .inl rfl, h, rfl⟩
    next hnone =>
    split_ifs at hens
    cases hens
    exact ⟨by simp [capSlots, hnone], .inr ⟨hnone, rfl⟩, h.allocateCaps hnone, rfl⟩
  split
  · exact .refused hidle
  next a g hlookup =>
  obtain ⟨l, hl, hlt, hptr, rfl⟩ := lookupKobject_eq_ok hlookup
  split
  · exact .refused hidle
  next i hfree =>
  obtain ⟨hinactive, hpos, hi⟩ := freeSlot_eq_some hfree
  split_ifs with hstate
  · exact .refused hidle
  obtain ⟨al, hal, -, -⟩ := hwf.books.slot hptr
  refine (hwf.tryGet hal).bind fun r hr => ?_
  obtain ⟨hgot, -, hr₂⟩ := hr
  obtain ⟨got, w₂⟩ := r
  dsimp only at hgot hr₂ ⊢
  subst hgot hr₂ hcaps
  rw [if_pos rfl, post_pure]
  have hmax : i < maxCapabilities := by
    unfold maxCapabilities at hi ⊢
    omega
  rcases hidle with rfl | ⟨-, rfl⟩
  · exact .issued hl hlt hptr hpos hmax hinactive (not_not.mp hstate)
  · exact .issued (w := w) hl hlt hptr hpos hmax hinactive (not_not.mp hstate)

variable {rights : CapRights} {ownerDomain : Nat}

theorem IssueOutcome.wf {r : Except KernelError CapToken × World}
    (hr : IssueOutcome cfg w type objId rights ownerDomain r) (h : WF cfg w x) : WF cfg r.2 x := by
  cases hr with
  | refused idle =>
    rcases idle with rfl | ⟨hnone, rfl⟩
    · exact h
    · exact h.allocateCaps hnone
  | @issued l a i lookup id_lt published pos lt idle active =>
    obtain ⟨al, hal, -, -⟩ := h.books.slot published
    obtain ⟨href, -⟩ := h.refs.live hal
    have hheld : WF cfg (w.setHeader a { w.header a with ref := (w.header a).ref + 1 })
        (held x (some a)) := by
      refine h.setRef hal ?_ (Nat.succ_pos _) fun b hba => held_of_ne _ hba
      rw [href, held_self, Nat.add_assoc]
    refine hheld.setCaps lt (fun _ => ⟨a, rfl⟩) fun b => ?_
    -- the slot was idle and now names `a`
    have hold : ¬ SlotNames b (w.capSlots i) := fun hn =>
      Bool.false_ne_true (idle.symm.trans hn.1)
    have hslot : capSlots (w.setHeader a { w.header a with ref := (w.header a).ref + 1 }) i =
        w.capSlots i := rfl
    rw [hslot, if_neg hold]
    by_cases hba : b = a
    · subst hba
      rw [if_pos ⟨rfl, rfl⟩, held_self]
      omega
    · have hnew : ¬ SlotNames b (filledSlot (w.capSlots i) a type rights ownerDomain
          (w.header a).generation) := fun hn => hba (Option.some.inj hn.2).symm
      rw [if_neg hnew, held_of_ne x hba]

variable {token : CapToken}

theorem slotFor_eq_some (h : w.slotFor token = some (i, s)) :
    ∃ caps, w.caps = some caps ∧ i = token.objectId.toNat ∧ s = caps i ∧ i ≠ 0 ∧
      i < maxCapabilities ∧ s.active = true ∧ s.generation = token.generation ∧
      s.type = token.type ∧ s.rights = token.rights := by
  unfold slotFor at h
  split at h
  · cases h
  next caps hcaps =>
  split_ifs at h with hbad
  dsimp only at h
  split_ifs at h with hmatch
  cases h
  simp only [Bool.or_eq_true, not_or, beq_iff_eq, decide_eq_true_eq] at hbad
  simp only [slotMatches, Bool.and_eq_true, beq_iff_eq] at hmatch
  refine ⟨caps, hcaps, rfl, rfl, fun hzero => hbad.1.2 ?_, by omega, hmatch.1.1.1, hmatch.1.1.2,
    hmatch.1.2, hmatch.2⟩
  exact UInt16.toNat_inj.mp hzero

variable {source : CapToken} {mem : Bool}

theorem WF.derive (h : WF cfg w x) :
    Post Trap.IsBenign (fun r => WF cfg r.2 x) (w.deriveOwn cfg mem source rights ownerDomain) := by
  unfold deriveOwn
  split
  · exact h
  split
  · trivial
  · exact (issue_outcome h ..).mono fun r hr => hr.wf h

theorem WF.capDuplicateFor (h : WF cfg w x) {sourceDomain : Nat} :
    Post Trap.IsBenign (fun r => WF cfg r.2 x)
      (w.capDuplicateFor cfg mem source rights sourceDomain ownerDomain) := by
  unfold World.capDuplicateFor
  split
  · exact h
  split
  · trivial
  split_ifs
  · exact h
  · exact (issue_outcome h ..).mono fun r hr => hr.wf h

/-! ## Vacating -/

theorem WF.vacateSlot (h : WF cfg w x) (hcaps : w.caps = some caps)
    (hact : (caps i).active = true) :
    WF cfg (w.vacateSlot caps i) (held x (caps i).target) := by
  obtain ⟨hi, a, ha⟩ := h.caps hcaps hact
  have hslots : w.capSlots = caps := capSlots_of_some hcaps
  have hset : WF cfg { w with
      caps := some (update w.capSlots i (vacatedSlot (caps i)))
      vacated := update w.vacated i (w.vacated i + 1) } (held x (caps i).target) := by
    refine h.setCaps hi (fun hf => (Bool.false_ne_true hf).elim) fun b => ?_
    have hnew : ¬ SlotNames b (vacatedSlot (caps i)) := fun hn => Bool.false_ne_true hn.1
    rw [if_neg hnew, hslots, ha]
    by_cases hba : b = a
    · subst hba
      rw [if_pos ⟨hact, ha⟩, held_self]
      omega
    · have hold : ¬ SlotNames b (caps i) := fun hn =>
        hba (Option.some.inj (ha.symm.trans hn.2)).symm
      rw [if_neg hold, held_of_ne x hba]
  rw [hslots] at hset
  exact hset

theorem WF.vacateToken (h : WF cfg w x) :
    Post Trap.IsBenign (fun r => WF cfg r.2 x) (w.vacateToken cfg token) := by
  unfold World.vacateToken
  split_ifs
  · exact h
  split
  · next caps i s hcaps hslot =>
    obtain ⟨caps', hcaps', -, rfl, -, -, hact, -⟩ := slotFor_eq_some hslot
    obtain rfl : caps' = caps := Option.some.inj (hcaps'.symm.trans hcaps)
    have hvac := h.vacateSlot hcaps hact
    split
    · trivial
    · next a ha =>
      rw [ha] at hvac
      exact hvac.put.bind fun w' hw' => hw'
  · exact h

theorem WF.revokeLoop {select : World → CapabilitySlot → Bool} {fuel : Nat} :
    ∀ (i n : Nat) {w : World}, WF cfg w x → Post Trap.IsBenign (fun r => WF cfg r.2 x)
      (World.revokeLoop cfg select fuel i n w) := by
  induction fuel with
  | zero => exact fun i n w h => h
  | succ fuel ih =>
    intro i n w h
    rw [World.revokeLoop]
    split
    · trivial
    next caps hcaps =>
    split_ifs with hsel
    · have hact : (caps i).active = true := by
        simp only [Bool.and_eq_true] at hsel
        exact hsel.1
      exact (h.vacateSlot hcaps hact).putPtr.bind fun w' hw' => ih (i + 1) (n + 1) hw'
    · exact ih (i + 1) n h

theorem WF.capRevokeForDomain (h : WF cfg w x) {domainId : Nat} :
    Post Trap.IsBenign (fun r => WF cfg r.2 x) (w.capRevokeForDomain cfg domainId) := by
  unfold World.capRevokeForDomain
  split
  · exact h
  · exact WF.revokeLoop 1 0 h

theorem WF.capRevokeTarget (h : WF cfg w x) :
    Post Trap.IsBenign (fun r => WF cfg r.2 x) (w.capRevokeTarget cfg a) :=
  post_checkLive.bind fun _ _ => WF.revokeLoop 1 0 h

end ZXFoundation.Scoms
