import ZXFoundation.Dgp.Cap.Effects

/-!
# The ledger of issued capabilities

An observer writes down every successful issue: the token, for whom, which object it names, and from
which earlier issue it was derived. An entry is ended by a release or revocation that concerns it.

* `LedgerInv`: the entries that are not ended and the active slots describe the same capabilities.
* `Rooted`: the derivation of an entry, link by link, from an entry made by `cap_issue`.
-/

namespace ZXFoundation.Scoms

open Runs Outcome Dgp.Cap Function World CapToken Option UInt16

/-- One successful issue. -/
structure Grant where
  token : CapToken
  owner : Nat
  /-- The object the token names: its number in the order of allocation, and its id. -/
  target : Option (Nat × Nat)
  /-- How often the slot had been vacated before. -/
  round : Nat
  /-- The entry of the source token, for a derived capability. -/
  source : Option Nat
  deriving DecidableEq

structure Ledger where
  grants : List Grant
  live : Nat → Bool

def World.targetOf (w : World) (t : CapToken) : Option (Nat × Nat) :=
  (w.capSlots t.objectId.toNat).target.bind fun a =>
    (w.allocation a).map fun al => (al.serial, (w.header a).id)

namespace Ledger

def empty : Ledger := ⟨[], fun _ => false⟩

/-- The live entry of a token; past the end of the ledger when there is none. -/
def find (L : Ledger) (t : CapToken) : Nat :=
  ((List.range L.grants.length).find? fun k =>
    L.live k && L.grants[k]?.any fun g => g.token == t).getD L.grants.length

def add (L : Ledger) (w : World) (t : CapToken) (owner : Nat) (source : Option Nat) : Ledger where
  grants := L.grants ++ [⟨t, owner, w.targetOf t, w.vacated t.objectId.toNat, source⟩]
  live := update L.live L.grants.length true

def addReply (L : Ledger) (w : World) (r : Except KernelError CapToken) (owner : Nat)
    (source : Option Nat) : Ledger :=
  match r with
  | .ok t => L.add w t owner source
  | .error _ => L

/-- End the entries that satisfy the condition. -/
def endWhere (L : Ledger) (cond : Grant → Bool) : Ledger :=
  { L with live := fun k => L.live k && !L.grants[k]?.any cond }

/-- The entries that `cap_revoke_for_domain` ends. -/
def concerns (domainId : Nat) (g : Grant) : Bool :=
  g.owner == domainId || g.token.type == CapType.domain && g.target.any fun p => p.2 == domainId

def names (serial : Option Nat) (g : Grant) : Bool := g.target.any fun p => some p.1 == serial

/-- What is written down about a call that took `w` to `w'`. -/
def record (L : Ledger) (w : World) (c : Call) (reply : Reply) (w' : World) : Ledger :=
  match c, reply with
  | .capIssue _ _ _ _ owner, .token r => L.addReply w' r owner none
  | .capDuplicate _ source _ owner, .token r => L.addReply w' r owner (some (L.find source))
  | .capAcquire _ source _ owner, .token r => L.addReply w' r owner (some (L.find source))
  | .capDuplicateFor _ source _ _ owner, .token r => L.addReply w' r owner (some (L.find source))
  | .capRelease t, .status (.ok _) => L.endWhere fun g => g.token == t
  | .capRevoke t, .status (.ok _) => L.endWhere fun g => g.token == t
  | .capRevokeForDomain d, _ => L.endWhere (concerns d)
  | .capRevokeTarget a, _ => L.endWhere (names ((w.allocation a).map Allocation.serial))
  | _, _ => L

end Ledger

def auditMachine (cfg : Config) : Machine (World × Ledger) Call :=
  observedMachine cfg .empty Ledger.record

/-- A derivation: `g` comes from the `cap_issue` entry `root`. Each link keeps the target, does not
add rights, and changes the owner only when the source carries the `delegate` right. -/
inductive Rooted (grants : List Grant) (root : Grant) : Grant → Prop where
  | issue (mem : root ∈ grants) (source : root.source = none) : Rooted grants root root
  | derive {g src : Grant} {k : Nat} (rest : Rooted grants root src) (mem : g ∈ grants)
      (source : g.source = some k) (entry : grants[k]? = some src)
      (target : g.target = src.target) (rights : src.token.rights.Covers g.token.rights)
      (owner : g.owner ≠ src.owner → src.token.rights.Covers CapRights.delegate) :
      Rooted grants root g

/-- The slot of the token is as the entry says. -/
structure Backs (w : World) (g : Grant) : Prop where
  pos : g.token.objectId.toNat ≠ 0
  active : (w.capSlots g.token.objectId.toNat).active = true
  generation : (w.capSlots g.token.objectId.toNat).generation = g.token.generation
  type : (w.capSlots g.token.objectId.toNat).type = g.token.type
  rights : (w.capSlots g.token.objectId.toNat).rights = g.token.rights
  owner : (w.capSlots g.token.objectId.toNat).ownerDomain = g.owner
  target : w.targetOf g.token = g.target
  round : w.vacated g.token.objectId.toNat = g.round

structure LedgerInv (cfg : Config) (w : World) (L : Ledger) : Prop where
  backed : ∀ {k}, L.live k = true → ∃ g, L.grants[k]? = some g ∧ Backs w g
  covered : ∀ {i}, (w.capSlots i).active = true →
    ∃ k g, L.live k = true ∧ L.grants[k]? = some g ∧ g.token.objectId.toNat = i
  rooted : ∀ {g}, g ∈ L.grants → ∃ root, Rooted L.grants root g
  /-- The target of a slot lives in the table of its lookup callback. -/
  home : ∀ {i a al}, (w.capSlots i).active = true → (w.capSlots i).target = some a →
    w.allocation a = some al →
    ∃ l, cfg.lookup (w.capSlots i).type.toNat = some l ∧ al.home = l.table
  generation : ∀ i, (w.capSlots i).generation = UInt16.ofNat (1 + w.vacated i)
  issued : ∀ {g}, g ∈ L.grants → g.token.generation = UInt16.ofNat (1 + g.round)
  /-- The slot of an ended entry has been vacated since. -/
  ended : ∀ {k g}, L.grants[k]? = some g → L.live k = false →
    g.round < w.vacated g.token.objectId.toNat

variable {cfg : Config} {w w' : World} {x : Addr → Nat} {L : Ledger}

open Scoms.Ledger

theorem LedgerInv.boot (cfg : Config) (heap : Addr → Bobject) :
    LedgerInv cfg (.boot heap) .empty := by
  refine ⟨?_, ?_, ?_, ?_, fun i => ?_, ?_, ?_⟩
  all_goals simp [empty, World.capSlots, World.boot]

/-! ## Calls that leave the slots alone -/

variable {g : Grant} {t token : CapToken} {a : Addr} {i owner : Nat} {type : CapType}
    {rights : CapRights}
    {s : CapabilitySlot}

theorem LedgerInv.backs (h : LedgerInv cfg w L) {k : Nat} (hk : L.live k = true)
    (hg : L.grants[k]? = some g) : Backs w g := by
  obtain ⟨g', hg', hb⟩ := h.backed hk
  rwa [some.inj (hg.symm.trans hg')]

theorem Rooted.append {grants : List Grant} {root : Grant} (h : Rooted grants root g)
    {new : List Grant} : Rooted (grants ++ new) root g := by
  induction h with
  | issue mem source => exact .issue (List.mem_append_left _ mem) source
  | derive rest mem source entry target rights owner ih =>
    refine .derive ih (List.mem_append_left _ mem) source ?_ target rights owner
    rw [List.getElem?_append_left (List.getElem?_eq_some_iff.mp entry).1, entry]

theorem targetOf_eq {bl : Allocation}
    (hslot : w'.capSlots t.objectId.toNat = w.capSlots t.objectId.toNat)
    (ha : (w.capSlots t.objectId.toNat).target = some a) (hbl : w'.allocation a = some bl)
    (hal : w.allocation a = some bl) (hsame : (w.header a).SameIdentity (w'.header a)) :
    w'.targetOf t = w.targetOf t := by
  simp only [targetOf, hslot, ha, bind_some, hbl, hal, map_some, hsame.1]

theorem Backs.congr (h : Backs w g)
    (hslot : w'.capSlots g.token.objectId.toNat = w.capSlots g.token.objectId.toNat)
    (htarget : w'.targetOf g.token = w.targetOf g.token)
    (hvac : w'.vacated g.token.objectId.toNat = w.vacated g.token.objectId.toNat) : Backs w' g where
  pos := h.pos
  active := hslot ▸ h.active
  generation := hslot ▸ h.generation
  type := hslot ▸ h.type
  rights := hslot ▸ h.rights
  owner := hslot ▸ h.owner
  target := htarget.trans h.target
  round := hvac.trans h.round

theorem LedgerInv.frame (h : LedgerInv cfg w L) (h' : WF cfg w' x)
    (hcaps : w'.capSlots = w.capSlots)
    (hvac : w'.vacated = w.vacated)
    (hlive : ∀ {i a bl}, (w.capSlots i).active = true → (w.capSlots i).target = some a →
      w'.allocation a = some bl →
      w.allocation a = some bl ∧ (w.header a).SameIdentity (w'.header a)) : LedgerInv cfg w' L := by
  refine ⟨fun {k} hk => ?_, fun {i} hi => ?_, h.rooted, fun {i a al} hi ha hal => ?_, fun i => ?_,
    h.issued, fun hg hk => ?_⟩
  · obtain ⟨g, hg, hb⟩ := h.backed hk
    refine ⟨g, hg, hb.congr (congrFun hcaps _) ?_ (congrFun hvac _)⟩
    have hact : (w'.capSlots g.token.objectId.toNat).active = true := hcaps ▸ hb.active
    obtain ⟨-, a, bl, ha, hbl⟩ := h'.target_live hact
    rw [hcaps] at ha
    obtain ⟨hal, hsame⟩ := hlive hb.active ha hbl
    exact targetOf_eq (congrFun hcaps _) ha hbl hal hsame
  · rw [hcaps] at hi
    exact h.covered hi
  · rw [hcaps] at hi ha ⊢
    exact h.home hi ha (hlive hi ha hal).1
  · rw [hcaps, hvac]
    exact h.generation i
  · rw [hvac]
    exact h.ended hg hk

/-! ## Issuing -/

theorem capSlots_withSlot (w : World) (i : Nat) (a : Addr) (type : CapType) (rights : CapRights)
    (owner j : Nat) : (w.withSlot i a type rights owner).capSlots j =
      if j = i then filledSlot (w.capSlots i) a type rights owner (w.header a).generation
      else w.capSlots j := by
  rw [capSlots_of_some (w := w.withSlot i a type rights owner) rfl, update_apply]

theorem targetOf_withSlot_of_ne (hi : t.objectId.toNat ≠ i) :
    (w.withSlot i a type rights owner).targetOf t = w.targetOf t := by
  have hid : ∀ b, ((w.withSlot i a type rights owner).header b).id = (w.header b).id := by
    intro b
    change ((w.setHeader a _).header b).id = _
    by_cases hba : b = a
    · rw [hba, header_setHeader_self]
    · rw [header_setHeader_of_ne _ _ hba]
  unfold targetOf
  rw [capSlots_withSlot, if_neg hi]
  simp only [hid]
  rfl

theorem objectId_issued {gen : UInt16} (hi : i < maxCapabilities) :
    (make type (ofNat i) gen rights).objectId.toNat = i := by
  rw [objectId_make]
  refine toNat_ofNat_of_lt ?_
  unfold maxCapabilities at hi
  exact hi.trans (by decide)

variable {source : Option Nat} {k : Nat}

theorem Ledger.live_add :
    (L.add w t owner source).live k = if k = L.grants.length then true else L.live k :=
  update_apply ..

theorem Ledger.getElem?_add : (L.add w t owner source).grants[k]? =
      if k = L.grants.length then some ⟨t, owner, w.targetOf t, w.vacated t.objectId.toNat, source⟩
      else L.grants[k]? := by
  rw [add, List.getElem?_append]
  split_ifs with hlt heq heq
  · omega
  · rfl
  · simp [heq]
  · have hout : L.grants[k]? = none := List.getElem?_eq_none (by omega)
    rw [hout]
    exact List.getElem?_eq_none (by simp; omega)

/-- The idle slot `i` of `w` has been filled for the token `t`; nothing else changed. -/
structure Filled (cfg : Config) (w w' : World) (t : CapToken) (owner : Nat) : Prop where
  pos : t.objectId.toNat ≠ 0
  idle : (w.capSlots t.objectId.toNat).active = false
  active : (w'.capSlots t.objectId.toNat).active = true
  generation : (w'.capSlots t.objectId.toNat).generation = t.generation
  same : (w.capSlots t.objectId.toNat).generation = t.generation
  type : (w'.capSlots t.objectId.toNat).type = t.type
  rights : (w'.capSlots t.objectId.toNat).rights = t.rights
  owned : (w'.capSlots t.objectId.toNat).ownerDomain = owner
  home : ∀ {a al}, (w'.capSlots t.objectId.toNat).target = some a → w'.allocation a = some al →
    ∃ l, cfg.lookup t.type.toNat = some l ∧ al.home = l.table
  others : ∀ j, j ≠ t.objectId.toNat → w'.capSlots j = w.capSlots j
  targets : ∀ u : CapToken, u.objectId.toNat ≠ t.objectId.toNat → w'.targetOf u = w.targetOf u
  vacated : w'.vacated = w.vacated
  allocation : w'.allocation = w.allocation

variable {objId : UInt16}

theorem IssueOutcome.filled (hout : IssueOutcome cfg w type objId rights owner (.ok t, w'))
    (h : WF cfg w x) : Filled cfg w w' t owner := by
  cases hout with
  | @issued l a i lookup id_lt published pos lt idle active =>
    have hidx : (make type (ofNat i) (w.capSlots i).generation rights).objectId.toNat
        = i := objectId_issued lt
    have hslots := capSlots_withSlot w i a type rights owner
    constructor
    case targets =>
      intro u hu
      rw [hidx] at hu
      exact targetOf_withSlot_of_ne hu
    case others =>
      intro j hj
      rw [hidx] at hj
      rw [hslots, if_neg hj]
    case vacated => rfl
    case allocation => rfl
    case home =>
      intro b bl hb hbl
      rw [hidx, hslots, if_pos rfl] at hb
      cases hb
      obtain ⟨al, hal, hhome, -⟩ := h.books.slot published
      obtain rfl : bl = al := some.inj (hbl.symm.trans hal)
      rw [type_make]
      exact ⟨l, lookup, hhome⟩
    all_goals rw [hidx]
    case pos => omega
    case idle => exact idle
    case same => rw [generation_make]
    all_goals
      rw [hslots, if_pos rfl]
      simp [filledSlot]

theorem LedgerInv.issue (h : LedgerInv cfg w L) (hf : Filled cfg w w' t owner)
    (hroot : ∃ root, Rooted (L.add w' t owner source).grants root
      ⟨t, owner, w'.targetOf t, w'.vacated t.objectId.toNat, source⟩) :
    LedgerInv cfg w' (L.add w' t owner source) := by
  have hold : ∀ {k g}, L.grants[k]? = some g → k ≠ L.grants.length := fun hg =>
    ((List.getElem?_eq_some_iff.mp hg).1).ne
  refine ⟨fun {k} hk => ?_, fun {j} hj => ?_, fun {g} hg => ?_, fun {j b bl} hj hb hbl => ?_,
    fun j => ?_, fun {g} hg => ?_, fun {k g} hg hk => ?_⟩
  · rw [getElem?_add]
    rw [live_add] at hk
    split_ifs at hk ⊢ with hlen
    · -- the entry that was just made
      exact ⟨_, rfl, hf.pos, hf.active, hf.generation, hf.type, hf.rights, hf.owned, rfl, rfl⟩
    obtain ⟨g, hg, hb⟩ := h.backed hk
    -- its slot is active, so it is not the one that was filled
    have hne : g.token.objectId.toNat ≠ t.objectId.toNat := fun heq => by
      have hact := hb.active
      rw [heq, hf.idle] at hact
      cases hact
    exact ⟨g, hg, hb.congr (hf.others _ hne) (hf.targets _ hne) (congrFun hf.vacated _)⟩
  · by_cases hji : j = t.objectId.toNat
    · refine ⟨L.grants.length,
        ⟨t, owner, w'.targetOf t, w'.vacated t.objectId.toNat, source⟩, ?_, ?_, hji.symm⟩
      · rw [live_add, if_pos rfl]
      · rw [getElem?_add, if_pos rfl]
    · rw [hf.others j hji] at hj
      obtain ⟨k, g, hk, hg, hidx⟩ := h.covered hj
      refine ⟨k, g, ?_, ?_, hidx⟩
      · rw [live_add, if_neg (hold hg), hk]
      · rw [getElem?_add, if_neg (hold hg), hg]
  · rcases List.mem_append.mp hg with hg | hg
    · obtain ⟨root, hr⟩ := h.rooted hg
      exact ⟨root, hr.append⟩
    · rw [List.mem_singleton.mp hg]
      exact hroot
  · by_cases hji : j = t.objectId.toNat
    · subst hji
      rw [hf.type]
      exact hf.home hb hbl
    · rw [hf.others j hji] at hj hb ⊢
      rw [hf.allocation] at hbl
      exact h.home hj hb hbl
  · rw [hf.vacated]
    by_cases hji : j = t.objectId.toNat
    · rw [hji, hf.generation, ← hf.same]
      exact h.generation _
    · rw [hf.others j hji]
      exact h.generation j
  · rcases List.mem_append.mp hg with hg | hg
    · exact h.issued hg
    rw [List.mem_singleton.mp hg, hf.vacated]
    dsimp only
    rw [← hf.same]
    exact h.generation _
  · rw [getElem?_add] at hg
    rw [live_add] at hk
    rw [hf.vacated]
    split_ifs at hg hk
    exact h.ended hg hk

/-! ## Deriving -/

theorem validateSlot_eq_ok {needed : CapRights} {check : Bool}
    (h : w.validateSlot token needed owner check = .ok a) :
    ∃ i s, w.slotFor token = some (i, s) ∧ s.target = some a ∧ (w.header a).state ≠ .destroyed ∧
      (check = true → s.ownerDomain = owner) ∧ token.rights.Covers needed := by
  unfold validateSlot at h
  split at h
  · cases h
  next i s hslot =>
  split at h
  · cases h
  next b hb =>
  split_ifs at h with hbad howner
  split at h
  · cases h
  next hrights =>
  cases h
  push Not at hbad howner
  refine ⟨i, s, hslot, hb, hbad.2.2, howner, ?_⟩
  unfold checkRights at hrights
  split_ifs at hrights with hcheck
  by_cases hnone : needed = CapRights.none
  · rw [hnone]
    exact UInt16.and_zero
  · push Not at hcheck
    exact hcheck hnone

theorem Backs.token_eq (hb : Backs w g) (hslot : w.slotFor token = some (i, s))
    (hidx : g.token.objectId.toNat = token.objectId.toNat) : g.token = token := by
  obtain ⟨caps, hcaps, rfl, rfl, -, -, -, hgen, htype, hrights⟩ := slotFor_eq_some hslot
  rw [← capSlots_of_some hcaps] at hgen htype hrights
  rw [← make_fields g.token, ← make_fields token, ← hb.generation, ← hb.type,
    ← hb.rights, hidx, hgen, htype, hrights, UInt16.toNat_inj.mp hidx]

theorem LedgerInv.entry_of_slotFor (h : LedgerInv cfg w L) (hslot : w.slotFor token = some (i, s)) :
    ∃ k g, L.live k = true ∧ L.grants[k]? = some g ∧ g.token = token := by
  obtain ⟨caps, hcaps, hi, rfl, -, -, hact, -⟩ := slotFor_eq_some hslot
  rw [← capSlots_of_some hcaps] at hact
  obtain ⟨k, g, hk, hg, hidx⟩ := h.covered hact
  have hb := h.backs hk hg
  exact ⟨k, g, hk, hg, hb.token_eq hslot (hidx.trans hi)⟩

theorem LedgerInv.find_spec (h : LedgerInv cfg w L) (hslot : w.slotFor token = some (i, s)) :
    ∃ g, L.live (L.find token) = true ∧ L.grants[L.find token]? = some g ∧ g.token = token := by
  obtain ⟨k, g, hk, hg, htoken⟩ := h.entry_of_slotFor hslot
  have hlt : k < L.grants.length := (List.getElem?_eq_some_iff.mp hg).1
  unfold find
  cases hfind : (List.range L.grants.length).find? fun k =>
      L.live k && L.grants[k]?.any fun g => g.token == token with
  | none =>
    -- the search would have stopped at `k`
    have hno := List.find?_eq_none.mp hfind k (List.mem_range.mpr hlt)
    simp [hk, hg, htoken] at hno
  | some j =>
    have hj := List.find?_some hfind
    rw [getD_some]
    simp only [Bool.and_eq_true, any_eq_true, beq_iff_eq] at hj
    obtain ⟨hlive, g', hg', htoken'⟩ := hj
    exact ⟨g', hlive, hg', htoken'⟩

theorem IssueOutcome.target (hout : IssueOutcome cfg w type objId rights owner (.ok t, w')) :
    t.rights = rights ∧ ∃ l a, cfg.lookup type.toNat = some l ∧
      (w.table l.table).objectPtr objId.toNat = some a ∧
      w'.targetOf t = (w.allocation a).map fun al => (al.serial, (w.header a).id) := by
  cases hout with
  | @issued l a i lookup id_lt published pos lt idle active =>
    refine ⟨rights_make .., l, a, lookup, published, ?_⟩
    have hid : ((w.withSlot i a type rights owner).header a).id = (w.header a).id := by
      change ((w.setHeader a _).header a).id = _
      rw [header_setHeader_self]
    unfold targetOf
    rw [objectId_issued lt, capSlots_withSlot, if_pos rfl]
    simp only [filledSlot, bind_some, hid]
    rfl

variable {source : CapToken}

/-- **A derived token names the object of its source.** The lookup by type and truncated id finds
the same object again: it is still in its slot, in the table of the callback, and its id fits. -/
theorem LedgerInv.same_target (h : LedgerInv cfg w L) (hwf : WF cfg w x)
    (hslot : w.slotFor source = some (i, s)) (ha : s.target = some a)
    (hstate : (w.header a).state ≠ .destroyed)
    (hout : IssueOutcome cfg w s.type (ofNat (w.header a).id) rights owner (.ok t, w')) :
    w'.targetOf t = w.targetOf source := by
  obtain ⟨caps, hcaps, rfl, rfl, -, -, hact, -⟩ := slotFor_eq_some hslot
  rw [← capSlots_of_some hcaps] at hact ha hout
  obtain ⟨-, b, al, hb, hal⟩ := hwf.target_live hact
  obtain rfl : b = a := some.inj (hb.symm.trans ha)
  obtain ⟨l, hl, hhome⟩ := h.home hact ha hal
  have hobj := hwf.books.object hal
  have hpub : w.published b = true := by
    -- an object without a slot is destroyed
    by_contra hunpub
    rw [Bool.not_eq_true] at hunpub
    obtain ⟨i, -, -, -, -, -, hpend⟩ := hobj.entry
    rw [hunpub] at hpend
    exact hstate hpend.2
  have hptr := (published_iff hal).mp hpub
  have hid : (ofNat (w.header b).id).toNat = (w.header b).id := by
    refine toNat_ofNat_of_lt ?_
    have hfits := cfg.fits hl
    have hlt := hobj.id_lt
    rw [hhome] at hlt
    exact hlt.trans_le hfits
  obtain ⟨-, l', c, hl', hc, htarget⟩ := hout.target
  obtain rfl : l' = l := some.inj (hl'.symm.trans hl)
  rw [hid, ← hhome, hptr] at hc
  cases hc
  rw [htarget]
  simp only [targetOf, ha, bind_some]

theorem LedgerInv.derive (h : LedgerInv cfg w L) (hwf : WF cfg w x)
    (hslot : w.slotFor source = some (i, s))
    (ha : s.target = some a) (hstate : (w.header a).state ≠ .destroyed)
    (hcovers : source.rights.Covers rights)
    (hdelegate : owner ≠ s.ownerDomain → s.rights.Covers CapRights.delegate)
    (hout : IssueOutcome cfg w s.type (ofNat (w.header a).id) rights owner (.ok t, w')) :
    LedgerInv cfg w' (L.add w' t owner (some (L.find source))) := by
  refine h.issue (hout.filled hwf) ?_
  obtain ⟨g, hlive, hg, rfl⟩ := h.find_spec hslot
  have hb := h.backs hlive hg
  obtain ⟨caps, hcaps, rfl, rfl, -⟩ := slotFor_eq_some hslot
  have hcaps' := capSlots_of_some hcaps
  obtain ⟨root, hroot⟩ := h.rooted (List.mem_of_getElem? hg)
  refine ⟨root, .derive hroot.append (List.mem_append_right _ (List.mem_singleton_self _)) rfl
    ?_ ?_ ?_ ?_⟩
  · rw [getElem?_add, if_neg (List.getElem?_eq_some_iff.mp hg).1.ne, hg]
  · exact (h.same_target hwf hslot ha hstate hout).trans hb.target
  · dsimp only
    rw [hout.target.1]
    exact hcovers
  intro hne
  rw [← hb.rights, hcaps']
  refine hdelegate fun heq => hne ?_
  rw [← hb.owner, hcaps', heq]

/-! ## Revoking -/

theorem succ_generation {v : Nat} : ofNat (1 + v) + 1 = ofNat (1 + (v + 1)) := by
  rw [← Nat.add_assoc, ofNat_add (1 + v) 1]
  rfl

variable {cond : Grant → Bool}

theorem Ledger.live_endWhere (hg : L.grants[k]? = some g) :
    (L.endWhere cond).live k = (L.live k && !cond g) := by
  simp [endWhere, hg]

/-- Revocation, when the entries that end are those whose slots are vacated. -/
theorem LedgerInv.revoke (h : LedgerInv cfg w L) (h' : WF cfg w' x) {sel : Nat → Bool}
    (hrev : Revoked sel w w') (hagree : ∀ {k g}, L.live k = true → L.grants[k]? = some g →
      sel g.token.objectId.toNat = cond g) : LedgerInv cfg w' (L.endWhere cond) := by
  have hkept : ∀ {j}, (w'.capSlots j).active = true →
    sel j = false ∧ w'.capSlots j = w.capSlots j := by
    intro j hj
    have hslot := hrev.slots j
    cases hs : sel j with
    | false =>
      rw [hs] at hslot
      exact ⟨rfl, hslot⟩
    | true =>
      rw [hs, if_pos rfl] at hslot
      rw [hslot] at hj
      cases hj
  refine ⟨fun {k} hk => ?_, fun {j} hj => ?_, h.rooted, fun {j a al} hj ha hal => ?_, fun j => ?_,
    h.issued, fun {k g} hg hk => ?_⟩
  · have hlive : L.live k = true := by
      simp only [endWhere, Bool.and_eq_true] at hk
      exact hk.1
    obtain ⟨g, hg, hb⟩ := h.backed hlive
    rw [live_endWhere hg, hlive, Bool.true_and, Bool.not_eq_true'] at hk
    have hsel : sel g.token.objectId.toNat = false := (hagree hlive hg).trans hk
    have hslot : w'.capSlots g.token.objectId.toNat = w.capSlots g.token.objectId.toNat := by
      rw [hrev.slots, hsel]
      rfl
    have hvac : w'.vacated g.token.objectId.toNat = w.vacated g.token.objectId.toNat := by
      rw [hrev.vacated, hsel]
      rfl
    obtain ⟨-, a, bl, ha, hbl⟩ := h'.target_live (hslot ▸ hb.active)
    rw [hslot] at ha
    obtain ⟨hal, hsame⟩ := hrev.step.live hbl
    exact ⟨g, hg, hb.congr hslot (targetOf_eq hslot ha hbl hal hsame) hvac⟩
  · obtain ⟨hsel, hslot⟩ := hkept hj
    rw [hslot] at hj
    obtain ⟨k, g, hk, hg, rfl⟩ := h.covered hj
    refine ⟨k, g, ?_, hg, rfl⟩
    rw [live_endWhere hg, hk, ← hagree hk hg, hsel]
    rfl
  · obtain ⟨-, hslot⟩ := hkept hj
    rw [hslot] at hj ha ⊢
    exact h.home hj ha (hrev.step.live hal).1
  · rw [hrev.slots, hrev.vacated]
    split_ifs
    · rw [← succ_generation, ← h.generation]
      rfl
    · exact h.generation j
  · have hg' : L.grants[k]? = some g := hg
    rw [live_endWhere hg'] at hk
    rw [hrev.vacated]
    cases hlive : L.live k with
    | false =>
      have := h.ended hg hlive
      split_ifs <;> omega
    | true =>
      -- the entry ends now, so its slot was vacated
      have hb := h.backs hlive hg
      rw [hlive, Bool.true_and, Bool.not_eq_false'] at hk
      rw [hagree hlive hg, hk, if_pos rfl, hb.round]
      exact Nat.lt_succ_self _

/-!
## Confinement of capabilities

`LedgerInv.call` goes through the calls one by one; `LedgerInv.of_reachable` has the ledger in step
with the slots in every run. **`capability_confinement`** reads off what a successful validation
means: the token is an entry that has not ended, issued for this owner, whose derivation starts at
a `cap_issue` with at least its rights and names one object throughout.
-/

/-! ## Every call -/

variable {c : Call}

theorem Ledger.record_of_not_cap (hc : ¬ c.IsCap) (L : Ledger) (w : World) (reply : Reply)
    (w' : World) :
    L.record w c reply w' = L := by
  cases c <;> first | rfl | exact absurd trivial hc

section

variable (h : LedgerInv cfg w L) (hwf : WF cfg w x)
include h hwf

variable {rights : CapRights} {owner : Nat} {type : CapType} {objId : UInt16}

theorem LedgerInv.refused {e : KernelError}
    (hout : IssueOutcome cfg w type objId rights owner (.error e, w')) : LedgerInv cfg w' L := by
  have hwf' : WF cfg w' x := hout.wf hwf
  cases hout with
  | refused idle =>
    rcases idle with rfl | ⟨hnone, rfl⟩
    · exact h
    · refine h.frame hwf' ?_ rfl fun _ _ hbl => ⟨hbl, .refl⟩
      simp [capSlots, hnone]

variable {mem : Bool} {source : CapToken}

theorem LedgerInv.deriveOwn :
    Post Trap.IsBenign (fun r => LedgerInv cfg r.2
      (L.addReply r.2 r.1 owner (some (L.find source))))
      (w.deriveOwn cfg mem source rights owner) := by
  unfold World.deriveOwn
  split
  · exact h
  next a hval =>
  obtain ⟨i, s, hslot, ha, hstate, howner, hcovers⟩ := validateSlot_eq_ok hval
  rw [hslot]
  refine (issue_outcome hwf mem s.type _ rights owner).mono fun r hr => ?_
  obtain ⟨res, w'⟩ := r
  cases res with
  | error e => exact h.refused hwf hr
  | ok t =>
    exact h.derive hwf hslot ha hstate hcovers (fun hne => absurd (howner rfl).symm hne) hr

theorem LedgerInv.capDuplicateFor {sourceDomain : Nat} :
    Post Trap.IsBenign (fun r => LedgerInv cfg r.2
      (L.addReply r.2 r.1 owner (some (L.find source))))
      (w.capDuplicateFor cfg mem source rights sourceDomain owner) := by
  unfold World.capDuplicateFor
  split
  · exact h
  next a hval =>
  obtain ⟨i, s, hslot, ha, hstate, howner, hcovers⟩ := validateSlot_eq_ok hval
  rw [hslot]
  dsimp only
  split_ifs with hrefuse
  · exact h
  refine (issue_outcome hwf mem s.type _ rights owner).mono fun r hr => ?_
  obtain ⟨res, w'⟩ := r
  cases res with
  | error e => exact h.refused hwf hr
  | ok t =>
    refine h.derive hwf hslot ha hstate hcovers (fun hne => ?_) hr
    push Not at hrefuse
    exact hrefuse (howner rfl ▸ hne)

theorem LedgerInv.vacateToken {token : CapToken} :
    Post Trap.IsBenign
      (fun r => LedgerInv cfg r.2 (match r.1 with
        | .ok _ => L.endWhere fun g => g.token == token
        | .error _ => L))
      (w.vacateToken cfg token) := by
  refine ((vacateToken_outcome hwf).with_eq).mono fun r hr => ?_
  obtain ⟨hout, hrun⟩ := hr
  have hwf' : WF cfg r.2 x := hwf.vacateToken.result hrun
  rcases hout with ⟨e, rfl⟩ | ⟨i, s, hslot, hok, hrev⟩
  · exact h
  rw [hok]
  refine h.revoke hwf' hrev fun {k g} hk hg => ?_
  -- an entry for this slot is an entry for this token
  have hb := h.backs hk hg
  obtain ⟨-, -, rfl, -⟩ := slotFor_eq_some hslot
  rw [Bool.eq_iff_iff, beq_iff_eq, beq_iff_eq]
  exact ⟨fun hidx => hb.token_eq hslot hidx, fun htoken => by rw [htoken]⟩

omit h hwf in
/-- The owner of a slot and the id of its target do not change while other slots are vacated. -/
theorem stable_concernsDomain {domainId : Nat} : Stable cfg x (concernsDomain domainId) := by
  intro w w' j hwf hwf' hstep hslot hact
  obtain ⟨-, a, bl, ha, hbl⟩ := hwf'.target_live (hslot ▸ hact)
  rw [hslot] at ha
  have hid := (hstep.live hbl).2.1
  simp only [concernsDomain, ha, any_some, hid]

omit h hwf in
theorem stable_target {a : Addr} : Stable cfg x fun _ s => s.target == some a :=
  fun _ _ _ _ _ => rfl

omit h in
theorem Backs.selected_eq {g : Grant} (hb : Backs w g)
    {select : World → CapabilitySlot → Bool} :
    selected select w 1 (maxCapabilities - 1) g.token.objectId.toNat =
      select w (w.capSlots g.token.objectId.toNat) := by
  have hlt := (hwf.target_live hb.active).1
  have hpos := hb.pos
  have hrange : 1 ≤ g.token.objectId.toNat ∧
      g.token.objectId.toNat < 1 + (maxCapabilities - 1) := by omega
  simp [selected, hrange, hb.active]

omit h in
theorem Backs.concerns_eq {g : Grant} (hb : Backs w g) {domainId : Nat} :
    concernsDomain domainId w (w.capSlots g.token.objectId.toNat) =
      concerns domainId g := by
  obtain ⟨-, a, al, ha, hal⟩ := hwf.target_live hb.active
  have htarget := hb.target
  simp only [targetOf, ha, bind_some, hal, map_some] at htarget
  simp only [concernsDomain, concerns, hb.owner, hb.type, ha, ← htarget, any_some]

omit h in
theorem Backs.names_eq {g : Grant} (hb : Backs w g) {a : Addr}
    {al : Allocation} (hal : w.allocation a = some al) :
    ((w.capSlots g.token.objectId.toNat).target == some a) =
      names ((w.allocation a).map Allocation.serial) g := by
  obtain ⟨-, b, bl, hb', hbl⟩ := hwf.target_live hb.active
  have htarget := hb.target
  simp only [targetOf, hb', bind_some, hbl, map_some] at htarget
  simp only [names, hb', hal, ← htarget, map_some, any_some]
  rw [Bool.eq_iff_iff, beq_iff_eq, beq_iff_eq, some.injEq, some.injEq]
  constructor
  · rintro rfl
    exact congrArg Allocation.serial (some.inj (hbl.symm.trans hal))
  · exact fun hserial => hwf.history.distinct hbl hal hserial

theorem LedgerInv.capRevokeForDomain {domainId : Nat} :
    Post Trap.IsBenign (fun r => LedgerInv cfg r.2 (L.endWhere (concerns domainId)))
      (w.capRevokeForDomain cfg domainId) := by
  unfold World.capRevokeForDomain
  split
  · next hnone =>
    -- without a table there is no live entry
    refine h.revoke hwf .none fun {k g} hk _ => ?_
    obtain ⟨g', -, hb⟩ := h.backed hk
    have hact := hb.active
    rw [World.capSlots, hnone] at hact
    cases hact
  · refine (revokeLoop_outcome stable_concernsDomain 1 0 hwf).mono fun r hr => ?_
    refine h.revoke hr.1 hr.2 fun {k g} hk hg => ?_
    have hb := h.backs hk hg
    exact (hb.selected_eq hwf).trans (hb.concerns_eq hwf)

theorem LedgerInv.capRevokeTarget {a : Addr} :
    Post Trap.IsBenign
      (fun r => LedgerInv cfg r.2 (L.endWhere (names ((w.allocation a).map Allocation.serial))))
      (w.capRevokeTarget cfg a) := by
  refine post_checkLive.bind fun _ hlive => ?_
  obtain ⟨al, hal⟩ := hlive
  refine (revokeLoop_outcome stable_target 1 0 hwf).mono fun r hr => ?_
  refine h.revoke hr.1 hr.2 fun {k g} hk hg => ?_
  have hb := h.backs hk hg
  exact (hb.selected_eq hwf).trans (hb.names_eq hwf hal)

theorem LedgerInv.capIssue :
    Post Trap.IsBenign (fun r => LedgerInv cfg r.2 (L.addReply r.2 r.1 owner none))
      (w.capIssue cfg mem type objId rights owner) := by
  refine (issue_outcome hwf mem type objId rights owner).mono fun r hr => ?_
  obtain ⟨res, w'⟩ := r
  cases res with
  | error e => exact h.refused hwf hr
  | ok t =>
    refine h.issue (hr.filled hwf) ⟨_, .issue ?_ rfl⟩
    exact List.mem_append_right _ (List.mem_singleton_self _)

theorem LedgerInv.capCall (hc : c.IsCap) :
    Post Trap.IsBenign (fun r => LedgerInv cfg r.2 (L.record w c r.1 r.2)) (c.run cfg w) := by
  cases c with
  | capIssue mem type objId rights owner =>
    exact (h.capIssue hwf).bind fun _ hr => hr
  | capDuplicate mem source rights owner =>
    exact (h.deriveOwn hwf).bind fun _ hr => hr
  | capAcquire mem source rights owner =>
    exact (h.deriveOwn hwf).bind fun _ hr => hr
  | capDuplicateFor mem source rights sourceDomain owner =>
    exact (h.capDuplicateFor hwf).bind fun _ hr => hr
  | capRelease token =>
    refine (h.vacateToken hwf).bind fun r hr => ?_
    obtain ⟨res, w'⟩ := r
    cases res <;> exact hr
  | capRevoke token =>
    refine (h.vacateToken hwf).bind fun r hr => ?_
    obtain ⟨res, w'⟩ := r
    cases res <;> exact hr
  | capRevokeForDomain d => exact (h.capRevokeForDomain hwf).bind fun _ hr => hr
  | capRevokeTarget a => exact (h.capRevokeTarget hwf).bind fun _ hr => hr
  | _ => exact hc.elim

theorem LedgerInv.call :
    Ensures (fun r => LedgerInv cfg r.2 (L.record w c r.1 r.2)) (c.run cfg w) := by
  refine .of_ok fun r hrun => ?_
  obtain ⟨reply, w'⟩ := r
  dsimp only
  have hwf' : WF cfg w' x := hwf.call.result hrun
  rcases c.kind with hc | hc | hc | ⟨t, id, rfl⟩
  · have hstep : Quiet w w' := hc.run.result hrun
    have hno : ¬ c.IsCap := fun hcap => by cases c <;> first | exact hc | exact hcap
    rw [record_of_not_cap hno]
    exact h.frame hwf' (by rw [capSlots, capSlots, hstep.caps]) hstep.vacated
      fun _ _ hbl => hstep.live hbl
  · exact (h.capCall hwf hc).result hrun
  · have hstep : Grows w w' := (hc.run hwf).result hrun
    have hno : ¬ c.IsCap := fun hcap => by cases c <;> first | exact hc | exact hcap
    rw [record_of_not_cap hno]
    refine h.frame hwf' (by rw [capSlots, capSlots, hstep.caps]) hstep.vacated
      fun {i a bl} hact ha hbl => ?_
    -- the target of a slot is not new
    obtain ⟨-, b, al, hb, hal⟩ := hwf.target_live hact
    obtain rfl : b = a := some.inj (hb.symm.trans ha)
    rcases hstep.live hbl with hsame | ⟨hnone, -⟩
    · exact hsame
    · rw [hal] at hnone
      cases hnone
  · have hpost : Ensures (fun r => Carried w r.2) (Call.run cfg w (.release t id)) :=
      carried_release.bind fun _ hr => hr
    have hstep : Carried w w' := hpost.result hrun
    rw [record_of_not_cap (show ¬ Call.IsCap (.release t id) from fun h => h)]
    exact h.frame hwf' (by rw [capSlots, capSlots, hstep.caps]) hstep.vacated
      fun _ _ hbl => hstep.live hbl

end

theorem LedgerInv.of_reachable {s : World × Ledger} (h : (auditMachine cfg).Reachable s) :
    WF cfg s.1 (fun _ => 0) ∧ LedgerInv cfg s.1 s.2 :=
  observed_invariant (LedgerInv.boot cfg) (fun _ _ _ hwf hinv => hinv.call hwf) h

/-! ## What a validation means -/

theorem Rooted.covers {grants : List Grant} {root g : Grant} (h : Rooted grants root g) :
    root ∈ grants ∧ root.source = none ∧ root.token.rights.Covers g.token.rights ∧
      g.target = root.target := by
  induction h with
  | issue mem source => exact ⟨mem, source, .refl, rfl⟩
  | derive rest mem source entry target rights owner ih =>
    obtain ⟨hmem, hsource, hcovers, htarget⟩ := ih
    exact ⟨hmem, hsource, hcovers.trans rights, target.trans htarget⟩

/-- **Capabilities are confined.** If a token validates for a domain, then it was returned by an
issue for that domain which has not ended, the needed rights are among its rights, and its
derivation leads to a `cap_issue` that had at least its rights. Every link of the derivation names
the same object, and every change of owner had the `delegate` right. -/
theorem capability_confinement {s : World × Ledger} (h : (auditMachine cfg).Reachable s)
    {token : CapToken} {needed : CapRights} {domainId : Nat}
    (hval : s.1.capValidateGenericFor token needed domainId = .ok ()) :
    ∃ k g root, s.2.grants[k]? = some g ∧ s.2.live k = true ∧ g.token = token ∧
      g.owner = domainId ∧ token.rights.Covers needed ∧ Rooted s.2.grants root g ∧
      root.source = none ∧ root.token.rights.Covers token.rights ∧ g.target = root.target ∧
      s.1.targetOf token = root.target := by
  obtain ⟨-, hinv⟩ := LedgerInv.of_reachable h
  unfold World.capValidateGenericFor at hval
  cases hslot : s.1.validateSlot token needed domainId true with
  | error e =>
    rw [hslot] at hval
    cases hval
  | ok a =>
    obtain ⟨i, sl, hopen, -, -, howner, hcovers⟩ := validateSlot_eq_ok hslot
    obtain ⟨k, g, hk, hg, rfl⟩ := hinv.entry_of_slotFor hopen
    have hb := hinv.backs hk hg
    obtain ⟨root, hroot⟩ := hinv.rooted (List.mem_of_getElem? hg)
    obtain ⟨-, hsource, hrights, htarget⟩ := hroot.covers
    refine ⟨k, g, root, hg, hk, rfl, ?_, hcovers, hroot, hsource, hrights, htarget,
      hb.target.trans htarget⟩
    obtain ⟨caps, hcaps, rfl, rfl, -⟩ := slotFor_eq_some hopen
    rw [← hb.owner, capSlots_of_some hcaps]
    exact howner rfl

/-! ## A concrete run -/

def auditStart : World × Ledger := (.boot fun _ => {}, .empty)

def activeDomain : List Call :=
  [.init 0 (fun _ => true) .domain, .alloc 0 .none { object := some 0 } none,
    .changeState 0 .activate]

/-- The token of the first issue for the domain with the rights `read` and `delegate`. -/
def rootToken : CapToken := .make CapType.domain 1 1 17

/-- Domain 5 gets a capability and delegates its `read` right to domain 6. -/
def delegated : List Call :=
  activeDomain ++ [.capIssue true CapType.domain 0 17 5,
    .capDuplicateFor true rootToken CapRights.read 5 6]

theorem capability_confinement_delegated :
    ∃ s, (auditMachine smallConfig).Exec auditStart delegated s ∧
      s.1.capValidateGenericFor (.make CapType.domain 2 1 CapRights.read) CapRights.read
        6 = .ok () ∧
      ∃ k g root, s.2.grants[k]? = some g ∧ s.2.live k = true ∧ g.owner = 6 ∧
        Rooted s.2.grants root g ∧ root.token = rootToken ∧ root.owner = 5 := by
  obtain ⟨s, hrun, hval, hgrants⟩ :
    ∃ s, observeCalls smallConfig Ledger.record delegated auditStart = .ok s ∧
      s.1.capValidateGenericFor (.make CapType.domain 2 1 CapRights.read) CapRights.read
        6 = .ok () ∧
      s.2.grants = [⟨rootToken, 5, some (0, 0), 0, none⟩,
        ⟨.make CapType.domain 2 1 CapRights.read, 6, some (0, 0), 0, some 0⟩] := by
    refine ⟨_, rfl, ?_⟩
    decide
  obtain ⟨k, g, root, hg, hk, -, howner, -, hroot, hsource, -⟩ :=
    capability_confinement (reachable_of_observeCalls hrun) hval
  refine ⟨s, exec_of_observeCalls hrun, hval, k, g, root, hg, hk, howner, hroot, ?_⟩
  -- only the first entry comes from `cap_issue`
  have hmem := hroot.covers.1
  rw [hgrants] at hmem
  rcases List.mem_pair.mp hmem with rfl | rfl
  · exact ⟨rfl, rfl⟩
  · cases hsource

end ZXFoundation.Scoms
