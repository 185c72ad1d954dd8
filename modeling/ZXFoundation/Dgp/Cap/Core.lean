import ZXFoundation.Scoms.World

/-!
# Capability operations

`zxfoundation/dgp/cap.zcomponent/core.cxx`. The capability table has `MAX_CAPABILITIES` slots,
of which slot 0 is never used, and is allocated on the first issue. An active slot holds one
reference to its target; vacating a slot advances its 16-bit generation and drops the reference.

Deriving a token looks its target up again, by the capability type and the low 16 bits of the
target's id.
-/

namespace ZXFoundation.Scoms.World

open Dgp.Cap Function

/-! ## Slots -/

variable (cfg : Config) (w : World) (mem : Bool)

/-- `ensure_capabilities_locked`; `mem` is the outcome of the allocation. -/
def ensureCapabilities : Option (World × (Nat → CapabilitySlot)) :=
  match w.caps with
  | some caps => some (w, caps)
  | none => if mem then some ({ w with caps := some fun _ => {} }, fun _ => {}) else none

variable (s : CapabilitySlot) (token : CapToken) (needed : CapRights) (type : CapType)
    (objId : UInt16)

def lookupKobject : Except KernelError (Addr × Nat) :=
  if type.toNat ≥ lookupTableSize then .error (.generic .notSupported)
  else match cfg.lookup type.toNat with
    | none => .error (.generic .notSupported)
    | some l =>
      match w.findRaw cfg l.table objId.toNat with
      | none => .error (.generic .notFound)
      | some a =>
        if l.accepts (w.header a) then .ok (a, (w.header a).generation)
        else .error (.generic .notFound)

def checkRights : Except KernelError Unit :=
  if needed ≠ CapRights.none ∧ token.rights &&& needed ≠ needed then
    .error (.generic .invalidArg)
  else .ok ()

def slotMatches : Bool :=
  s.active && s.generation == token.generation && s.type == token.type && s.rights == token.rights

/-- `slot_for`: the index and the contents of the slot that the token opens. -/
def slotFor : Option (Nat × CapabilitySlot) :=
  match w.caps with
  | none => none
  | some caps =>
    if !token.isValid || token.objectId == 0 || token.objectId.toNat ≥ maxCapabilities then none
    else
      let s := caps token.objectId.toNat
      if slotMatches s token then some (token.objectId.toNat, s) else none

/-- The search of `issue_locked` for an inactive slot, from index `i` on. -/
def freeSlot (caps : Nat → CapabilitySlot) : Nat → Nat → Option Nat
  | 0, _ => none
  | fuel + 1, i => if (caps i).active then freeSlot caps fuel (i + 1) else some i

/-- The slot as `issue_locked` fills it. Its generation stays. -/
def filledSlot (a : Addr) (type : CapType) (rights : CapRights)
    (ownerDomain generation : Nat) : CapabilitySlot :=
  { s with target := some a, type := type, rights := rights, ownerDomain := ownerDomain,
           targetGeneration := generation, active := true }

variable (rights : CapRights) (ownerDomain : Nat)

def issueLocked : Except Trap (Except KernelError CapToken × World) :=
  match w.ensureCapabilities mem with
  | none => return (.error (.memory .outOfMemory), w)
  | some (w, caps) =>
    match w.lookupKobject cfg type objId with
    | .error e => return (.error e, w)
    | .ok (a, generation) =>
      match freeSlot caps (maxCapabilities - 1) 1 with
      | none => return (.error (.memory .outOfMemory), w)
      | some i =>
        if (w.header a).state ≠ .active then return (.error (.generic .notSupported), w)
        else do
          let (got, w) ← w.tryGet a
          if got then
            let s := filledSlot (caps i) a type rights ownerDomain generation
            return (.ok (.make type (UInt16.ofNat i) s.generation rights),
              { w with caps := some (update caps i s) })
          else return (.error (.generic .notFound), w)

/-- `validate_slot`: the target of the token. -/
def validateSlot (checkOwner : Bool) : Except KernelError Addr :=
  match w.slotFor token with
  | none => .error (.generic .notFound)
  | some (_, s) =>
    match s.target with
    | none => .error (.generic .notFound)
    | some a =>
      if (w.header a).generation ≠ s.targetGeneration ∨ (w.header a).state = .dying ∨
          (w.header a).state = .destroyed then .error (.generic .notFound)
      else if checkOwner ∧ s.ownerDomain ≠ ownerDomain then .error (.memory .capabilityInvalid)
      else match checkRights token needed with
        | .error e => .error e
        | .ok _ => .ok a

def vacatedSlot : CapabilitySlot :=
  { s with active := false, target := none, generation := s.generation + 1 }

/-- Vacate slot `i`; the reference it held is still to be dropped. -/
def vacateSlot (caps : Nat → CapabilitySlot) (i : Nat) : World :=
  { w with
    caps := some (update caps i (vacatedSlot (caps i)))
    vacated := update w.vacated i (w.vacated i + 1) }

/-! ## Issuing -/

def capIssue : Except Trap (Except KernelError CapToken × World) :=
  w.issueLocked cfg mem type objId rights ownerDomain

/-- The common body of `cap_duplicate` and `cap_acquire`: a token for the same owner. -/
def deriveOwn (source : CapToken) (rights : CapRights)
    (ownerDomain : Nat) : Except Trap (Except KernelError CapToken × World) :=
  match w.validateSlot source rights ownerDomain true with
  | .error e => return (.error e, w)
  | .ok a =>
    match w.slotFor source with
    | none => .error .nullDereference
    | some (_, s) =>
      w.issueLocked cfg mem s.type (UInt16.ofNat (w.header a).id) rights ownerDomain

def capDuplicate := deriveOwn

def capAcquire := deriveOwn

/-- `cap_duplicate_for`: a change of owner needs the `delegate` right on the source. -/
def capDuplicateFor (source : CapToken) (rights : CapRights) (sourceDomain ownerDomain : Nat) :
    Except Trap (Except KernelError CapToken × World) :=
  match w.validateSlot source rights sourceDomain true with
  | .error e => return (.error e, w)
  | .ok a =>
    match w.slotFor source with
    | none => .error .nullDereference
    | some (_, s) =>
      if ownerDomain ≠ sourceDomain ∧ s.rights &&& CapRights.delegate ≠ CapRights.delegate then
        return (.error (.memory .capabilityInvalid), w)
      else
        w.issueLocked cfg mem s.type (UInt16.ofNat (w.header a).id) rights ownerDomain

/-! ## Validating -/

def capValidateGeneric : Except KernelError Unit :=
  if !token.isValid then .error (.generic .invalidArg)
  else (w.validateSlot token needed 0 false).map fun _ => ()

def capValidateGenericFor : Except KernelError Unit :=
  (w.validateSlot token needed ownerDomain true).map fun _ => ()

def capResolve : Except KernelError Addr :=
  w.validateSlot token needed 0 false

/-! ## Revoking -/

/-- The common body of `cap_release` and `cap_revoke`. -/
def vacateToken : Except Trap (Except KernelError Unit × World) :=
  if !token.isValid then return (.error (.generic .invalidArg), w)
  else match w.caps, w.slotFor token with
    | some caps, some (i, s) =>
      match s.target with
      | none => .error .nullDereference
      | some a => do
        let w ← (w.vacateSlot caps i).put cfg a
        return (.ok (), w)
    | _, _ => return (.error (.generic .notFound), w)

def capRelease := vacateToken

def capRevoke := vacateToken

/-- The loops of `cap_revoke_for_domain` and `cap_revoke_target` over the slots from `i` on;
`n` slots are vacated so far. -/
def revokeLoop (cfg : Config) (select : World → CapabilitySlot → Bool) :
    Nat → Nat → Nat → World → Except Trap (Nat × World)
  | 0, _, n, w => return (n, w)
  | fuel + 1, i, n, w =>
    match w.caps with
    | none => .error .nullDereference
    | some caps =>
      if (caps i).active && select w (caps i) then do
        let w ← (w.vacateSlot caps i).putPtr cfg (caps i).target
        revokeLoop cfg select fuel (i + 1) (n + 1) w
      else revokeLoop cfg select fuel (i + 1) n w

/-- The slots that `cap_revoke_for_domain` vacates: those the domain owns, and those whose
target is the domain. -/
def concernsDomain (domainId : Nat) (w : World) (s : CapabilitySlot) : Bool :=
  s.ownerDomain == domainId ||
    s.type == CapType.domain && s.target.any fun a => (w.header a).id == domainId

def capRevokeForDomain (domainId : Nat) : Except Trap (Nat × World) :=
  match w.caps with
  | none => return (0, w)
  | some _ => revokeLoop cfg (concernsDomain domainId) (maxCapabilities - 1) 1 0 w

/-- `cap_revoke_target`. It does not check that the capability table exists. -/
def capRevokeTarget (a : Addr) : Except Trap (Nat × World) := do
  w.checkLive a
  revokeLoop cfg (fun _ s => s.target == some a) (maxCapabilities - 1) 1 0 w

end ZXFoundation.Scoms.World
