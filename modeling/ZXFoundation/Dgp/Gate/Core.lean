import ZXFoundation.Dgp.Cap.Effects
import ZXFoundation.Dgp.Domain.Lifecycle

/-!
# Dispatch of nucleus calls

`zxfoundation/dgp/gate.zcomponent`: the table of registered calls (`registration.cxx`) and what
`dispatch` checks before it lets a handler run (`dispatch.cxx`). A call is a packed number of
namespace and operation with five argument words. The checks are, in this order: `authorize` for the
caller on the domain that `target_domain_for_op` reads out of the arguments, `validate_gate_entry`
for the gate whose id is the call number if there is one, and the capability in the first argument.
-/

namespace ZXFoundation.Dgp.Gate

open Scoms Isolation Cap World

/-! ## Calls -/

inductive CallNamespace where
  | dom | mem | gate | portal | io | sgn | cap | sys
  deriving DecidableEq, Repr

inductive GateAuthLevel where
  | none | capability | admin | domainMap | storageKey | io | signal
  deriving DecidableEq, Repr

/-- `registration_op`, without the handler, and the namespace it is registered in. -/
structure Entry where
  ns : CallNamespace
  operationId : Nat
  auth : GateAuthLevel
  opKind : OperationKind
  deriving DecidableEq, Repr

structure Args where
  a0 : UInt64 := 0
  a1 : UInt64 := 0
  a2 : UInt64 := 0
  a3 : UInt64 := 0
  a4 : UInt64 := 0
  deriving DecidableEq, Repr

def low32 (a : UInt64) : Nat := a.toNat % 2 ^ 32

/-! ## Lookups -/

variable (cfg : Config) (n : Nucleus)

def domainFind (id : Nat) : Option Addr := n.world.findRaw cfg domainTable id

def gateFind (id : Nat) : Option Addr := n.world.findRaw cfg gateTable id

def portalFind (id : Nat) : Option Addr := n.world.findRaw cfg portalTable id

/-- `ipc::detail::endpoint`. -/
def endpointFind (id : Nat) : Option Addr := n.world.findRaw cfg endpointTable id

/-- `authorize` for a caller with the rights that its own descriptor grants. -/
def authorizeCall (caller target : Addr) (op : OperationKind) (data : AuthorizationMetadata) :
    Bool :=
  (authorize n.world (n.domain caller).grantedRights caller target op data).isOk

/-! ## Reading the arguments -/

/-- The target id of an operation on another domain. Id 0 is the nucleus. -/
def crossDomain (id : Nat) : Option Addr :=
  if id = 0 then n.nucleusPtr else domainFind cfg n id

/-- The target id of an operation that is on the caller itself by default. -/
def selfOr (caller : Addr) (id : Nat) : Option Addr :=
  if id = 0 ∨ id = (n.world.header caller).id then some caller else domainFind cfg n id

def targetDomainForOp (caller : Addr) (op : OperationKind) (a : Args) : Option Addr :=
  match op with
  | .memShare | .portalCreate | .portalDestroy | .domainDestroy => crossDomain cfg n (low32 a.a1)
  | .signalSend => crossDomain cfg n (low32 a.a0)
  | .domainQuery => selfOr cfg n caller (low32 a.a0)
  | .strandCreate => selfOr cfg n caller (low32 (a.a1 &&& 0xFFFF))
  | _ => some caller

def metadataForOp (op : OperationKind) (a : Args) : AuthorizationMetadata :=
  match op with
  | .memMap => { targetVaStart := a.a1, targetVaEnd := a.a1 + a.a3 }
  | .memUnmap | .memProtect | .memFree | .shmExport =>
    { targetVaStart := a.a0, targetVaEnd := a.a0 + a.a1 }
  | .memShare | .portalCreate => { targetVaStart := a.a2, targetVaEnd := a.a3 }
  | .gateEntry => { gateId := low32 a.a0 }
  | .ioIrqBind => { gateId := low32 a.a1 }
  | _ => {}

/-! ## The checks -/

open IsolationRights in
def dgpRightsFor : GateAuthLevel → IsolationRights
  | .none | .capability => enter
  | .admin => enter ||| lifecycle
  | .domainMap => enter ||| map
  | .storageKey => enter ||| share
  | .io => enter ||| io
  | .signal => enter ||| signal

/-- `validate_gate_entry`: the domain whose `gate_count` goes up, if the entry is allowed. -/
def validateGateEntry (callerId : Nat) (gate : Addr) (requested : IsolationRights) : Option Addr :=
  if (n.world.header gate).state ≠ .active then none
  else match domainFind cfg n callerId, domainFind cfg n (n.gate gate).targetDomain with
    | some caller, some target =>
      if authorizeCall n caller target .gateEntry
          { requestedRights := requested, gateId := (n.world.header gate).id } then some target
      else none
    | _, _ => none

/-- The part of `validate_call` that looks the call number up in the gate table. -/
def gateCheck (nr : Nat) (auth : GateAuthLevel) (caller : Addr) : Bool × Nucleus :=
  if auth = .none then (true, n)
  else match gateFind cfg n nr with
    | none => (true, n)
    | some gate =>
      match validateGateEntry cfg n (n.world.header caller).id gate (dgpRightsFor auth) with
      | none => (false, n)
      | some target =>
        (true, n.updateDomain target fun d => { d with gateCount := succ32 d.gateCount })

def adminRight : CapRights := 32

def mapRight : CapRights := 64

/-- The last part of `validate_call`: the capability in `a0`, where the call needs one. -/
def capCheck (auth : GateAuthLevel) (caller : Addr) (a : Args) : Bool :=
  let holds (needed : CapRights) : Bool :=
    (n.world.capValidateGenericFor ⟨a.a0⟩ needed (n.world.header caller).id).isOk
  match auth with
  | .none | .storageKey | .io | .signal => true
  | .capability => holds CapRights.none
  | .admin => holds adminRight
  | .domainMap => holds mapRight

/-- `validate_call` from the point where the target is known. -/
def validateCallOn (nr : Nat) (a : Args) (e : Entry) (caller : Addr) (target : Option Addr) :
    Bool × Nucleus :=
  match target with
  | none => (false, n)
  | some target =>
    if !authorizeCall n caller target e.opKind (metadataForOp e.opKind a) then (false, n)
    else match gateCheck cfg n nr e.auth caller with
      | (false, n) => (false, n)
      | (true, n) => (capCheck n e.auth caller a, n)

/-- `validate_call`, for an entry with an operation kind. The synchronization contract holds in
thread context. -/
def validateCall (nr : Nat) (a : Args) (e : Entry) (caller : Addr) : Bool × Nucleus :=
  validateCallOn cfg n nr a e caller (targetDomainForOp cfg n caller e.opKind a)

/-! ## What acceptance comes down to -/

variable {cfg n}

theorem capCheck_gateCheck (nr : Nat) (auth : GateAuthLevel) (caller : Addr) (a : Args) :
    capCheck (gateCheck cfg n nr auth caller).2 auth caller a = capCheck n auth caller a := by
  have hworld : (gateCheck cfg n nr auth caller).2.world = n.world := by
    unfold gateCheck
    split_ifs
    · rfl
    split
    · rfl
    · split <;> rfl
  unfold capCheck
  rw [hworld]

theorem validateCallOn_some {nr : Nat} {a : Args} {e : Entry} {caller target : Addr} :
    (validateCallOn cfg n nr a e caller (some target)).1 =
      (authorizeCall n caller target e.opKind (metadataForOp e.opKind a) &&
        ((gateCheck cfg n nr e.auth caller).1 && capCheck n e.auth caller a)) := by
  rw [← @capCheck_gateCheck cfg n nr]
  unfold validateCallOn
  dsimp only
  cases authorizeCall n caller target e.opKind (metadataForOp e.opKind a) with
  | false => rfl
  | true =>
    obtain ⟨passed, n'⟩ := gateCheck cfg n nr e.auth caller
    cases passed <;> rfl

theorem authorizeCall_iff {caller target : Addr} {op : OperationKind}
    {data : AuthorizationMetadata} :
    authorizeCall n caller target op data = true ↔
      BothActive n.world caller target ∧ WellFormed op data ∧
        (requiredRightsForOp op = .none ∨ hasAllRights (n.domain caller).grantedRights
          (data.requestedRights ||| requiredRightsForOp op) = true) := by
  unfold authorizeCall
  cases hlease : authorize n.world (n.domain caller).grantedRights caller target op data with
  | ok l =>
    obtain ⟨hactive, hwf, hrights, -⟩ := authorize_eq_ok.mp hlease
    exact iff_of_true rfl ⟨hactive, hwf, hrights⟩
  | error e =>
    refine iff_of_false (by simp [Except.isOk, Except.toBool]) ?_
    rintro ⟨hactive, hwf, hrights⟩
    rw [authorize_eq_ok.mpr ⟨hactive, hwf, hrights, rfl⟩] at hlease
    cases hlease

section

variable (cfg n)

/-- The caller may enter the gate: the gate is active and not the one with id 0, the caller is
registered and holds the rights that the call is for, and the domain it leads into is active. -/
def Enterable (callerId : Nat) (gate : Addr) (auth : GateAuthLevel) : Prop :=
  (n.world.header gate).state = .active ∧ (n.world.header gate).id ≠ 0 ∧
    ∃ c ∈ domainFind cfg n callerId, ∃ target ∈ domainFind cfg n (n.gate gate).targetDomain,
      BothActive n.world c target ∧
        hasAllRights (n.domain c).grantedRights (dgpRightsFor auth) = true

/-- If some gate has the call number as its id, the caller may enter it. -/
def GateAdmits (nr : Nat) (auth : GateAuthLevel) (caller : Addr) : Prop :=
  ∀ gate ∈ gateFind cfg n nr, Enterable cfg n (n.world.header caller).id gate auth

end

theorem validateGateEntry_isSome {callerId : Nat} {gate : Addr} {auth : GateAuthLevel} :
    (validateGateEntry cfg n callerId gate (dgpRightsFor auth)).isSome = true ↔
      Enterable cfg n callerId gate auth := by
  -- every level asks for `enter`, which is what the operation itself requires
  have henter : dgpRightsFor auth ||| requiredRightsForOp .gateEntry = dgpRightsFor auth := by
    cases auth <;> decide
  have hwf : ∀ {data}, WellFormed .gateEntry data ↔ data.gateId ≠ 0 := fun {data} =>
    ⟨fun h => h.gate (by decide), fun h => ⟨fun hop => absurd hop (by decide), fun _ => h⟩⟩
  unfold validateGateEntry Enterable
  split_ifs with hstate
  · exact iff_of_false nofun fun h => hstate h.1
  cases hcaller : domainFind cfg n callerId with
  | none => simp
  | some c =>
  cases htarget : domainFind cfg n (n.gate gate).targetDomain with
  | none => simp
  | some target =>
  have hauth := @authorizeCall_iff n c target .gateEntry
    { requestedRights := dgpRightsFor auth, gateId := (n.world.header gate).id }
  simp only [hwf, henter, show requiredRightsForOp .gateEntry ≠ .none by decide, false_or] at hauth
  simp only [Option.isSome_ite, hauth, Option.mem_def, Option.some.injEq, exists_eq_left',
    not_not.mp hstate, true_and]
  tauto

/-- **What the gate table decides**: a call with an authority level passes iff `GateAdmits`. -/
theorem gateCheck_iff {nr : Nat} {auth : GateAuthLevel} {caller : Addr} (hauth : auth ≠ .none) :
    (gateCheck cfg n nr auth caller).1 = true ↔ GateAdmits cfg n nr auth caller := by
  unfold gateCheck GateAdmits
  rw [if_neg hauth]
  cases gateFind cfg n nr with
  | none => exact iff_of_true rfl fun _ h => nomatch h
  | some gate =>
  simp only [Option.mem_def, Option.some.injEq, forall_eq']
  rw [← validateGateEntry_isSome]
  cases validateGateEntry cfg n (n.world.header caller).id gate (dgpRightsFor auth) with
  | none => exact iff_of_false nofun nofun
  | some target => exact iff_of_true rfl rfl

/-!
## Creating gates

`gate_create` of `zxfoundation/dgp/gate.zcomponent/core.cxx`, and the relation between the states
before and after it: all that is different is the new gate. Of the descriptor only the domain it
leads into is modelled; its type, its policy, its key and its entry point are stored and not read
here.
-/

open Outcome ZXFoundation.Nucleus

def gateCreate (cfg : Config) (n : Nucleus) (targetDomainId targetKey : Nat)
    (faults : AllocFaults) :
    Except Trap (Except KernelError Nat × Nucleus) := do
  match n.currentDomain, domainFind cfg n targetDomainId with
  | some caller, some target =>
    match authorize n.world (n.domain caller).grantedRights caller target .gateCreate
        { requestedRights := .lifecycle } with
    | .error e => return (.error e, n)
    | .ok _ =>
      if (n.domain target).storageKey ≠ targetKey then
        return (.error (.memory .capabilityInvalid), n)
      let handle := n.world.handle.length
      let (slot, n) ← n.store (n.world.alloc gateTable .none faults)
      match slot with
      | .error e => return (.error e, n)
      | .ok g =>
        let (owned, n) ← n.store (n.world.setOwner g (n.world.header target).id)
        let (attached, n) ← n.store (n.world.attach g target)
        match owned, attached with
        | .ok _, .ok _ =>
          let id := (n.world.header g).id
          let w ← Domain.activateNew cfg n.world handle
          let w ← w.dropHandle cfg handle
          return (.ok id,
            { n.withWorld w with
              gate := Function.update n.gate g { targetDomain := targetDomainId } })
        | _, _ =>
          let (_, n) ← n.abandon cfg gateTable g handle (.generic .invalidArg)
          return (.error (.generic .invalidArg), n)
  | _, _ => return (.error (.generic .invalidArg), n)

/-! ## What is the same afterwards -/

/-- The states differ only in the gates at the addresses `G`. No domain is at such an address, and
no capability refers to one. -/
structure SameButGates (G : Addr → Prop) (n n' : Nucleus) : Prop where
  header : ∀ a, ¬ G a → n'.world.header a = n.world.header a
  objectPtr : ∀ t id, t ≠ gateTable →
    (n'.world.table t).objectPtr id = (n.world.table t).objectPtr id
  slot : ∀ id, (n'.world.table gateTable).objectPtr id ≠ (n.world.table gateTable).objectPtr id →
    (∀ a, (n.world.table gateTable).objectPtr id = some a → G a) ∧
      ∀ a, (n'.world.table gateTable).objectPtr id = some a → G a
  gate : ∀ a, ¬ G a → n'.gate a = n.gate a
  caps : n'.world.caps = n.world.caps
  domain : n'.domain = n.domain
  nucleusPtr : n'.nucleusPtr = n.nucleusPtr
  noDomain : ∀ id a, (n.world.table domainTable).objectPtr id = some a → ¬ G a
  noTarget : ∀ caps i a, n.world.caps = some caps → (caps i).active = true →
    (caps i).target = some a → ¬ G a

/-- Headers other than the one at `a`, slots and capabilities are the same. -/
structure OnlyAt (a : Addr) (w w' : World) : Prop where
  header : ∀ b, b ≠ a → w'.header b = w.header b
  objectPtr : ∀ t id, (w'.table t).objectPtr id = (w.table t).objectPtr id
  caps : w'.caps = w.caps

section OnlyAt

variable {cfg : Config} {a : Addr} {w w' w'' : World}

theorem OnlyAt.trans (h : OnlyAt a w w') (h' : OnlyAt a w' w'') : OnlyAt a w w'' :=
  ⟨fun b hb => (h'.header b hb).trans (h.header b hb),
    fun t id => (h'.objectPtr t id).trans (h.objectPtr t id), h'.caps.trans h.caps⟩

theorem OnlyAt.handles {l : List (Option Addr)} : OnlyAt a w { w with handle := l } :=
  ⟨fun _ _ => rfl, fun _ _ => rfl, rfl⟩

theorem OnlyAt.setHeader {o : Bobject} : OnlyAt a w (w.setHeader a o) :=
  ⟨fun _ hb => header_setHeader_of_ne w o hb, fun _ _ => rfl, rfl⟩

theorem OnlyAt.setCore {c : ObjectCore} (h : c.heap = w.core.heap) :
    OnlyAt a w { w with core := c } :=
  ⟨fun b _ => congrFun h b, fun _ _ => rfl, rfl⟩

/-- The last steps of a creation: the only handle of the new object is activated, and both it and
the handle of the new state go out of scope. -/
theorem activate_onlyAt {i : Nat} (hhandle : w.handle[i]? = some (some a))
    (hlast : w.handle.length = i + 1) (hstate : (w.header a).state = .embryo)
    (href : (w.header a).ref = 2) :
    ∃ w₁ w₂, Domain.activateNew cfg w i = .ok w₁ ∧ w₁.dropHandle cfg i = .ok w₂ ∧
      OnlyAt a w w₂ := by
  set o : Bobject := { w.header a with state := .active }
  have htransition : (w.header a).transition HandleChange.activate.target = (o, true) :=
    if_pos (by rw [hstate]; rfl)
  have hactive : w.changeState i .activate =
      .ok (((w.setHeader a o).setHandle i none).pushHandle (some a)) := by
    unfold changeState handlePtr
    simp only [hhandle, pure_bind, htransition, if_true]
    rfl
  -- the handle of the new state is the last one, and the old one is empty
  set w₁ := ((w.setHeader a o).setHandle i none).pushHandle (some a)
  have hhandles : w₁.handle = w.handle.set i none ++ [some a] := rfl
  have hlength : (w.handle.set i none).length = i + 1 := by rw [List.length_set, hlast]
  have hnew : w₁.handle[i + 1]? = some (some a) := by
    rw [hhandles, List.getElem?_append_right (by omega), hlength, Nat.sub_self]
    rfl
  have hold : w₁.handle[i]? = some none := by
    rw [hhandles, List.getElem?_append_left (by omega), List.getElem?_set_self (by omega)]
  have href₁ : ((w₁.setHandle (i + 1) none).header a).ref = 2 := by
    show ((w.setHeader a o).header a).ref = 2
    rw [header_setHeader_self]
    exact href
  obtain ⟨o₂, hdrop⟩ : ∃ o₂, Domain.activateNew cfg w i =
      .ok ((w₁.setHandle (i + 1) none).setHeader a o₂) := by
    have hput := @put_eq_of_two_le cfg (w₁.setHandle (i + 1) none) a href₁.ge
    refine ⟨_, Eq.trans ?_ hput⟩
    unfold Domain.activateNew
    rw [hactive]
    show w₁.dropHandle cfg (w₁.handle.length - 1) = _
    rw [hhandles, List.length_append, hlength]
    unfold dropHandle handlePtr
    simp only [List.length_singleton, Nat.add_sub_cancel, hnew, pure_bind]
    rfl
  set w₂ := (w₁.setHandle (i + 1) none).setHeader a o₂
  have hold₂ : w₂.handle[i]? = some none := by
    show (w₁.handle.set (i + 1) none)[i]? = some none
    rw [List.getElem?_set_ne (by omega), hold]
  refine ⟨w₂, w₂.setHandle i none, hdrop, ?_, ?_⟩
  · unfold dropHandle handlePtr
    simp only [hold₂, pure_bind]
    rfl
  · apply (OnlyAt.setHeader.trans .handles).trans
    apply OnlyAt.handles.trans
    exact (OnlyAt.handles.trans .setHeader).trans .handles

end OnlyAt

theorem onlyAt_setOwner {w : World} {a : Addr} {d : Nat} :
    Ensures (fun r => OnlyAt a w r.2 ∧ r.2.handle = w.handle ∧
      r.2.header a = w.header a) (w.setOwner a d) := by
  refine post_any.bind fun _ _ => ?_
  show OnlyAt a w (w.commitCore (w.core.setOwner a d)).2 ∧ _
  cases hc : w.core.setOwner a d with
  | error e => exact ⟨⟨fun _ _ => rfl, fun _ _ => rfl, rfl⟩, rfl, rfl⟩
  | ok c =>
    obtain ⟨i, -, rfl⟩ := ObjectCore.setOwner_eq_ok hc
    exact ⟨.setCore rfl, rfl, rfl⟩

theorem onlyAt_attach {w : World} {a parent : Addr} :
    Ensures (fun r => OnlyAt a w r.2 ∧ r.2.handle = w.handle ∧
      r.2.header a = w.header a) (w.attach a parent) := by
  refine post_any.bind fun _ _ => post_any.bind fun _ _ => ?_
  show OnlyAt a w (w.commitCore (w.core.attach a parent)).2 ∧ _
  cases hc : w.core.attach a parent with
  | error e => exact ⟨⟨fun _ _ => rfl, fun _ _ => rfl, rfl⟩, rfl, rfl⟩
  | ok c =>
    obtain ⟨i, p, -, -, -, -, rfl⟩ := ObjectCore.attach_eq_ok hc
    exact ⟨.setCore rfl, rfl, rfl⟩

variable {cfg : Config} {n : Nucleus} {x : Addr → Nat}

theorem Born.sameButGates (h : WF cfg n.world x) {w : World} {id : Nat} {g : Addr} {n' : Nucleus}
    (hborn : Born n.world w gateTable id g) (hat : OnlyAt g w n'.world)
    (hgate : ∀ a, a ≠ g → n'.gate a = n.gate a) (hdomain : n'.domain = n.domain)
    (hptr : n'.nucleusPtr = n.nucleusPtr) : SameButGates (· = g) n n' where
  header a ha := (hat.header a ha).trans (hborn.header ha)
  objectPtr t i ht := by
    rw [hat.objectPtr, hborn.objectPtr, if_neg fun hti => ht hti.1]
  slot i hne := by
    rw [hat.objectPtr, hborn.objectPtr] at hne
    split_ifs at hne with hi
    · obtain rfl : i = id := hi.2
      rw [hborn.vacant, hat.objectPtr, hborn.objectPtr, if_pos ⟨rfl, rfl⟩]
      exact ⟨nofun, fun a ha => (Option.some.inj ha).symm⟩
    · exact absurd rfl hne
  gate := hgate
  caps := hat.caps.trans hborn.caps
  domain := hdomain
  nucleusPtr := hptr
  noDomain i a hi := by
    -- the storage of the gate was free
    rintro rfl
    obtain ⟨al, hal, -⟩ := h.books.slot hi
    rw [hborn.new] at hal
    cases hal
  noTarget caps i a hcaps hactive htarget := by
    rintro rfl
    have hslots := capSlots_of_some hcaps
    obtain ⟨-, b, al, hb, hal⟩ := h.target_live (i := i) (by rw [hslots]; exact hactive)
    rw [hslots, htarget] at hb
    cases hb
    rw [hborn.new] at hal
    cases hal

/-- **`gate_create` changes nothing but gates**: a new gate has the id that is returned. -/
theorem gateCreate_sameButGates (h : WF cfg n.world x) {targetDomainId targetKey : Nat}
    {faults : AllocFaults} :
    Ensures (fun r => ∀ id, r.1 = .ok id →
      ∃ g, SameButGates (· = g) n r.2 ∧ (r.2.world.table gateTable).objectPtr id = some g)
      (gateCreate cfg n targetDomainId targetKey faults) := by
  unfold gateCreate
  split
  case h_2 => exact fun _ hid => by cases hid
  next caller target _ _ =>
    split
    · exact fun _ hid => by cases hid
    dsimp only
    split_ifs
    · exact fun _ hid => by cases hid
    refine (n.post_store (alloc_outcome h gateTable .none faults)).forget.bind fun r hr => ?_
    obtain ⟨slot, n₁⟩ := r
    obtain ⟨hr, heq⟩ := hr
    cases slot with
    | error e => exact fun _ hid => by cases hid
    | ok g =>
    obtain ⟨id, hborn⟩ := hr.born h none
    obtain ⟨w, rfl⟩ : ∃ w, n₁ = n.withWorld w := ⟨_, heq⟩
    have hborn : Born n.world w gateTable id g := hborn
    dsimp only
    refine ((n.withWorld w).post_store onlyAt_setOwner).bind fun r₂ h₂ => ?_
    obtain ⟨owned, n₂⟩ := r₂
    obtain ⟨h₂, heq₂⟩ := h₂
    obtain ⟨w₂, rfl⟩ : ∃ w₂, n₂ = n.withWorld w₂ := ⟨_, heq₂⟩
    refine ((n.withWorld w₂).post_store onlyAt_attach).bind fun r₃ h₃ => ?_
    obtain ⟨attached, n₃⟩ := r₃
    obtain ⟨h₃, heq₃⟩ := h₃
    obtain ⟨w₃, rfl⟩ : ∃ w₃, n₃ = n.withWorld w₃ := ⟨_, heq₃⟩
    dsimp only
    split
    case h_2 => exact post_any.bind fun _ _ _ hid => by cases hid
    have hhandles : w₃.handle = n.world.handle ++ [some g] := by
      rw [show w₃.handle = w₂.handle from h₃.2.1, show w₂.handle = w.handle from
        h₂.2.1, hborn.handle]
    have hheader : w₃.header g = w.header g := h₃.2.2.trans h₂.2.2
    obtain ⟨w₄, w₅, hactivate, hdrop, hat⟩ := @activate_onlyAt cfg g w₃ n.world.handle.length
      (by rw [hhandles, List.getElem?_append_right (Nat.le_refl _), Nat.sub_self]; rfl)
      (by rw [hhandles, List.length_append]; rfl)
      (by rw [hheader, hborn.state]) (by rw [hheader, hborn.ref])
    show Post _ _ (Domain.activateNew cfg w₃ _ >>= _)
    rw [hactivate]
    show Post _ _ (dropHandle cfg w₄ _ >>= _)
    rw [hdrop]
    intro id' hid'
    cases hid'
    have hrest : OnlyAt g w w₅ := (h₂.1.trans h₃.1).trans hat
    refine ⟨g, Born.sameButGates h hborn hrest (fun a ha => ?_) rfl rfl, ?_⟩
    · exact Function.update_of_ne ha ..
    · show (w₅.table gateTable).objectPtr (w₃.header g).id = some g
      rw [hheader, hborn.named, hrest.objectPtr, hborn.objectPtr, if_pos ⟨rfl, rfl⟩]

/-!
## Gates and the calls of other domains

Two states that differ only in gates can differ in whether a nucleus call is accepted, because
`validate_call` looks the call number up in the gate table. That is the only way: without the gate
whose id is the call number, all that `validate_call` reads is the same in both states.
-/

variable {cfg : Config} {G : Addr → Prop} {n n' : Nucleus} {caller : Addr}

namespace SameButGates

variable (h : SameButGates G n n')
include h

theorem domainFind {id : Nat} : domainFind cfg n' id = domainFind cfg n id := by
  unfold Gate.domainFind findRaw
  rw [h.objectPtr domainTable id (by decide)]
  cases hptr : (n.world.table domainTable).objectPtr id with
  | none => rfl
  | some a =>
    dsimp only
    rw [h.header a (h.noDomain id a hptr)]

theorem of_domainFind {id : Nat} {a : Addr} (hfind : Gate.domainFind cfg n id = some a) :
    ¬ G a := by
  unfold Gate.domainFind findRaw at hfind
  split_ifs at hfind
  cases hptr : (n.world.table domainTable).objectPtr id with
  | none => simp [hptr] at hfind
  | some b =>
    simp only [hptr] at hfind
    split_ifs at hfind
    cases hfind
    exact h.noDomain id _ hptr

theorem authorizeCall {target : Addr} (hcaller : ¬ G caller)
    (htarget : ¬ G target) (op : OperationKind) (data : AuthorizationMetadata) :
    authorizeCall n' caller target op data = authorizeCall n caller target op data := by
  unfold Gate.authorizeCall authorize validateCommon
  rw [h.header caller hcaller, h.header target htarget, h.domain]

theorem targetDomainForOp (hcaller : ¬ G caller) (op : OperationKind) (a : Args) :
    targetDomainForOp cfg n' caller op a = targetDomainForOp cfg n caller op a := by
  have hcross : ∀ id, crossDomain cfg n' id = crossDomain cfg n id := by
    intro id
    unfold crossDomain
    rw [h.nucleusPtr, h.domainFind]
  have hself : ∀ id, selfOr cfg n' caller id = selfOr cfg n caller id := by
    intro id
    unfold selfOr
    rw [h.header caller hcaller, h.domainFind]
  unfold Gate.targetDomainForOp
  cases op
  all_goals first | rfl | exact hcross _ | exact hself _

theorem of_targetDomainForOp (hcaller : ¬ G caller)
    (hboot : n.nucleusPtr = Gate.domainFind cfg n 0) {op : OperationKind} {a : Args} {target : Addr}
    (htarget : Gate.targetDomainForOp cfg n caller op a = some target) :
    ¬ G target := by
  have hcross : ∀ id, crossDomain cfg n id = some target → ¬ G target := by
    intro id hid
    unfold crossDomain at hid
    split_ifs at hid
    · rw [hboot] at hid
      exact h.of_domainFind hid
    · exact h.of_domainFind hid
  have hself : ∀ id, selfOr cfg n caller id = some target → ¬ G target := by
    intro id hid
    unfold selfOr at hid
    split_ifs at hid
    · cases hid
      exact hcaller
    · exact h.of_domainFind hid
  unfold Gate.targetDomainForOp at htarget
  split at htarget
  case h_6 | h_7 => exact hself _ htarget
  case h_8 =>
    cases htarget
    exact hcaller
  all_goals exact hcross _ htarget

theorem capCheck (hcaller : ¬ G caller) (auth : GateAuthLevel) (a : Args) :
    capCheck n' auth caller a = capCheck n auth caller a := by
  have hvalid : ∀ needed owner, n'.world.capValidateGenericFor ⟨a.a0⟩ needed owner =
      n.world.capValidateGenericFor ⟨a.a0⟩ needed owner := by
    intro needed owner
    unfold capValidateGenericFor validateSlot
    have hslot : n'.world.slotFor ⟨a.a0⟩ = n.world.slotFor ⟨a.a0⟩ := by
      unfold slotFor
      rw [h.caps]
    rw [hslot]
    cases hfound : n.world.slotFor ⟨a.a0⟩ with
    | none => rfl
    | some p =>
    obtain ⟨i, s⟩ := p
    dsimp only
    cases htarget : s.target with
    | none => rfl
    | some b =>
      dsimp only
      obtain ⟨caps, hcaps, -, rfl, -, -, hactive, -⟩ := slotFor_eq_some hfound
      rw [h.header b (h.noTarget caps i b hcaps hactive htarget)]
  unfold Gate.capCheck
  simp only [hvalid, h.header caller hcaller]

end SameButGates

/-- Everything in `validate_call` that does not concern gates. -/
def otherChecks (cfg : Config) (n : Nucleus) (caller : Addr) (e : Entry) (a : Args) : Bool :=
  (targetDomainForOp cfg n caller e.opKind a).any (fun target =>
    authorizeCall n caller target e.opKind (metadataForOp e.opKind a)) && capCheck n e.auth caller a

theorem validateCall_fst {nr : Nat} {e : Entry}
    {a : Args} : (validateCall cfg n nr a e caller).1 =
      (otherChecks cfg n caller e a && (gateCheck cfg n nr e.auth caller).1) := by
  unfold validateCall otherChecks
  cases targetDomainForOp cfg n caller e.opKind a with
  | none => rfl
  | some target =>
    rw [validateCallOn_some, Option.any_some, Bool.and_assoc]
    congr 1
    exact Bool.and_comm _ _

theorem SameButGates.otherChecks (h : SameButGates G n n') (hcaller : ¬ G caller)
    (hboot : n.nucleusPtr = Gate.domainFind cfg n 0) (e : Entry) (a : Args) :
    otherChecks cfg n' caller e a = otherChecks cfg n caller e a := by
  unfold Gate.otherChecks
  rw [h.targetDomainForOp hcaller, h.capCheck hcaller]
  cases htarget : Gate.targetDomainForOp cfg n caller e.opKind a with
  | none => rfl
  | some target =>
    rw [Option.any_some, Option.any_some,
      h.authorizeCall hcaller (h.of_targetDomainForOp hcaller hboot htarget)]

/-- **Gates interfere with a call only through its number.** A call is accepted alike in both
states iff its entry asks for no authority, something else refuses it, or the gate that has the
call's number as its id, where there is one, may be entered by the caller in both or in neither. -/
theorem gate_interference_iff (h : SameButGates G n n') (hcaller : ¬ G caller)
    (hboot : n.nucleusPtr = domainFind cfg n 0) (nr : Nat) (e : Entry) (a : Args) :
    (validateCall cfg n' nr a e caller).1 = (validateCall cfg n nr a e caller).1 ↔
      e.auth = .none ∨ otherChecks cfg n caller e a = false ∨
        (GateAdmits cfg n' nr e.auth caller ↔ GateAdmits cfg n nr e.auth caller) := by
  rw [validateCall_fst, validateCall_fst, h.otherChecks hcaller hboot]
  by_cases hauth : e.auth = .none
  · refine iff_of_true ?_ (.inl hauth)
    rw [hauth]
    rfl
  rw [← gateCheck_iff hauth, ← gateCheck_iff hauth]
  cases otherChecks cfg n caller e a with
  | false => exact iff_of_true rfl (.inr (.inl rfl))
  | true =>
  rw [Bool.true_and, Bool.true_and, Bool.eq_iff_iff]
  constructor
  · exact fun heq => .inr (.inr heq)
  rintro (hnone | hfalse | heq)
  · exact absurd hnone hauth
  · cases hfalse
  · exact heq

/-! ## The first gate -/

/-- The boot sequence, and an administrator's capability for the nucleus domain. -/
def adminBoot : List Domain.NucleusOp :=
  Domain.bootOps ++ [.component (.call (.capIssue true CapType.domain 0 adminRight 0))]

/-- The booted nucleus with an administrator's capability, the gate table and a second domain. -/
def twoDomains : List Domain.NucleusOp :=
  adminBoot ++ [.component (.call (.init gateTable (fun _ => true) .gate)),
    .domainCreate (some "init") Domain.plenty, .switchTo (some 2000)]

/-- `bootstrap` gives the second domain all rights. -/
def granted (n : Nucleus) : Nucleus :=
  n.updateDomain 2000 fun d => { d with grantedRights := .all }

def createDomainCall : Args where
  a0 := 0x0020000100010001

def destroyDomainCall : Args where
  a0 := 0x0020000100010001
  a1 := 1

/-- Domain 1 creates the first gate of the system, which gets id 0. From then on `domain_create`,
whose call number is 0, is refused to the nucleus domain. -/
theorem first_gate_blocks_domain_create :
    ∃ n n' G, (Domain.nucleusMachine smallConfig).Reachable n ∧
    gateCreate smallConfig (granted n) 1 8 { object := some 7000 } = .ok (.ok 0, n') ∧
    SameButGates G (granted n) n' ∧
    (validateCall smallConfig (granted n) 0 createDomainCall ⟨.dom, 0, .admin, .domainCreate⟩
      1000).1 = true ∧
    (validateCall smallConfig n' 0 createDomainCall ⟨.dom, 0, .admin, .domainCreate⟩ 1000).1 =
      false := by
  obtain ⟨n, hreach, hbefore, hcreate⟩ := Domain.reachable_with
    (Q := fun n =>
      (validateCall smallConfig (granted n) 0 createDomainCall ⟨.dom, 0, .admin, .domainCreate⟩
        1000).1 = true ∧
      Post (fun _ => False) (fun r => r.1 = .ok 0 ∧
        (validateCall smallConfig r.2 0 createDomainCall ⟨.dom, 0, .admin, .domainCreate⟩ 1000).1 =
          false) (gateCreate smallConfig (granted n) 1 8 { object := some 7000 }))
    twoDomains (by decide +kernel)
  obtain ⟨⟨_, n'⟩, hn', rfl, hafter⟩ := hcreate.total
  have hwf : WF smallConfig n.world fun _ => 0 := Domain.wf_of_reachable hreach
  obtain ⟨g, hsame, -⟩ := (gateCreate_sameButGates (n := granted n) hwf).result hn' 0 rfl
  exact ⟨n, n', _, hreach, hn', hsame, hbefore, hafter⟩

/-- Where gate 0 is taken, the first gate of domain 1 has id 1, the number of `domain_destroy`. The
nucleus domain may enter it, so that its call is accepted with the gate as it was without. -/
theorem gate_interference_iff_secondGate : ∃ n n' G, SameButGates G (granted n) n' ∧ ¬ G 1000 ∧
    (granted n).nucleusPtr = domainFind smallConfig (granted n) 0 ∧
    gateFind smallConfig (granted n) 1 = none ∧ gateFind smallConfig n' 1 = some 8000 ∧
    (validateCall smallConfig n' 1 destroyDomainCall ⟨.dom, 1, .admin, .domainDestroy⟩ 1000).1 =
      (validateCall smallConfig (granted n) 1 destroyDomainCall ⟨.dom, 1, .admin, .domainDestroy⟩
        1000).1 := by
  obtain ⟨n, hreach, hboot, hdomain, hbefore, hcreate⟩ := Domain.reachable_with
    (Q := fun n => (granted n).nucleusPtr = domainFind smallConfig (granted n) 0 ∧
      ((granted n).world.table domainTable).objectPtr 0 = some 1000 ∧
      gateFind smallConfig (granted n) 1 = none ∧
      Post (fun _ => False) (fun r => r.1 = .ok 1 ∧ gateFind smallConfig r.2 1 = some 8000 ∧
        (gateCheck smallConfig r.2 1 .admin 1000).1 = true)
        (gateCreate smallConfig (granted n) 1 8 { object := some 8000 }))
    (twoDomains ++ [.component (.call (.alloc gateTable .none { object := some 7000 } none))])
    (by decide +kernel)
  obtain ⟨⟨_, n'⟩, hn', rfl, hafter, hpass⟩ := hcreate.total
  have hwf : WF smallConfig n.world fun _ => 0 := Domain.wf_of_reachable hreach
  obtain ⟨g, hsame, -⟩ := (gateCreate_sameButGates (n := granted n) hwf).result hn' 1 rfl
  have hcaller : ¬ 1000 = g := hsame.noDomain 0 1000 hdomain
  have hnone : GateAdmits smallConfig (granted n) 1 .admin 1000 := by
    intro gate hgate
    rw [hbefore] at hgate
    cases hgate
  refine ⟨n, n', _, hsame, hcaller, hboot, hbefore, hafter, ?_⟩
  exact (gate_interference_iff hsame hcaller hboot 1 _ _).mpr
    (.inr (.inr (iff_of_true ((gateCheck_iff (by decide)).mp hpass) hnone)))

end ZXFoundation.Dgp.Gate
