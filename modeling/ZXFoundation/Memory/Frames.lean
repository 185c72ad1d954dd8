import ZXFoundation.Lib.Outcome
import ZXFoundation.Scoms.Kobject

/-!
# Physical frames

What the object layer sees of `memory/pmm`, `memory/hhdm`, `arch/s390x/mmu` and
`arch/s390x/cpu/aste`: which folios are allocated, and the two users that allocate several of them,
region tables and the access-register contexts of domains.

The buddy allocator is not modelled. What `pmm::alloc` answers is an argument; that it hands out
neither page 0, which belongs to the lowcore, nor a folio in use, is its contract, and an answer
against it ends the run.
-/

namespace ZXFoundation.Memory

open Scoms Outcome Function

inductive Zone where
  | dma31 | normal
  deriving DecidableEq, Repr

inductive Purpose where
  | generic | lowcore | stack | pageTable | deviceDma | heap | slab | frameDesc | fileCache
  | reservedSwap
  deriving DecidableEq, Repr

/-- What the frame descriptor of an allocated folio records. -/
structure Folio where
  order : Nat
  zone : Zone
  purpose : Purpose
  deriving DecidableEq, Repr

/-- The allocated folios by their physical base address. -/
abbrev Frames := UInt64 → Option Folio

variable (F : Frames) (answer : Except KernelError UInt64) (phys : UInt64)

namespace Frames

/-- `pmm::alloc`, whose outcome is `answer`. -/
def alloc (folio : Folio) (answer : Except KernelError UInt64) :
    Except Trap (Except KernelError UInt64 × Frames) :=
  match answer with
  | .error e => return (.error e, F)
  | .ok phys =>
    if phys = 0 ∨ (F phys).isSome then .error .allocatorOverlap
    else return (.ok phys, update F phys (some folio))

/-- `pmm::free`. It does not look whether the folio is allocated. -/
def free : Frames := update F phys none

/-- `F'` has the folio at `phys` besides those of `F`. -/
structure Allocated (F F' : Frames) (phys : UInt64) (folio : Folio) : Prop where
  ne_zero : phys ≠ 0
  fresh : F phys = none
  frames : F' = update F phys (some folio)

theorem post_alloc (folio : Folio) (answer : Except KernelError UInt64) :
    Post Trap.IsBenign (fun r => match r.1 with
      | .ok phys => Allocated F r.2 phys folio
      | .error _ => r.2 = F) (F.alloc folio answer) := by
  unfold alloc
  cases answer with
  | error e => rfl
  | ok phys =>
  dsimp only
  split_ifs with hbad
  · trivial
  · rw [not_or, Option.not_isSome_iff_eq_none] at hbad
    exact ⟨hbad.1, hbad.2, rfl⟩

theorem Allocated.free {F F' : Frames} {phys : UInt64} {folio : Folio}
    (h : Allocated F F' phys folio) : F'.free phys = F := by
  rw [Frames.free, h.frames, update_idem, ← h.fresh, update_eq_self]

end Frames

/-! ## The higher-half mapping -/

def kernelVirtualOffset : UInt64 := 0xFFFF800000000000

def physToVirt : UInt64 := phys + kernelVirtualOffset

def virtToPhys (virt : UInt64) : UInt64 := virt - kernelVirtualOffset

/-! ## Region tables -/

def crstFolio : Folio := ⟨2, .normal, .pageTable⟩

/-- `crst_alloc<region_1>`. `mapped` is the answer of `phys_range_is_mapped`; a table that cannot be
initialized is freed again. -/
def crstAlloc (mapped : Bool) : Except Trap (Except KernelError UInt64 × Frames) := do
  match ← F.alloc crstFolio answer with
  | (.error e, F) => return (.error e, F)
  | (.ok phys, F) =>
    if phys &&& 0xFFF ≠ 0 then return (.error (.memory .alignmentError), F.free phys)
    else if !mapped then return (.error (.memory .hhdmInitFailed), F.free phys)
    else return (.ok phys, F)

def tableFree : Frames := if phys = 0 then F else F.free phys

def asceBuild (rootPhys : UInt64) : UInt64 := (rootPhys &&& ~~~0xFFF) ||| 0x00C ||| 0x003

theorem post_crstAlloc {mapped : Bool} : Post Trap.IsBenign (fun r => match r.1 with
      | .ok phys => F.Allocated r.2 phys crstFolio
      | .error _ => r.2 = F) (crstAlloc F answer mapped) := by
  refine (F.post_alloc crstFolio answer).bind fun r hr => ?_
  obtain ⟨_ | phys, F'⟩ := r
  · exact hr
  have hfree : F'.free phys = F := Frames.Allocated.free hr
  dsimp only
  split_ifs
  · exact hfree
  · exact hfree
  · exact hr

/-! ## Access-register contexts -/

/-- `art_context`, less the sequence numbers of its entries. -/
structure ArtContext where
  ductPhys : UInt64 := 0
  aleTablePhys : UInt64 := 0
  deriving DecidableEq, Repr

def artFolio : Folio := ⟨0, .dma31, .pageTable⟩

/-- `art_context_init`. `ready` is the initialization flag of the `aste` component. -/
def artContextInit (ready : Bool) (context : ArtContext)
    (duct ales : Except KernelError UInt64) :
    Except Trap (Except KernelError ArtContext × Frames) :=
  if !ready then return (.error (.generic .uninitialized), F)
  else if context.ductPhys ≠ 0 ∨ context.aleTablePhys ≠ 0 then
    return (.error (.generic .invalidArg), F)
  else do
    match ← F.alloc artFolio duct with
    | (.error e, F) => return (.error e, F)
    | (.ok ductPhys, F) =>
      match ← F.alloc artFolio ales with
      | (.error e, F) => return (.error e, F.free ductPhys)
      | (.ok aleTablePhys, F) => return (.ok ⟨ductPhys, aleTablePhys⟩, F)

/-- `art_context_destroy`. The context is empty afterwards. -/
def artContextDestroy (context : ArtContext) : Frames :=
  let F := if context.aleTablePhys ≠ 0 then F.free context.aleTablePhys else F
  if context.ductPhys ≠ 0 then F.free context.ductPhys else F

theorem post_artContextInit {ready : Bool} {context : ArtContext}
    {duct ales : Except KernelError UInt64} :
    Post Trap.IsBenign (fun r => match r.1 with
      | .ok built => artContextDestroy r.2 built = F
      | .error _ => r.2 = F) (artContextInit F ready context duct ales) := by
  unfold artContextInit
  split_ifs
  · rfl
  · rfl
  refine (F.post_alloc artFolio duct).bind fun r hr => ?_
  obtain ⟨_ | ductPhys, F₁⟩ := r
  · exact hr
  refine (F₁.post_alloc artFolio ales).bind fun r' hr' => ?_
  have hduct : F₁.free ductPhys = F := Frames.Allocated.free hr
  obtain ⟨_ | aleTablePhys, F₂⟩ := r'
  · obtain rfl : F₂ = F₁ := hr'
    exact hduct
  · have hales : F₂.free aleTablePhys = F₁ := Frames.Allocated.free hr'
    change artContextDestroy F₂ ⟨ductPhys, aleTablePhys⟩ = F
    rw [artContextDestroy, if_pos hr'.ne_zero, if_pos hr.ne_zero, hales, hduct]

end ZXFoundation.Memory
