import ZXFoundation.Memory.Slub

/-!
# Blocks of `kmalloc`

`kmalloc` serves a request from the cache of the next power of two, whose objects are aligned to
their size; `kfree` does not know the cache. `kmem_free_raw` of `slub.zcomponent/core.cxx` tries the
orders of slabs from 0 on and takes what it finds at the aligned address for a header if it looks
like one. A block of a page or more is aligned to every smaller order, so these tries look at the
block itself.
-/

namespace ZXFoundation.Memory.Kmalloc

open Slub

def kmallocMaxSize : Nat := 32768

def kmallocNumSizes : Nat := 13

def sizes (i : Nat) : Nat := 8 <<< i

/-- `bucket_for`; `64 - clz(n)` is the number of binary digits of `n`. -/
def bucketFor (size : Nat) : Nat :=
  if size ≤ 8 then 0
  else if kmallocMaxSize < size then kmallocNumSizes
  else (size - 1).log2 + 1 - 3

/-- The cache that `kmalloc` takes a block of the size from, as `kmalloc_init` has created it. -/
def cacheFor (size randomSeq : Nat) : Option KmemCache :=
  if size = 0 ∨ kmallocMaxSize < size then none
  else kmemCacheCreate (sizes (bucketFor size)) (sizes (bucketFor size)) false randomSeq

/-- The fields of a `slab_header` that are looked at. -/
structure SlabHeader where
  phys : Nat
  slabOrder : Nat
  cache : Nat
  deriving DecidableEq, Repr

/-- The content of the memory, read as a header or as a cache. -/
structure View where
  header : Nat → SlabHeader
  cache : Nat → KmemCache

namespace View

variable (m : View)

/-- What stands where a slab of the order would start passes for the header of one. -/
def LooksLikeSlab (ptr order : Nat) : Prop :=
  let slabPhys := maskDown (virtToPhys ptr) (slabBytes order)
  let sh := m.header (physToVirt slabPhys)
  physToVirt slabPhys ≠ 0 ∧ sh.phys = slabPhys ∧ sh.slabOrder = order ∧ sh.cache ≠ 0 ∧
    (m.cache sh.cache).order = order

instance (ptr order : Nat) : Decidable (m.LooksLikeSlab ptr order) := by
  unfold LooksLikeSlab
  infer_instance

/-- The call of `kmem_free` that `kfree` makes, with the address of the cache. -/
def kfree (ptr : Nat) : Option (Nat × Nat) :=
  if ptr = 0 then none
  else
    ((List.range (slubMaxOrder + 1)).find? fun order => m.LooksLikeSlab ptr order).bind fun order =>
      let sh := physToVirt (maskDown (virtToPhys ptr) (slabBytes order))
      let cache := m.cache (m.header sh).cache
      let first := cache.firstObject sh
      if ptr < first ∨ sh + slabBytes order ≤ ptr ∨ (ptr - first) % cache.size ≠ 0 then none
      else some ((m.header sh).cache, ptr)

end View

variable {m : View} {c : KmemCache} {size randomSeq phys addr ptr : Nat}

theorem created_cacheFor (hc : cacheFor size randomSeq = some c) :
    Created (sizes (bucketFor size)) (sizes (bucketFor size)) false c := by
  unfold cacheFor at hc
  split at hc
  · cases hc
  · exact created hc

theorem validSlab_cacheFor (hc : cacheFor size randomSeq = some c) (hdvd : slabBytes c.order ∣ phys)
    (hphys : phys + slabBytes c.order ≤ 2 ^ 47) : c.ValidSlab (sizes (bucketFor size)) phys := by
  have h := created_cacheFor hc
  have hsizes : sizes (bucketFor size) = 2 ^ (3 + bucketFor size) := by
    rw [sizes, Nat.shiftLeft_eq, Nat.pow_add]
  have hlow : 8 ≤ sizes (bucketFor size) :=
    hsizes ▸ Nat.pow_le_pow_right (by decide : 0 < 2) (Nat.le_add_right 3 _)
  have hhigh : sizes (bucketFor size) ≤ 32768 := h.small.2
  have hreq : requested (sizes (bucketFor size)) = 2 ^ (3 + bucketFor size) := by
    rw [requested, if_pos (by omega), hsizes]
  refine h.valid hdvd hphys (by omega) hreq ?_
  have hbounds := alignUp_bounds (v := sizes (bucketFor size)) (k := 3 + bucketFor size) (by omega)
  rw [h.size_eq, h.align_eq, effAlign, if_neg (by decide), hreq, Nat.mod_eq_of_lt (by omega)]
  omega

theorem physToVirt_inj {a b : Nat} (ha : a < 2 ^ 64) (hb : b < 2 ^ 64)
    (h : physToVirt a = physToVirt b) : a = b := by
  unfold physToVirt at h
  omega

/-- **`kfree` gives a block back to its cache exactly when no smaller slab seems to start at
it.** -/
theorem kfree_own_iff (hc : cacheFor size randomSeq = some c) (hdvd : slabBytes c.order ∣ phys)
    (hphys : phys + slabBytes c.order ≤ 2 ^ 47) (haddr : addr ≠ 0) (hcache : m.cache addr = c)
    (hheader : m.header (physToVirt phys) = ⟨phys, c.order, addr⟩)
    (hptr : ptr ∈ c.objects (physToVirt phys)) :
    m.kfree ptr = some (addr, ptr) ↔ ∀ order < c.order, ¬ m.LooksLikeSlab ptr order := by
  have hvalid := validSlab_cacheFor hc hdvd hphys
  have hslab : maskDown (virtToPhys ptr) (slabBytes c.order) = phys :=
    physToVirt_inj (Nat.lt_of_le_of_lt Nat.and_le_left (Nat.mod_lt _ (by decide)))
      (by omega) (hvalid.slab ptr hptr)
  obtain ⟨hlow, hhigh⟩ := hvalid.inside ptr hptr
  have hroom := hvalid.room.2
  have hvirt : physToVirt phys ≠ 0 := by
    rw [physToVirt_eq (by omega)]
    simp [virtualOffset]
  have hpos : ptr ≠ 0 := by omega
  unfold View.kfree
  rw [if_neg hpos]
  constructor
  · intro hfree order horder hlooks
    obtain ⟨found, hfind, hcall⟩ := Option.bind_eq_some_iff.mp hfree
    obtain ⟨hfound, -, hfirst⟩ := List.find?_range_eq_some.mp hfind
    simp only [Option.ite_none_left_eq_some, Option.some.injEq, Prod.mk.injEq] at hcall
    have hown : c.order = found := by
      have hlike := (of_decide_eq_true hfound).2.2.2.2
      rwa [hcall.2.1, hcache] at hlike
    have hnot := hfirst order (hown ▸ horder)
    simp [hlooks] at hnot
  · intro hnone
    have hfind : (List.range (slubMaxOrder + 1)).find? (fun order => m.LooksLikeSlab ptr order) =
      some c.order := by
      refine List.find?_range_eq_some.mpr ⟨?_, ?_, fun order horder => by simp [hnone order horder]⟩
      · simp [View.LooksLikeSlab, hslab, hheader, hcache, haddr, hvirt]
      · exact List.mem_range.mpr (Nat.lt_succ_of_le (created_cacheFor hc).order_le)
    obtain ⟨i, -, rfl⟩ := List.mem_map.mp hptr
    rw [hfind, Option.bind_some]
    simp only [hslab, hheader, hcache]
    rw [if_neg]
    simp
    omega

/-- The slab of two pages at physical address 0 that holds one page block, with its cache at address
16. The block is cleared, so it does not look like a slab of one page. -/
def pageSlab : View where
  header virt := if virt = virtualOffset then ⟨0, 1, 16⟩ else ⟨0, 0, 0⟩
  cache _ := ⟨4096, 4096, 4096, 1, 1, 0⟩

theorem kfree_own_iff_page :
    pageSlab.kfree (virtualOffset + 4096) = some (16, virtualOffset + 4096) := by
  have hc : cacheFor 4096 0 = some ⟨4096, 4096, 4096, 1, 1, 0⟩ := by decide
  refine (kfree_own_iff hc (by decide : slabBytes 1 ∣ 0) (by decide) (by decide) rfl (by decide)
    (List.mem_map.mpr ⟨0, List.mem_range.mpr (by decide), by decide⟩)).mpr fun order horder => ?_
  obtain rfl : order = 0 := Nat.lt_one_iff.mp horder
  decide

/-- The same slab, whose block holds what is left of the header of a slab of words that was there
before. -/
def staleHeader : View where
  header virt := if virt = virtualOffset then ⟨0, 1, 16⟩ else ⟨4096, 0, 8⟩
  cache addr := if addr = 16 then ⟨4096, 4096, 4096, 1, 1, 0⟩ else ⟨8, 8, 8, 0, 501, 0⟩

/-- **The block of a page is not given back.** -/
theorem kfree_stale_header :
    cacheFor 4096 0 = some (staleHeader.cache 16) ∧
      virtualOffset + 4096 ∈ (staleHeader.cache 16).objects (physToVirt 0) ∧
      staleHeader.header (physToVirt 0) = ⟨0, 1, 16⟩ ∧
        staleHeader.kfree (virtualOffset + 4096) = none :=
  ⟨by decide, by decide, by decide, by decide⟩

end ZXFoundation.Memory.Kmalloc
