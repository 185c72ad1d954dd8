import Mathlib.Algebra.Ring.Divisibility.Basic
import Mathlib.Data.Nat.Bitwise
import Mathlib.Data.Nat.Prime.Basic
import Mathlib.Data.List.Range
import ZXFoundation.Lib.Chain

/-!
# The layout of slabs

`memory/slub.zcomponent/core.cxx`: `kmem_cache_create` chooses the size and the alignment of the
objects of a cache and the least order of a slab that holds one of them, and `alloc_new_slab` links
the objects of a new slab through their first words.

The layout is right if the alignment is a power of two, which `lib::align_up` needs, and if the size
rounded up to it is not smaller than a word; `kmem_cache_create` asks for neither. Only the flag
`hwcache_align` has a part in the layout.
-/

namespace ZXFoundation.Memory.Slub

open Function Linked List

def pageSize : Nat := 4096

def cacheLineSize : Nat := 256

def slubMaxSize : Nat := 32768

def slubMaxOrder : Nat := 5

/-- `sizeof(slab_header)`. -/
def slabHeaderSize : Nat := 88

def virtualOffset : Nat := 0xFFFF800000000000

def physToVirt (phys : Nat) : Nat := (phys + virtualOffset) % 2 ^ 64

def virtToPhys (virt : Nat) : Nat := (virt + 2 ^ 64 - virtualOffset) % 2 ^ 64

/-- `v & ~(a - 1)`, for an `a` that is not zero. -/
def maskDown (v a : Nat) : Nat := v &&& (2 ^ 64 - a)

def alignUp (v a : Nat) : Nat := maskDown ((v + a - 1) % 2 ^ 64) a

def slabBytes (order : Nat) : Nat := pageSize <<< order

/-! ## Caches -/

structure KmemCache where
  objectSize : Nat
  size : Nat
  align : Nat
  order : Nat
  objectsPerSlab : Nat
  randomSeq : Nat
  deriving DecidableEq, Repr

/-- The alignment that is asked for. -/
def requested (align : Nat) : Nat := if 0 < align then align else 8

def effAlign (align : Nat) (hwcacheAlign : Bool) : Nat :=
  if hwcacheAlign then max (requested align) cacheLineSize else requested align

/-- How many objects there are in a slab of the order. -/
def objCount (effSize effAlign ord : Nat) : Nat :=
  let hdrEnd := alignUp slabHeaderSize effAlign
  if hdrEnd < slabBytes ord then (slabBytes ord - hdrEnd) / effSize else 0

/-- `kmem_cache_create`, as long as the table of the caches has room. -/
def kmemCacheCreate (objectSize align : Nat) (hwcacheAlign : Bool) (randomSeq : Nat) :
    Option KmemCache :=
  if objectSize = 0 ∨ slubMaxSize < objectSize then none
  else
    let effAlign := effAlign align hwcacheAlign
    let effSize := alignUp objectSize effAlign % 2 ^ 32
    ((List.range (slubMaxOrder + 1)).find? fun ord => 1 ≤ objCount effSize effAlign ord).map
    fun order =>
      { objectSize, size := effSize, align := effAlign, order
        objectsPerSlab := objCount effSize effAlign order, randomSeq }

/-! ## Slabs -/

/-- The words of the memory. Objects of at least a word share no byte of theirs. -/
abbrev Words := Nat → Nat

namespace KmemCache

variable (c : KmemCache)

/-- The same function is `decode_fp`. -/
def encodeFp (obj next : Nat) : Nat := next ^^^ c.randomSeq ^^^ obj

def setFp (m : Words) (obj next : Nat) : Words := update m obj (c.encodeFp obj next)

def getFp (m : Words) (obj : Nat) : Nat := c.encodeFp obj (m obj)

def slabOf (obj : Nat) : Nat := physToVirt (maskDown (virtToPhys obj) (slabBytes c.order))

def firstObject (sh : Nat) : Nat := alignUp (sh + slabHeaderSize) c.align

/-- The loop of `alloc_new_slab`, from an object on that `n` others follow. -/
def linkObjects : Nat → Nat → Words → Words
  | 0, obj, m => c.setFp m obj 0
  | n + 1, obj, m => linkObjects n (obj + c.size) (c.setFp m obj (obj + c.size))

/-- The free list that `alloc_new_slab` builds; it starts at the first object. -/
def allocNewSlab (sh : Nat) (m : Words) :
    Words := c.linkObjects (c.objectsPerSlab - 1) (c.firstObject sh) m

def objects (sh : Nat) :
    List Nat := (List.range c.objectsPerSlab).map fun i => c.firstObject sh + i * c.size

/-- The layout of the slab at a physical address is as it should be. -/
structure ValidSlab (align phys : Nat) : Prop where
  inside : ∀ obj ∈ c.objects (physToVirt phys),
    physToVirt phys + slabHeaderSize ≤ obj ∧ obj + c.size ≤ physToVirt phys + slabBytes c.order
  disjoint : (c.objects (physToVirt phys)).Pairwise fun a b => a + c.size ≤ b
  aligned : ∀ obj ∈ c.objects (physToVirt phys), requested align ∣ obj
  room : c.objectSize ≤ c.size ∧ 8 ≤ c.size
  slab : ∀ obj ∈ c.objects (physToVirt phys), c.slabOf obj = physToVirt phys
  freelist : ∀ m, Chain (c.getFp (c.allocNewSlab (physToVirt phys) m)) 0
    (c.firstObject (physToVirt phys))
    (c.objects (physToVirt phys))

end KmemCache

/-! ## Masks -/

variable {c : KmemCache} {v a n k : Nat}

theorem maskDown_split {m : Nat} (hm : m ≤ 64) (hpos : 0 < a) (ha : a ≤ 2 ^ m) (hv : v < 2 ^ 64) :
    maskDown v a = 2 ^ m * (v / 2 ^ m) + (v % 2 ^ m &&& (2 ^ m - a)) := by
  have hmask : 2 ^ 64 - a = 2 ^ m * (2 ^ (64 - m) - 1) + (2 ^ m - a) := by
    have hle : 2 ^ m ≤ 2 ^ 64 := Nat.pow_le_pow_right (by decide) hm
    rw [Nat.mul_sub_one, ← Nat.pow_add, Nat.add_sub_cancel' hm]
    omega
  have hlt : v % 2 ^ m &&& (2 ^ m - a) < 2 ^ m := Nat.lt_of_le_of_lt Nat.and_le_right (by omega)
  refine Nat.eq_of_testBit_eq fun i => ?_
  rw [maskDown, hmask, Nat.testBit_and,
    Nat.testBit_two_pow_mul_add _ (by omega), Nat.testBit_two_pow_mul_add _ hlt]
  split
  next hi => simp [hi]
  next hi =>
    rw [Nat.testBit_two_pow_sub_one, Nat.testBit_div_two_pow, Nat.sub_add_cancel (by omega)]
    by_cases hi' : i < 64
    · simp
      omega
    · rw [Nat.testBit_lt_two_pow (hv.trans_le (Nat.pow_le_pow_right (by decide) (by omega)))]
      rfl

theorem maskDown_two_pow (hv : v < 2 ^ 64) (hk : k ≤ 64) :
    maskDown v (2 ^ k) = 2 ^ k * (v / 2 ^ k) := by
  rw [maskDown_split hk (Nat.two_pow_pos k) le_rfl hv]
  simp

theorem alignUp_two_pow (hv : v + 2 ^ k < 2 ^ 64) :
    alignUp v (2 ^ k) = 2 ^ k * ((v + 2 ^ k - 1) / 2 ^ k) := by
  have hk : k < 64 := (Nat.pow_lt_pow_iff_right (by decide : 1 < 2)).mp (by omega)
  have hlt : v + 2 ^ k - 1 < 2 ^ 64 := by omega
  rw [alignUp, Nat.mod_eq_of_lt hlt, maskDown_two_pow hlt hk.le]

theorem alignUp_bounds (hv : v + 2 ^ k < 2 ^ 64) :
    v ≤ alignUp v (2 ^ k) ∧ alignUp v (2 ^ k) < v + 2 ^ k := by
  have hdiv := Nat.div_add_mod (v + 2 ^ k - 1) (2 ^ k)
  rw [alignUp_two_pow hv]
  omega

theorem alignUp_add (hv : n * 2 ^ k + v + 2 ^ k < 2 ^ 64) :
    alignUp (n * 2 ^ k + v) (2 ^ k) = n * 2 ^ k + alignUp v (2 ^ k) := by
  have hpos := Nat.two_pow_pos k
  rw [alignUp_two_pow hv, alignUp_two_pow (by omega), Nat.add_assoc, Nat.add_sub_assoc (by omega),
    Nat.mul_comm n, Nat.mul_add_div hpos, Nat.mul_add]

/-! ## Layout -/

variable {objectSize align randomSeq phys : Nat} {hwcacheAlign : Bool} {obj : Nat}

/-- What is known of a new cache. -/
structure Created (objectSize align : Nat) (hwcacheAlign : Bool) (c : KmemCache) : Prop where
  small : 0 < objectSize ∧ objectSize ≤ slubMaxSize
  objectSize_eq : c.objectSize = objectSize
  align_eq : c.align = effAlign align hwcacheAlign
  size_eq : c.size = alignUp objectSize c.align % 2 ^ 32
  count_eq : c.objectsPerSlab = objCount c.size c.align c.order
  count_pos : 1 ≤ c.objectsPerSlab
  order_le : c.order ≤ slubMaxOrder

theorem created (h : kmemCacheCreate objectSize align hwcacheAlign randomSeq = some c) :
    Created objectSize align hwcacheAlign c := by
  unfold kmemCacheCreate at h
  split at h
  · cases h
  next hsize =>
    obtain ⟨order, hfind, rfl⟩ := Option.map_eq_some_iff.mp h
    have hcount := find?_some hfind
    have horder := mem_range.mp (mem_of_find?_eq_some hfind)
    exact ⟨⟨by omega, by omega⟩, rfl, rfl, rfl,
      rfl, by simpa using hcount, Nat.le_of_lt_succ horder⟩

theorem Created.align_bounds (h : Created objectSize align hwcacheAlign c)
    (halign : align < 2 ^ 32) :
    0 < c.align ∧ c.align < 2 ^ 32 := by
  rw [h.align_eq, effAlign, requested, cacheLineSize]
  split <;> split <;> omega

theorem Created.size_two_pow (h : Created objectSize align hwcacheAlign c) (hk : c.align = 2 ^ k)
    (hk' : k < 32) : c.size = alignUp objectSize (2 ^ k) := by
  have hk31 : 2 ^ k ≤ 2 ^ 31 := Nat.pow_le_pow_right (by decide) (by omega)
  have hsmall : objectSize ≤ 32768 := h.small.2
  have hbounds := alignUp_bounds (v := objectSize) (k := k) (by omega)
  rw [h.size_eq, hk]
  exact Nat.mod_eq_of_lt (by omega)

/-- An object has room for a word exactly if the size asked for and the alignment exceed one
together: rounding up adds less than the alignment, and eight is a multiple of a smaller power. -/
theorem Created.word_le_size_iff (h : Created objectSize align hwcacheAlign c)
    (hk : c.align = 2 ^ k) (hk' : k < 32) : 8 ≤ c.size ↔ 8 < objectSize + c.align := by
  have hk32 : 2 ^ k < 2 ^ 32 := Nat.pow_lt_pow_right (by decide) hk'
  have hsmall : 0 < objectSize ∧ objectSize ≤ 32768 := h.small
  have hbounds := alignUp_bounds (v := objectSize) (k := k) (by omega)
  have hdvd : 2 ^ k ∣ alignUp objectSize (2 ^ k) :=
    alignUp_two_pow (v := objectSize) (k := k) (by omega) ▸ dvd_mul_right ..
  rw [h.size_two_pow hk hk', hk]
  refine ⟨fun hword => by omega, fun hsum => ?_⟩
  by_contra hlt
  obtain hk3 | hk3 := le_total k 3
  · have hgap := Nat.le_of_dvd (by omega) (Nat.dvd_sub (pow_dvd_pow 2 hk3) hdvd)
    omega
  · have hle : 2 ^ 3 ≤ 2 ^ k := Nat.pow_le_pow_right (by decide) hk3
    have hself := Nat.le_of_dvd (by omega) hdvd
    omega

theorem effAlign_two_pow (hwcacheAlign : Bool) (h : requested align = 2 ^ k) :
    ∃ j, effAlign align hwcacheAlign = 2 ^ j ∧ requested align ∣ 2 ^ j := by
  unfold effAlign
  rw [h]
  cases hwcacheAlign
  · exact ⟨k, by simp, dvd_rfl⟩
  obtain hk | hk := le_total k 8
  · exact ⟨8, by simpa [cacheLineSize] using Nat.pow_le_pow_right (by decide : 0 < 2) hk,
      pow_dvd_pow 2 hk⟩
  · exact ⟨k, by simpa [cacheLineSize] using Nat.pow_le_pow_right (by decide : 0 < 2) hk, dvd_rfl⟩

theorem Created.align_two_pow (h : Created objectSize align hwcacheAlign c)
    (halign : align < 2 ^ 32)
    (hk : requested align = 2 ^ k) : ∃ j, c.align = 2 ^ j ∧ j < 32 ∧ requested align ∣ 2 ^ j := by
  obtain ⟨j, hj, hreq⟩ := effAlign_two_pow hwcacheAlign hk
  rw [← h.align_eq] at hj
  exact ⟨j, hj, (Nat.pow_lt_pow_iff_right (by decide : 1 < 2)).mp (hj ▸ (h.align_bounds halign).2),
    hreq⟩

theorem slabBytes_eq (order : Nat) : slabBytes order = 2 ^ (12 + order) := by
  rw [slabBytes, Nat.shiftLeft_eq, pageSize, Nat.pow_add]

theorem physToVirt_eq (h : phys < 2 ^ 47) : physToVirt phys = phys + virtualOffset :=
  Nat.mod_eq_of_lt (by unfold virtualOffset; omega)

open KmemCache

/-- The free list of the objects from one on: an object later on the list is later in the slab. -/
theorem linkObjects_of_lt {m : Words} (h : a < obj) : c.linkObjects n obj m a = m a := by
  induction n generalizing obj m with
  | zero => exact update_of_ne h.ne ..
  | succ n ih =>
    rw [linkObjects, ih (h.trans_le (Nat.le_add_right ..))]
    exact update_of_ne h.ne ..

theorem getFp_of_eq {m : Words} {next : Nat} (h : m obj = c.encodeFp obj next) :
    c.getFp m obj = next := by
  unfold getFp encodeFp at *
  rw [h, Nat.xor_assoc, Nat.xor_assoc next, Nat.xor_xor_cancel_right]

theorem chain_linkObjects {m : Words} (hsize : 0 < c.size) (hobj : 0 < obj) :
    Chain (c.getFp (c.linkObjects n obj m)) 0 obj
      ((range (n + 1)).map fun i => obj + i * c.size) := by
  induction n generalizing obj m with
  | zero =>
    simp only [Nat.zero_add, range_one, map_cons, map_nil, Nat.zero_mul, Nat.add_zero]
    refine .cons hobj.ne' ?_
    rw [linkObjects, setFp, getFp_of_eq (update_self ..)]
    exact .nil
  | succ n ih =>
    rw [range_succ_eq_map, map_cons, map_map, Nat.zero_mul, Nat.add_zero]
    refine .cons hobj.ne' ?_
    have hlink : c.linkObjects n (obj + c.size) (c.setFp m obj (obj + c.size)) obj = c.encodeFp obj
      (obj + c.size) := by
      rw [linkObjects_of_lt (by omega)]
      exact update_self ..
    rw [linkObjects, getFp_of_eq hlink]
    have hrest := @ih (obj + c.size) (c.setFp m obj (obj + c.size)) (Nat.add_pos_right _ hsize)
    simpa [Function.comp_def, Nat.succ_mul, Nat.add_assoc, Nat.add_comm, Nat.add_left_comm]
      using hrest

/-- Where the objects of a slab are, if the alignment is a power of two. -/
structure Placed (c : KmemCache) (k phys hdr : Nat) : Prop where
  first : c.firstObject (physToVirt phys) = phys + virtualOffset + hdr
  header : slabHeaderSize ≤ hdr
  fits : hdr + c.objectsPerSlab * c.size ≤ slabBytes c.order
  base : 2 ^ k ∣ phys + virtualOffset + hdr
  size : 2 ^ k ∣ c.size ∧ c.objectSize ≤ c.size

section

variable (hdvd : slabBytes c.order ∣ phys) (hphys : phys + slabBytes c.order ≤ 2 ^ 47)
include hdvd hphys

theorem Created.placed (h : Created objectSize align hwcacheAlign c) (hk : c.align = 2 ^ k)
    (hk' : k < 32) :
    ∃ hdr, Placed c k phys hdr := by
  have hk32 : 2 ^ k < 2 ^ 32 := Nat.pow_lt_pow_right (by decide) hk'
  have hheader : slabHeaderSize + 2 ^ k < 2 ^ 64 := by unfold slabHeaderSize; omega
  have hcount := h.count_pos
  rw [h.count_eq, objCount, hk] at hcount
  split at hcount
  case isFalse => omega
  next hlt =>
  have hle : 88 ≤ alignUp slabHeaderSize (2 ^ k) := (alignUp_bounds hheader).1
  have hhdr : 2 ^ k ∣ alignUp slabHeaderSize (2 ^ k) := alignUp_two_pow hheader ▸ dvd_mul_right ..
  -- the alignment is less than a slab, so that the slab itself is aligned
  have hkorder : k ≤ 11 + c.order := by
    have hpow := (Nat.le_of_dvd (by omega) hhdr).trans_lt hlt
    rw [slabBytes_eq] at hpow
    have := (Nat.pow_lt_pow_iff_right (by decide : 1 < 2)).mp hpow
    omega
  have horder : c.order ≤ 5 := h.order_le
  have hhalf : 2 ^ k * 2 ≤ slabBytes c.order := by
    rw [slabBytes_eq, ← Nat.pow_succ]
    exact Nat.pow_le_pow_right (by decide) (by omega)
  have hpage : 4096 ≤ slabBytes c.order := by
    rw [slabBytes_eq]
    exact Nat.pow_le_pow_right (by decide : 0 < 2) (Nat.le_add_right 12 _)
  have hk17 : 2 ^ k ≤ 2 ^ 16 := Nat.pow_le_pow_right (by decide) (by omega)
  have hbase : 2 ^ k ∣ phys + virtualOffset := by
    refine dvd_add (dvd_trans ?_ hdvd)
      (dvd_trans (pow_dvd_pow 2 (show k ≤ 47 by omega)) (by decide))
    rw [slabBytes_eq]
    exact pow_dvd_pow 2 (by omega)
  have hsize := h.size_two_pow hk hk'
  have hsmall : objectSize ≤ 32768 := h.small.2
  refine ⟨alignUp slabHeaderSize (2 ^ k), ?_, hle, ?_, dvd_add hbase hhdr, ?_, ?_⟩
  · obtain ⟨n, hn⟩ := hbase
    rw [firstObject, hk, physToVirt_eq (by omega), hn, Nat.mul_comm]
    exact alignUp_add (by rw [Nat.mul_comm, ← hn]; unfold virtualOffset slabHeaderSize; omega)
  · rw [h.count_eq, objCount, hk, if_pos hlt]
    have := Nat.div_mul_le_self (slabBytes c.order - alignUp slabHeaderSize (2 ^ k)) c.size
    omega
  · rw [hsize, alignUp_two_pow (by omega)]
    exact dvd_mul_right ..
  · rw [hsize, h.objectSize_eq]
    exact (alignUp_bounds (by omega)).1

theorem Placed.valid {hdr : Nat} (h : Placed c k phys hdr) (hreq : requested align ∣ 2 ^ k)
    (hsize : 8 ≤ c.size)
    (hpos : 1 ≤ c.objectsPerSlab) (horder : c.order ≤ slubMaxOrder) : c.ValidSlab align phys := by
  have hmem : ∀ obj ∈ c.objects (physToVirt phys), ∃ r, obj = phys + virtualOffset + r ∧
    slabHeaderSize ≤ r ∧
      r + c.size ≤ slabBytes c.order ∧ 2 ^ k ∣ obj := by
    intro obj hobj
    obtain ⟨i, hi, rfl⟩ := mem_map.mp hobj
    have hlast := Nat.mul_le_mul_right c.size (Nat.succ_le_of_lt (mem_range.mp hi))
    have hheader := h.header
    have hfits := h.fits
    rw [Nat.succ_mul] at hlast
    exact ⟨hdr + i * c.size, by rw [h.first, Nat.add_assoc], by omega, by omega,
      h.first ▸ dvd_add h.base (h.size.1.mul_left i)⟩
  have hbytes : 0 < slabBytes c.order := by
    rw [slabBytes_eq]
    exact Nat.two_pow_pos _
  have hvirt : physToVirt phys = phys + virtualOffset := physToVirt_eq (by omega)
  refine ⟨fun obj hobj => ?_, ?_, fun obj hobj => ?_, ⟨h.size.2, hsize⟩, fun obj hobj => ?_,
    fun m => ?_⟩
  · obtain ⟨r, rfl, hlow, hhigh, -⟩ := hmem obj hobj
    omega
  · refine pairwise_map.mpr (pairwise_lt_range.imp fun {i j} hij => ?_)
    have := Nat.mul_le_mul_right c.size (Nat.succ_le_of_lt hij)
    rw [Nat.succ_mul] at this
    omega
  · obtain ⟨r, -, -, -, halign⟩ := hmem obj hobj
    exact hreq.trans halign
  · obtain ⟨r, rfl, -, hhigh, -⟩ := hmem obj hobj
    obtain ⟨q, hq⟩ := hdvd
    have hphysOf : virtToPhys (phys + virtualOffset + r) = phys + r := by
      unfold virtToPhys virtualOffset; omega
    have horder64 : 12 + c.order ≤ 64 := by unfold slubMaxOrder at horder; omega
    have hmask : maskDown (phys + r) (slabBytes c.order) = phys := by
      rw [slabBytes_eq] at *
      rw [maskDown_two_pow (by omega) horder64, hq, Nat.mul_add_div hbytes,
        Nat.div_eq_of_lt (by omega), Nat.add_zero]
    rw [slabOf, hphysOf, hmask]
  · have hfirst : 0 < c.firstObject (physToVirt phys) := by
      rw [h.first]; unfold virtualOffset; omega
    have hchain := chain_linkObjects (n := c.objectsPerSlab - 1) (m := m)
      (by omega : 0 < c.size) hfirst
    rwa [Nat.sub_add_cancel hpos] at hchain

theorem Created.valid (h : Created objectSize align hwcacheAlign c) (halign : align < 2 ^ 32)
    (hk : requested align = 2 ^ k) (hsize : 8 ≤ c.size) : c.ValidSlab align phys := by
  obtain ⟨j, hj, hj32, hreq⟩ := h.align_two_pow halign hk
  obtain ⟨_, hplaced⟩ := h.placed hdvd hphys hj hj32
  exact hplaced.valid hdvd hphys hreq hsize h.count_pos h.order_le

end

/-- Half of the direct map further on, a slab has its first object where it was. -/
theorem firstObject_shifted (hpos : 0 < c.align) (halign : c.align < 2 ^ 32) :
    c.firstObject (physToVirt (2 ^ 46)) = c.firstObject (physToVirt 0) + 2 ^ 46 := by
  unfold firstObject alignUp
  rw [physToVirt_eq (by decide), physToVirt_eq (by decide), Nat.mod_eq_of_lt, Nat.mod_eq_of_lt]
  · rw [show 2 ^ 46 + virtualOffset + slabHeaderSize + c.align - 1 =
        0 + virtualOffset + slabHeaderSize + c.align - 1 + 2 ^ 46 by omega]
    rw [maskDown_split (m := 46) (by decide) hpos (by omega),
      maskDown_split (m := 46) (by decide) hpos (by omega),
      Nat.add_div_right _ (by decide), Nat.add_mod_right]
    · omega
    all_goals unfold virtualOffset slabHeaderSize; omega
  all_goals unfold virtualOffset slabHeaderSize; omega

/-- **The layout of the slabs of a cache is valid exactly if** the alignment asked for is a power of
two, and the size asked for exceeds a word together with the alignment in effect. -/
theorem validSlab_iff (halign : align < 2 ^ 32)
    (hc : kmemCacheCreate objectSize align hwcacheAlign randomSeq = some c) :
    (∀ phys, slabBytes c.order ∣ phys → phys + slabBytes c.order ≤ 2 ^ 47 →
      c.ValidSlab align phys) ↔
      (∃ k, requested align = 2 ^ k) ∧ 8 < objectSize + effAlign align hwcacheAlign := by
  have h := created hc
  obtain ⟨hpos, hlt⟩ := h.align_bounds halign
  constructor
  · intro hvalid
    have hbytes : slabBytes c.order ≤ 2 ^ 17 := by
      rw [slabBytes_eq]
      exact Nat.pow_le_pow_right (by decide) (Nat.add_le_add_left h.order_le 12)
    have hdvd : slabBytes c.order ∣ 2 ^ 46 := by
      have := h.order_le
      rw [slabBytes_eq]
      exact pow_dvd_pow 2 (by unfold slubMaxOrder at this; omega)
    have hfirst : ∀ sh, c.firstObject sh ∈ c.objects sh := fun sh =>
      List.mem_map.mpr ⟨0, List.mem_range.mpr h.count_pos, by simp⟩
    have hzero := hvalid 0 (dvd_zero _) (by omega)
    have hhigh := (hvalid (2 ^ 46) hdvd (by omega)).aligned _ (hfirst _)
    rw [firstObject_shifted hpos hlt, Nat.dvd_add_right (hzero.aligned _ (hfirst _))] at hhigh
    obtain ⟨k, -, hk⟩ := (Nat.dvd_prime_pow Nat.prime_two).mp hhigh
    obtain ⟨j, hj, hj32, -⟩ := h.align_two_pow halign hk
    exact ⟨⟨k, hk⟩, h.align_eq ▸ (h.word_le_size_iff hj hj32).mp hzero.room.2⟩
  · rintro ⟨⟨k, hk⟩, hsum⟩ phys hdvd hphys
    obtain ⟨j, hj, hj32, -⟩ := h.align_two_pow halign hk
    rw [← h.align_eq] at hsum
    exact h.valid hdvd hphys halign hk ((h.word_le_size_iff hj hj32).mpr hsum)

/-- The cache of the smallest blocks of `kmalloc`. -/
theorem validSlab_iff_words :
    (∀ phys, slabBytes 0 ∣ phys → phys + slabBytes 0 ≤ 2 ^ 47 →
      KmemCache.ValidSlab ⟨8, 8, 8, 0, 501, 0⟩ 8 phys) ↔
      (∃ k, requested 8 = 2 ^ k) ∧ 8 < 8 + effAlign 8 false :=
  have hc : kmemCacheCreate 8 8 false 0 = some ⟨8, 8, 8, 0, 501, 0⟩ := by decide
  validSlab_iff (by decide) hc

/-- **A cache of bytes** is accepted, and a free byte has no room for a pointer. -/
theorem not_validSlab_bytes :
    kmemCacheCreate 1 1 false 0 = some ⟨1, 1, 1, 0, 4008, 0⟩ ∧
      ¬ KmemCache.ValidSlab ⟨1, 1, 1, 0, 4008, 0⟩ 1 0 :=
  ⟨by decide, fun h => absurd h.room.2 (by decide)⟩

end ZXFoundation.Memory.Slub
