import ZXFoundation.Boot.LoaderTables

/-!
# Translation through the tables of the loader

The machine translates addresses through the tables that the loader has built, by the rules of
dynamic address translation, and `walk_impl` (`arch/s390x/mmu/core.cxx`) reads them for the kernel.

* **`Maps`**: the tables below an origin take every address where a function says, level by level.
* **`translate_of_maps`**, **`walk_of_maps`**: then both the machine and the kernel arrive there, by
  induction on the levels.
* **`maps_root`**: with EDAT-1 the loops of the loader build such tables for all storage.

Without EDAT-1 the loader packs page tables of 2 KiB, and the kernel masks every origin to 4 KiB:
for every second megabyte it reads the page table of the megabyte before.
-/

namespace ZXFoundation.Boot.Dat

/-! ## Reading the tables -/

/-- The doubleword at an address, if a table is there. -/
def fetch (ts : List Table) (addr : Nat) : Option Nat :=
  ts.findSome? fun t =>
    if t.origin ≤ addr ∧ addr < t.stop then some (t.entry ((addr - t.origin) / 8)) else none

def masked (n bits : Nat) : Nat := n / 2 ^ bits * 2 ^ bits

/-- The region tables: the type of their entries and the shift of their index. -/
def regionLevels : List (Nat × Nat) := [(0xC, 53), (0x8, 42), (0x4, 31)]

/-- The lookups in region tables. An entry must be valid and of the type of its table, and the next
index must lie between its table offset and its table length. -/
def regionTables (ts : List Table) (v : Nat) : List (Nat × Nat) → Nat → Option Nat
  | [], origin => some origin
  | (type, shift) :: rest, origin =>
    (fetch ts (origin + 8 * (v / 2 ^ shift % 2048))).bind fun e =>
      if e &&& 0x20 ≠ 0 ∨ e &&& 0xC ≠ type ∨ v / 2 ^ (shift - 2) % 4 < (e &&& 0xC0) / 64 ∨
        v / 2 ^ (shift - 2) % 4 > e &&& 0x3 then none
      else regionTables ts v rest (masked e 12)

/-- The lookup in a segment table, and in a page table unless the segment is a large page. -/
def segmentTable (ts : List Table) (edat1 : Bool) (v origin : Nat) : Option Nat :=
  (fetch ts (origin + 8 * (v / 2 ^ 20 % 2048))).bind fun ste =>
    if ste &&& 0x20 ≠ 0 ∨ ste &&& 0xC ≠ 0 then none
    else if edat1 ∧ ste &&& 0x400 ≠ 0 then some (masked ste 20 + v % 2 ^ 20)
    else
      (fetch ts (masked ste 11 + 8 * (v / 2 ^ 12 % 256))).bind fun pte =>
        if pte &&& 0x400 ≠ 0 ∨ pte &&& 0x800 ≠ 0 then none else some (masked pte 12 + v % 2 ^ 12)

/-- `walk_impl` above the page table: the level of the table is given by the shift of its index. -/
def walkTables (ts : List Table) (v : Nat) : List Nat → Nat → Option (Nat ⊕ Nat)
  | [], current => some (.inl current)
  | shift :: rest, current =>
    (fetch ts (current + 8 * (v / 2 ^ shift % 2048))).bind fun e =>
      if e &&& 0x20 ≠ 0 then none
      else if shift = 20 ∧ e &&& 0x400 ≠ 0 then some (.inr (masked e 20 ||| v % 2 ^ 20))
      else if shift = 31 ∧ e &&& 0x400 ≠ 0 then some (.inr (masked e 31 ||| v % 2 ^ 31))
      else walkTables ts v rest (masked e 12)

/-- The end of `walk_impl`: a large page, or the lookup in a page table. -/
def walkPage (ts : List Table) (v : Nat) : Nat ⊕ Nat → Option Nat
  | .inr phys => some phys
  | .inl pt => (fetch ts (pt + 8 * (v / 2 ^ 12 % 256))).bind fun pte =>
    if pte &&& 0x400 ≠ 0 then none else some (masked pte 12 ||| v % 2 ^ 12)

namespace BootProtocol

variable (b : BootProtocol)

/-- Dynamic address translation with the root in control register 1. -/
def translate (v : Nat) : Option Nat :=
  (regionTables b.tables v regionLevels b.image.r1Table).bind (segmentTable b.tables b.edat1 v)

def walk (v : Nat) : Option Nat :=
  (walkTables b.tables v [53, 42, 31, 20] b.image.r1Table).bind (walkPage b.tables v)

/-- Both mappings are right up to the published end, all tables are disjoint and those out of the
pool lie in it, and the kernel reads them as the machine does. -/
structure Right : Prop where
  mapped : ∀ p < b.hhdmPhysCoverageEnd, b.translate p = some p ∧ b.translate (p + virtBase) = some p
  apart : b.tables.Pairwise Table.Apart
  pool : ∀ t ∈ b.slices.2.tables, b.kernelPhysEnd ≤ t.origin ∧ t.stop ≤ b.pgtblPoolEnd
  same : ∀ v < 2 ^ 64, b.walk v = b.translate v

end BootProtocol

/-! ## Words with a table origin -/

/-- The low bits of a word do not depend on a multiple of a power of two above them. -/
theorem add_and {s m : Nat} (j k : Nat) (hs : s % 2 ^ j = 0) (hm : m < 2 ^ j) :
    (s + k) &&& m = k &&& m := by
  have hmod : ∀ x, x &&& m = x % 2 ^ j &&& m := by
    intro x
    refine Nat.eq_of_testBit_eq fun i => ?_
    rw [Nat.testBit_and, Nat.testBit_and, Nat.testBit_mod_two_pow]
    by_cases hi : i < j
    · simp [hi]
    · have hfalse : m.testBit i = false :=
        Nat.testBit_lt_two_pow (Nat.lt_of_lt_of_le hm (Nat.pow_le_pow_right (by decide) (by omega)))
      simp [hfalse]
  rw [hmod (s + k), hmod k, Nat.add_mod, hs, Nat.zero_add, Nat.mod_mod]

theorem or_eq_add {s k : Nat} (j : Nat) (hs : s % 2 ^ j = 0) (hk : k < 2 ^ j) :
    s ||| k = s + k := by
  obtain ⟨a, rfl⟩ := Nat.dvd_of_mod_eq_zero hs
  exact (Nat.two_pow_add_eq_or_of_lt hk a).symm

theorem masked_add {s k : Nat} (j : Nat) (hs : s % 2 ^ j = 0) (hk : k < 2 ^ j) :
    masked (s + k) j = s := by
  obtain ⟨a, rfl⟩ := Nat.dvd_of_mod_eq_zero hs
  unfold masked
  rw [Nat.mul_add_div (Nat.two_pow_pos j), Nat.div_eq_of_lt hk, Nat.add_zero, Nat.mul_comm]

/-! ## What a table holds -/

/-- There is a table of 2048 entries at the origin, and these are its entries. -/
def Holds (ts : List Table) (origin : Nat) (f : Nat → Nat) : Prop :=
  ∃ t ∈ ts, t.origin = origin ∧ t.length = 2048 ∧ ∀ i < 2048, t.entry i = f i

theorem Holds.mono {ts ts' : List Table} {o : Nat} {f : Nat → Nat} (hsub : ts ⊆ ts')
    (h : Holds ts o f) : Holds ts' o f := by
  obtain ⟨t, ht, hrest⟩ := h
  exact ⟨t, hsub ht, hrest⟩

/-- Where the tables are disjoint, what is read is what the table at the address holds. -/
theorem fetch_of_mem {ts : List Table} (hapart : ts.Pairwise Table.Apart) {t : Table} (ht : t ∈ ts)
    {i : Nat} (hi : i < t.length) : fetch ts (t.origin + 8 * i) = some (t.entry i) := by
  have hin : t.origin ≤ t.origin + 8 * i ∧ t.origin + 8 * i < t.stop := by
    unfold Table.stop
    omega
  have hindex : (t.origin + 8 * i - t.origin) / 8 = i := by omega
  induction ts with
  | nil => cases ht
  | cons u ts ih =>
    obtain ⟨hfirst, hrest⟩ := List.pairwise_cons.mp hapart
    unfold fetch
    rw [List.findSome?_cons]
    rcases List.mem_cons.mp ht with rfl | ht
    · rw [if_pos hin, hindex]
    · have hout : ¬ (u.origin ≤ t.origin + 8 * i ∧ t.origin + 8 * i < u.stop) := by
        rcases hfirst t ht with h | h <;> omega
      rw [if_neg hout]
      exact ih hrest ht

theorem Holds.fetch {ts : List Table} (hapart : ts.Pairwise Table.Apart) {o : Nat} {f : Nat → Nat}
    (h : Holds ts o f) (k : Nat) : fetch ts (o + 8 * (k % 2048)) = some (f (k % 2048)) := by
  obtain ⟨t, ht, rfl, hlength, hentry⟩ := h
  have hk : k % 2048 < 2048 := Nat.mod_lt _ (by decide)
  rw [fetch_of_mem hapart ht (hlength ▸ hk), hentry _ hk]

/-! ## What the tables map -/

/-- The tables from an origin on take an address `v` to `g v`. At each level an entry is empty or
leads to a table of the next one; a segment table holds large pages. -/
def Maps (ts : List Table) : List (Nat × Nat) → Nat → (Nat → Option Nat) → Prop
  | [], o, g => ∃ phys, phys % 2 ^ 31 = 0 ∧ Holds ts o (fun i => phys + i * 2 ^ 20 + 0x400) ∧
    ∀ v, g v = some (phys + v % 2 ^ 31)
  | (type, shift) :: rest, o, g => ∃ (f : Nat → Nat) (sub : Nat → Nat → Option Nat), Holds ts o f ∧
    (∀ i < 2048, (f i = 0x23 + type ∧ ∀ v, sub i v = none) ∨
      ∃ s, s % 16384 = 0 ∧ f i = s + (3 + type) ∧ Maps ts rest s (sub i)) ∧
    ∀ v, g v = sub (v / 2 ^ shift % 2048) v

theorem Maps.mono {ts ts' : List Table} (hsub : ts ⊆ ts') {levels : List (Nat × Nat)} {o : Nat}
    {g : Nat → Option Nat} (h : Maps ts levels o g) : Maps ts' levels o g := by
  induction levels generalizing o g with
  | nil =>
    obtain ⟨phys, hphys, hholds, hg⟩ := h
    exact ⟨phys, hphys, hholds.mono hsub, hg⟩
  | cons level rest ih =>
    obtain ⟨f, sub, hholds, hentries, hg⟩ := h
    refine ⟨f, sub, hholds.mono hsub, fun i hi => (hentries i hi).imp_right ?_, hg⟩
    rintro ⟨s, hs, hf, hmaps⟩
    exact ⟨s, hs, hf, ih hmaps⟩

section Read

variable {ts : List Table} (hapart : ts.Pairwise Table.Apart)
include hapart

/-- The machine arrives where the tables lead. Induction on the levels. -/
theorem translate_of_maps {levels : List (Nat × Nat)} (htypes : ∀ l ∈ levels, l.1 ∈ [0xC, 0x8, 0x4])
    {o : Nat} {g : Nat → Option Nat} (h : Maps ts levels o g) (v : Nat) :
    (regionTables ts v levels o).bind (segmentTable ts true v) = g v := by
  induction levels generalizing o g with
  | nil =>
    obtain ⟨phys, hphys, hholds, hg⟩ := h
    have hbase : (phys + v / 2 ^ 20 % 2048 * 2 ^ 20) % 2 ^ 20 = 0 := by omega
    show segmentTable ts true v o = g v
    unfold segmentTable
    rw [hholds.fetch hapart, Option.bind_some, hg,
      add_and 20 _ hbase (by decide), add_and 20 _ hbase (by decide),
        add_and 20 _ hbase (by decide),
      masked_add 20 hbase (by decide), if_neg (by decide), if_pos (by decide)]
    congr 1
    omega
  | cons level rest ih =>
    obtain ⟨type, shift⟩ := level
    obtain ⟨f, sub, hholds, hentries, hg⟩ := h
    have htype := htypes _ List.mem_cons_self
    unfold regionTables
    rw [hholds.fetch hapart, Option.bind_some, hg]
    rcases hentries _ (Nat.mod_lt _ (by decide)) with ⟨hempty, hnone⟩ | ⟨s, hs, hentry, hmaps⟩
    · rw [hempty, hnone, if_pos]
      · rfl
      left
      simp only [List.mem_cons, List.not_mem_nil, or_false] at htype
      rcases htype with rfl | rfl | rfl <;> decide
    · have hfour : v / 2 ^ (shift - 2) % 4 < 4 := Nat.mod_lt _ (by decide)
      have hbits : (3 + type) &&& 0x20 = 0 ∧ (3 + type) &&& 0xC = type ∧
          (3 + type) &&& 0xC0 = 0 ∧ (3 + type) &&& 0x3 = 3 ∧ 3 + type < 2 ^ 12 := by
        simp only [List.mem_cons, List.not_mem_nil, or_false] at htype
        rcases htype with rfl | rfl | rfl <;> decide
      obtain ⟨hinvalid, htt, htf, htl, hlow⟩ := hbits
      rw [hentry, add_and 14 _ hs (by decide), add_and 14 _ hs (by decide),
        add_and 14 _ hs (by decide), add_and 14 _ hs (by decide), hinvalid, htt, htf, htl,
        masked_add 12 (by omega) hlow, if_neg]
      · exact ih (fun l hl => htypes l (List.mem_cons_of_mem _ hl)) hmaps
      rintro (h | h | h | h)
      · exact h rfl
      · exact h rfl
      · exact Nat.not_lt_zero _ h
      · exact absurd h (Nat.not_lt.mpr (Nat.le_of_lt_succ hfour))

/-- So does `walk_impl`, which looks at less. -/
theorem walk_of_maps {levels : List (Nat × Nat)} (htypes : ∀ l ∈ levels, l.1 ∈ [0xC, 0x8, 0x4])
    (hshift : ∀ l ∈ levels, l.2 ≠ 20) {o : Nat} {g : Nat → Option Nat} (h : Maps ts levels o g)
    (v : Nat) :
    (walkTables ts v (levels.map Prod.snd ++ [20]) o).bind (walkPage ts v) = g v := by
  induction levels generalizing o g with
  | nil =>
    obtain ⟨phys, hphys, hholds, hg⟩ := h
    have hbase : (phys + v / 2 ^ 20 % 2048 * 2 ^ 20) % 2 ^ 20 = 0 := by omega
    show (walkTables ts v [20] o).bind (walkPage ts v) = g v
    unfold walkTables
    rw [hholds.fetch hapart, Option.bind_some, hg,
      add_and 20 _ hbase (by decide), add_and 20 _ hbase (by decide),
      masked_add 20 hbase (by decide), if_neg (by decide), if_pos (by decide),
      or_eq_add 20 hbase (Nat.mod_lt _ (by decide))]
    show some _ = some _
    congr 1
    omega
  | cons level rest ih =>
    obtain ⟨type, shift⟩ := level
    obtain ⟨f, sub, hholds, hentries, hg⟩ := h
    have htype := htypes _ List.mem_cons_self
    rw [List.map_cons, List.cons_append]
    unfold walkTables
    rw [hholds.fetch hapart, Option.bind_some, hg]
    rcases hentries _ (Nat.mod_lt _ (by decide)) with ⟨hempty, hnone⟩ | ⟨s, hs, hentry, hmaps⟩
    · rw [hempty, hnone, if_pos]
      · rfl
      simp only [List.mem_cons, List.not_mem_nil, or_false] at htype
      rcases htype with rfl | rfl | rfl <;> decide
    · have hbits : (3 + type) &&& 0x20 = 0 ∧ (3 + type) &&& 0x400 = 0 ∧ 3 + type < 2 ^ 12 := by
        simp only [List.mem_cons, List.not_mem_nil, or_false] at htype
        rcases htype with rfl | rfl | rfl <;> decide
      obtain ⟨hinvalid, hlarge, hlow⟩ := hbits
      rw [hentry, add_and 14 _ hs (by decide), add_and 14 _ hs (by decide), hinvalid, hlarge,
        masked_add 12 (by omega) hlow, if_neg (by decide), if_neg (by simp), if_neg (by simp)]
      exact ih (fun l hl => htypes l (List.mem_cons_of_mem _ hl))
        (fun l hl => hshift l (List.mem_cons_of_mem _ hl)) hmaps

end Read

/-! ## What the loader builds with EDAT-1 -/

/-- An entry of the given type that leads to tables which map by `g`. -/
def Leads (ts : List Table) (type : Nat) (rest : List (Nat × Nat)) (g : Nat → Option Nat)
    (e : Nat) :
    Prop :=
  ∃ s, s % 16384 = 0 ∧ e = s + (3 + type) ∧ Maps ts rest s g

theorem Leads.mono {ts ts' : List Table} {type : Nat} {rest : List (Nat × Nat)}
    {g : Nat → Option Nat} {e : Nat} (hsub : ts ⊆ ts') (h : Leads ts type rest g e) :
    Leads ts' type rest g e := by
  obtain ⟨s, hs, he, hmaps⟩ := h
  exact ⟨s, hs, he, hmaps.mono hsub⟩

/-- A new table, and the entry that leads to it. -/
theorem tableOf_holds {f : Nat → Pool → Nat × Pool} {step n type empty phys : Nat} {P : Pool}
    (htype : 3 ||| type = 3 + type) (hlt : 3 + type < 2 ^ 14) :
    ∃ s, s % 16384 = 0 ∧ (tableOf f step n type empty phys P).1 = s + (3 + type) ∧
      Holds (tableOf f step n type empty phys P).2.tables s
        (fun i => (entries f step n phys (P.alloc (2048 * 8) 16384).2).1.getD i empty) := by
  refine ⟨_, roundUp_mod P.next 16384, ?_, _, List.mem_cons_self, rfl, rfl, fun _ _ => rfl⟩
  show roundUp P.next 16384 ||| 0x3 ||| type = _
  rw [Nat.or_assoc, htype]
  exact or_eq_add 14 (roundUp_mod _ _) hlt

namespace BootProtocol

variable (b : BootProtocol)

/-- Where storage is mapped to. -/
def storage (phys : Nat) : Option Nat := if phys < b.mapBytes then some phys else none

theorem lt_sliceTables {phys i : Nat} (hmod : phys % 2 ^ 42 = 0) (hlt : phys < b.mapBytes) :
    i < b.sliceTables phys ↔ i < 2048 ∧ phys + i * segTableCoverage < b.mapBytes := by
  have hmap := b.mapBytes_mod
  unfold sliceTables r3Coverage segTableCoverage
  dsimp only
  omega

theorem mod_of_slice {phys : Nat} (hmod : phys % 2 ^ 42 = 0) (j : Nat) :
    (phys + j * segTableCoverage) % 2 ^ 31 = 0 := by
  unfold segTableCoverage
  omega

/-- No storage is left for a slice that is not mapped. -/
theorem mapBytes_le_slices {i : Nat} (h : b.numR2Entries ≤ i) : b.mapBytes ≤ i * 2 ^ 42 := by
  unfold numR2Entries r3Coverage at h
  omega

theorem pre_slice {j : Nat} (h : j < b.numR2Entries) :
    (0 + j * r3Coverage) % 2 ^ 42 = 0 ∧ 0 + j * r3Coverage < b.mapBytes := by
  unfold numR2Entries at h
  unfold r3Coverage at *
  omega

/-- How many region-third tables and segment tables the loader takes for the storage below
`phys`. -/
def tablesBelow (phys : Nat) : Nat :=
  (min phys b.mapBytes + r3Coverage - 1) / r3Coverage + min phys b.mapBytes / segTableCoverage

theorem segTables_add {phys : Nat} (hmod : phys % 2 ^ 42 = 0) (hlt : phys < b.mapBytes) :
    min (phys + r3Coverage) b.mapBytes / segTableCoverage =
      min phys b.mapBytes / segTableCoverage + b.sliceTables phys := by
  have hmap := b.mapBytes_mod
  unfold sliceTables r3Coverage segTableCoverage
  dsimp only
  omega

theorem tablesBelow_add {phys : Nat} (hmod : phys % 2 ^ 42 = 0) (hlt : phys < b.mapBytes) :
    b.tablesBelow (phys + r3Coverage) = b.tablesBelow phys + (1 + b.sliceTables phys) := by
  have hmap := b.mapBytes_mod
  have hr3 : (min (phys + r3Coverage) b.mapBytes + r3Coverage - 1) / r3Coverage =
      (min phys b.mapBytes + r3Coverage - 1) / r3Coverage + 1 := by
    unfold r3Coverage
    omega
  unfold tablesBelow
  rw [hr3, b.segTables_add hmod hlt]
  ac_rfl

theorem tablesBelow_all : b.tablesBelow (0 + b.numR2Entries * r3Coverage) - b.tablesBelow 0 =
    b.numR2Entries + b.mapBytes / segTableCoverage := by
  have hmin : min (0 + b.numR2Entries * r3Coverage) b.mapBytes = b.mapBytes := by
    rw [Nat.zero_add]
    exact Nat.min_eq_right (b.mapBytes_le_slices (Nat.le_refl _))
  have hnone : b.tablesBelow 0 = 0 := by
    unfold tablesBelow
    rw [Nat.zero_min]
    decide
  rw [hnone, Nat.sub_zero, tablesBelow, hmin, numR2Entries]

/-- The first table is rounded up past the lowcore. -/
theorem slices_eq : b.slices =
    entries b.r3Table r3Coverage b.numR2Entries 0 ⟨b.poolBase + 16384, []⟩ := by
  have hbase := b.poolBase_mod
  obtain ⟨m, hm⟩ : ∃ m, b.numR2Entries = m + 1 := by
    have hle := b.le_mapBytes
    refine Nat.exists_eq_succ_of_ne_zero ?_
    unfold numR2Entries r3Coverage
    omega
  have halloc : b.poolStart.alloc (2048 * 8) 16384 =
      (⟨b.poolBase + 16384, []⟩ : Pool).alloc (2048 * 8) 16384 := by
    have hround : roundUp b.poolStart.next 16384 = roundUp (b.poolBase + 16384) 16384 := by
      rw [b.poolStart_next]
      unfold roundUp
      omega
    unfold Pool.alloc
    rw [hround]
    rfl
  have hfirst : b.r3Table 0 b.poolStart = b.r3Table 0 ⟨b.poolBase + 16384, []⟩ := by
    unfold r3Table tableOf
    rw [halloc]
  unfold slices
  rw [hm]
  unfold entries
  rw [hfirst]

/-- Where an address is to go through a region-second table that has the slices from index `k`
on. -/
def slicesFrom (k v : Nat) : Option Nat :=
  if k ≤ v / 2 ^ 42 % 2048 then b.storage ((v / 2 ^ 42 % 2048 - k) * 2 ^ 42 + v % 2 ^ 42) else none

/-- Where an address is to go: storage at its own address, and again at
`CONFIG_KERNEL_VIRT_OFFSET`. -/
def target (v : Nat) : Option Nat :=
  if v / 2 ^ 53 % 2048 = rfxHhdm then b.slicesFrom rsxHhdm v
  else if v / 2 ^ 53 % 2048 = 0 then b.slicesFrom 0 v
  else none

section Large

variable {b} (hedat : b.edat1 = true)
include hedat

theorem segEntry_large {phys : Nat} {P : Pool} (hmod : phys % 2 ^ 20 = 0)
    (hlt : phys < b.mapBytes) :
    b.segEntry phys P = (phys + 0x400, P) := by
  unfold segEntry
  rw [if_neg (Nat.not_le.mpr hlt), if_pos hedat, or_eq_add 20 hmod (by decide)]

theorem segTable_leads {phys : Nat} {P : Pool} (hmod : phys % 2 ^ 31 = 0)
    (hlt : phys < b.mapBytes) :
    Leads (b.segTable phys P).2.tables 0x4 [] (fun v => b.storage (phys + v % 2 ^ 31))
      (b.segTable phys P).1 := by
  have hmap := b.mapBytes_mod
  have hstorage : ∀ v, b.storage (phys + v % 2 ^ 31) = some (phys + v % 2 ^ 31) :=
    fun v => if_pos (by omega)
  obtain ⟨s, hs, he, t, ht, horigin, hlength, hentry⟩ :=
    @tableOf_holds b.segEntry segSize 2048 0x4 0x20 phys P rfl (by decide)
  refine ⟨s, hs, he, phys, hmod, ?_, hstorage⟩
  refine ⟨t, ht, horigin, hlength, fun i hi => (hentry i hi).trans ?_⟩
  refine entries_spec (G := fun p e _ => e = p + 0x400)
    (A := fun p => p % 2 ^ 20 = 0 ∧ p < b.mapBytes) (fun _ h => h) b.segEntry_grows ?_ ?_ hi _
  · intro p P ⟨hp, hlt⟩
    rw [segEntry_large hedat hp hlt]
  · intro j hj
    unfold segSize
    omega

theorem r3Table_leads {phys : Nat} {P : Pool} (hmod : phys % 2 ^ 42 = 0) (hlt : phys < b.mapBytes) :
    Leads (b.r3Table phys P).2.tables 0x8 [(0x4, 31)] (fun v => b.storage (phys + v % 2 ^ 42))
      (b.r3Table phys P).1 := by
  obtain ⟨s, hs, he, hholds⟩ := @tableOf_holds b.segTable segTableCoverage (b.sliceTables phys) 0x8
    (0x20 ||| 0x3 ||| 0x4) phys P rfl (by decide)
  refine ⟨s, hs, he, _, fun i v => b.storage (phys + i * 2 ^ 31 + v % 2 ^ 31), hholds,
    fun i hi => ?_, fun v => ?_⟩
  · by_cases hin : i < b.sliceTables phys
    · right
      refine Leads.mono (List.subset_cons_self _ _) (entries_spec
        (G := fun p e ts => Leads ts 0x4 [] (fun v => b.storage (p + v % 2 ^ 31)) e)
        (A := fun p => p % 2 ^ 31 = 0 ∧ p < b.mapBytes) Leads.mono b.segTable_grows
        (fun p P hp => segTable_leads hedat hp.1 hp.2) ?_ hin _)
      intro j hj
      exact ⟨mod_of_slice hmod j, (b.lt_sliceTables hmod hlt).mp hj |>.2⟩
    · left
      refine ⟨?_, fun v => if_neg fun hv => hin ?_⟩
      · exact List.getD_eq_default _ _ (by rw [entries_length]; omega)
      · exact (b.lt_sliceTables hmod hlt).mpr ⟨hi, Nat.lt_of_le_of_lt (Nat.le_add_right _ _) hv⟩
  · show b.storage _ = b.storage _
    congr 1
    omega

theorem slices_leads {i : Nat} (hi : i < b.numR2Entries) (d : Nat) :
    Leads b.slices.2.tables 0x8 [(0x4, 31)] (fun v => b.storage (i * 2 ^ 42 + v % 2 ^ 42))
      (b.slices.1.getD i d) := by
  have hleads := entries_spec
    (G := fun p e ts => Leads ts 0x8 [(0x4, 31)] (fun v => b.storage (p + v % 2 ^ 42)) e)
    (A := fun p => p % 2 ^ 42 = 0 ∧ p < b.mapBytes) Leads.mono b.r3Table_grows
    (fun p P hp => r3Table_leads hedat hp.1 hp.2) (P := b.poolStart) (p := 0) (k := r3Coverage)
    (n := b.numR2Entries) ?_ hi d
  · rwa [Nat.zero_add] at hleads
  · exact fun j hj => b.pre_slice hj

/-- A region-second table whose entries from index `k` on are those for the slices. -/
theorem maps_r2 {o k : Nat} {f : Nat → Nat} (hholds : Holds b.tables o f)
    (hbelow : ∀ i < k, f i = 0x23 + 0x8) (habove : ∀ i, k ≤ i →
      f i = b.slices.1.getD (i - k) (0x23 + 0x8)) :
    Maps b.tables [(0x8, 42), (0x4, 31)] o (b.slicesFrom k) := by
  refine ⟨f, fun i v => if k ≤ i then b.storage ((i - k) * 2 ^ 42 + v % 2 ^ 42) else none, hholds,
    fun i hi => ?_, fun _ => rfl⟩
  by_cases hik : k ≤ i
  · simp only [if_pos hik, habove i hik]
    by_cases hin : i - k < b.numR2Entries
    · exact .inr ((slices_leads hedat hin _).mono (List.subset_append_right _ _))
    · left
      refine ⟨List.getD_eq_default _ _ ?_, fun v => if_neg ?_⟩
      · rw [slices, entries_length]
        exact Nat.not_lt.mp hin
      · exact Nat.not_lt.mpr (Nat.le_trans (b.mapBytes_le_slices (Nat.not_lt.mp hin))
          (Nat.le_add_right _ _))
  · exact .inl ⟨hbelow i (Nat.not_le.mp hik), fun _ => if_neg hik⟩

/-- **The root maps storage twice**, at its own address and at `CONFIG_KERNEL_VIRT_OFFSET`. -/
theorem maps_root : Maps b.tables regionLevels b.image.r1Table b.target := by
  have haligned := b.image.aligned
  simp only [List.mem_cons, List.not_mem_nil, or_false, forall_eq_or_imp, forall_eq] at haligned
  obtain ⟨-, hident, hhhdm⟩ := haligned
  have hentry : ∀ {o : Nat}, o % 16384 = 0 → o ||| 0x3 ||| 0xC = o + (3 + 0xC) := fun ho => by
    rw [Nat.or_assoc]
    exact or_eq_add 14 ho (by decide)
  have hmem : ∀ {t}, t ∈ b.staticTables → t ∈ b.tables := fun ht => List.mem_append_left _ ht
  have hr2ident := maps_r2 hedat (k := 0) (o := b.image.r2TableIdent)
    ⟨_, hmem (.tail _ (.head _)), rfl, rfl, fun _ _ => rfl⟩ nofun fun i _ => rfl
  have hr2hhdm := maps_r2 hedat (k := rsxHhdm) (o := b.image.r2TableHhdm)
    ⟨_, hmem (.tail _ (.tail _ (.head _))), rfl, rfl, fun _ _ => rfl⟩
    (fun i hi => if_neg (Nat.not_le.mpr hi)) fun i hi => if_pos hi
  refine ⟨_, fun i v => if i = rfxHhdm then b.slicesFrom rsxHhdm v else if i = 0 then
    b.slicesFrom 0 v else none, ⟨_, hmem (.head _), rfl, rfl, fun _ _ => rfl⟩, fun i _ => ?_,
    fun _ => rfl⟩
  by_cases hi : i = rfxHhdm
  · simp only [if_pos hi]
    exact .inr ⟨_, hhhdm, hentry hhhdm, hr2hhdm⟩
  by_cases hzero : i = 0
  · simp only [if_neg hi, if_pos hzero]
    exact .inr ⟨_, hident, hentry hident, hr2ident⟩
  · exact .inl ⟨(if_neg hi).trans (if_neg hzero), fun _ => (if_neg hi).trans (if_neg hzero)⟩

theorem translate_eq_target (v : Nat) : b.translate v = b.target v := by
  unfold translate
  rw [hedat]
  exact translate_of_maps b.tables_apart (by decide) (maps_root hedat) v

theorem walk_eq_target (v : Nat) : b.walk v = b.target v :=
  walk_of_maps b.tables_apart (by decide) (by decide) (maps_root hedat) v

/-! ## The end of the pool -/

theorem segTable_next {phys : Nat} {P : Pool} (hmod : phys % 2 ^ 31 = 0) (hlt : phys < b.mapBytes)
    (hP : P.next % 16384 = 0) : (b.segTable phys P).2.next = P.next + 16384 := by
  have hmap := b.mapBytes_mod
  refine tableOf_next (m := fun _ => 0) (A := fun p => p % 2 ^ 20 = 0 ∧ p < b.mapBytes)
    (fun _ _ => Nat.le_refl _) (fun p P hp _ => ?_) (fun i hi => ?_) hP
  · rw [segEntry_large hedat hp.1 hp.2]
    rfl
  · unfold segSize
    omega

theorem r3Table_next {phys : Nat} {P : Pool} (hmod : phys % 2 ^ 42 = 0) (hlt : phys < b.mapBytes)
    (hP : P.next % 16384 = 0) :
    (b.r3Table phys P).2.next = P.next + 16384 * (1 + b.sliceTables phys) := by
  have hnext := @tableOf_next b.segTable segTableCoverage (fun p => p / segTableCoverage)
    (fun p => p % 2 ^ 31 = 0 ∧ p < b.mapBytes) (fun p _ => by unfold segTableCoverage; omega)
    (fun p P hp hP => ?_) (b.sliceTables phys) 0x8 (0x20 ||| 0x3 ||| 0x4) phys P ?_ hP
  · refine hnext.trans ?_
    unfold segTableCoverage
    omega
  · rw [segTable_next hedat hp.1 hp.2 hP]
    unfold segTableCoverage
    omega
  · exact fun j hj => ⟨mod_of_slice hmod j, (b.lt_sliceTables hmod hlt).mp hj |>.2⟩

/-- The published end of the pool: behind the lowcore, the region-third tables and the segment
tables. -/
theorem pgtblPoolEnd_eq :
    b.pgtblPoolEnd = b.poolBase + 16384 * (1 + b.numR2Entries + b.mapBytes / segTableCoverage) := by
  have hbase := b.poolBase_mod
  have hnext := (entries_next (m := b.tablesBelow) (A := fun p => p % 2 ^ 42 = 0 ∧ p < b.mapBytes)
    (fun p hp => (b.tablesBelow_add hp.1 hp.2).symm ▸ Nat.le_add_right _ _)
    (fun p P hp hP => (r3Table_next hedat hp.1 hp.2 hP).trans
      (by rw [b.tablesBelow_add hp.1 hp.2, Nat.add_sub_cancel_left]))
    (fun j hj => b.pre_slice hj) (P := ⟨b.poolBase + 16384, []⟩) (n := b.numR2Entries) (p := 0)
    (show (b.poolBase + 16384) % 16384 = 0 by omega)).2
  rw [← b.slices_eq, b.tablesBelow_all] at hnext
  dsimp only at hnext
  unfold pgtblPoolEnd
  rw [hnext, roundUp_of_mod (by decide) (by omega)]
  omega

end Large

/-! ## What the kernel misreads without EDAT-1 -/

end BootProtocol

/-- From an origin on, the first entries lead to a segment table whose second entry is a page table
that is not on a 4 KiB boundary. In front of it is the page table of the first megabyte. -/
def Packed (ts : List Table) : List (Nat × Nat) → Nat → Prop
  | [], o => ∃ f t, Holds ts o f ∧ t ∈ ts ∧ t.length = 256 ∧ t.origin % 4096 = 0 ∧
    f 1 = t.origin + 2048 ∧ t.entry 0 = 0
  | (type, _) :: rest, o => ∃ f s, Holds ts o f ∧ s % 16384 = 0 ∧ f 0 = s + (3 + type) ∧
    Packed ts rest s

theorem Packed.mono {ts ts' : List Table} (hsub : ts ⊆ ts') {levels : List (Nat × Nat)} {o : Nat}
    (h : Packed ts levels o) : Packed ts' levels o := by
  induction levels generalizing o with
  | nil =>
    obtain ⟨f, t, hholds, ht, hrest⟩ := h
    exact ⟨f, t, hholds.mono hsub, hsub ht, hrest⟩
  | cons level rest ih =>
    obtain ⟨f, s, hholds, hs, hf, hpacked⟩ := h
    exact ⟨f, s, hholds.mono hsub, hs, hf, ih hpacked⟩

/-- `walk_impl` finds the first megabyte at the address of the second. -/
theorem walk_of_packed {ts : List Table} (hapart : ts.Pairwise Table.Apart)
    {levels : List (Nat × Nat)} (htypes : ∀ l ∈ levels, l.1 ∈ [0xC, 0x8, 0x4])
    (hshift : ∀ l ∈ levels, l.2 ≠ 20 ∧ 0x100000 / 2 ^ l.2 % 2048 = 0) {o : Nat}
    (h : Packed ts levels o) :
    (walkTables ts 0x100000 (levels.map Prod.snd ++ [20]) o).bind (walkPage ts 0x100000) =
      some 0 := by
  induction levels generalizing o with
  | nil =>
    obtain ⟨f, t, hholds, ht, hlength, hmod, hsecond, hentry⟩ := h
    show (walkTables ts 0x100000 [20] o).bind (walkPage ts 0x100000) = some 0
    unfold walkTables
    rw [hholds.fetch hapart, Option.bind_some, show 0x100000 / 2 ^ 20 % 2048 = 1 from rfl, hsecond,
      add_and 12 _ hmod (by decide), add_and 12 _ hmod (by decide), masked_add 12 hmod (by decide),
      if_neg (by decide), if_neg (by decide), if_neg (by decide)]
    show (fetch ts (t.origin + 8 * 0)).bind _ = some 0
    rw [fetch_of_mem hapart ht (hlength ▸ by decide), Option.bind_some, hentry]
    rfl
  | cons level rest ih =>
    obtain ⟨type, shift⟩ := level
    obtain ⟨f, s, hholds, hs, hfirst, hpacked⟩ := h
    have htype := htypes _ List.mem_cons_self
    have hindex := (hshift _ List.mem_cons_self).2
    have hbits : (3 + type) &&& 0x20 = 0 ∧ (3 + type) &&& 0x400 = 0 ∧ 3 + type < 2 ^ 12 := by
      simp only [List.mem_cons, List.not_mem_nil, or_false] at htype
      rcases htype with rfl | rfl | rfl <;> decide
    obtain ⟨hinvalid, hlarge, hlow⟩ := hbits
    rw [List.map_cons, List.cons_append]
    unfold walkTables
    rw [hholds.fetch hapart, Option.bind_some, hindex, hfirst, add_and 14 _ hs (by decide),
      add_and 14 _ hs (by decide), hinvalid, hlarge, masked_add 12 (by omega) hlow,
      if_neg (by decide), if_neg (by simp), if_neg (by simp)]
    exact ih (fun l hl => htypes l (List.mem_cons_of_mem _ hl))
      (fun l hl => hshift l (List.mem_cons_of_mem _ hl)) hpacked

namespace BootProtocol

section Pages

variable {b : BootProtocol} (hedat : b.edat1 = false)
include hedat

theorem segEntry_page {phys : Nat} {P : Pool} (hlt : phys < b.mapBytes) :
    b.segEntry phys P = ((P.alloc 2048 2048).1, (P.alloc 2048 2048).2.add
      { origin := (P.alloc 2048 2048).1, length := 256, entry := fun p => phys + p * 4096 }) := by
  unfold segEntry
  rw [if_neg (Nat.not_le.mpr hlt), if_neg (by rw [hedat]; decide)]

/-- The two page tables of the first segments lie side by side. -/
theorem segTable_packed {P : Pool} : ∃ s, s % 16384 = 0 ∧ (b.segTable 0 P).1 = s + (3 + 0x4) ∧
    Packed (b.segTable 0 P).2.tables [] s := by
  have hmap := b.le_mapBytes
  obtain ⟨s, hs, he, hholds⟩ := @tableOf_holds b.segEntry segSize 2048 0x4 0x20 0 P rfl (by decide)
  have hfirst := @segEntry_page b hedat 0 (P.alloc (2048 * 8) 16384).2 (by omega)
  have hstart : (P.alloc (2048 * 8) 16384).2.next % 16384 = 0 := by
    show (roundUp P.next 16384 + 2048 * 8) % 16384 = 0
    have hmod := roundUp_mod P.next 16384
    omega
  have horigin : roundUp (P.alloc (2048 * 8) 16384).2.next 2048 =
      (P.alloc (2048 * 8) 16384).2.next := roundUp_of_mod (by decide) (by omega)
  refine ⟨s, hs, he, _, ⟨roundUp (P.alloc (2048 * 8) 16384).2.next 2048, 256,
    fun p => 0 + p * 4096⟩,
    hholds, ?_, rfl, ?_, ?_, rfl⟩
  · exact List.mem_cons_of_mem _ (first_subset_entries b.segEntry_grows (by decide) _ _
      (by rw [hfirst]; exact List.mem_cons_self))
  · show roundUp (P.alloc (2048 * 8) 16384).2.next 2048 % 4096 = 0
    omega
  · dsimp only
    rw [entries_second (by decide), hfirst, segEntry_page hedat (by unfold segSize; omega)]
    show roundUp (roundUp (P.alloc (2048 * 8) 16384).2.next 2048 + 2048) 2048 = _ + 2048
    rw [horigin, roundUp_of_mod (by decide) (by omega)]

theorem r3Table_packed {P : Pool} : ∃ s, s % 16384 = 0 ∧ (b.r3Table 0 P).1 = s + (3 + 0x8) ∧
    Packed (b.r3Table 0 P).2.tables [(0x4, 31)] s := by
  have hpos : 0 < b.sliceTables 0 :=
    (b.lt_sliceTables rfl (Nat.lt_of_lt_of_le (by decide) b.le_mapBytes)).mpr
      ⟨by decide, Nat.lt_of_lt_of_le (by decide) b.le_mapBytes⟩
  obtain ⟨s, hs, he, hholds⟩ := @tableOf_holds b.segTable segTableCoverage (b.sliceTables 0) 0x8
    (0x20 ||| 0x3 ||| 0x4) 0 P rfl (by decide)
  obtain ⟨s', hs', he', hpacked⟩ := segTable_packed hedat (P := (P.alloc (2048 * 8) 16384).2)
  refine ⟨s, hs, he, _, s', hholds, hs', (entries_first hpos _ _ _).trans he', hpacked.mono ?_⟩
  exact fun t ht => List.mem_cons_of_mem _ (first_subset_entries b.segTable_grows hpos _ _ ht)

theorem root_packed : Packed b.tables regionLevels b.image.r1Table := by
  have hident := b.image.aligned b.image.r2TableIdent (.tail _ (.head _))
  have hpos : 0 < b.numR2Entries := by
    have hmap := b.le_mapBytes
    unfold numR2Entries r3Coverage
    omega
  obtain ⟨s, hs, he, hpacked⟩ := r3Table_packed hedat (P := b.poolStart)
  have hmem : ∀ {t}, t ∈ b.staticTables → t ∈ b.tables := fun ht => List.mem_append_left _ ht
  refine ⟨_, b.image.r2TableIdent, ⟨_, hmem (.head _), rfl, rfl, fun _ _ => rfl⟩, hident, ?_,
    _, s, ⟨_, hmem (.tail _ (.head _)), rfl, rfl, fun _ _ => rfl⟩, hs, ?_, hpacked.mono ?_⟩
  · show b.image.r2TableIdent ||| 0x3 ||| 0xC = _
    rw [Nat.or_assoc]
    exact or_eq_add 14 hident (by decide)
  · exact (entries_first hpos _ _ _).trans he
  · exact fun t ht => List.mem_append_right _ (first_subset_entries b.r3Table_grows hpos _ _ ht)

theorem walk_second_megabyte : b.walk 0x100000 = some 0 :=
  walk_of_packed b.tables_apart (by decide) (by decide) (root_packed hedat)

end Pages

/-! ## For which boots the tables are right -/

theorem target_storage {b : BootProtocol} {p : Nat} (h : p < 2 ^ 53) :
    b.target p = b.storage p := by
  have hrfx : p / 2 ^ 53 % 2048 = 0 := by omega
  have hrsx : p / 2 ^ 42 % 2048 = p / 2 ^ 42 := by omega
  unfold target slicesFrom
  rw [if_neg (by rw [hrfx]; decide), if_pos hrfx, if_pos (Nat.zero_le _), hrsx, Nat.sub_zero,
    Nat.div_add_mod']

theorem target_hhdm {b : BootProtocol} {p : Nat} (h : p < 2 ^ 44) :
    b.target (p + virtBase) = b.storage p := by
  have hrfx : (p + virtBase) / 2 ^ 53 % 2048 = rfxHhdm := by
    unfold rfxHhdm virtBase
    omega
  have hrsx : (p + virtBase) / 2 ^ 42 % 2048 = rsxHhdm + p / 2 ^ 42 := by
    unfold rsxHhdm virtBase
    omega
  have hlow : (p + virtBase) % 2 ^ 42 = p % 2 ^ 42 := by
    unfold virtBase
    omega
  unfold target slicesFrom
  rw [if_pos hrfx, hrsx, if_pos (Nat.le_add_right _ _), Nat.add_sub_cancel_left, hlow,
    Nat.div_add_mod']

/-- **The tables of the loader are right exactly with EDAT-1 and a pool within the mapped storage**:
what is behind the mapped range is published as covered where the pool goes beyond it, and without
EDAT-1 the kernel reads the page table of another megabyte. -/
theorem loader_tables_right_iff (b : BootProtocol) :
    b.Right ↔ b.edat1 = true ∧
      b.poolBase + 16384 * (1 + b.numR2Entries + b.mapBytes / segTableCoverage) ≤ b.mapBytes := by
  have hmap := b.le_mapBytes
  have hmax := b.mapBytes_le
  cases hedat : b.edat1 with
  | false =>
    refine iff_of_false (fun hright => ?_) nofun
    have hcovered : 0x100000 < b.hhdmPhysCoverageEnd :=
      Nat.lt_of_lt_of_le (by omega) (Nat.le_max_right _ _)
    have htranslate := (hright.mapped 0x100000 hcovered).1
    rw [← hright.same 0x100000 (by decide), walk_second_megabyte hedat] at htranslate
    cases htranslate
  | true =>
  rw [← pgtblPoolEnd_eq hedat]
  constructor
  · intro hright
    refine ⟨rfl, Nat.not_lt.mp fun hlt => ?_⟩
    -- the first address behind the mapped range is published as covered
    have hmapped := (hright.mapped b.mapBytes (Nat.lt_of_lt_of_le hlt (Nat.le_max_left _ _))).1
    rw [translate_eq_target hedat, target_storage (by omega), storage, if_neg (Nat.lt_irrefl _)]
      at hmapped
    cases hmapped
  · rintro ⟨-, hpool⟩
    have hend : b.hhdmPhysCoverageEnd = b.mapBytes := Nat.max_eq_right hpool
    refine ⟨fun p hp => ?_, b.tables_apart, fun t => b.poolTables_inside, fun v _ => ?_⟩
    · rw [hend] at hp
      have hstorage : b.storage p = some p := if_pos hp
      rw [translate_eq_target hedat, translate_eq_target hedat, target_storage (by omega),
        target_hhdm (by omega), hstorage]
      exact ⟨rfl, rfl⟩
    · rw [translate_eq_target hedat, walk_eq_target hedat]

end BootProtocol

/-! ## Two gibibytes -/

def smallImage : LoaderImage where
  r1Table := 0x40000
  r2TableIdent := 0x44000
  r2TableHhdm := 0x48000
  aligned := by decide
  inside := by decide
  distinct := by decide

/-- A machine with 2 GiB, and a nucleus that ends at 8 MiB. -/
def twoGiB (edat1 : Bool) : BootProtocol where
  image := smallImage
  edat1 := edat1
  memTotalBytes := 2 ^ 31
  memMap := [(0, 2 ^ 31)]
  kernelPhysEnd := 0x800000
  total := by decide
  regions := by decide
  nucleus := by decide

theorem loader_tables_right_twoGiB : (twoGiB true).Right :=
  (BootProtocol.loader_tables_right_iff _).mpr ⟨rfl, by decide⟩

/-- Without EDAT-1 the second page table of the pool is not on a 4 KiB boundary. For an address in
the second megabyte the machine reads it; the kernel takes the one before and finds the first
megabyte. -/
theorem loader_tables_misread : (twoGiB false).translate 0x100234 = some 0x100234 ∧
    (twoGiB false).walk 0x100234 = some 0x234 ∧ ¬ (twoGiB false).Right := by
  have hmachine : (twoGiB false).translate 0x100234 = some 0x100234 := by decide +kernel
  have hkernel : (twoGiB false).walk 0x100234 = some 0x234 := by decide +kernel
  refine ⟨hmachine, hkernel, fun hright => ?_⟩
  have hsame := hright.same 0x100234 (by decide)
  rw [hmachine, hkernel] at hsame
  cases hsame

end ZXFoundation.Boot.Dat
