import Mathlib.Data.Multiset.Range

/-!
# Binary min-heaps in an array

A heap is an array and the number of its entries; the entry at `i` is not before the one at
`parentOf i`. `push` and `remove` put an entry in a place where it may not belong and move it up or
down by exchanges.

While an entry moves, the order holds everywhere but at its place. `OrderedAbove` is what is left
for an entry on its way up, `OrderedBelow` what is left on the way down. Both say as well that the
parent and the children of the place are in order with each other, so that the exchange repairs one
level without breaking the next.
-/

/-- The array and `m_count`. -/
structure MinHeap (α : Type*) where
  entries : Nat → α
  count : Nat := 0

namespace MinHeap

open Function Multiset

/-! ## Places -/

def parentOf (i : Nat) : Nat := (i - 1) / 2

def leftOf (i : Nat) : Nat := 2 * i + 1

def rightOf (i : Nat) : Nat := 2 * i + 2

variable {i : Nat}

theorem parentOf_lt (h : 0 < i) : parentOf i < i := by
  unfold parentOf
  omega

theorem parentOf_eq_iff {j : Nat} (h : 0 < j) : parentOf j = i ↔ j = leftOf i ∨ j = rightOf i := by
  unfold parentOf leftOf rightOf
  omega

/-! ## Exchanges -/

section Exchange

variable {α : Type*} {f : Nat → α} {i j k n : Nat}

def exchange (f : Nat → α) (i j : Nat) : Nat → α := update (update f j (f i)) i (f j)

@[simp] theorem exchange_left : exchange f i j i = f j := update_self ..

theorem exchange_right (h : i ≠ j) : exchange f i j j = f i := by
  rw [exchange, update_of_ne h.symm, update_self]

theorem exchange_of_ne (hi : k ≠ i) (hj : k ≠ j) : exchange f i j k = f k := by
  rw [exchange, update_of_ne hi, update_of_ne hj]

theorem exchange_eq_swap : exchange f i j = f ∘ Equiv.swap i j := by
  funext k
  by_cases hi : k = i
  · subst hi
    rw [exchange_left, comp_apply, Equiv.swap_apply_left]
  by_cases hj : k = j
  · subst hj
    rw [exchange_right (Ne.symm hi), comp_apply, Equiv.swap_apply_right]
  · rw [exchange_of_ne hi hj, comp_apply, Equiv.swap_apply_of_ne_of_ne hi hj]

/-- The first entries of an array, without their order. -/
def first (f : Nat → α) (n : Nat) : Multiset α := (Multiset.range n).map f

theorem mem_first {a : α} : a ∈ first f n ↔ ∃ i < n, f i = a := by
  simp [first]

theorem first_succ : first f (n + 1) = f n ::ₘ first f n := by
  rw [first, range_succ, map_cons, first]

theorem first_congr {g : Nat → α} (h : ∀ i < n, f i = g i) : first f n = first g n :=
  Multiset.map_congr rfl fun i hi => h i (mem_range.mp hi)

theorem swap_range (hi : i < n) (hj : j < n) : (range n).map (Equiv.swap i j) = range n := by
  refine ((nodup_range n).map (Equiv.injective _)).ext (nodup_range n) |>.mpr fun k => ?_
  rw [mem_map, mem_range]
  constructor
  · rintro ⟨l, hl, rfl⟩
    rw [mem_range] at hl
    rw [Equiv.swap_apply_def]
    split_ifs <;> assumption
  · intro hk
    refine ⟨Equiv.swap i j k, ?_, Equiv.swap_apply_self i j k⟩
    rw [mem_range, Equiv.swap_apply_def]
    split_ifs <;> assumption

theorem first_exchange (hi : i < n) (hj : j < n) : first (exchange f i j) n = first f n := by
  rw [exchange_eq_swap, first, ← map_map, swap_range hi hj, first]

theorem first_update_last [DecidableEq α] (hi : i < n) :
    first (update f i (f n)) n = (first f (n + 1)).erase (f i) := by
  have hlast : first (exchange f i n) (n + 1) = first f (n + 1) :=
    first_exchange (by omega) (by omega)
  have hsame : first (exchange f i n) n = first (update f i (f n)) n := by
    refine first_congr fun k hk => ?_
    by_cases hki : k = i
    · subst hki
      rw [exchange_left, update_self]
    · rw [exchange_of_ne hki (by omega), update_of_ne hki]
  rw [← hlast, first_succ, exchange_right (by omega), erase_cons_head, hsame]

end Exchange

/-! ## The sifts -/

section Sifts

variable {α : Type*} (less : α → α → Bool)

def siftUp (f : Nat → α) (idx : Nat) : Nat → α :=
  if 0 < idx then
    if less (f idx) (f (parentOf idx)) then siftUp (exchange f (parentOf idx) idx) (parentOf idx)
      else f
  else f
termination_by idx
decreasing_by exact parentOf_lt ‹_›

/-- The place of the least of an entry and its children. -/
def smallest (f : Nat → α) (count idx : Nat) : Nat :=
  let s := if leftOf idx < count ∧ less (f (leftOf idx)) (f idx) then leftOf idx else idx
  if rightOf idx < count ∧ less (f (rightOf idx)) (f s) then rightOf idx else s

theorem smallest_bounds {less : α → α → Bool} {f : Nat → α} {count idx : Nat}
    (h : smallest less f count idx ≠ idx) :
    idx < smallest less f count idx ∧ smallest less f count idx < count ∧
      parentOf (smallest less f count idx) = idx := by
  unfold smallest parentOf leftOf rightOf at *
  simp only at h ⊢
  split_ifs at h ⊢ <;> omega

def siftDown (f : Nat → α) (count idx : Nat) : Nat → α :=
  if smallest less f count idx = idx then f
  else siftDown (exchange f idx (smallest less f count idx)) count (smallest less f count idx)
termination_by count - idx
decreasing_by
  have := smallest_bounds ‹_›
  omega

variable {less} {f : Nat → α} {n idx : Nat}

theorem first_siftUp (h : idx < n) : first (siftUp less f idx) n = first f n := by
  fun_induction siftUp less f idx with
  | case1 f idx hpos hless ih =>
    have hp := parentOf_lt hpos
    rw [ih (by omega), first_exchange (by omega) h]
  | case2 | case3 => rfl

theorem first_siftDown (h : idx < n) : first (siftDown less f n idx) n = first f n := by
  fun_induction siftDown less f n idx with
  | case1 => rfl
  | case2 f idx hne ih =>
    obtain ⟨_, hlt, _⟩ := smallest_bounds hne
    rw [ih hlt, first_exchange h hlt]

end Sifts

/-! ## The order -/

section Order

variable {α κ : Type*} [LinearOrder κ] {key : α → κ} {f : Nat → α} {n idx : Nat}

def keyLess (key : α → κ) (a b : α) : Bool := decide (key a < key b)

def Ordered (key : α → κ) (f : Nat → α) (n : Nat) : Prop :=
  ∀ i, 0 < i → i < n → key (f (parentOf i)) ≤ key (f i)

structure OrderedAbove (key : α → κ) (f : Nat → α) (n idx : Nat) : Prop where
  rest : ∀ i, 0 < i → i < n → i ≠ idx → key (f (parentOf i)) ≤ key (f i)
  across : 0 < idx → ∀ i, 0 < i → i < n → parentOf i = idx → key (f (parentOf idx)) ≤ key (f i)

structure OrderedBelow (key : α → κ) (f : Nat → α) (n idx : Nat) : Prop where
  rest : ∀ i, 0 < i → i < n → parentOf i ≠ idx → key (f (parentOf i)) ≤ key (f i)
  across : 0 < idx → ∀ i, 0 < i → i < n → parentOf i = idx → key (f (parentOf idx)) ≤ key (f i)

theorem Ordered.congr {key' : α → κ} {g : Nat → α} (h : Ordered key f n)
    (hkey : ∀ i < n, key' (g i) = key (f i)) :
    Ordered key' g n := by
  intro i hpos hi
  rw [hkey i hi, hkey _ ((parentOf_lt hpos).trans hi)]
  exact h i hpos hi

/-- The exchange with the parent moves the fault one level up. -/
theorem OrderedAbove.exchanged (h : OrderedAbove key f n idx) (hpos : 0 < idx) (hidx : idx < n)
    (hless : key (f idx) < key (f (parentOf idx))) :
    OrderedAbove key (exchange f (parentOf idx) idx) n (parentOf idx) := by
  have hp := parentOf_lt hpos
  refine ⟨fun i hi hin hip => ?_, fun hppos i hi hin hpar => ?_⟩
  · by_cases hii : i = idx
    · subst hii
      rw [exchange_left, exchange_right hp.ne]
      exact hless.le
    rw [exchange_of_ne hip hii]
    by_cases hpi : parentOf i = idx
    · rw [hpi, exchange_right hp.ne]
      exact h.across hpos i hi hin hpi
    by_cases hpp : parentOf i = parentOf idx
    · have hold := h.rest i hi hin hii
      rw [hpp] at hold ⊢
      rw [exchange_left]
      exact hless.le.trans hold
    · rw [exchange_of_ne hpp hpi]
      exact h.rest i hi hin hii
  · have hgrand := parentOf_lt hppos
    have hup := h.rest (parentOf idx) hppos (by omega) hp.ne
    rw [exchange_of_ne hgrand.ne (by omega)]
    by_cases hii : i = idx
    · rw [hii, exchange_right hp.ne]
      exact hup
    have hold := h.rest i hi hin hii
    have hne : i ≠ parentOf idx := fun heq => by
      have := parentOf_lt hi
      omega
    rw [exchange_of_ne hne hii]
    rw [hpar] at hold
    exact hup.trans hold

theorem ordered_siftUp (hidx : idx < n) (h : OrderedAbove key f n idx) :
    Ordered key (siftUp (keyLess key) f idx) n := by
  fun_induction siftUp (keyLess key) f idx with
  | case1 f idx hpos hless ih =>
    exact ih ((parentOf_lt hpos).trans hidx) (h.exchanged hpos hidx (of_decide_eq_true hless))
  | case2 f idx hpos hless =>
    intro i hi hin
    by_cases hii : i = idx
    · subst hii
      exact not_lt.mp fun hlt => hless (decide_eq_true hlt)
    · exact h.rest i hi hin hii
  | case3 f idx hpos =>
    intro i hi hin
    exact h.rest i hi hin (by omega)

theorem smallest_le (hi : 0 < i) (hin : i < n) (hpar : parentOf i = idx) :
    key (f (smallest (keyLess key) f n idx)) ≤ key (f i) := by
  unfold smallest keyLess
  simp only [decide_eq_true_eq]
  rcases (parentOf_eq_iff hi).mp hpar with rfl | rfl
  · split_ifs with hl hr hr
    · exact hr.2.le
    · exact le_rfl
    · exact hr.2.le.trans (not_lt.mp fun hlt => hl ⟨hin, hlt⟩)
    · exact not_lt.mp fun hlt => hl ⟨hin, hlt⟩
  · split_ifs with hl hr hr
    · exact le_rfl
    · exact not_lt.mp fun hlt => hr ⟨hin, hlt⟩
    · exact le_rfl
    · exact not_lt.mp fun hlt => hr ⟨hin, hlt⟩

theorem smallest_le_self : key (f (smallest (keyLess key) f n idx)) ≤ key (f idx) := by
  unfold smallest keyLess
  simp only [decide_eq_true_eq]
  split_ifs with hl hr hr
  · exact hr.2.le.trans hl.2.le
  · exact hl.2.le
  · exact hr.2.le
  · exact le_rfl

/-- The exchange with the least child moves the fault one level down. -/
theorem OrderedBelow.exchanged (h : OrderedBelow key f n idx)
    (hne : smallest (keyLess key) f n idx ≠ idx) :
    OrderedBelow key (exchange f idx (smallest (keyLess key) f n idx)) n
      (smallest (keyLess key) f n idx) := by
  obtain ⟨hlt, hin, hpar⟩ := smallest_bounds hne
  have hself : key (f (smallest (keyLess key) f n idx)) ≤ key (f idx) := smallest_le_self
  have hleast : ∀ i, 0 < i → i < n → parentOf i = idx →
    key (f (smallest (keyLess key) f n idx)) ≤ key (f i) :=
    fun _ => smallest_le
  generalize smallest (keyLess key) f n idx = c at *
  refine ⟨fun i hi hi' hpc => ?_, fun hc i hi hi' hpc => ?_⟩
  · by_cases hii : i = idx
    · subst hii
      have hp := parentOf_lt hi
      rw [exchange_left, exchange_of_ne hp.ne (by omega)]
      exact h.across hi c (by omega) hin hpar
    by_cases hic : i = c
    · subst hic
      rw [hpar, exchange_left, exchange_right hlt.ne]
      exact hself
    rw [exchange_of_ne hii hic]
    by_cases hpi : parentOf i = idx
    · rw [hpi, exchange_left]
      exact hleast i hi hi' hpi
    · rw [exchange_of_ne hpi hpc]
      exact h.rest i hi hi' hpi
  · have hold := h.rest i hi hi' (by omega)
    have hci : c < i := hpc ▸ parentOf_lt hi
    rw [hpar, exchange_left, exchange_of_ne (by omega) hci.ne']
    rwa [hpc] at hold

theorem ordered_siftDown (h : OrderedBelow key f n idx) :
    Ordered key (siftDown (keyLess key) f n idx) n := by
  fun_induction siftDown (keyLess key) f n idx with
  | case1 f idx heq =>
    intro i hi hin
    by_cases hpar : parentOf i = idx
    · rw [hpar, ← heq]
      exact smallest_le hi hin (hpar.trans heq.symm ▸ hpar)
    · exact h.rest i hi hin hpar
  | case2 f idx hne ih => exact ih (h.exchanged hne)

end Order

/-! ## The operations -/

section Operations

variable {α : Type*}

def contents (h : MinHeap α) : Multiset α := first h.entries h.count

def peek (h : MinHeap α) : Option α := if 0 < h.count then some (h.entries 0) else none

def push (less : α → α → Bool) (capacity : Nat) (h : MinHeap α) (x : α) : Option (MinHeap α) :=
  if capacity ≤ h.count then none
  else some { entries := siftUp less (update h.entries h.count x) h.count, count := h.count + 1 }

/-- The array after the entry at `pos` has left a heap of `count + 1` entries. -/
def close [Inhabited α] (less : α → α → Bool) (f : Nat → α) (count pos : Nat) : Nat → α :=
  if pos < count then
    let f := update (update f pos (f count)) count default
    if 0 < pos ∧ less (f pos) (f (parentOf pos)) then siftUp less f pos
      else siftDown less f count pos
  else update f pos default

def remove [Inhabited α] [DecidableEq α] (less : α → α → Bool) (h : MinHeap α) (x : α) :
    Option (MinHeap α) :=
  ((List.range h.count).find? fun i => h.entries i = x).map fun pos =>
    { entries := close less h.entries (h.count - 1) pos, count := h.count - 1 }

variable {x : α} {h : MinHeap α}

theorem mem_contents_of_peek (hpeek : h.peek = some x) : x ∈ h.contents := by
  unfold peek at hpeek
  split at hpeek
  · exact mem_first.mpr ⟨0, ‹_›, Option.some.inj hpeek⟩
  · cases hpeek

variable {less : α → α → Bool} {h' : MinHeap α} {capacity : Nat}

theorem contents_push (hpush : h.push less capacity x = some h') :
    h'.contents = x ::ₘ h.contents := by
  unfold push at hpush
  split at hpush
  · cases hpush
  obtain rfl := Option.some.inj hpush
  have hrest : first (update h.entries h.count x) h.count = first h.entries h.count :=
    first_congr fun i hi => update_of_ne hi.ne ..
  rw [contents, first_siftUp (Nat.lt_succ_self _), first_succ, update_self, hrest, contents]

section Remove

variable [Inhabited α]

theorem first_close [DecidableEq α] {f : Nat → α} {count pos : Nat} (hpos : pos ≤ count) :
    first (close less f count pos) count = (first f (count + 1)).erase (f pos) := by
  unfold close
  split
  · rename_i hlt
    have hclear : first (update (update f pos (f count)) count default) count =
        first (update f pos (f count)) count :=
      first_congr fun i hi => update_of_ne hi.ne ..
    simp only
    split
    · rw [first_siftUp hlt, hclear, first_update_last hlt]
    · rw [first_siftDown hlt, hclear, first_update_last hlt]
  · obtain rfl : pos = count := by omega
    rw [first_succ, erase_cons_head]
    exact first_congr fun i hi => update_of_ne hi.ne ..

variable [DecidableEq α] {less : α → α → Bool} {h h' : MinHeap α} {x : α}

theorem contents_remove (hrem : h.remove less x = some h') :
    x ∈ h.contents ∧ h'.contents = h.contents.erase x := by
  obtain ⟨pos, hfind, rfl⟩ := Option.map_eq_some_iff.mp hrem
  have hpos : pos < h.count := List.mem_range.mp (List.mem_of_find?_eq_some hfind)
  have hx : h.entries pos = x := by simpa using List.find?_some hfind
  refine ⟨mem_first.mpr ⟨pos, hpos, hx⟩, ?_⟩
  have hcount : h.count - 1 + 1 = h.count := by omega
  rw [contents, first_close (by omega), hcount, hx, contents]

theorem remove_isSome (hx : x ∈ h.contents) : (h.remove less x).isSome := by
  obtain ⟨i, hi, heq⟩ := mem_first.mp hx
  rw [remove, Option.isSome_map, List.find?_isSome]
  exact ⟨i, List.mem_range.mpr hi, decide_eq_true heq⟩

end Remove

section Keyed

variable {κ : Type*} [LinearOrder κ] {key : α → κ}

def IsHeap (key : α → κ) (h : MinHeap α) : Prop := Ordered key h.entries h.count

theorem IsHeap.congr {key' : α → κ} (hheap : h.IsHeap key)
    (hkey : ∀ x ∈ h.contents, key' x = key x) :
    h.IsHeap key' :=
  Ordered.congr hheap fun i hi => hkey _ (mem_first.mpr ⟨i, hi, rfl⟩)

/-- The root has the least key. -/
theorem IsHeap.exists_peek_le {y : α} (hheap : h.IsHeap key) (hy : y ∈ h.contents) :
    ∃ x, h.peek = some x ∧ key x ≤ key y := by
  obtain ⟨i, hi, rfl⟩ := mem_first.mp hy
  clear hy
  refine ⟨h.entries 0, if_pos (Nat.zero_lt_of_lt hi), ?_⟩
  -- from an entry to its parent the keys do not grow
  induction i using Nat.strongRecOn with
  | _ i ih =>
    rcases Nat.eq_zero_or_pos i with rfl | hpos
    · exact le_rfl
    · have hlt := parentOf_lt hpos
      exact (ih _ hlt (hlt.trans hi)).trans (hheap i hpos hi)

theorem IsHeap.pushed (hheap : h.IsHeap key) (hpush : h.push (keyLess key) capacity x = some h') :
    h'.IsHeap key := by
  unfold push at hpush
  split at hpush
  · cases hpush
  obtain rfl := Option.some.inj hpush
  show Ordered key (siftUp (keyLess key) (update h.entries h.count x) h.count) (h.count + 1)
  refine ordered_siftUp (Nat.lt_succ_self _) ⟨fun i hi hin hne => ?_, fun hpos i hi hin hpar => ?_⟩
  · have hlt : i < h.count := by omega
    rw [update_of_ne hne, update_of_ne ((parentOf_lt hi).trans hlt).ne]
    exact hheap i hi hlt
  · -- the new entry has no children
    have := parentOf_lt hi
    omega

/-- Where the last entry may be before its new parent it is before the entry that has left, and so
before the children there; elsewhere it may be after the children only. -/
theorem ordered_close [Inhabited α] {f : Nat → α} {count pos : Nat}
    (hheap : Ordered key f (count + 1))
    (hpos : pos ≤ count) : Ordered key (close (keyLess key) f count pos) count := by
  unfold close
  split
  · rename_i hlt
    generalize hg : update (update f pos (f count)) count default = g
    have hself : g pos = f count := by
      rw [← hg, update_of_ne hlt.ne, update_self]
    have hother : ∀ i < count, i ≠ pos → g i = f i := fun i hi hne => by
      rw [← hg, update_of_ne hi.ne, update_of_ne hne]
    have hup : ∀ i, 0 < i → i < count → i ≠ pos → parentOf i ≠ pos →
      key (g (parentOf i)) ≤ key (g i) := by
      intro i hi hin hne hpar
      rw [hother i hin hne, hother _ ((parentOf_lt hi).trans hin) hpar]
      exact hheap i hi (by omega)
    have hchild : ∀ i, 0 < i → i < count → parentOf i = pos → key (f pos) ≤ key (g i) ∧
      i ≠ pos := by
      intro i hi hin hpar
      have hne : i ≠ pos := by
        have := parentOf_lt hi
        omega
      refine ⟨?_, hne⟩
      rw [hother i hin hne, ← hpar]
      exact hheap i hi (by omega)
    have hacross : 0 < pos → ∀ i, 0 < i → i < count → parentOf i = pos →
      key (g (parentOf pos)) ≤ key (g i) := by
      intro hp i hi hin hpar
      have hlt' := parentOf_lt hp
      rw [hother _ (by omega) hlt'.ne]
      exact (hheap pos hp (by omega)).trans (hchild i hi hin hpar).1
    simp only
    split
    · rename_i hless
      refine ordered_siftUp hlt ⟨fun i hi hin hne => ?_, hacross⟩
      by_cases hpar : parentOf i = pos
      · have hlt' := parentOf_lt hless.1
        have hbefore : key (g pos) < key (g (parentOf pos)) := of_decide_eq_true hless.2
        rw [hother _ (by omega) hlt'.ne] at hbefore
        rw [hpar]
        exact hbefore.le.trans ((hheap pos hless.1 (by omega)).trans (hchild i hi hin hpar).1)
      · exact hup i hi hin hne hpar
    · rename_i hless
      refine ordered_siftDown ⟨fun i hi hin hpar => ?_, hacross⟩
      by_cases hne : i = pos
      · subst hne
        exact not_lt.mp fun hlt => hless ⟨hi, decide_eq_true hlt⟩
      · exact hup i hi hin hne hpar
  · obtain rfl : pos = count := by omega
    intro i hi hin
    rw [update_of_ne hin.ne, update_of_ne ((parentOf_lt hi).trans hin).ne]
    exact hheap i hi (by omega)

theorem IsHeap.removed [Inhabited α] [DecidableEq α] (hheap : h.IsHeap key)
    (hrem : h.remove (keyLess key) x = some h') : h'.IsHeap key := by
  obtain ⟨pos, hfind, rfl⟩ := Option.map_eq_some_iff.mp hrem
  have hpos : pos < h.count := List.mem_range.mp (List.mem_of_find?_eq_some hfind)
  refine ordered_close ?_ (by omega)
  rw [show h.count - 1 + 1 = h.count by omega]
  exact hheap

end Keyed

end Operations

end MinHeap
