import Mathlib.Data.List.Nodup

/-!
# Singly linked chains threaded through a link function

`Chain next stop h l` says that following `next` from `h` visits exactly the cells of `l`, in order,
and then arrives at `stop`. The list `l` is determined by the links (`Chain.unique`), a chain never
revisits a cell (`Chain.nodup`), and the edits `Chain.push`, `Chain.pop` and `Chain.unlink` are
single link writes. `walk` is the search for the predecessor of a cell, as a loop over the links
would do it.
-/

namespace Linked

open Function List

variable {α : Type*}

/-- Following `next` from the second argument visits the listed cells and then `stop`. -/
inductive Chain (next : α → α) (stop : α) : α → List α → Prop where
  | nil : Chain next stop stop []
  | cons {x : α} {l : List α} (hx : x ≠ stop) (rest : Chain next stop (next x) l) :
      Chain next stop x (x :: l)

namespace Chain

variable {next : α → α} {stop : α} {l : List α} {h : α} (c : Chain next stop h l)
include c

theorem eq_nil_iff : l = [] ↔ h = stop := by
  cases c with
  | nil => simp
  | cons hx _ => simp [hx]

theorem pop (hh : h ≠ stop) :
    ∃ l', l = h :: l' ∧ Chain next stop (next h) l' := by
  cases c with
  | nil => exact absurd rfl hh
  | cons _ rest => exact ⟨_, rfl, rest⟩

theorem stop_notMem : stop ∉ l := by
  induction c with
  | nil => simp
  | cons hx _ ih => simp [ih, hx.symm]

theorem unique {l' : List α} (c' : Chain next stop h l') : l = l' := by
  induction c generalizing l' with
  | nil => exact (c'.eq_nil_iff.mpr rfl).symm
  | cons hx _ ih =>
    obtain ⟨l'', rfl, rest'⟩ := c'.pop hx
    rw [ih rest']

variable {x : α}

theorem suffix_of_mem (hx : x ∈ l) : ∃ l', Chain next stop x (x :: l') ∧ (x :: l') <:+ l := by
  induction c with
  | nil => simp at hx
  | @cons y l hy rest ih =>
    rcases mem_cons.mp hx with rfl | hmem
    · exact ⟨l, .cons hy rest, suffix_rfl⟩
    · obtain ⟨l', hc, hs⟩ := ih hmem
      exact ⟨l', hc, hs.trans (suffix_cons y l)⟩

/-- A chain that reaches `stop` never revisits a cell: a second visit would make the chain
from that cell a proper suffix of itself. -/
theorem nodup : l.Nodup := by
  induction c with
  | nil => exact nodup_nil
  | @cons x l hx rest ih =>
    refine nodup_cons.mpr ⟨fun hmem => ?_, ih⟩
    obtain ⟨l', hc, hs⟩ := rest.suffix_of_mem hmem
    have hl : x :: l' = x :: l := hc.unique (.cons hx rest)
    have hlen := hs.length_le
    rw [hl, length_cons] at hlen
    omega

theorem congr {next' : α → α} (heq : ∀ x ∈ l, next' x = next x) : Chain next' stop h l := by
  induction c with
  | nil => exact .nil
  | @cons x l hx _ ih =>
    refine .cons hx ?_
    rw [heq x (by simp)]
    exact ih fun y hy => heq y (by simp [hy])

section Update

variable [DecidableEq α]

theorem update_of_notMem (hx : x ∉ l) {v : α} : Chain (update next x v) stop h l :=
  c.congr fun y hy => update_of_ne (fun heq : y = x => hx (heq ▸ hy)) _ _

theorem push (hx : x ≠ stop) (hfresh : x ∉ l) : Chain (update next x h) stop x (x :: l) := by
  refine .cons hx ?_
  rw [update_self]
  exact c.update_of_notMem hfresh

theorem unlink {p : α} (hp : p ∈ l) (hnext : next p = x) (hx : x ≠ stop) :
    Chain (update next p (next x)) stop h (l.erase x) := by
  induction c with
  | nil => simp at hp
  | @cons y l hy rest ih =>
    have hnd := (Chain.cons hy rest).nodup
    obtain ⟨hyl, _⟩ := nodup_cons.mp hnd
    rcases mem_cons.mp hp with rfl | hmem
    · -- `p` is the head: the rest of the chain starts at `x`
      rw [hnext] at rest
      obtain ⟨l', rfl, rest'⟩ := rest.pop hx
      have hpx : p ≠ x := fun h => hyl (by simp [h])
      rw [erase_cons_tail (by simpa using hpx), erase_cons_head]
      refine .cons hy ?_
      rw [update_self]
      exact rest'.update_of_notMem (fun h => hyl (by simp [h]))
    · -- `p` lies deeper, so the head keeps its own link
      have hpy : y ≠ p := fun h => hyl (h ▸ hmem)
      have hxl : x ∈ l := by
        obtain ⟨l', hc, hs⟩ := rest.suffix_of_mem hmem
        cases hc with
        | cons _ hc' =>
          rw [hnext] at hc'
          obtain ⟨l'', rfl, _⟩ := hc'.pop hx
          exact hs.subset (by simp)
      have hyx : y ≠ x := fun h => hyl (h ▸ hxl)
      rw [erase_cons_tail (by simpa using hyx)]
      refine .cons hy ?_
      rw [update_of_ne hpy]
      exact ih hmem

end Update

end Chain

/-! ## The predecessor search -/

/-- `while (p != stop && next p != x) p = next p`, run for at most `fuel` rounds. The result
is the final `p`, or `none` when the rounds did not suffice. -/
def walk [DecidableEq α] (next : α → α) (stop x : α) : Nat → α → Option α
  | 0, _ => none
  | fuel + 1, p => if p ≠ stop ∧ next p ≠ x then walk next stop x fuel (next p) else some p

variable {next : α → α}

/-- On a chain the search ends within one round more than the chain is long. It stops at the
predecessor of `x`, or at `stop` when no cell of the chain links to `x`. -/
theorem walk_of_chain [DecidableEq α] {stop x h : α} {l : List α} (c : Chain next stop h l)
    {fuel : Nat}
    (hfuel : l.length < fuel) : (∃ p ∈ l, next p = x ∧ walk next stop x fuel h = some p) ∨
      ((∀ p ∈ l, next p ≠ x) ∧ walk next stop x fuel h = some stop) := by
  induction c generalizing fuel with
  | nil =>
    obtain ⟨fuel, rfl⟩ : ∃ f, fuel = f + 1 := ⟨fuel - 1, by omega⟩
    exact Or.inr ⟨by simp, by simp [walk]⟩
  | @cons y l hy rest ih =>
    obtain ⟨fuel, rfl⟩ : ∃ f, fuel = f + 1 := ⟨fuel - 1, by omega⟩
    by_cases hx : next y = x
    · exact Or.inl ⟨y, by simp, hx, by simp [walk, hx]⟩
    have hstep : walk next stop x (fuel + 1) y = walk next stop x fuel (next y) := by
      simp [walk, hy, hx]
    rw [hstep]
    have hshort : l.length < fuel := by simpa using hfuel
    rcases ih hshort with ⟨p, hp, hnext, hw⟩ | ⟨hnone, hw⟩
    · exact Or.inl ⟨p, by simp [hp], hnext, hw⟩
    refine Or.inr ⟨fun p hp => ?_, hw⟩
    rcases mem_cons.mp hp with rfl | hp
    · exact hx
    · exact hnone p hp

theorem Chain.exists_pred {stop h x : α} {l : List α} (c : Chain next stop h l) (hx : x ∈ l)
    (hxh : x ≠ h) :
    ∃ p ∈ l, next p = x := by
  induction c with
  | nil => simp at hx
  | @cons y l hy rest ih =>
    have hmem : x ∈ l := (mem_cons.mp hx).resolve_left hxh
    by_cases hhead : x = next y
    · exact ⟨y, by simp, hhead.symm⟩
    · obtain ⟨p, hp, hnext⟩ := ih hmem hhead
      exact ⟨p, by simp [hp], hnext⟩

end Linked
