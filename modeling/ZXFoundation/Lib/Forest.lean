import Mathlib.Order.WellFoundedSet

/-!
# Parent links

A partial function `parent : ι → Option ι` is a forest when no node is its own proper
ancestor. Links are written one at a time:

* giving a root a parent keeps the forest exactly when the new parent is not below it
  (`acyclic_link_iff`);
* removing links always keeps it (`Acyclic.anti`).

In a finite forest some node is nobody's parent (`Acyclic.exists_leaf`), so its nodes can be
removed one after the other, children first.
-/

namespace Forest

open Function

variable {ι : Type*}

/-- `b` is the parent of `a`. -/
def Edge (parent : ι → Option ι) (a b : ι) : Prop := parent a = some b

/-- Following one or more links from `a` arrives at `b`. -/
def Above (parent : ι → Option ι) : ι → ι → Prop := Relation.TransGen (Edge parent)

def Acyclic (parent : ι → Option ι) : Prop := ∀ a, ¬ Above parent a a

variable {parent : ι → Option ι}

theorem Above.mono {parent' : ι → Option ι} (hsub : ∀ a b, parent a = some b → parent' a = some b)
    {a b : ι} (h : Above parent a b) : Above parent' a b :=
  Relation.TransGen.mono hsub _ _ h

theorem Acyclic.anti {parent' : ι → Option ι} (h : Acyclic parent')
    (hsub : ∀ a b, parent a = some b → parent' a = some b) : Acyclic parent :=
  fun a ha => h a (ha.mono hsub)

section Update

variable [DecidableEq ι]

theorem above_link_cases {c p a b : ι} (h : Above (update parent c (some p)) a b) :
    Above parent a b ∨ Relation.ReflTransGen (Edge parent) a c ∧
      Relation.ReflTransGen (Edge parent) p b := by
  have hedge : ∀ {x y}, Edge (update parent c (some p)) x y → Edge parent x y ∨ x = c ∧ y = p := by
    intro x y hxy
    by_cases hxc : x = c
    · rw [Edge, hxc, update_self] at hxy
      exact Or.inr ⟨hxc, (Option.some.inj hxy).symm⟩
    · rw [Edge, update_of_ne hxc] at hxy
      exact Or.inl hxy
  induction h with
  | single hab =>
    rcases hedge hab with hold | ⟨rfl, rfl⟩
    · exact Or.inl (.single hold)
    · exact Or.inr ⟨.refl, .refl⟩
  | tail _ hbc ih =>
    rcases hedge hbc with hold | ⟨rfl, rfl⟩
    · rcases ih with hab | ⟨hac, hpb⟩
      · exact Or.inl (hab.tail hold)
      · exact Or.inr ⟨hac, hpb.tail hold⟩
    -- the last step is the new link: the path up to it decides how `c` was reached
    rcases ih with hab | ⟨hac, _⟩
    · exact Or.inr ⟨hab.to_reflTransGen, .refl⟩
    · exact Or.inr ⟨hac, .refl⟩

/-- Giving the root `c` the parent `p` keeps the forest exactly when `c` is not already an
ancestor of `p` (nor `p` itself). -/
theorem acyclic_link_iff {c p : ι} (h : Acyclic parent) (hc : parent c = none) :
    Acyclic (update parent c (some p)) ↔ ¬ Relation.ReflTransGen (Edge parent) p c := by
  constructor
  · intro hacyc hpc
    have hmono : ∀ x y, parent x = some y → update parent c (some p) x = some y := by
      intro x y hxy
      have hxc : x ≠ c := fun heq => by simp [heq, hc] at hxy
      rwa [update_of_ne hxc]
    have hnew : Edge (update parent c (some p)) c p := by
      rw [Edge, update_self]
    have hback : Relation.ReflTransGen (Edge (update parent c (some p))) p c :=
      Relation.ReflTransGen.mono hmono _ _ hpc
    exact hacyc c (Relation.TransGen.head' hnew hback)
  · intro hpc a ha
    rcases above_link_cases ha with hold | ⟨hac, hpa⟩
    · exact h a hold
    · exact hpc (hpa.trans hac)

end Update

theorem Acyclic.exists_leaf (h : Acyclic parent) {S : Finset ι} (hS : S.Nonempty) :
    ∃ a ∈ S, ∀ b ∈ S, parent b ≠ some a := by
  classical
  -- `Above` is a strict order on the finite set, so `S` has a lowest element
  let r : S → S → Prop := fun a b => Above parent a.1 b.1
  have hwf : WellFounded r := by
    have : IsTrans S r := ⟨fun _ _ _ hab hbc => hab.trans hbc⟩
    have : Std.Irrefl r := ⟨fun a ha => h a.1 ha⟩
    exact Finite.wellFounded_of_trans_of_irrefl r
  obtain ⟨a₀, ha₀⟩ := hS
  obtain ⟨a, _, hmin⟩ := hwf.has_min Set.univ ⟨⟨a₀, ha₀⟩, trivial⟩
  exact ⟨a.1, a.2, fun b hb hba => hmin ⟨b, hb⟩ trivial (Relation.TransGen.single hba)⟩

end Forest
