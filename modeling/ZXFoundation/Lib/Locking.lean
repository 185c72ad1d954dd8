import Mathlib.Data.Finset.Basic

/-!
# Lock discipline of one thread of control

What one processor does to a family of spin locks is a list of events: it takes a lock, gives one
back, or touches the data a lock protects. `Disciplined held es` says that, starting with the locks
in `held`, no lock is taken twice, none is given back that is not held, and data is touched only
under its lock; `heldAfter held es` is what is held at the end.
-/

namespace Locking

/-- Taking a lock, giving it back, touching what it protects. -/
inductive Event (ι : Type*) where
  | acquire (i : ι)
  | release (i : ι)
  | access (i : ι)
  deriving DecidableEq, Repr

variable {ι : Type*} [DecidableEq ι]

def heldAfter (held : Finset ι) : List (Event ι) → Finset ι
  | [] => held
  | .acquire i :: es => heldAfter (insert i held) es
  | .release i :: es => heldAfter (held.erase i) es
  | .access _ :: es => heldAfter held es

def Disciplined (held : Finset ι) : List (Event ι) → Prop
  | [] => True
  | .acquire i :: es => i ∉ held ∧ Disciplined (insert i held) es
  | .release i :: es => i ∈ held ∧ Disciplined (held.erase i) es
  | .access i :: es => i ∈ held ∧ Disciplined held es

theorem disciplined_append (held : Finset ι) (es es' : List (Event ι)) :
    Disciplined held (es ++ es') ↔ Disciplined held es ∧ Disciplined (heldAfter held es) es' := by
  induction es generalizing held with
  | nil => exact ⟨fun h => ⟨trivial, h⟩, And.right⟩
  | cons e es ih =>
    cases e with
    | acquire i => exact (and_congr_right fun _ => ih _).trans and_assoc.symm
    | release i => exact (and_congr_right fun _ => ih _).trans and_assoc.symm
    | access i => exact (and_congr_right fun _ => ih _).trans and_assoc.symm

end Locking
