/-!
# Option slots

A slot of a set of options says what happens to one setting of a box when the box is built: keep
what the base provides, replace it, or remove it. Merging two slots puts the later one on top.
-/

namespace EntityQuery

/-- What happens to a setting. -/
inductive Slot (α : Type) where
  | inherit
  | set (a : α)
  | clear
deriving DecidableEq

namespace Slot

variable {α : Type}

instance : Inhabited (Slot α) := ⟨.inherit⟩

/-- The setting that a slot gives on top of an inherited one. -/
def resolve : Slot α → Option α → Option α
  | .inherit, base => base
  | .set a, _ => some a
  | .clear, _ => none

/-- The slot that acts as `first` and then `second`. -/
def merge (first second : Slot α) : Slot α :=
  match second with
  | .inherit => first
  | s => s

@[simp] theorem resolve_inherit (base : Option α) : (inherit : Slot α).resolve base = base := rfl

@[simp] theorem resolve_merge (first second : Slot α) (base : Option α) :
    (first.merge second).resolve base = second.resolve (first.resolve base) := by
  cases second <;> rfl

end Slot

end EntityQuery
