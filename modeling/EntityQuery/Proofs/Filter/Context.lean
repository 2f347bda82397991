import EntityQuery.Proofs.Filter.Render

/-!
# Trees with a hole

A `Predicate.Context` is a filter tree with one hole, and `fill` puts a tree into it. Compilation
looks at a tree itself, and not only at what it gives, in two places: the whole operand of an
operator that is not unary must be a list (`BareOperand`), and a variadic operator leaves an operand
out if it is absent (`VariadicOperand`). Everywhere else only the text of the tree in the hole
matters.
-/

namespace EntityQuery

namespace Predicate

/-- A filter tree with one hole. -/
inductive Context (ι : Type) where
  | hole
  /-- The hole is in an item of a list. -/
  | item (before : List (Predicate ι)) (inner : Context ι) (after : List (Predicate ι))
  /-- The hole is in the operand of an operator. -/
  | operand (op : Operator) (inner : Context ι)

namespace Context

variable {ι : Type}

/-- Put a tree into the hole. -/
def fill : Context ι → Predicate ι → Predicate ι
  | hole, p => p
  | item before inner after, p => .list (before ++ inner.fill p :: after)
  | operand op inner, p => .operation op (inner.fill p)

/-- Put a context into the hole. -/
def comp : Context ι → Context ι → Context ι
  | hole, c => c
  | item before inner after, c => item before (inner.comp c) after
  | operand op inner, c => operand op (inner.comp c)

theorem fill_comp (outer c : Context ι) (p : Predicate ι) :
    (outer.comp c).fill p = outer.fill (c.fill p) := by
  induction outer with
  | hole => rfl
  | item before inner after ih => rw [comp, fill, fill, ih]
  | operand op inner ih => rw [comp, fill, fill, ih]

/-- The hole is the whole operand of an operator that is not unary. -/
def BareOperand (c : Context ι) : Prop :=
  ∃ outer op, op.shape ≠ .unary ∧ c = comp outer (operand op hole)

/-- The hole is one of the operands of a variadic operator. -/
def VariadicOperand (c : Context ι) : Prop :=
  ∃ outer op before after, op.shape = .variadic ∧ c = comp outer (operand op (item before hole after))

section Inner

variable {c : Context ι} (before after : List (Predicate ι)) (op : Operator)

theorem BareOperand.item (h : c.BareOperand) : (item before c after).BareOperand := by
  obtain ⟨outer, op, hop, rfl⟩ := h
  exact ⟨.item before outer after, op, hop, rfl⟩

theorem BareOperand.operand (h : c.BareOperand) : (operand op c).BareOperand := by
  obtain ⟨outer, op', hop, rfl⟩ := h
  exact ⟨.operand op outer, op', hop, rfl⟩

theorem VariadicOperand.item (h : c.VariadicOperand) : (item before c after).VariadicOperand := by
  obtain ⟨outer, op, before', after', hop, rfl⟩ := h
  exact ⟨.item before outer after, op, before', after', hop, rfl⟩

theorem VariadicOperand.operand (h : c.VariadicOperand) : (operand op c).VariadicOperand := by
  obtain ⟨outer, op', before, after, hop, rfl⟩ := h
  exact ⟨.operand op outer, op', before, after, hop, rfl⟩

end Inner

/-- Only a tree that is itself absent can leave a filled context absent. -/
theorem isAbsent_fill {c : Context ι} {p : Predicate ι} (h : c = hole → p.isAbsent = false) :
    (c.fill p).isAbsent = false := by
  cases c with
  | hole => exact h rfl
  | item before inner after => rfl
  | operand op inner => rfl

end Context

/-- An operand that is not absent is taken by every operator, between the others that are. -/
theorem kept_append_cons {ι : Type} {op : Operator} (before after : List (Predicate ι))
    {p : Predicate ι} (h : op.shape = .variadic → p.isAbsent = false) :
    kept op (before ++ p :: after) = kept op before ++ p :: kept op after := by
  unfold kept
  by_cases hop : op.shape = .variadic
  · simp only [if_pos hop, List.filter_append]
    rw [List.filter_cons_of_pos (by rw [h hop]; rfl)]
  · simp only [if_neg hop]

end Predicate

end EntityQuery
