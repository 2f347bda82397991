import EntityQuery.Filter.Compile

/-!
# The traversal by the shape of the operator

What `Predicate.render` does with an operator, one equation for each shape, in any monad with
faults. The rest of the theory reaches the traversal of operators only through these equations.

The shapes differ less than they seem to. A list and every operator with a list of operands take a
text from each of them, from left to right (`textOf`), and put these texts together; an operator
only chooses which operands it takes (`kept`), whether it can do without a text (`Operator.needs`)
and how the result is written (`operationText`). `render_operands` says so for all shapes at once.
-/

namespace EntityQuery

/-- Whether an operator of a shape takes a list of so many operands. -/
def Shape.admits : Shape → Nat → Bool
  | .binary, n => n == 2
  | .collection, n => decide (2 ≤ n)
  | _, _ => true

theorem Shape.pair_of_admits {α : Type} {xs : List α} (h : binary.admits xs.length = true) :
    ∃ x y, xs = [x, y] := by
  rw [admits, beq_iff_eq] at h
  match xs, h with
  | [x, y], _ => exact ⟨x, y, rfl⟩

theorem Shape.subject_of_admits {α : Type} {xs : List α} (h : collection.admits xs.length = true) :
    ∃ x y rest, xs = x :: y :: rest := by
  rw [admits, decide_eq_true_eq] at h
  match xs, h with
  | x :: y :: rest, _ => exact ⟨x, y, rest, rfl⟩

theorem Shape.ne_unary_of_not_admits {sh : Shape} {n : Nat} (h : sh.admits n = false) :
    sh ≠ .unary := by
  rintro rfl
  cases h

/-- The lists of operands that an operator may stand before: of a wrong length, or as its shape
wants them. -/
theorem Shape.operands_cases {α : Type} {sh : Shape} (h : sh ≠ .unary) (xs : List α) :
    sh.admits xs.length = false ∨ (sh = .binary ∧ ∃ x y, xs = [x, y]) ∨ sh = .variadic ∨
      (sh = .collection ∧ ∃ x y rest, xs = x :: y :: rest) ∨ sh = .function := by
  cases hadmits : sh.admits xs.length with
  | false => exact Or.inl rfl
  | true =>
    cases sh with
    | unary => exact absurd rfl h
    | binary => exact Or.inr (Or.inl ⟨rfl, pair_of_admits hadmits⟩)
    | variadic => exact Or.inr (Or.inr (Or.inl rfl))
    | collection => exact Or.inr (Or.inr (Or.inr (Or.inl ⟨rfl, subject_of_admits hadmits⟩)))
    | function => exact Or.inr (Or.inr (Or.inr (Or.inr rfl)))

namespace Predicate

section Operators

variable {m : Type → Type} [Monad m] [MonadExcept FilterFault m] {ι : Type}
  (call : ι → m (Option String)) {op : Operator}

/-- What an operation compiles to. The definition is opened here only. -/
theorem render_operation (op : Operator) (operand : Predicate ι) :
    render call (.operation op operand) =
      match op.shape with
      | .unary => do
        let x ← requireText op (← render call operand)
        pure (some (unaryText op x))
      | .binary =>
        match operand with
        | .list [left, right] => do
          let x ← requireText op (← render call left)
          let y ← requireText op (← render call right)
          pure (some (binaryText op x y))
        | .list items => throw (.operandArity op items.length)
        | _ => throw (.operandShape op)
      | .variadic =>
        match operand with
        | .list items => do
          let texts ← renderPresent call items
          pure (some (variadicText op texts))
        | _ => throw (.operandShape op)
      | .collection =>
        match operand with
        | .list (subject :: option :: options) => do
          let x ← requireText op (← render call subject)
          let y ← requireText op (← render call option)
          let ys ← renderOperands call op options
          pure (some (collectionText op x (y :: ys)))
        | .list items => throw (.operandArity op items.length)
        | _ => throw (.operandShape op)
      | .function =>
        match operand with
        | .list items => do
          let texts ← renderOperands call op items
          pure (some (functionText op texts))
        | _ => throw (.operandShape op) :=
  render.eq_def call (.operation op operand)

theorem render_unary (h : op.shape = .unary) (p : Predicate ι) :
    render call (.operation op p) = (do
      let x ← requireText op (← render call p)
      pure (some (unaryText op x))) := by
  simp only [render_operation, h]

theorem render_binary (h : op.shape = .binary) (left right : Predicate ι) :
    render call (.operation op (.list [left, right])) = (do
      let x ← requireText op (← render call left)
      let y ← requireText op (← render call right)
      pure (some (binaryText op x y))) := by
  simp only [render_operation, h]

theorem render_variadic (h : op.shape = .variadic) (ps : List (Predicate ι)) :
    render call (.operation op (.list ps)) = (do
      let texts ← renderPresent call ps
      pure (some (variadicText op texts))) := by
  simp only [render_operation, h]

theorem render_collection (h : op.shape = .collection) (subject option : Predicate ι)
    (options : List (Predicate ι)) :
    render call (.operation op (.list (subject :: option :: options))) = (do
      let x ← requireText op (← render call subject)
      let y ← requireText op (← render call option)
      let ys ← renderOperands call op options
      pure (some (collectionText op x (y :: ys)))) := by
  simp only [render_operation, h]

theorem render_function (h : op.shape = .function) (ps : List (Predicate ι)) :
    render call (.operation op (.list ps)) = (do
      let texts ← renderOperands call op ps
      pure (some (functionText op texts))) := by
  simp only [render_operation, h]

theorem render_of_not_admits {ps : List (Predicate ι)} (h : op.shape.admits ps.length = false) :
    render call (.operation op (.list ps)) = throw (.operandArity op ps.length) := by
  rw [render_operation]
  cases hs : op.shape with
  | binary =>
    simp only [hs, Shape.admits] at h ⊢
    match ps with
    | [] | [_] | _ :: _ :: _ :: _ => rfl
    | [_, _] => simp at h
  | collection =>
    simp only [hs, Shape.admits] at h ⊢
    match ps with
    | [] | [_] => rfl
    | _ :: _ :: _ => simp at h
  | unary | variadic | function => simp [hs, Shape.admits] at h

theorem render_of_not_list (h : op.shape ≠ .unary) {p : Predicate ι} (hp : ∀ ps, p ≠ .list ps) :
    render call (.operation op p) = throw (.operandShape op) := by
  rw [render_operation]
  cases p with
  | list ps => exact absurd rfl (hp ps)
  | _ => cases hs : op.shape <;> simp_all

end Operators

end Predicate

/-! ## All shapes at once -/

/-- What an operator needs from each of its operands: a variadic one can do without a text. -/
def Operator.needs (op : Operator) : Option Operator :=
  if op.shape = .variadic then none else some op

/-- The text of an operator that is not unary, around the texts of its operands. -/
def operationText (op : Operator) (xs : List String) : String :=
  match op.shape, xs with
  | .collection, x :: options => collectionText op x options
  | .function, xs => functionText op xs
  | _, xs => variadicText op xs

section OperationText

variable {op : Operator}

theorem operationText_binary (h : op.shape = .binary) (x y : String) :
    operationText op [x, y] = binaryText op x y := by
  simp [operationText, h, variadicText, binaryText, joinWith, String.append_assoc]

theorem operationText_variadic (h : op.shape = .variadic) (xs : List String) :
    operationText op xs = variadicText op xs := by
  simp only [operationText, h]

theorem operationText_collection (h : op.shape = .collection) (x : String) (xs : List String) :
    operationText op (x :: xs) = collectionText op x xs := by
  simp only [operationText, h]

theorem operationText_function (h : op.shape = .function) (xs : List String) :
    operationText op xs = functionText op xs := by
  simp only [operationText, h]

end OperationText

namespace Predicate

section Operands

variable {m : Type → Type} [Monad m] [MonadExcept FilterFault m] {ι : Type}

/-- A text from what a tree gives. An operator may need it; if none does, nothing counts as the
empty text. -/
def takeText : Option Operator → Option String → m String
  | none, x => pure (x.getD "")
  | some op, x => requireText op x

/-- The text that is taken from a tree. -/
def textOf (call : ι → m (Option String)) (needed : Option Operator) (p : Predicate ι) : m String :=
  render call p >>= takeText needed

/-- The operands that an operator takes a text from. -/
def kept (op : Operator) (ps : List (Predicate ι)) : List (Predicate ι) :=
  if op.shape = .variadic then ps.filter fun p => !p.isAbsent else ps

theorem mem_of_mem_kept {op : Operator} {ps : List (Predicate ι)} {p : Predicate ι}
    (h : p ∈ kept op ps) : p ∈ ps := by
  unfold kept at h
  split at h
  · exact (List.mem_filter.mp h).1
  · exact h

variable [LawfulMonad m] (call : ι → m (Option String)) {op : Operator}

theorem renderItems_eq_mapM (ps : List (Predicate ι)) :
    renderItems call ps = ps.mapM (textOf call none) := by
  induction ps with
  | nil => simp [renderItems]
  | cons p ps ih =>
    rw [renderItems, List.mapM_cons, textOf, ih]
    simp only [bind_assoc, takeText, pure_bind]

theorem renderPresent_eq_mapM (ps : List (Predicate ι)) :
    renderPresent call ps = (ps.filter fun p => !p.isAbsent).mapM (textOf call none) := by
  induction ps with
  | nil => simp [renderPresent]
  | cons p ps ih =>
    by_cases hp : p.isAbsent = true
    · rw [renderPresent, if_pos hp, ih]
      simp [hp]
    · rw [renderPresent, if_neg hp, ih, List.filter_cons_of_pos (by simpa using hp),
        List.mapM_cons, textOf]
      simp only [bind_assoc, takeText, pure_bind]

theorem renderOperands_eq_mapM (ps : List (Predicate ι)) :
    renderOperands call op ps = ps.mapM (textOf call (some op)) := by
  induction ps with
  | nil => simp [renderOperands]
  | cons p ps ih =>
    rw [renderOperands, List.mapM_cons, textOf, ih]
    simp only [bind_assoc, takeText]

theorem render_list (ps : List (Predicate ι)) :
    render call (.list ps) = (do
      let texts ← ps.mapM (textOf call none)
      pure (some (listText texts))) := by
  rw [render, renderItems_eq_mapM]

theorem render_operand (h : op.shape = .unary) (p : Predicate ι) :
    render call (.operation op p) = (do
      let x ← textOf call (some op) p
      pure (some (unaryText op x))) := by
  rw [render_unary call h, textOf, bind_assoc]
  rfl

/-- What an operator does with a list of operands that it takes. -/
theorem render_operands (hunary : op.shape ≠ .unary) {ps : List (Predicate ι)}
    (hadmits : op.shape.admits ps.length = true) :
    render call (.operation op (.list ps)) = (do
      let texts ← (kept op ps).mapM (textOf call op.needs)
      pure (some (operationText op texts))) := by
  rcases Shape.operands_cases hunary ps with hnot | ⟨hs, x, y, rfl⟩ | hs | ⟨hs, x, y, rest, rfl⟩ | hs
  · rw [hnot] at hadmits
    cases hadmits
  · rw [render_binary call hs]
    simp [kept, hs, Operator.needs, operationText_binary hs, textOf, takeText]
  · rw [render_variadic call hs, renderPresent_eq_mapM, kept, if_pos hs, Operator.needs, if_pos hs]
    simp only [operationText_variadic hs]
  · rw [render_collection call hs, renderOperands_eq_mapM]
    simp [kept, hs, Operator.needs, operationText_collection hs, textOf, takeText]
  · rw [render_function call hs, renderOperands_eq_mapM]
    simp [kept, hs, Operator.needs, operationText_function hs]

end Operands

end Predicate

end EntityQuery
