import EntityQuery.Filter.Compile

/-!
# The structure of a filter tree

An `Outline` keeps of a filter tree what can be seen in its text: the operators, the lists, the
number and order of operands, and each leaf as the text that it contributes. `Predicate.pruned`
deletes the operands that a variadic operator leaves out, and `Predicate.outline` forgets what kind
of leaf gave a text. The text of an outline is put together from the texts of its parts.
-/

namespace EntityQuery

/-! ## Outlines -/

/-- The structure of a filter tree. -/
inductive Outline where
  | nothing
  | leaf (text : String)
  | list (items : List Outline)
  | operation (op : Operator) (operand : Outline)

namespace Outline

mutual

/-- The text of a structure; what is no operand of its operator has none. -/
def text : Outline → String
  | .nothing => ""
  | .leaf s => s
  | .list items => listText (texts items)
  | .operation op operand =>
    match op.shape, operand with
    | .unary, x => unaryText op (text x)
    | .binary, .list [x, y] => binaryText op (text x) (text y)
    | .variadic, .list xs => variadicText op (texts xs)
    | .collection, .list (x :: xs) => collectionText op (text x) (texts xs)
    | .function, .list xs => functionText op (texts xs)
    | _, _ => ""

/-- The texts of some structures. -/
def texts : List Outline → List String
  | [] => []
  | x :: xs => text x :: texts xs

end

@[simp] theorem texts_eq_map (xs : List Outline) : texts xs = xs.map text := by
  induction xs with
  | nil => rfl
  | cons x xs ih => exact congrArg (x.text :: ·) ih

@[simp] theorem text_leaf (s : String) : (leaf s).text = s := rfl

@[simp] theorem text_list (xs : List Outline) : (list xs).text = listText (xs.map text) :=
  congrArg listText (texts_eq_map xs)

/-- The text of an operation, by the shape of its operator. -/
theorem text_operation (op : Operator) (operand : Outline) :
    (operation op operand).text =
      match op.shape, operand with
      | .unary, x => unaryText op x.text
      | .binary, .list [x, y] => binaryText op x.text y.text
      | .variadic, .list xs => variadicText op (xs.map text)
      | .collection, .list (x :: xs) => collectionText op x.text (xs.map text)
      | .function, .list xs => functionText op (xs.map text)
      | _, _ => "" := by
  rw [text.eq_def]
  simp only [texts_eq_map]

section Operation

variable {op : Operator}

theorem text_unary (h : op.shape = .unary) (x : Outline) :
    (operation op x).text = unaryText op x.text := by
  rw [text_operation, h]

theorem text_binary (h : op.shape = .binary) (x y : Outline) :
    (operation op (list [x, y])).text = binaryText op x.text y.text := by
  rw [text_operation, h]

theorem text_variadic (h : op.shape = .variadic) (xs : List Outline) :
    (operation op (list xs)).text = variadicText op (xs.map text) := by
  rw [text_operation, h]

theorem text_collection (h : op.shape = .collection) (x : Outline) (xs : List Outline) :
    (operation op (list (x :: xs))).text = collectionText op x.text (xs.map text) := by
  rw [text_operation, h]

theorem text_function (h : op.shape = .function) (xs : List Outline) :
    (operation op (list xs)).text = functionText op (xs.map text) := by
  rw [text_operation, h]

end Operation

end Outline

/-! ## The outline of a tree -/

namespace Predicate

/-- A list without its absent items. -/
def dropAbsent {ι : Type} : Predicate ι → Predicate ι
  | .list items => .list (items.filter fun p => !p.isAbsent)
  | p => p

mutual

/-- A tree without the absent operands of its variadic operators. -/
def pruned {ι : Type} : Predicate ι → Predicate ι
  | .list items => .list (prunedItems items)
  | .operation op operand =>
    .operation op (if op.shape = .variadic then dropAbsent (pruned operand) else pruned operand)
  | p => p

/-- The items of a list, each pruned. -/
def prunedItems {ι : Type} : List (Predicate ι) → List (Predicate ι)
  | [] => []
  | p :: ps => pruned p :: prunedItems ps

end

mutual

/-- The structure of a tree, with each leaf as its own text. -/
def outline : Predicate Empty → Outline
  | .undefined => .nothing
  | .null => .leaf "null"
  | .text s => .leaf s
  | .int n => .leaf (Value.intText n)
  | .float x => .leaf x.numberText
  | .bool b => .leaf (Value.boolText b)
  | .date t => .leaf (Value.dateLiteral t)
  | .boxed b => .leaf b.toFilter
  | .list items => .list (outlineItems items)
  | .operation op operand => .operation op (outline operand)

/-- The structures of the items of a list. -/
def outlineItems : List (Predicate Empty) → List Outline
  | [] => []
  | p :: ps => outline p :: outlineItems ps

end

section Pruned

variable {ι : Type}

@[simp] theorem prunedItems_eq_map (ps : List (Predicate ι)) : prunedItems ps = ps.map pruned := by
  induction ps with
  | nil => rfl
  | cons p ps ih => exact congrArg (p.pruned :: ·) ih

@[simp] theorem isAbsent_pruned (p : Predicate ι) : p.pruned.isAbsent = p.isAbsent := by
  cases p <;> rfl

@[simp] theorem pruned_list (ps : List (Predicate ι)) :
    (list ps).pruned = list (ps.map pruned) :=
  congrArg list (prunedItems_eq_map ps)

theorem pruned_variadic {op : Operator} (h : op.shape = .variadic) (ps : List (Predicate ι)) :
    (operation op (list ps)).pruned =
      operation op (list ((ps.filter fun p => !p.isAbsent).map pruned)) := by
  rw [pruned, if_pos h, pruned_list, dropAbsent, List.filter_map]
  simp only [Function.comp_def, isAbsent_pruned]

theorem pruned_operation {op : Operator} (h : op.shape ≠ .variadic) (p : Predicate ι) :
    (operation op p).pruned = operation op p.pruned := by
  rw [pruned, if_neg h]

end Pruned

@[simp] theorem outlineItems_eq_map (ps : List (Predicate Empty)) :
    outlineItems ps = ps.map outline := by
  induction ps with
  | nil => rfl
  | cons p ps ih => exact congrArg (p.outline :: ·) ih

@[simp] theorem outline_list (ps : List (Predicate Empty)) :
    (list ps).outline = .list (ps.map outline) :=
  congrArg Outline.list (outlineItems_eq_map ps)

end Predicate

end EntityQuery
