import EntityQuery.Box.Basic
import EntityQuery.Filter.Error

/-!
# Predicates

Filter trees. Besides literals, boxes, lists and operators a tree may hold *thunks*: parts that are
computed anew at every compilation and may depend on what happened before. A thunk is a name `ι`
whose behaviour is given to the compiler, so trees stay plain data; a tree over an empty type of
names has no thunks. Trees are also read from JSON: an object with one member is an operator and its
operand.
-/

namespace EntityQuery

/-- A filter tree with thunks named by `ι`. -/
inductive Predicate (ι : Type) where
  /-- Nothing at all. -/
  | undefined
  | null
  /-- Text that goes into the filter as it is, such as the name of a field. -/
  | text (s : String)
  | int (n : Int64)
  | float (x : Binary64)
  | bool (b : Bool)
  | date (t : Instant)
  | thunk (name : ι)
  | boxed (b : AnyBox)
  | list (items : List (Predicate ι))
  | operation (op : Operator) (operand : Predicate ι)

namespace Predicate

variable {ι : Type}

/-- Whether a tree is null or nothing. A thunk is neither, whatever it yields. -/
def isAbsent : Predicate ι → Bool
  | .null => true
  | .undefined => true
  | _ => false

/-- An operator applied to a list of operands. -/
def apply (op : Operator) (operands : List (Predicate ι)) : Predicate ι :=
  .operation op (.list operands)

/-- An operator between two operands. -/
def between (op : Operator) (left right : Predicate ι) : Predicate ι :=
  apply op [left, right]

/-- The test that a subject is among the options. -/
def isIn (subject : Predicate ι) (options : List (Predicate ι)) : Predicate ι :=
  apply .isIn (subject :: options)

/-- The test that a subject has a flag. -/
def has (subject flag : Predicate ι) : Predicate ι :=
  between .has subject flag

mutual

/-- Read a tree from JSON. The name of an operator is looked up before its operand is read, and
items are read from left to right. -/
def ofJson : Json → Except FilterFault (Predicate ι)
  | .null => .ok .null
  | .bool b => .ok (.bool b)
  | .int n =>
    match n.toInt64? with
    | some i => .ok (.int i)
    | none => .ok (.float (.ofInt n.val))
  | .float x => .ok (.float (.finite x))
  | .text s => .ok (.text s)
  | .array items => (ofJsonItems items).map .list
  | .object members => ofJsonMembers members

/-- Read the items of a list. -/
def ofJsonItems : List Json → Except FilterFault (List (Predicate ι))
  | [] => .ok []
  | j :: js => do
    let p ← ofJson j
    let ps ← ofJsonItems js
    return p :: ps

/-- Read the members of an object: there must be exactly one. -/
def ofJsonMembers : List (String × Json) → Except FilterFault (Predicate ι)
  | [] => .error (.malformed 0)
  | (name, operand) :: rest => do
    if !rest.isEmpty then .error (.malformed (rest.length + 1))
    let op ← Operator.parse name
    let operand ← ofJson operand
    return .operation op operand

end

end Predicate

end EntityQuery
