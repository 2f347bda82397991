import EntityQuery.Number.Decimal

/-!
# JSON values

JSON documents with the order of their object members kept. Numbers come in two kinds that are never
equal to each other: integers in the range of 64-bit words, signed or unsigned, and finite floats.
-/

namespace EntityQuery

/-- An integer that fits a signed or an unsigned 64-bit word. -/
structure Json.Integer where
  val : Int
  le_val : -0x8000000000000000 ≤ val
  val_lt : val < 0x10000000000000000
deriving DecidableEq

/-- A JSON document. -/
inductive Json where
  | null
  | bool (b : Bool)
  | int (n : Json.Integer)
  | float (x : Binary64.Finite)
  | text (s : String)
  | array (items : List Json)
  | object (members : List (String × Json))

namespace Json

/-! ## Integers -/

theorem Integer.toInt_bounds (n : Int64) : -0x8000000000000000 ≤ n.toInt ∧ n.toInt < 0x10000000000000000 := by
  have h := n.le_toInt
  have h' := n.toInt_lt
  omega

/-- A signed word as a JSON integer. -/
def Integer.ofInt64 (n : Int64) : Integer :=
  ⟨n.toInt, (toInt_bounds n).1, (toInt_bounds n).2⟩

/-- An integer, if it fits a word. -/
def Integer.ofInt? (n : Int) : Option Integer :=
  if h : -0x8000000000000000 ≤ n ∧ n < 0x10000000000000000 then some ⟨n, h.1, h.2⟩ else none

/-- The signed word of a JSON integer, if it fits one. -/
def Integer.toInt64? (n : Integer) : Option Int64 :=
  if n.val < 0x8000000000000000 then some (Int64.ofInt n.val) else none

/-- A finite float as a JSON value; the others have no JSON form and become null. -/
def ofBinary64 : Binary64 → Json
  | .finite x => .float x
  | _ => .null

/-- The number that a JSON value is, if it is one. -/
def toBinary64? : Json → Option Binary64
  | .int n => some (.ofInt n.val)
  | .float x => some (.finite x)
  | _ => none

/-! ## Members -/

/-- Set a member of an object: a known key keeps its place, a new one comes last. -/
def setMember (key : String) (value : Json) : List (String × Json) → List (String × Json)
  | [] => [(key, value)]
  | (k, v) :: ms => if k = key then (key, value) :: ms else (k, v) :: setMember key value ms

/-! ## Equality -/

mutual

/-- Equality of documents. Integers equal only integers, floats only floats, the two zeros are
equal, and the order of members does not count. -/
def equal : Json → Json → Bool
  | .null, .null => true
  | .bool a, .bool b => a == b
  | .int a, .int b => a == b
  | .float x, .float y => x.signedUnits == y.signedUnits
  | .text s, .text t => s == t
  | .array xs, .array ys => equalItems xs ys
  | .object ms, .object ns => ms.length == ns.length && equalMembers ms ns
  | _, _ => false

/-- Equality of arrays, item by item. -/
def equalItems : List Json → List Json → Bool
  | [], [] => true
  | x :: xs, y :: ys => equal x y && equalItems xs ys
  | _, _ => false

/-- Whether the second object has every member of the first with an equal value. -/
def equalMembers : List (String × Json) → List (String × Json) → Bool
  | [], _ => true
  | (k, v) :: ms, ns =>
    (match ns.lookup k with
      | some w => equal v w
      | none => false) && equalMembers ms ns

end

end Json

end EntityQuery
