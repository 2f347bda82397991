import EntityQuery.Box.Basic
import EntityQuery.Record.Entries

/-!
# Records

A record is one entity as the service sends it: named fields in order, each a loose value or a box.
-/

namespace EntityQuery

/-- A field of a record. -/
inductive Field where
  | raw (v : Value)
  | boxed (b : AnyBox)

namespace Field

/-- The field as a loose value. -/
def toValue : Field → Value
  | .raw v => v
  | .boxed b => b.raw

/-- The box in the field, if there is one. -/
def box? : Field → Option AnyBox
  | .raw _ => none
  | .boxed b => some b

/-- The JSON form of the field. -/
def toJson : Field → Json
  | .raw v => v.toJson
  | .boxed b => b.toJson

/-- Equality of fields: a box never equals a loose value. -/
def same : Field → Field → Bool
  | .raw v, .raw w => v.structEq w
  | .boxed a, .boxed b => a.same b
  | _, _ => false

end Field

/-- The fields of an entity. -/
abbrev Record := Entries Field

namespace Record

/-- The record of a JSON object; any other document gives a record without fields. -/
def ofJson : Json → Record
  | .object members => Entries.ofList (members.map fun m => (m.1, .raw (.ofJson m.2)))
  | _ => Entries.empty

/-- The record of a JSON object, and of nothing else. -/
def ofObject? : Json → Option Record
  | .object members => some (ofJson (.object members))
  | _ => none

/-- The JSON form of a record. -/
def toJson (r : Record) : Json :=
  .object (r.toList.map fun e => (e.1, e.2.toJson))

/-- The box in a field, if there is one. -/
def box? (r : Record) (key : String) : Option AnyBox :=
  (r.get? key).bind Field.box?

/-- A member of the JSON object that a loose field holds. -/
def member? (r : Record) (nav key : String) : Option Value :=
  match r.get? nav with
  | some (.raw (.json (.object members))) => (members.lookup key).map Value.ofJson
  | _ => none

/-- Equality of records: the same names with equal fields, in any order. -/
def same (a b : Record) : Bool :=
  a.size == b.size && a.toList.all fun e =>
    match b.get? e.1 with
    | some f => e.2.same f
    | none => false

end Record

/-- Build a box of a family from a field: a box of the family is copied, a box of another family
and a loose value are seeds, and a missing field seeds with null. -/
def Box.ofField {F : Family} (field : Option Field) (o : Options F) : Box F :=
  match field with
  | some (.boxed b) =>
    match b.ofFamily? F with
    | some source => ofBox source o
    | none => ofSeed b.raw o
  | some (.raw v) => ofSeed v o
  | none => ofSeed .null o

end EntityQuery
