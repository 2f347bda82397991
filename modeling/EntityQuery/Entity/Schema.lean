import EntityQuery.Filter.Params
import EntityQuery.Record.Replace

/-!
# Schemas

A schema says where an entity lives, which properties it has and as which boxes their fields are
kept. It boxes the fields of records, and builds the expression that asks the service for related
records.
-/

namespace EntityQuery

/-- The description of an entity. -/
structure Schema where
  endpoint : String
  properties : List Property
  /-- The registered box types by name. -/
  types : Entries AnyOptions

/-- Which related records to ask for. -/
inductive Expansion where
  | nothing
  /-- An expression that is used as it is. -/
  | raw (text : String)
  /-- Every property with a navigation property. -/
  | all
  /-- The listed properties only. -/
  | keys (keys : List String)
deriving DecidableEq

namespace Schema

/-- A schema without properties. -/
def ofEndpoint (endpoint : String) : Schema :=
  ⟨endpoint, [], Entries.empty⟩

/-- Add a property after the others. -/
def addProperty (s : Schema) (p : Property) : Schema :=
  { s with properties := s.properties ++ [p] }

/-- Register a box type under a name. -/
def register (s : Schema) (name : String) (o : AnyOptions) : Schema :=
  { s with types := s.types.insert name o }

/-- The first property with a key. -/
def property? (s : Schema) (key : String) : Option Property :=
  s.properties.find? fun p => p.key == key

/-- The registered box type that a property names. -/
def typeFor? (s : Schema) (p : Property) : Option AnyOptions :=
  p.kind.bind s.types.get?

/-- The registered box type of the property with a key. -/
def typeOf? (s : Schema) (key : String) : Option AnyOptions :=
  (s.property? key).bind s.typeFor?

/-! ## Boxing records -/

/-- Box the field of one property: a missing field, and a property without a registered type, are
left alone. -/
def boxProperty (s : Schema) (r : Record) (p : Property) : Record :=
  if r.contains p.key then
    match s.typeFor? p with
    | some o => r.replace p o
    | none => r
  else r

/-- Box every field that has a registered type, property by property. -/
def boxFields (s : Schema) (r : Record) : Record :=
  s.properties.foldl s.boxProperty r

/-! ## Expanding -/

/-- The part of an expand expression that a property asks for. -/
def expandEntry? (p : Property) : Option String :=
  p.expand.map fun nav => nav ++ "($select=" ++ p.expandText.getD "" ++ ")"

/-- The expand expression of the properties that are included, if any of them has one. -/
def expandIncluded (s : Schema) (isIncluded : Property → Bool) : Option String :=
  match (s.properties.filter isIncluded).filterMap expandEntry? with
  | [] => none
  | entries => some (joinWith "," entries)

/-- The expand expression of a directive. -/
def expandExpression (s : Schema) : Expansion → Option String
  | .nothing => none
  | .raw text => some text
  | .all => s.expandIncluded fun _ => true
  | .keys keys => s.expandIncluded fun p => keys.contains p.key

/-- Set the expand parameter by a directive, whatever it was before. -/
def prepareParams {ι : Type} (s : Schema) (q : QueryParams ι) (e : Expansion) : QueryParams ι :=
  { q with expand := s.expandExpression e }

end Schema

end EntityQuery
