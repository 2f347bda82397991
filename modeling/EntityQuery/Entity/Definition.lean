import EntityQuery.Entity.Schema
import EntityQuery.Text.Template
import EntityQuery.Toml.Reader

/-!
# Entity definitions

The definition of an entity as it is written in a TOML file: the endpoint, the properties, and the
box types with the settings that they declare. References `${NAME}` to the environment are replaced
before the file is read. A definition becomes a schema when its property keys are distinct and every
type that a property names is declared.
-/

namespace EntityQuery

open Toml

/-! ## The type -/

/-- The settings that a number type declares. -/
structure NumberDeclaration where
  useGrouping : Option Bool
  fractionDigits : Option UInt32
  minimumIntegerDigits : Option UInt32
deriving DecidableEq

/-- The settings that a type of a family may declare, its kind apart. -/
abbrev Family.Declaration : Family → Type
  | .value => Unit
  | .bool => Option Bool
  | .date => Option Bool
  | .number => NumberDeclaration
  | .lookup => Unit

/-- A declared box type. -/
structure TypeDeclaration where
  family : Family
  kind : Option String
  settings : family.Declaration

/-- The definition of an entity. -/
structure Definition where
  endpoint : String
  properties : List Property
  types : Entries TypeDeclaration

/-! ## Errors -/

/-- Why there is no definition, or no schema for it. -/
inductive DefinitionError where
  | unreadable (path : String)
  | notToml
  | unknownType (property type : String)
  | duplicateProperty (key : String)
deriving DecidableEq

namespace DefinitionError

/-- The error text. -/
def message : DefinitionError → String
  | .unreadable path => "failed to read file: " ++ path
  | .notToml => "failed to parse TOML"
  | .unknownType property type => "unknown type `" ++ type ++ "` for property `" ++ property ++ "`"
  | .duplicateProperty key => "duplicate property `" ++ key ++ "`"

/-- The code of the error. -/
def code : DefinitionError → String
  | .unreadable _ => "odata::entity::io_error"
  | .notToml => "odata::entity::toml_error"
  | .unknownType _ _ => "odata::entity::unknown_type"
  | .duplicateProperty _ => "odata::entity::duplicate_property"

/-- What to do about the error. -/
def help : DefinitionError → Option String
  | .unknownType _ type => some ("declare it under [types." ++ type ++ "]")
  | _ => none

end DefinitionError

/-! ## From definitions to schemas -/

/-- A setting that a type declares, as a slot. -/
def Slot.ofDeclared {α : Type} : Option α → Slot α
  | some a => .set a
  | none => .inherit

/-- The overrides of declared settings. -/
def Family.overridesOf : (F : Family) → F.Declaration → F.Overrides
  | .value, _ => ()
  | .bool, d => d
  | .date, d => d
  | .number, d =>
    { useGrouping := d.useGrouping
      fractionDigits := Slot.ofDeclared d.fractionDigits
      minimumIntegerDigits := Slot.ofDeclared d.minimumIntegerDigits }
  | .lookup, _ => (Slot.inherit : Slot String)

/-- The options of a declared type; its kind is its name unless it declares another. -/
def TypeDeclaration.toOptions (name : String) (t : TypeDeclaration) : AnyOptions :=
  ⟨t.family, ⟨.set (t.kind.getD name), t.family.overridesOf t.settings, .keep⟩⟩

namespace Definition

/-- Check properties in order, given the keys before them: a key must not repeat one of those, and a
type must be declared. -/
def checkProperties (types : Entries TypeDeclaration) :
    List String → List Property → Except DefinitionError Unit
  | _, [] => .ok ()
  | seen, p :: ps =>
    if p.key ∈ seen then .error (.duplicateProperty p.key)
    else
      match p.kind with
      | some kind =>
        if types.contains kind then checkProperties types (p.key :: seen) ps
        else .error (.unknownType p.key kind)
      | none => checkProperties types (p.key :: seen) ps

/-- The schema of a definition. -/
def toSchema (d : Definition) : Except DefinitionError Schema := do
  checkProperties d.types [] d.properties
  return ⟨d.endpoint, d.properties, d.types.mapValues TypeDeclaration.toOptions⟩

end Definition

/-! ## Reading TOML values

A value that is absent is left open, unknown members of properties and types are ignored, and both
may also be written as arrays with their members in order. -/

namespace Toml.Datum

/-- Read a text. -/
def text? : Datum → Option String
  | .text s => some s
  | _ => none

/-- Read a truth value. -/
def bool? : Datum → Option Bool
  | .bool b => some b
  | _ => none

/-- Read a number of digits. -/
def digits? : Datum → Option UInt32
  | .int n => if 0 ≤ n.toInt ∧ n.toInt < 0x100000000 then some (UInt32.ofNat n.toInt.toNat) else none
  | _ => none

/-- Read what may be absent. -/
def optional? {α : Type} (read : Datum → Option α) : Option Datum → Option (Option α)
  | some d => (read d).map some
  | none => some none

end Toml.Datum

open Toml.Datum (optional?)

/-- Read a table entry; an array may hold more than the value and the text. -/
def Choice.ofDatum? : Datum → Option Choice
  | .table entries => do
    let value ← entries.lookup "value"
    let text ← (← entries.lookup "text").text?
    return ⟨.ofJson value.toJson, text⟩
  | .array (value :: text :: _) => do
    let text ← text.text?
    return ⟨.ofJson value.toJson, text⟩
  | _ => none

/-- Read the entries of a lookup table. -/
def Choice.listOfDatum? : Datum → Option (List Choice)
  | .array items => items.mapM Choice.ofDatum?
  | _ => none

namespace Property

/-- Read the members of a description. -/
def ofData? (key kind expand expandText options : Option Datum) : Option Property := do
  let key ← (← key).text?
  let kind ← optional? Datum.text? kind
  let expand ← optional? Datum.text? expand
  let expandText ← optional? Datum.text? expandText
  let options ← optional? Choice.listOfDatum? options
  return ⟨key, kind, expand, expandText, options⟩

/-- Read a description; the property of the text has two names, of which only one may be used. -/
def ofDatum? : Datum → Option Property
  | .table entries =>
    let expandText := entries.lookup "expand_text"
    let other := entries.lookup "expandText"
    if expandText.isSome ∧ other.isSome then none
    else
      ofData? (entries.lookup "key") (entries.lookup "type") (entries.lookup "expand")
        (expandText <|> other) (entries.lookup "options")
  | .array items => ofData? items[0]? items[1]? items[2]? items[3]? items[4]?
  | _ => none

end Property

namespace TypeDeclaration

/-- The names of the settings of a family in a definition. -/
def settingNames : Family → List String
  | .value => []
  | .bool => ["to_json_as_int"]
  | .date => ["has_time"]
  | .number => ["use_grouping", "fraction_digits", "minimum_integer_digits"]
  | .lookup => []

/-- Read the settings of a family by a look-up of their names. -/
def settings? (get : String → Option Datum) : (F : Family) → Option F.Declaration
  | .value => some ()
  | .bool => (optional? Datum.bool? (get "to_json_as_int") : Option (Option Bool))
  | .date => (optional? Datum.bool? (get "has_time") : Option (Option Bool))
  | .number => do
    let useGrouping ← optional? Datum.bool? (get "use_grouping")
    let fractionDigits ← optional? Datum.digits? (get "fraction_digits")
    let minimumIntegerDigits ← optional? Datum.digits? (get "minimum_integer_digits")
    return (⟨useGrouping, fractionDigits, minimumIntegerDigits⟩ : NumberDeclaration)
  | .lookup => some ()

/-- Read the kind and the settings of a family by a look-up of their names. -/
def read? (F : Family) (get : String → Option Datum) : Option TypeDeclaration := do
  let kind ← optional? Datum.text? (get "kind")
  let settings ← settings? get F
  return ⟨F, kind, settings⟩

/-- Read a declared type: the family under `box`, then the kind and the settings; an array holds all
of them and nothing else. -/
def ofDatum? : Datum → Option TypeDeclaration
  | .table entries => do
    let F ← Family.ofName? (← (← entries.lookup "box").text?)
    read? F fun name => entries.lookup name
  | .array (box :: items) => do
    let F ← Family.ofName? (← box.text?)
    let names := "kind" :: settingNames F
    if items.length = names.length then read? F fun name => (names.zip items).lookup name
    else none
  | _ => none

end TypeDeclaration

namespace Definition

/-- Read the declared types in order. -/
def typesOf? : List (String × Datum) → Option (List (String × TypeDeclaration))
  | [] => some []
  | (name, d) :: es => do
    let t ← TypeDeclaration.ofDatum? d
    let ts ← typesOf? es
    return (name, t) :: ts

/-- Read the properties. -/
def properties? : Datum → Option (List Property)
  | .array items => items.mapM Property.ofDatum?
  | _ => none

/-- Read the types. -/
def types? : Datum → Option (Entries TypeDeclaration)
  | .table entries => (typesOf? entries).map Entries.ofList
  | _ => none

/-- The keys of a definition. -/
def knownKeys : List String := ["endpoint", "properties", "types"]

/-- Read the table of a document as a definition; it holds no unknown keys. -/
def ofTable? (entries : List (String × Datum)) : Option Definition := do
  if entries.any fun e => !knownKeys.contains e.1 then none
  let endpoint ← (← entries.lookup "endpoint").text?
  let properties ← optional? properties? (entries.lookup "properties")
  let types ← optional? types? (entries.lookup "types")
  return ⟨endpoint, properties.getD [], types.getD Entries.empty⟩

/-- Read a definition, with the references to an environment replaced first. -/
def read (env : String → Option String) (text : String) : Except DefinitionError Definition :=
  match (Toml.read? (Text.expandText env text)).bind ofTable? with
  | some d => .ok d
  | none => .error .notToml

/-- Read the definition in a file, given the bytes of the file if there is one. -/
def ofFile (env : String → Option String) (path : String) (bytes : Option ByteArray) :
    Except DefinitionError Definition :=
  match bytes.bind String.fromUTF8? with
  | some text => read env text
  | none => .error (.unreadable path)

end Definition

end EntityQuery
