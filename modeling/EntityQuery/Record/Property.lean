import EntityQuery.Json.Reader
import EntityQuery.Record.Basic

/-!
# Properties

The description of one property of an entity: its key, the type its field is boxed as, the
navigation property that holds the related record, and the table of options. Descriptions are
written to JSON and read from it.
-/

namespace EntityQuery

/-- One entry of a lookup table. -/
structure Choice where
  value : Value
  text : String

/-- The description of a property. -/
structure Property where
  /-- The name of the field. -/
  key : String
  /-- The name of the type of its box. -/
  kind : Option String
  /-- The navigation property that holds the related record. -/
  expand : Option String
  /-- The property of the related record that holds the text. -/
  expandText : Option String
  /-- The table of texts, used when there is no navigation property. -/
  options : Option (List Choice)

/-! ## Writing -/

/-- The JSON form of a table entry. -/
def Choice.toJson (c : Choice) : Json :=
  .object [("value", c.value.toJson), ("text", .text c.text)]

namespace Property

/-- A member that is left out when there is nothing to write. -/
def optionalMember (name : String) (value : Option Json) : List (String × Json) :=
  match value with
  | some j => [(name, j)]
  | none => []

/-- The JSON form of a description; what is absent is left out. -/
def toJson (p : Property) : Json :=
  .object <|
    ("key", .text p.key) ::
      (optionalMember "type" (p.kind.map .text) ++
        optionalMember "expand" (p.expand.map .text) ++
        optionalMember "expand_text" (p.expandText.map .text) ++
        optionalMember "options" (p.options.map fun cs => .array (cs.map Choice.toJson)))

end Property

/-! ## Reading

A member that may be absent may also be null. Objects may hold unknown members; arrays list the
known members in order, and only the last ones that may be absent can be left out. -/

/-- Read a text. -/
def Json.text? : Json → Option String
  | .text s => some s
  | _ => none

/-- Read a text that may be null. -/
def Json.optionalText? : Json → Option (Option String)
  | .null => some none
  | .text s => some (some s)
  | _ => none

/-- Read a table entry. -/
def Choice.ofJson? : Json → Option Choice
  | .object members => do
    let value ← members.lookup "value"
    let text ← (← members.lookup "text").text?
    return ⟨.ofJson value, text⟩
  | .array [value, text] => do
    let text ← text.text?
    return ⟨.ofJson value, text⟩
  | _ => none

namespace Property

/-- Read a table that may be null. -/
def optionalChoices? : Json → Option (Option (List Choice))
  | .null => some none
  | .array items => (items.mapM Choice.ofJson?).map some
  | _ => none

/-- Read a member that may be absent. -/
def readOptional {α : Type} (read : Json → Option (Option α)) : Option Json → Option (Option α)
  | some j => read j
  | none => some none

/-- The member that holds the property of the text: it has two names, and only one may be used. -/
def expandTextMember? (members : List (String × Json)) : Option (Option Json) :=
  match members.lookup "expand_text", members.lookup "expandText" with
  | some _, some _ => none
  | some j, none => some (some j)
  | none, some j => some (some j)
  | none, none => some none

/-- Read the members of a description. -/
def ofMembers? (key kind expand expandText options : Option Json) : Option Property := do
  let key ← (← key).text?
  let kind ← readOptional Json.optionalText? kind
  let expand ← readOptional Json.optionalText? expand
  let expandText ← readOptional Json.optionalText? expandText
  let options ← readOptional optionalChoices? options
  return ⟨key, kind, expand, expandText, options⟩

/-- Read a description from JSON. -/
def ofJson? : Json → Option Property
  | .object members => do
    let expandText ← expandTextMember? members
    ofMembers? (members.lookup "key") (members.lookup "type") (members.lookup "expand") expandText
      (members.lookup "options")
  | .array items =>
    if items.length ≤ 5 then ofMembers? items[0]? items[1]? items[2]? items[3]? items[4]? else none
  | _ => none

end Property

end EntityQuery
