import EntityQuery.Record.Property

/-!
# Boxing a field

Replacing a field of a record by a box built from it. A lookup box takes its text from the related
record when its property names one, and from the table of options otherwise.
-/

namespace EntityQuery

/-- The text of the first table entry whose value strictly equals a given one. -/
def Choice.find? (table : List Choice) (v : Value) : Option String :=
  (table.find? fun c => c.value.strictEq v).map Choice.text

namespace Property

/-- The text that a record gives to the lookup box of a property. With a navigation property it is
the member of the related record, unless that is null; otherwise the entry of the table, if there is
a table; otherwise the empty text. Nothing means that an existing text stays. -/
def lookupText? (p : Property) (r : Record) : Option String :=
  match p.expand with
  | some nav =>
    match p.expandText with
    | some member =>
      match r.member? nav member with
      | some v => if v.isNull then none else some v.display
      | none => none
    | none => none
  | none =>
    match p.options with
    | some table => Choice.find? table (((r.get? p.key).map Field.toValue).getD .null)
    | none => some ""

/-- The options for the box of a property: the lookup text of the record goes on top. -/
def optionsIn (p : Property) (r : Record) : AnyOptions → AnyOptions
  | ⟨.lookup, o⟩ =>
    match p.lookupText? r with
    | some text => ⟨.lookup, { o with settings := .set text }⟩
    | none => ⟨.lookup, o⟩
  | o => o

end Property

/-- The box of a property's field in a record. -/
def Record.boxFor (r : Record) (p : Property) (o : AnyOptions) : AnyBox :=
  let o := p.optionsIn r o
  ⟨o.family, Box.ofField (r.get? p.key) o.options⟩

/-- Replace the field of a property by its box; a missing field comes last. -/
def Record.replace (r : Record) (p : Property) (o : AnyOptions) : Record :=
  r.insert p.key (.boxed (r.boxFor p o))

end EntityQuery
