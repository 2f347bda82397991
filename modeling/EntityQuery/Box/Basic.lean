import EntityQuery.Box.Converter
import EntityQuery.Value.Literal

/-!
# Boxes

A box holds the content of its family with a kind, settings and converters. It is built from a loose
value, the seed, with the defaults of its family, or from another box of its family, and in both
cases options override slot by slot. A box shows itself as text, markup, JSON and filter literal.
-/

namespace EntityQuery

/-- A box of one family. -/
structure Box (F : Family) extends Owner F where
  converters : Converters F

/-- Options for building a box: slots for the kind, the settings and the converters. -/
structure Options (F : Family) where
  kind : Slot String
  settings : F.Overrides
  converters : ConverterOverrides F

namespace Options

variable {F : Family}

/-- Options that keep everything. -/
def keep : Options F :=
  ⟨.inherit, F.keepSettings, .keep⟩

instance : Inhabited (Options F) := ⟨keep⟩

end Options

namespace Box

/-! ## Views -/

/-- The content of a box as a loose value. -/
def raw : {F : Family} → Box F → Value
  | .value, b => b.value
  | .bool, b => (b.value.map Value.bool).getD .null
  | .date, b => (b.value.map Value.date).getD .null
  | .number, b => (b.value.map Value.ofNumber).getD .null
  | .lookup, b => b.value

/-- The milliseconds since 1970 of the date in a box. -/
def millis? : {F : Family} → Box F → Option Int
  | .date, b => b.value.map Instant.toMillis
  | _, _ => none

/-- The text of the content when no converter gives one. -/
def nativeText : {F : Family} → F.Content → String
  | .value, v => Value.display v
  | .bool, b => (b.map Value.boolText).getD ""
  | .date, t => (t.map Instant.isoText).getD ""
  | .number, x => (x.map Binary64.numberText).getD ""
  | .lookup, v => Value.display v

/-- The text of a box for people. -/
def display {F : Family} (b : Box F) : String :=
  (b.converters.display b.toOwner).getD (nativeText b.value)

/-- The markup of a box, if it has a converter for it. -/
def html {F : Family} (b : Box F) : Option String :=
  b.converters.html b.toOwner

/-- The value that a box sends: its content, which a boolean box may send as 0 or 1. -/
def sent : {F : Family} → Box F → Value
  | .bool, b =>
    match b.value with
    | none => .null
    | some v => if b.settings.toJsonAsInt then .int (if v then 1 else 0) else .bool v
  | _, b => b.raw

/-- The JSON form of a box. -/
def toJson {F : Family} (b : Box F) : Json :=
  b.sent.toJson

/-- The filter literal of a box. -/
def toFilter {F : Family} (b : Box F) : String :=
  b.sent.toFilter

/-- Interpret text with the parser of a box. Without one, value and lookup boxes take the text as it
is and the others read nothing; a number box takes NaN for nothing. -/
def parse : {F : Family} → Box F → String → F.Content
  | .value, b, text =>
    match b.converters.parse with
    | some p => p b.toOwner text
    | none => Value.text text
  | .bool, b, text =>
    match b.converters.parse with
    | some p => p b.toOwner text
    | none => none
  | .date, b, text =>
    match b.converters.parse with
    | some p => p b.toOwner text
    | none => none
  | .number, b, text =>
    match b.converters.parse with
    | some p => Option.filter (fun x => !x.isNaN) (p b.toOwner text)
    | none => none
  | .lookup, b, text =>
    match b.converters.parse with
    | some p => p b.toOwner text
    | none => Value.text text

/-- Equality of boxes looks at the content alone. -/
def same : {F : Family} → Box F → Box F → Bool
  | .value, a, b => Value.strictEq a.value b.value
  | .bool, a, b => a.value == b.value
  | .date, a, b => a.value == b.value
  | .number, a, b =>
    match a.value, b.value with
    | some x, some y => x.equal y
    | none, none => true
    | _, _ => false
  | .lookup, a, b => Value.strictEq a.value b.value

/-! ## Building -/

/-- The instant that a seed stands for: numbers count milliseconds since 1970, texts are timestamps
or bare dates, and truth values count as 0 and 1. -/
def instantOfSeed : Value → Option Instant
  | .date t => some t
  | .int ms => Instant.ofMillis? ms.toInt
  | .float (.finite ms) => Instant.ofMillis? ms.truncate
  | .bool b => Instant.ofMillis? (if b then 1 else 0)
  | .text s => Instant.ofText? s
  | .json (.text s) => Instant.ofText? s
  | _ => none

/-- The content that a seed gives to a box, whose parser reads the texts of numbers. -/
def contentOfSeed : {F : Family} → Box F → Value → F.Content
  | .value, _, seed => seed
  | .bool, _, seed => if seed.isNull then none else some seed.isTruthy
  | .date, _, seed => instantOfSeed seed
  | .number, b, seed =>
    match seed.text? with
    | some text => b.parse text
    | none => Option.filter (fun x => !x.isNaN) seed.number?
  | .lookup, _, seed => seed

/-- A box without content, with the defaults of its family and the given overrides. -/
def blank {F : Family} (o : Options F) : Box F :=
  { value := F.emptyContent
    kind := o.kind.resolve none
    settings := F.resolveSettings o.settings F.defaultSettings
    converters := o.converters.apply (Converters.defaults F) }

/-- Build a box from a loose value. -/
def ofSeed {F : Family} (seed : Value) (o : Options F) : Box F :=
  { blank o with value := (blank o).contentOfSeed seed }

/-- Build a box from another one of its family: its content, and its kind, settings and converters
where the options do not override them. -/
def ofBox {F : Family} (source : Box F) (o : Options F) : Box F :=
  { value := source.value
    kind := o.kind.resolve source.kind
    settings := F.resolveSettings o.settings source.settings
    converters := o.converters.apply source.converters }

/-- Build a box from a literal of the filter language. -/
def ofFilter {F : Family} (text : String) (o : Options F) : Box F :=
  ofSeed (.ofLiteral text) o

end Box

/-! ## Boxes of any family -/

/-- A box of some family. -/
structure AnyBox where
  family : Family
  box : Box family

/-- Options for some family. -/
structure AnyOptions where
  family : Family
  options : Options family

namespace AnyBox

/-- The content as a loose value. -/
def raw (b : AnyBox) : Value := b.box.raw

/-- The JSON form. -/
def toJson (b : AnyBox) : Json := b.box.toJson

/-- The filter literal. -/
def toFilter (b : AnyBox) : String := b.box.toFilter

/-- The text for people. -/
def display (b : AnyBox) : String := b.box.display

/-- The markup, if there is a converter for it. -/
def html (b : AnyBox) : Option String := b.box.html

/-- The kind. -/
def kind (b : AnyBox) : Option String := b.box.kind

/-- The box, if it belongs to a family. -/
def ofFamily? (F : Family) (b : AnyBox) : Option (Box F) :=
  if h : b.family = F then some (h ▸ b.box) else none

/-- Equality of boxes: those of different families differ. -/
def same (a b : AnyBox) : Bool :=
  match b.ofFamily? a.family with
  | some box => a.box.same box
  | none => false

end AnyBox

end EntityQuery
