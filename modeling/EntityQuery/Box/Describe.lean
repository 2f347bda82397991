import EntityQuery.Box.Basic
import EntityQuery.Text.Hidden

/-!
# Describing options and converters

The text that shows what a set of options overrides and which converters a box has, for diagnosis.
-/

namespace EntityQuery

/-! ## Quoted text -/

/-- A character inside a quoted text of a description: quotes and backslashes get a backslash, and
what does not show is written by a name or by its code point. -/
def describeChar (c : Char) : List Char :=
  match c with
  | '"' => ['\\', '"']
  | '\\' => ['\\', '\\']
  | '\t' => ['\\', 't']
  | '\n' => ['\\', 'n']
  | '\r' => ['\\', 'r']
  | _ =>
    if c.toNat = 0 then ['\\', '0']
    else if Text.isHidden c then
      "\\u\x7b".toList ++ Nat.toDigits 16 c.toNat ++ ['\x7d']
    else [c]

/-- A quoted text. -/
def describeText (s : String) : String :=
  String.ofList ('"' :: s.toList.flatMap describeChar ++ ['"'])

/-! ## Records -/

/-- A named value with named members. -/
def describeRecord (name : String) (members : List (String × String)) : String :=
  name ++ " \x7b " ++ ", ".intercalate (members.map fun m => m.1 ++ ": " ++ m.2) ++ " \x7d"

/-! ## Options -/

namespace Slot

variable {α : Type}

/-- A slot with its value. -/
def describe (value : α → String) : Slot α → String
  | .inherit => "Inherit"
  | .set a => "Set(" ++ value a ++ ")"
  | .clear => "Clear"

/-- A slot without its value. -/
def label : Slot α → String
  | .inherit => "inherit"
  | .set _ => "set"
  | .clear => "clear"

end Slot

/-- A flag that may be absent. -/
def describeFlag : Option Bool → String
  | none => "None"
  | some b => "Some(" ++ Value.boolText b ++ ")"

/-- A slot for a number of digits. -/
def describeDigits : Slot UInt32 → String :=
  Slot.describe fun n => String.ofList (Text.digitsOf n.toNat)

/-- The slots for converters. -/
def ConverterOverrides.describe {F : Family} (o : ConverterOverrides F) : String :=
  describeRecord "ConverterOverrides"
    [("stringify", describeText o.stringify.label), ("parse", describeText o.parse.label),
      ("formatify", describeText o.formatify.label), ("htmlify", describeText o.htmlify.label)]

/-- The family as a title. -/
def Family.title : Family → String
  | .value => "Value"
  | .bool => "Bool"
  | .date => "Date"
  | .number => "Number"
  | .lookup => "Lookup"

/-- The slots for the settings of a family. -/
def Family.describeOverrides : (F : Family) → F.Overrides → List (String × String)
  | .value, _ => []
  | .bool, o => [("to_json_as_int", describeFlag o)]
  | .date, o => [("has_time", describeFlag o)]
  | .number, o =>
    [("use_grouping", describeFlag o.useGrouping),
      ("fraction_digits", describeDigits o.fractionDigits),
      ("minimum_integer_digits", describeDigits o.minimumIntegerDigits)]
  | .lookup, o => [("text", Slot.describe describeText o)]

/-- A set of options with its family. -/
def AnyOptions.describe (o : AnyOptions) : String :=
  o.family.title ++ "(" ++
    describeRecord (o.family.title ++ "Options")
      (("kind", o.options.kind.describe describeText) ::
        (o.family.describeOverrides o.options.settings ++
          [("converters", o.options.converters.describe)])) ++ ")"

/-! ## Converters -/

/-- Which converters there are. -/
def Converters.describe {F : Family} (c : Converters F) : String :=
  describeRecord "Converters"
    [("stringify", Value.boolText c.stringify.isSome), ("parse", Value.boolText c.parse.isSome),
      ("formatify", Value.boolText c.formatify.isSome),
      ("htmlify", Value.boolText c.htmlify.isSome)]

end EntityQuery
