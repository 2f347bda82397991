import EntityQuery.Box.Family
import EntityQuery.Local.Date
import EntityQuery.Local.Number
import EntityQuery.Local.Truth

/-!
# Converters

The four optional functions of a box that turn its content into text and text into content. A
converter sees its owner: the content, the kind and the settings of the box, without the converters.
-/

namespace EntityQuery

/-- What a converter sees of its box. -/
structure Owner (F : Family) where
  value : F.Content
  kind : Option String
  settings : F.Settings

/-- Renders the content of a box as text. -/
abbrev Format (F : Family) := Owner F → String

/-- Interprets text for a box. -/
abbrev Parse (F : Family) := Owner F → String → F.Content

/-- The converters of a box. -/
structure Converters (F : Family) where
  /-- Plain text. -/
  stringify : Option (Format F)
  /-- Interpretation of text. -/
  parse : Option (Parse F)
  /-- Text for people, preferred over plain text. -/
  formatify : Option (Format F)
  /-- Markup. -/
  htmlify : Option (Format F)

/-- Overrides of the converters of a box. -/
structure ConverterOverrides (F : Family) where
  stringify : Slot (Format F)
  parse : Slot (Parse F)
  formatify : Slot (Format F)
  htmlify : Slot (Format F)

namespace ConverterOverrides

variable {F : Family}

/-- Overrides that keep every converter. -/
def keep : ConverterOverrides F :=
  ⟨.inherit, .inherit, .inherit, .inherit⟩

/-- The converters that overrides give on top of inherited ones. -/
def apply (o : ConverterOverrides F) (base : Converters F) : Converters F :=
  { stringify := o.stringify.resolve base.stringify
    parse := o.parse.resolve base.parse
    formatify := o.formatify.resolve base.formatify
    htmlify := o.htmlify.resolve base.htmlify }

end ConverterOverrides

namespace Converters

variable {F : Family}

/-- No converters. -/
def none : Converters F :=
  ⟨.none, .none, .none, .none⟩

/-- The text for people, or else the plain text. -/
def display (c : Converters F) (owner : Owner F) : Option String :=
  (c.formatify <|> c.stringify).map fun f => f owner

/-- The markup. -/
def html (c : Converters F) (owner : Owner F) : Option String :=
  c.htmlify.map fun f => f owner

/-! ## The converters of new boxes -/

/-- Drop the error of a reading. -/
def accepted {α : Type} : Except TextError α → Option α
  | .ok a => some a
  | .error _ => .none

/-- Whether a text is empty or all white space. -/
def isVoid (text : String) : Bool :=
  text.toList.all Text.isBlank

/-- Booleans read as yes and no. -/
def boolDefaults : Converters .bool :=
  { stringify := some fun owner =>
      match owner.value with
      | some b => boolLabel b
      | .none => ""
    parse := some fun _ text => if isVoid text then .none else accepted (parseBool text)
    formatify := .none
    htmlify := .none }

/-- Dates are written and read in local time. -/
def dateDefaults : Converters .date :=
  { stringify := some fun owner =>
      match owner.value with
      | some t => localText owner.settings.hasTime t
      | .none => ""
    parse := some fun owner text =>
      if isVoid text then .none else accepted (parseDate text owner.settings.hasTime)
    formatify := .none
    htmlify := .none }

/-- Numbers have a decimal comma, and grouping and padding by the settings. -/
def numberDefaults : Converters .number :=
  { stringify := some fun owner =>
      match owner.value with
      | some x => if x.isNaN then "" else String.ofList (replaceFirst '.' ',' x.numberChars)
      | .none => ""
    parse := some fun owner text => accepted (parseNumber text owner.settings.fractionDigits)
    formatify := some fun owner =>
      match owner.value with
      | some x =>
        formatLocalized x owner.settings.useGrouping
          (owner.settings.minimumIntegerDigits.getD 1) owner.settings.fractionDigits
      | .none => ""
    htmlify := .none }

/-- Lookups show the text of the key. -/
def lookupDefaults : Converters .lookup :=
  { stringify := .none
    parse := .none
    formatify := some fun owner => owner.settings.text.getD ""
    htmlify := .none }

/-- The converters of a new box. -/
def defaults : (F : Family) → Converters F
  | .value => none
  | .bool => boolDefaults
  | .date => dateDefaults
  | .number => numberDefaults
  | .lookup => lookupDefaults

end Converters

end EntityQuery
