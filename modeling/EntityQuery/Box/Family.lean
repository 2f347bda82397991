import EntityQuery.Box.Slot
import EntityQuery.Value.Basic

/-!
# Families of boxes

A box belongs to one of five families. The family decides what the box holds, which settings it has,
and which settings its options may override.
-/

namespace EntityQuery

/-- The five kinds of boxes. -/
inductive Family where
  | value
  | bool
  | date
  | number
  | lookup
deriving DecidableEq

/-- The settings of a boolean box. -/
structure BoolSettings where
  /-- Write 0 and 1 instead of false and true into JSON. -/
  toJsonAsInt : Bool
deriving DecidableEq

/-- The settings of a date box. -/
structure DateSettings where
  /-- Show and read the time of day. -/
  hasTime : Bool
deriving DecidableEq

/-- The settings of a number box. -/
structure NumberSettings where
  /-- Group the thousands. -/
  useGrouping : Bool
  /-- The decimals shown, and kept when reading. -/
  fractionDigits : Option UInt32
  /-- The least number of integer digits shown, one unless set. -/
  minimumIntegerDigits : Option UInt32
deriving DecidableEq

/-- The settings of a lookup box. -/
structure LookupSettings where
  /-- The text shown for the key. -/
  text : Option String
deriving DecidableEq

/-- Overrides of the settings of a number box. -/
structure NumberOverrides where
  useGrouping : Option Bool
  fractionDigits : Slot UInt32
  minimumIntegerDigits : Slot UInt32
deriving DecidableEq

namespace Family

/-- The name of a family. -/
def name : Family → String
  | .value => "value"
  | .bool => "bool"
  | .date => "date"
  | .number => "number"
  | .lookup => "lookup"

/-- All families. -/
def all : List Family := [.value, .bool, .date, .number, .lookup]

/-- The family of a name. -/
def ofName? (s : String) : Option Family :=
  all.find? fun f => f.name == s

/-- What a box of a family holds. -/
abbrev Content : Family → Type
  | .value => Value
  | .bool => Option Bool
  | .date => Option Instant
  | .number => Option Binary64
  | .lookup => Value

/-- The settings of a box of a family, its kind and converters apart. -/
abbrev Settings : Family → Type
  | .value => Unit
  | .bool => BoolSettings
  | .date => DateSettings
  | .number => NumberSettings
  | .lookup => LookupSettings

/-- The overrides of the settings. A flag that is not given is inherited; it cannot be removed. -/
abbrev Overrides : Family → Type
  | .value => Unit
  | .bool => Option Bool
  | .date => Option Bool
  | .number => NumberOverrides
  | .lookup => Slot String

/-- The content of a box before anything is put into it. -/
def emptyContent : (F : Family) → F.Content
  | .value => Value.null
  | .bool => none
  | .date => none
  | .number => none
  | .lookup => Value.null

/-- The settings of a new box. -/
def defaultSettings : (F : Family) → F.Settings
  | .value => ()
  | .bool => { toJsonAsInt := false }
  | .date => { hasTime := false }
  | .number => { useGrouping := false, fractionDigits := none, minimumIntegerDigits := none }
  | .lookup => { text := none }

/-- Overrides that keep every setting. -/
def keepSettings : (F : Family) → F.Overrides
  | .value => ()
  | .bool => (none : Option Bool)
  | .date => (none : Option Bool)
  | .number =>
    { useGrouping := none, fractionDigits := Slot.inherit, minimumIntegerDigits := Slot.inherit }
  | .lookup => (Slot.inherit : Slot String)

/-- The settings that overrides give on top of inherited ones. -/
def resolveSettings : (F : Family) → F.Overrides → F.Settings → F.Settings
  | .value, _, s => s
  | .bool, o, s => { toJsonAsInt := o.getD s.toJsonAsInt }
  | .date, o, s => { hasTime := o.getD s.hasTime }
  | .number, o, s =>
    { useGrouping := o.useGrouping.getD s.useGrouping
      fractionDigits := o.fractionDigits.resolve s.fractionDigits
      minimumIntegerDigits := o.minimumIntegerDigits.resolve s.minimumIntegerDigits }
  | .lookup, o, s => { text := o.resolve s.text }

end Family

end EntityQuery
