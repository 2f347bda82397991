import EntityQuery.Text.Letters

/-!
# Operators

The operators of the filter language, each with its name on the wire and the shape of its operand.
-/

namespace EntityQuery

/-- How an operator takes its operands. -/
inductive Shape where
  /-- One operand: `(name x)`. -/
  | unary
  /-- Two operands: `(x name y)`. -/
  | binary
  /-- Any number of operands, absent ones left out: `(x name y name z)`. -/
  | variadic
  /-- A subject and at least one option: `(x name (y, z))`. -/
  | collection
  /-- Arguments: `name(x, y)`. -/
  | function
deriving DecidableEq

/-- The operators, in the order of the table. -/
inductive Operator where
  | eq | ne | gt | ge | lt | le
  | and | or | not
  | isIn | has
  | add | sub | negate | mul | div | mod
  | substringOf | endsWith | startsWith | length | indexOf | replace | substring | concat | contains
  | hasSubset | hasSubsequence | matchesPattern | toLower | toUpper | trim
  | date | day | fractionalSeconds | hour | minute | month | second | time | totalOffsetMinutes
  | totalSeconds | year | maxDateTime | minDateTime | now
  | round | floor | ceiling | cast | isOf
deriving DecidableEq

namespace Operator

/-- Every operator, in the order of the table. -/
def all : List Operator :=
  [.eq, .ne, .gt, .ge, .lt, .le, .and, .or, .not, .isIn, .has, .add, .sub, .negate, .mul, .div,
    .mod, .substringOf, .endsWith, .startsWith, .length, .indexOf, .replace, .substring, .concat,
    .contains, .hasSubset, .hasSubsequence, .matchesPattern, .toLower, .toUpper, .trim, .date, .day,
    .fractionalSeconds, .hour, .minute, .month, .second, .time, .totalOffsetMinutes, .totalSeconds,
    .year, .maxDateTime, .minDateTime, .now, .round, .floor, .ceiling, .cast, .isOf]

/-- The name of an operator on the wire. -/
def name : Operator → String
  | .eq => "eq"
  | .ne => "ne"
  | .gt => "gt"
  | .ge => "ge"
  | .lt => "lt"
  | .le => "le"
  | .and => "and"
  | .or => "or"
  | .not => "not"
  | .isIn => "in"
  | .has => "has"
  | .add => "add"
  | .sub => "sub"
  | .negate => "-"
  | .mul => "mul"
  | .div => "div"
  | .mod => "mod"
  | .substringOf => "substringof"
  | .endsWith => "endswith"
  | .startsWith => "startswith"
  | .length => "length"
  | .indexOf => "indexof"
  | .replace => "replace"
  | .substring => "substring"
  | .concat => "concat"
  | .contains => "contains"
  | .hasSubset => "hassubset"
  | .hasSubsequence => "hassubsequence"
  | .matchesPattern => "matchesPattern"
  | .toLower => "tolower"
  | .toUpper => "toupper"
  | .trim => "trim"
  | .date => "date"
  | .day => "day"
  | .fractionalSeconds => "fractionalseconds"
  | .hour => "hour"
  | .minute => "minute"
  | .month => "month"
  | .second => "second"
  | .time => "time"
  | .totalOffsetMinutes => "totaloffsetminutes"
  | .totalSeconds => "totalseconds"
  | .year => "year"
  | .maxDateTime => "maxdatetime"
  | .minDateTime => "mindatetime"
  | .now => "now"
  | .round => "round"
  | .floor => "floor"
  | .ceiling => "ceiling"
  | .cast => "cast"
  | .isOf => "isof"

/-- How an operator takes its operands. -/
def shape : Operator → Shape
  | .eq | .ne | .gt | .ge | .lt | .le | .mod => .binary
  | .and | .or | .add | .sub | .mul | .div => .variadic
  | .not | .negate => .unary
  | .isIn | .has => .collection
  | _ => .function

/-- The operator of a name, letter case included. -/
def ofName? (s : String) : Option Operator :=
  all.find? fun op => op.name == s

/-- The first operator whose name agrees with a text up to the case of ASCII letters. -/
def nearName? (s : String) : Option Operator :=
  all.find? fun op => Text.sameLetters op.name.toList s.toList

theorem mem_all (op : Operator) : op ∈ all := by
  cases op <;> decide

end Operator

end EntityQuery
