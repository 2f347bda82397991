import EntityQuery.Number.Coerce
import EntityQuery.Text.Letters
import EntityQuery.Value.Basic

/-!
# Reading filter literals

The reader of the literals that values write into filters. The first rule that fits wins: a date
literal, a text in single quotes, a text in double quotes, a truth value, a number; anything else is
kept as text.
-/

namespace EntityQuery.Value

open Text

/-- Read the literal of an instant, whatever the case of its letters. -/
def dateLiteral? (s : List Char) : Option Instant :=
  if sameLetters (s.take 5) "date(".toList ∧ (s.drop 5).getLast? = some ')' then
    Instant.ofLiteralBody? (s.drop 5).dropLast
  else none

/-- Read a text between `q`s, two in a row standing for one. -/
def quoted? (q : Char) (s : List Char) : Option Value :=
  (betweenQuotes? q s).map fun inner => .text (String.ofList (undoubled q inner))

/-- Read a truth value. -/
def truth? (s : List Char) : Option Value :=
  if s = "true".toList then some (.bool true)
  else if s = "false".toList then some (.bool false)
  else none

/-- Read a literal of the filter language. -/
def ofLiteralChars (s : List Char) : Value :=
  match dateLiteral? s with
  | some t => .date t
  | none =>
    match quoted? '\'' s with
    | some v => v
    | none =>
      match quoted? '"' s with
      | some v => v
      | none =>
        match truth? s with
        | some v => v
        | none =>
          match coerceChars s with
          | some x => ofNumber x
          | none => .text (String.ofList s)

/-- Read a literal of the filter language. -/
def ofLiteral (text : String) : Value :=
  ofLiteralChars text.toList

end EntityQuery.Value
