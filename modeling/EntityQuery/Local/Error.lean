/-!
# Errors of reading text

Why a text that people wrote could not be read as a truth value, a date or a number.
-/

namespace EntityQuery

/-- Why a text could not be read as a value. -/
inductive TextError where
  | notBoolean (input : String)
  | dateFormat (input : String)
  | noSuchDate (input : String)
  | notNumber (input : String)
deriving DecidableEq

namespace TextError

/-- The pattern of local dates, as the error text shows it. -/
def datePattern : String :=
  "^(\\d\x7b1,2\x7d)/(\\d\x7b1,2\x7d)/(\\d\x7b4\x7d)(?:\\s+(\\d\x7b1,2\x7d):(\\d\x7b2\x7d))?$"

/-- The text that could not be read. -/
def input : TextError → String
  | .notBoolean s => s
  | .dateFormat s => s
  | .noSuchDate s => s
  | .notNumber s => s

/-- The error text. -/
def message : TextError → String
  | .notBoolean s => "`" ++ s ++ "` is not a boolean (expected sí/si/1/true or no/0/false)"
  | .dateFormat s => "`" ++ s ++ "` does not match the date pattern `" ++ datePattern ++ "`"
  | .noSuchDate s => "`" ++ s ++ "` is not a valid local date"
  | .notNumber s => "`" ++ s ++ "` is not a number"

end TextError

end EntityQuery
