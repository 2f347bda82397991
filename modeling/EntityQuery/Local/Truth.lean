import EntityQuery.Local.Error
import EntityQuery.Text.Blank
import EntityQuery.Text.Letters

/-!
# Yes and no

Truth values as people write them.
-/

namespace EntityQuery

open Text

/-- The words for yes. -/
def yesWords : List (List Char) :=
  ["true".toList, "1".toList, "si".toList, "sí".toList]

/-- The words for no. -/
def noWords : List (List Char) :=
  ["false".toList, "0".toList, "no".toList]

/-- Read a yes or no word, whatever its case and the white space around it. -/
def parseBool (text : String) : Except TextError Bool :=
  let word := lower (trim text.toList)
  if word ∈ yesWords then .ok true
  else if word ∈ noWords then .ok false
  else .error (.notBoolean text)

/-- A truth value for people. -/
def boolLabel (b : Bool) : String :=
  if b then "Sí" else "No"

end EntityQuery
