/-!
# Quoted literals

Writing a text between quotes so that no character of it can end the literal, and undoing the
doubling of quotes. The quote is chosen by the text: single quotes when it has none of them,
double quotes when it has single ones only, and single quotes written twice when it has both.
-/

namespace EntityQuery.Text

/-- Write every `q` of a text twice. -/
def doubled (q : Char) : List Char → List Char
  | [] => []
  | c :: s => if c = q then q :: q :: doubled q s else c :: doubled q s

/-- Read every two `q` in a row as one, from the left; a `q` that stands alone stays. -/
def undoubled (q : Char) : List Char → List Char
  | [] => []
  | [c] => [c]
  | c :: d :: s => if c = q ∧ d = q then q :: undoubled q s else c :: undoubled q (d :: s)

/-- The quoted form of a text. -/
def quoteChars (s : List Char) : List Char :=
  if '\'' ∉ s then '\'' :: s ++ ['\'']
  else if '"' ∉ s then '"' :: s ++ ['"']
  else '\'' :: doubled '\'' s ++ ['\'']

/-- The quoted form of a text. -/
def quote (s : String) : String :=
  String.ofList (quoteChars s.toList)

/-- What stands between a leading and a trailing `q`, which must be two different characters of
the text. -/
def betweenQuotes? (q : Char) : List Char → Option (List Char)
  | [] => none
  | c :: s => if c = q ∧ s.getLast? = some q then some s.dropLast else none

end EntityQuery.Text
