/-!
# Templates

Text with references `${NAME}`. A reference is replaced by the value of its name, or stays as it is
when the name has none; values are put in as they are and never looked at again. A name is any run
of characters other than a closing brace, at least one.
-/

namespace EntityQuery.Text

/-- The characters before the first closing brace, or all of them. -/
def beforeBrace (s : List Char) : List Char :=
  s.takeWhile (· != '\x7d')

/-- A reference as it is written. -/
def reference (name : List Char) : List Char :=
  '$' :: '\x7b' :: name ++ ['\x7d']

/-- Replace the references of a text. -/
def expandReferences (value? : String → Option String) : List Char → List Char
  | [] => []
  | '$' :: '\x7b' :: s =>
    let name := beforeBrace s
    if name = [] ∨ name.length = s.length then '$' :: expandReferences value? ('\x7b' :: s)
    else
      (match value? (String.ofList name) with
        | some v => v.toList
        | none => reference name) ++ expandReferences value? (s.drop (name.length + 1))
  | c :: s => c :: expandReferences value? s
termination_by s => s.length

/-- Replace the references of a text. -/
def expandText (value? : String → Option String) (text : String) : String :=
  String.ofList (expandReferences value? text.toList)

end EntityQuery.Text
