import EntityQuery.Toml.Scalar
import EntityQuery.Toml.Table

/-!
# Reading TOML

The reader of TOML documents: keys, values, key-value lines and headers, put together to the table
of the document. Arrays and inline tables nest less than eighty deep, and a dotted key has less than
eighty parts.
-/

namespace EntityQuery.Toml

open Text

/-- How deep arrays and inline tables may nest, and how many parts a dotted key may have. -/
def maxNesting : Nat := 79

/-! ## Keys -/

/-- Whether a character may stand in a bare key. -/
def isBareKeyChar (c : Char) : Bool :=
  c.isAlphanum || c == '_' || c == '-'

/-- Read one part of a key: a string on one line, or a bare key. -/
def takeKeyPart? (s : List Char) : Option (String × List Char) :=
  match s with
  | '"' :: s => takeBasic? (s.length + 1) [] s
  | '\'' :: s => takeLiteral? s
  | s =>
    let key := s.takeWhile isBareKeyChar
    if key.isEmpty then none else some (String.ofList key, s.drop key.length)

/-- Read the parts of a key, at most `limit` of them, with points and blanks between them. -/
def takeKeyParts? : Nat → List Char → Option (List String × List Char)
  | 0, _ => none
  | limit + 1, s => do
    let (part, s) ← takeKeyPart? (skipSpaces s)
    match skipSpaces s with
    | '.' :: s => (takeKeyParts? limit s).map fun (parts, s) => (part :: parts, s)
    | s => some ([part], s)

/-- Read a key as the parts before the last and the last. -/
def takeKey? (s : List Char) : Option ((List String × String) × List Char) := do
  let (parts, s) ← takeKeyParts? maxNesting s
  let last ← parts.getLast?
  return ((parts.dropLast, last), s)

/-! ## Values -/

/-- Read a given word. -/
def takeWord? (word : String) (d : Datum) (s : List Char) : Option (Datum × List Char) :=
  if word.toList.isPrefixOf s then some (d, s.drop word.length) else none

/-- A line of a table: the parts of its key before the last, the last one, and the value. -/
abbrev Line := List String × String × Datum

mutual

/-- Read a value. `depth` says how many arrays and inline tables may still open, and `fuel` is at
least twice the length of the text. -/
def takeValue? (fuel depth : Nat) (s : List Char) : Option (Datum × List Char) :=
  match fuel with
  | 0 => none
  | fuel + 1 =>
    match s with
    | [] => none
    | c :: rest =>
      if c = '"' ∨ c = '\'' then (takeString? s).map fun (t, s) => (.text t, s)
      else if c = '[' then
        match depth with
        | 0 => none
        | depth + 1 =>
          match skipLines rest.length rest with
          | ']' :: s => some (.array [], s)
          | s => takeItems? fuel depth [] s
      else if c = '\x7b' then
        match depth with
        | 0 => none
        | depth + 1 =>
          match skipSpaces rest with
          | '\x7d' :: s => some (.table [], s)
          | s => takeInline? fuel depth [] s
      else if c = 't' then takeWord? "true" (.bool true) s
      else if c = 'f' then takeWord? "false" (.bool false) s
      else if c = 'i' ∨ c = 'n' then takeSpecial? false s
      else takeNumeric? s

/-- Read the items of an array up to its bracket; `acc` holds the items read, in reverse. -/
def takeItems? (fuel depth : Nat) (acc : List Datum) (s : List Char) :
    Option (Datum × List Char) :=
  match fuel with
  | 0 => none
  | fuel + 1 =>
    match takeValue? fuel depth s with
    | none => none
    | some (d, s) =>
      match skipLines s.length s with
      | ',' :: s =>
        match skipLines s.length s with
        | ']' :: s => some (.array (d :: acc).reverse, s)
        | s => takeItems? fuel depth (d :: acc) s
      | ']' :: s => some (.array (d :: acc).reverse, s)
      | _ => none

/-- Read the lines of an inline table up to its brace. -/
def takeInline? (fuel depth : Nat) (acc : List Line) (s : List Char) :
    Option (Datum × List Char) :=
  match fuel with
  | 0 => none
  | fuel + 1 =>
    match takeKey? s with
    | some ((path, key), '=' :: s) =>
      match takeValue? fuel depth (skipSpaces s) with
      | none => none
      | some (d, s) =>
        match skipSpaces s with
        | ',' :: s => takeInline? fuel depth ((path, key, d) :: acc) s
        | '\x7d' :: s => (inlineTable? ((path, key, d) :: acc).reverse).map fun t => (t, s)
        | _ => none
    | _ => none

end

/-! ## Documents -/

/-- A statement of a document. -/
inductive Statement where
  | line (l : Line)
  | header (path : List String) (key : String)
  | element (path : List String) (key : String)

/-- Read a header up to the end of its line. -/
def takeHeader? (s : List Char) : Option (Statement × List Char) :=
  match s with
  | '[' :: '[' :: s => do
    let ((path, key), s) ← takeKey? s
    match s with
    | ']' :: ']' :: s => return (.element path key, ← takeLineEnd? s)
    | _ => none
  | '[' :: s => do
    let ((path, key), s) ← takeKey? s
    match s with
    | ']' :: s => return (.header path key, ← takeLineEnd? s)
    | _ => none
  | _ => none

/-- Read a key-value line up to its end. -/
def takeLine? (s : List Char) : Option (Statement × List Char) := do
  let ((path, key), s) ← takeKey? s
  let s ← takeChar? '=' s
  let (d, s) ← takeValue? (2 * s.length + 2) maxNesting (skipSpaces s)
  return (.line (path, key, d), ← takeLineEnd? s)

/-- Read the statements of a document; `acc` holds those read, in reverse, and `fuel` is more than
the number of lines. -/
def takeStatements? : Nat → List Statement → List Char → Option (List Statement)
  | 0, _, _ => none
  | fuel + 1, acc, s =>
    match skipSpaces s with
    | [] => some acc.reverse
    | c :: s =>
      if c = '#' ∨ c = '\n' ∨ c = '\r' then
        match takeLineEnd? (c :: s) with
        | some s => takeStatements? fuel acc s
        | none => none
      else
        match if c = '[' then takeHeader? (c :: s) else takeLine? (c :: s) with
        | some (statement, s) => takeStatements? fuel (statement :: acc) s
        | none => none

/-- Split statements into the lines before the first header and the rest. -/
def spanLines : List Statement → List Line × List Statement
  | .line l :: rest => let (ls, rest) := spanLines rest; (l :: ls, rest)
  | rest => ([], rest)

/-- Add the sections of a document, each a header with its lines, to the table of the document. -/
def addSections : List Statement → Node → Option Node
  | [], root => some root
  | .line _ :: rest, root => addSections rest root
  | .header path key :: rest, root => do
    let root ← Node.update false (Node.addTable key (spanLines rest).1) path root
    addSections rest root
  | .element path key :: rest, root => do
    let root ← Node.update false (Node.addElement key (spanLines rest).1) path root
    addSections rest root

/-- The table of a document's statements. -/
def tableOf? (statements : List Statement) : Option (List (String × Datum)) := do
  let root ← Node.addLines (spanLines statements).1 .emptyTable
  match (← addSections statements root).toDatum with
  | .table entries => some entries
  | _ => none

/-- Read a document as the entries of its table; a byte order mark in front is ignored. -/
def read? (text : String) : Option (List (String × Datum)) := do
  let s := text.toList
  let s := if s.head? = some (Char.ofNat 0xFEFF) then s.drop 1 else s
  tableOf? (← takeStatements? (s.length + 1) [] s)

end EntityQuery.Toml
