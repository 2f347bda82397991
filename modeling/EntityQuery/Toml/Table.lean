import EntityQuery.Toml.Datum

/-!
# Tables under construction

A TOML document fills its tables by key-value lines, by headers and by headers of arrays of tables.
While it is read, each table remembers how it came about, since that decides what may still be added
to it: a table that was only passed through on the way to another one may get its own header later,
and a table made by dotted keys may only grow by dotted keys.
-/

namespace EntityQuery.Toml

/-- A node of a document under construction. -/
inductive Node where
  /-- A value, which never grows. -/
  | leaf (d : Datum)
  /-- A table: whether it has no header of its own, whether dotted keys made it, its entries. -/
  | table (implicitly dotted : Bool) (entries : List (String × Node))
  /-- An array of tables, of which the last one grows. -/
  | tables (elements : List Node)

namespace Node

/-- A table with a header of its own and without entries. -/
def emptyTable : Node :=
  .table false false []

/-- A table that is passed through, by dotted keys or by a header. -/
def passed (dotted : Bool) : Node :=
  .table true dotted []

/-- Put a node in the place of a known key. -/
def setChild (key : String) (n : Node) : List (String × Node) → List (String × Node)
  | [] => []
  | (k, m) :: es => if k = key then (k, n) :: es else (k, m) :: setChild key n es

/-- Change the table at the end of a path, making the missing tables on the way. A path leads
through the last element of an array of tables and never through a value; dotted keys lead only
through tables without a header of their own. -/
def update (dotted : Bool) (f : Node → Option Node) : List String → Node → Option Node
  | [], n => f n
  | key :: path, .table implicitly made entries =>
    match entries.lookup key with
    | none => do
      let child ← update dotted f path (passed dotted)
      return .table implicitly made (entries ++ [(key, child)])
    | some (.leaf _) => none
    | some (.tables elements) => do
      let last ← elements.getLast?
      let child ← update dotted f path last
      return .table implicitly made (setChild key (.tables (elements.dropLast ++ [child])) entries)
    | some (.table true m es) => do
      let child ← update dotted f path (.table true m es)
      return .table implicitly made (setChild key child entries)
    | some (.table false m es) =>
      if dotted then none
      else do
        let child ← update dotted f path (.table false m es)
        return .table implicitly made (setChild key child entries)
  | _ :: _, _ => none

/-- Add a new entry to a table. A dotted key adds only to a table that dotted keys made, and a plain
key only to one that they did not make. -/
def addEntry (dottedKey : Bool) (key : String) (d : Datum) : Node → Option Node
  | .table implicitly made entries =>
    if made ≠ dottedKey ∨ (entries.lookup key).isSome then none
    else some (.table implicitly made (entries ++ [(key, .leaf d)]))
  | _ => none

/-- Add a key-value line to a table; the path holds the parts of a dotted key before its last. -/
def addLine (line : List String × String × Datum) (n : Node) : Option Node :=
  update true (addEntry (!line.1.isEmpty) line.2.1 line.2.2) line.1 n

/-- Add key-value lines one after the other. -/
def addLines : List (List String × String × Datum) → Node → Option Node
  | [], n => some n
  | line :: lines, n => (addLine line n).bind (addLines lines)

/-- Add a table with a header. A table that was only passed through gets its header now and moves to
the end; any other key of that name is a repetition. -/
def addTable (key : String) (lines : List (List String × String × Datum)) : Node → Option Node
  | .table implicitly made entries =>
    match entries.lookup key with
    | none => do
      let t ← addLines lines emptyTable
      return .table implicitly made (entries ++ [(key, t)])
    | some (.table true false es) => do
      let t ← addLines lines (.table false false es)
      return .table implicitly made ((entries.filter fun e => e.1 != key) ++ [(key, t)])
    | some _ => none
  | _ => none

/-- Add an element to an array of tables, which is made if it is missing. -/
def addElement (key : String) (lines : List (List String × String × Datum)) : Node → Option Node
  | .table implicitly made entries =>
    match entries.lookup key with
    | none => do
      let t ← addLines lines emptyTable
      return .table implicitly made (entries ++ [(key, .tables [t])])
    | some (.tables elements) => do
      let t ← addLines lines emptyTable
      return .table implicitly made (setChild key (.tables (elements ++ [t])) entries)
    | some _ => none
  | _ => none

mutual

/-- The finished value of a node. -/
def toDatum : Node → Datum
  | .leaf d => d
  | .table _ _ entries => .table (toDatumEntries entries)
  | .tables elements => .array (toDatumElements elements)

/-- The finished entries of a table. -/
def toDatumEntries : List (String × Node) → List (String × Datum)
  | [] => []
  | (k, n) :: es => (k, toDatum n) :: toDatumEntries es

/-- The finished elements of an array of tables. -/
def toDatumElements : List Node → List Datum
  | [] => []
  | n :: ns => toDatum n :: toDatumElements ns

end

end Node

/-- The table of an inline table's lines. -/
def inlineTable? (lines : List (List String × String × Datum)) : Option Datum :=
  (Node.addLines lines .emptyTable).map Node.toDatum

end EntityQuery.Toml
