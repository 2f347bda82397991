import EntityQuery.Filter.Compile
import EntityQuery.Record.Entries

/-!
# Query parameters

The parameters of a request: a filter, given as text or as a tree, an expand expression, and any
others in order. Applying the filter turns a tree into text; the pairs are what goes into the
request.
-/

namespace EntityQuery

/-- The filter of a request. -/
inductive FilterParam (ι : Type) where
  | text (s : String)
  | tree (p : Predicate ι)

/-- The parameters of a request. -/
structure QueryParams (ι : Type) where
  filter : Option (FilterParam ι)
  expand : Option String
  extra : Entries String

namespace QueryParams

variable {ι : Type}

/-- No parameters. -/
def empty : QueryParams ι :=
  ⟨none, none, Entries.empty⟩

/-- Set the filter. -/
def setFilter (q : QueryParams ι) (f : FilterParam ι) : QueryParams ι :=
  { q with filter := some f }

/-- Set the expand expression. -/
def setExpand (q : QueryParams ι) (text : String) : QueryParams ι :=
  { q with expand := some text }

/-- Set any other parameter. -/
def setParam (q : QueryParams ι) (name value : String) : QueryParams ι :=
  { q with extra := q.extra.insert name value }

/-- The name of the filter parameter. -/
def filterName : String := "$filter"

/-- The name of the expand parameter. -/
def expandName : String := "$expand"

/-- The pairs of a request, given the text of the filter: the filter, the expand expression, and the
others in order; an empty value leaves its pair out. -/
def pairsWith (q : QueryParams ι) (filter : Option String) : List (String × String) :=
  ((filter.map fun s => (filterName, s)).toList ++
    (q.expand.map fun s => (expandName, s)).toList ++ q.extra.toList).filter fun e => !e.2.isEmpty

section Filter

variable {m : Type → Type} [Monad m]

/-- Turn a tree into text with a given compiler; an empty filter is removed. -/
def applyFilter (compile : Predicate ι → m (Option String)) (q : QueryParams ι) :
    m (QueryParams ι) := do
  match q.filter with
  | some (.tree p) =>
    let text ← compile p
    pure { q with filter := (text.filter fun s => !s.isEmpty).map FilterParam.text }
  | some (.text s) => pure (if s.isEmpty then { q with filter := none } else q)
  | none => pure q

/-- The pairs of a request; a tree is compiled with a given compiler. -/
def pairs (compile : Predicate ι → m (Option String)) (q : QueryParams ι) :
    m (List (String × String)) := do
  match q.filter with
  | some (.tree p) =>
    let text ← compile p
    pure (q.pairsWith text)
  | some (.text s) => pure (q.pairsWith (some s))
  | none => pure (q.pairsWith none)

end Filter

end QueryParams

end EntityQuery
