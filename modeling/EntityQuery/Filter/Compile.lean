import EntityQuery.Filter.Predicate

/-!
# Compiling predicates

A tree is compiled from left to right into the text of a filter, or into nothing, and the first fault
stops it. `render` is the traversal with the meaning of thunks left open. `Predicate.run` fills it
in for thunks that read and change a state `σ`: a thunk yields a tree, which is compiled in its
place, and that tree may hold thunks again; `depth` bounds how deep they may nest, and a run that
would go deeper has no outcome. `Predicate.compile` is for trees without thunks.
-/

namespace EntityQuery

/-! ## Text of operations -/

/-- Texts with a separator between them. -/
def joinWith (separator : String) (texts : List String) : String :=
  separator.intercalate texts

/-- The text of a list. -/
def listText (items : List String) : String :=
  "[" ++ joinWith "," items ++ "]"

/-- The text of a unary operator and its operand. -/
def unaryText (op : Operator) (x : String) : String :=
  "(" ++ op.name ++ " " ++ x ++ ")"

/-- The text of a binary operator between its operands. -/
def binaryText (op : Operator) (x y : String) : String :=
  "(" ++ x ++ " " ++ op.name ++ " " ++ y ++ ")"

/-- The text of a variadic operator between each two operands. -/
def variadicText (op : Operator) (xs : List String) : String :=
  "(" ++ joinWith (" " ++ op.name ++ " ") xs ++ ")"

/-- The text of a collection operator between its subject and its options. -/
def collectionText (op : Operator) (x : String) (options : List String) : String :=
  "(" ++ x ++ " " ++ op.name ++ " (" ++ joinWith ", " options ++ "))"

/-- The text of a function and its arguments. -/
def functionText (op : Operator) (arguments : List String) : String :=
  op.name ++ "(" ++ joinWith ", " arguments ++ ")"

/-! ## The traversal -/

namespace Predicate

section Traversal

variable {m : Type → Type} [Monad m] [MonadExcept FilterFault m] {ι : Type}

/-- The text of an operand that must not be nothing. -/
def requireText (op : Operator) : Option String → m String
  | some s => pure s
  | none => throw (.missingOperand op)

mutual

/-- Compile a tree; `call` compiles what a thunk yields. -/
def render (call : ι → m (Option String)) : Predicate ι → m (Option String)
  | .undefined => pure none
  | .null => pure (some "null")
  | .text s => pure (some s)
  | .int n => pure (some (Value.intText n))
  | .float x => pure (some x.numberText)
  | .bool b => pure (some (Value.boolText b))
  | .date t => pure (some (Value.dateLiteral t))
  | .thunk name => call name
  | .boxed b => pure (some b.toFilter)
  | .list items => do
    let texts ← renderItems call items
    pure (some (listText texts))
  | .operation op operand =>
    match op.shape with
    | .unary => do
      let x ← requireText op (← render call operand)
      pure (some (unaryText op x))
    | .binary =>
      match operand with
      | .list [left, right] => do
        let x ← requireText op (← render call left)
        let y ← requireText op (← render call right)
        pure (some (binaryText op x y))
      | .list items => throw (.operandArity op items.length)
      | _ => throw (.operandShape op)
    | .variadic =>
      match operand with
      | .list items => do
        let texts ← renderPresent call items
        pure (some (variadicText op texts))
      | _ => throw (.operandShape op)
    | .collection =>
      match operand with
      | .list (subject :: option :: options) => do
        let x ← requireText op (← render call subject)
        let y ← requireText op (← render call option)
        let ys ← renderOperands call op options
        pure (some (collectionText op x (y :: ys)))
      | .list items => throw (.operandArity op items.length)
      | _ => throw (.operandShape op)
    | .function =>
      match operand with
      | .list items => do
        let texts ← renderOperands call op items
        pure (some (functionText op texts))
      | _ => throw (.operandShape op)

/-- Compile the items of a list; nothing counts as the empty text. -/
def renderItems (call : ι → m (Option String)) : List (Predicate ι) → m (List String)
  | [] => pure []
  | p :: ps => do
    let x ← render call p
    let xs ← renderItems call ps
    pure (x.getD "" :: xs)

/-- Compile the operands of a variadic operator, leaving out the absent ones. -/
def renderPresent (call : ι → m (Option String)) : List (Predicate ι) → m (List String)
  | [] => pure []
  | p :: ps =>
    if p.isAbsent then renderPresent call ps
    else do
      let x ← render call p
      let xs ← renderPresent call ps
      pure (x.getD "" :: xs)

/-- Compile operands that must not be nothing. -/
def renderOperands (call : ι → m (Option String)) (op : Operator) :
    List (Predicate ι) → m (List String)
  | [] => pure []
  | p :: ps => do
    let x ← requireText op (← render call p)
    let xs ← renderOperands call op ps
    pure (x :: xs)

end

end Traversal

/-! ## Compilation -/

/-- Compile a tree without thunks. -/
def compile (p : Predicate Empty) : Except FilterFault (Option String) :=
  render Empty.elim p

/-- Compile the tree that a JSON document stands for. -/
def compileJson (j : Json) : Except FilterFault (Option String) := do
  compile (← ofJson j)

/-- What thunks do: each reads the state, yields a tree and leaves a new state. -/
abbrev Thunks (ι σ : Type) := ι → σ → Predicate ι × σ

end Predicate

/-- A computation that changes a state, may stop at a fault, and may have no outcome. The state
changes made before a fault stay. -/
abbrev Run (σ : Type) := ExceptT FilterFault (StateT σ Option)

namespace Predicate

variable {ι σ : Type}

/-- Compile what a thunk yields, with thunks nested at most `depth` deep. -/
def callThunk (thunks : Thunks ι σ) : Nat → ι → Run σ (Option String)
  | 0, _ => fun _ => none
  | depth + 1, name => fun state =>
    let (p, state) := thunks name state
    render (callThunk thunks depth) p state

/-- Compile a tree with thunks nested at most `depth` deep. -/
def run (thunks : Thunks ι σ) (depth : Nat) (p : Predicate ι) : Run σ (Option String) :=
  render (callThunk thunks depth) p

end Predicate

end EntityQuery
