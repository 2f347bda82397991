import EntityQuery.Filter.Operator

/-!
# Errors of filters

The faults of a filter tree as causes, and the errors they are reported as: a code, a message, the
operator and operand count, suggestions and help.
-/

namespace EntityQuery

/-! ## Causes -/

/-- What is wrong with a filter tree. -/
inductive FilterFault where
  /-- The operand of an operator that is not unary must be a list. -/
  | operandShape (op : Operator)
  /-- A binary operator takes two operands and a collection operator at least two. -/
  | operandArity (op : Operator) (got : Nat)
  /-- No operator has this name. -/
  | unknownOperator (name : String)
  /-- An object must have exactly one member. -/
  | malformed (members : Nat)
  /-- An operand gave no text. -/
  | missingOperand (op : Operator)
deriving DecidableEq

/-! ## Reports -/

/-- The classes of errors. -/
inductive ErrorCode where
  | operandShape
  | operandArity
  | unknownOperator
  | malformedPredicate
  | missingOperand
deriving DecidableEq

namespace ErrorCode

/-- All classes. -/
def all : List ErrorCode :=
  [.operandShape, .operandArity, .unknownOperator, .malformedPredicate, .missingOperand]

/-- The code of a class. -/
def text : ErrorCode → String
  | .operandShape => "F1001"
  | .operandArity => "F1002"
  | .unknownOperator => "F1003"
  | .malformedPredicate => "F1004"
  | .missingOperand => "F1005"

/-- The name of a class. -/
def name : ErrorCode → String
  | .operandShape => "OperandShape"
  | .operandArity => "OperandArity"
  | .unknownOperator => "UnknownOperator"
  | .malformedPredicate => "MalformedPredicate"
  | .missingOperand => "MissingOperand"

/-- A short description of a class. -/
def description : ErrorCode → String
  | .operandShape => "Operand must be a list"
  | .operandArity => "Wrong number of operands"
  | .unknownOperator => "Unknown operator"
  | .malformedPredicate => "Malformed predicate"
  | .missingOperand => "Missing operand"

end ErrorCode

/-- A suggestion, with an example perhaps. -/
structure Suggestion where
  text : String
  code : Option String
deriving DecidableEq

/-- An error as it is reported. -/
structure FilterError where
  code : ErrorCode
  message : String
  operator : Option String
  operands : Option Nat
  suggestions : List Suggestion
  help : Option String
deriving DecidableEq

namespace FilterError

/-- An error with a code and a message alone. -/
def plain (code : ErrorCode) (message : String) : FilterError :=
  ⟨code, message, none, none, [], none⟩

/-- Add a suggestion after the others. -/
def suggest (e : FilterError) (text : String) (code : Option String) : FilterError :=
  { e with suggestions := e.suggestions ++ [⟨text, code⟩] }

/-- A number in decimal. -/
def countText (n : Nat) : String :=
  String.ofList (Nat.toDigits 10 n)

/-! ## Constructors -/

/-- An operator that needs a list of operands got something else. -/
def operandShape (operator : String) : FilterError :=
  { plain .operandShape ("Operator `" ++ operator ++ "` requires a list of operands") with
    operator := some operator }.suggest "Wrap the operands in a list"
      (some ("\x7b \"" ++ operator ++ "\": [\"Field\", 1] \x7d"))

/-- An operator got the wrong number of operands. -/
def operandArity (operator expected : String) (got : Nat) : FilterError :=
  { plain .operandArity
      ("Operator `" ++ operator ++ "` takes " ++ expected ++ " operands, got " ++ countText got) with
    operator := some operator
    operands := some got }

/-- An operator name is not known. -/
def unknownOperator (operator : String) : FilterError :=
  { plain .unknownOperator ("Operator `" ++ operator ++ "` is not recognized") with
    operator := some operator
    help := some
      "Operator names are case-sensitive, e.g. `eq`, `startswith`, `matchesPattern`" }

/-- An object does not have exactly one member. -/
def malformedPredicate (members : Nat) : FilterError :=
  { plain .malformedPredicate
      ("A predicate object needs exactly one operator key, found " ++ countText members) with
    operands := some members }.suggest "Combine several conditions with `and`"
      (some "\x7b \"and\": [\x7b \"eq\": [\"A\", 1] \x7d, \x7b \"eq\": [\"B\", 2] \x7d] \x7d")

/-- An operand gave no text. -/
def missingOperand (operator : String) : FilterError :=
  { plain .missingOperand ("An operand of `" ++ operator ++ "` compiled to nothing") with
    operator := some operator
    help := some ("Use `null` to compare against null; only `and`/`or` and arithmetic drop " ++
      "absent operands") }

/-! ## Views -/

/-- The code and the message. -/
def display (e : FilterError) : String :=
  "[" ++ e.code.text ++ "] " ++ e.message

/-- Whether an operand was not a list. -/
def isShapeError (e : FilterError) : Bool := e.code == .operandShape

/-- Whether the number of operands was wrong. -/
def isArityError (e : FilterError) : Bool := e.code == .operandArity

/-- Whether an operand gave no text. -/
def isMissingOperand (e : FilterError) : Bool := e.code == .missingOperand

/-- Whether an operator was unknown or an object malformed. -/
def isUnknownOperator (e : FilterError) : Bool :=
  e.code == .unknownOperator || e.code == .malformedPredicate

/-- A line for each suggestion, numbered, with its example below it. -/
def suggestionLines (start : Nat) : List Suggestion → String
  | [] => ""
  | s :: rest =>
    "  " ++ countText start ++ ". " ++ s.text ++ "\n" ++
      (match s.code with
        | some code => "     " ++ code ++ "\n"
        | none => "") ++
      suggestionLines (start + 1) rest

/-- The error with all that is known about it. -/
def displayFull (e : FilterError) : String :=
  "Error [" ++ e.code.text ++ "]: " ++ e.message ++ "\n" ++
    (match e.operator with
      | some operator => "  → Operator: " ++ operator ++ "\n"
      | none => "") ++
    (match e.operands with
      | some n => "  → Operands: " ++ countText n ++ "\n"
      | none => "") ++
    (if e.suggestions.isEmpty then "" else "\nSuggestions:\n" ++ suggestionLines 1 e.suggestions) ++
    (match e.help with
      | some help => "\nHelp: " ++ help ++ "\n"
      | none => "")

end FilterError

namespace FilterFault

/-- The number of operands that an operator takes, in words. -/
def expectedOperands (op : Operator) : String :=
  if op.shape = .binary then "exactly 2" else "at least 2"

/-- The report of a fault. An unknown name that only differs in case from an operator's comes with
that operator as a suggestion. -/
def toError : FilterFault → FilterError
  | .operandShape op => .operandShape op.name
  | .operandArity op got => .operandArity op.name (expectedOperands op) got
  | .unknownOperator name =>
    match Operator.nearName? name with
    | some op => (FilterError.unknownOperator name).suggest ("Did you mean `" ++ op.name ++ "`?") none
    | none => .unknownOperator name
  | .malformed members => .malformedPredicate members
  | .missingOperand op => .missingOperand op.name

end FilterFault

/-- The operator of a name, or the fault of not knowing it. -/
def Operator.parse (name : String) : Except FilterFault Operator :=
  match Operator.ofName? name with
  | some op => .ok op
  | none => .error (.unknownOperator name)

end EntityQuery
