import InfraGraph.Json.Variant
import InfraGraph.Text.Escape

/-!
# Literals and operators

The leaves of expressions and the operators that join them, with their written forms: the one a
graph is shown in (`display`, `sign`) and the one a tree is stored in (`toJson`, `read`).
-/

namespace InfraGraph

/-- A literal. -/
inductive LiteralValue where
  | bool (b : Bool)
  | int (n : Int64)
  | string (s : String)
  | null
deriving DecidableEq, Repr

namespace LiteralValue

/-- The written form of a literal. -/
def display : LiteralValue → String
  | .bool b => if b then "true" else "false"
  | .int n => toString n.toInt
  | .string s => "'" ++ Text.escapeLiteral s ++ "'"
  | .null => "null"

/-- A literal as JSON. -/
def toJson : LiteralValue → Json
  | .bool b => .bool b
  | .int n => .int n.toInt
  | .string s => .str s
  | .null => .null

/-- The literal a JSON value is, if it is one. -/
def ofJson? : Json → Option LiteralValue
  | .bool b => some (.bool b)
  | .int n =>
    if Int64.minValue.toInt ≤ n ∧ n ≤ Int64.maxValue.toInt then some (.int (Int64.ofInt n))
    else none
  | .str s => some (.string s)
  | .null => some .null
  | _ => none

/-- A literal from JSON. The value is taken in as a whole before it is looked at. -/
def read (stage : Stage) (room : Nat) (v : Json) : Json.Decoded LiteralValue := do
  Json.collect stage room v
  match ofJson? v with
  | some value => return value
  | none => throw .noLiteral

end LiteralValue

/-- An operator between two operands. -/
inductive BinaryOperator where
  | add
  | sub
  | mul
  | div
  | mod
  | eq
  | notEq
  | lt
  | ltEq
  | gt
  | gtEq
  | and
  | or
  | coalesce
deriving DecidableEq, Repr

namespace BinaryOperator

/-- The operators by their stored name. -/
def table : List (String × BinaryOperator) :=
  [("add", .add), ("sub", .sub), ("mul", .mul), ("div", .div), ("mod", .mod), ("eq", .eq),
    ("notEq", .notEq), ("lt", .lt), ("ltEq", .ltEq), ("gt", .gt), ("gtEq", .gtEq), ("and", .and),
    ("or", .or), ("coalesce", .coalesce)]

/-- The stored name of an operator. -/
def name : BinaryOperator → String
  | .add => "add"
  | .sub => "sub"
  | .mul => "mul"
  | .div => "div"
  | .mod => "mod"
  | .eq => "eq"
  | .notEq => "notEq"
  | .lt => "lt"
  | .ltEq => "ltEq"
  | .gt => "gt"
  | .gtEq => "gtEq"
  | .and => "and"
  | .or => "or"
  | .coalesce => "coalesce"

/-- The sign an operator is written with. -/
def sign : BinaryOperator → String
  | .add => "+"
  | .sub => "-"
  | .mul => "*"
  | .div => "/"
  | .mod => "%"
  | .eq => "=="
  | .notEq => "!="
  | .lt => "<"
  | .ltEq => "<="
  | .gt => ">"
  | .gtEq => ">="
  | .and => "&&"
  | .or => "||"
  | .coalesce => "??"

/-- An operator from JSON. -/
def read (stage : Stage) : Nat → Json → Json.Decoded BinaryOperator :=
  Json.readName stage table

end BinaryOperator

/-- An operator before its operand. -/
inductive UnaryOperator where
  | not
  | minus
deriving DecidableEq, Repr

namespace UnaryOperator

/-- The operators by their stored name. -/
def table : List (String × UnaryOperator) :=
  [("not", .not), ("minus", .minus)]

/-- The stored name of an operator. -/
def name : UnaryOperator → String
  | .not => "not"
  | .minus => "minus"

/-- The sign an operator is written with. -/
def sign : UnaryOperator → String
  | .not => "!"
  | .minus => "-"

/-- An operator from JSON. -/
def read (stage : Stage) : Nat → Json → Json.Decoded UnaryOperator :=
  Json.readName stage table

end UnaryOperator

end InfraGraph
