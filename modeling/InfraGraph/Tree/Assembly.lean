import InfraGraph.Tree.Program

/-!
# Assembling trees

Trees can be put together in code, bottom up. Every node gets the next number as its id when it is
made, so a node is numbered after its parts, and a span of one byte on a line of its own.

The same can be done by a list of steps: a stack machine, where a step takes the expressions it
needs from a stack and puts a new one there, and a declaration takes its value from it.

## Main definitions

* `Assembly` — a computation that numbers nodes.
* `AssemblyStep`, `Assembler.step` — the stack machine.
-/

namespace InfraGraph

/-! ## Numbering nodes -/

/-- The origin of the node with some number: one byte on a line of its own. -/
def Origin.numbered (n : Nat) : Origin :=
  let line := (n + 1).toUInt32
  { id := ⟨n.toUInt32⟩
    span := ⟨⟨line, 1, n.toUInt64⟩, ⟨line, 2, (n + 1).toUInt64⟩, 0⟩ }

/-- A computation that makes nodes; its state is the number of the next one. -/
abbrev Assembly :=
  StateM Nat

namespace Assembly

/-- The origin of the next node. -/
def origin : Assembly Origin := do
  let n ← get
  set (n + 1)
  return Origin.numbered n

/-- The next node. -/
def node (make : Origin → Expr) : Assembly Expr :=
  make <$> origin

/-- The next declaration. -/
def declare (name : String) (kind : DeclarationKind) (value : Option Expr) :
    Assembly Declaration := do
  return ⟨← origin, name, kind, value, []⟩

/-- A reference. -/
def reference (name : String) : Assembly Expr :=
  node (.reference · name)

/-- An integer. -/
def int (n : Int64) : Assembly Expr :=
  node (.literal · (.int n))

/-- A string. -/
def string (s : String) : Assembly Expr :=
  node (.literal · (.string s))

/-- An object literal. -/
def object (entries : List (String × Expr)) : Assembly Expr :=
  node (.object · entries)

/-- A property of an expression. -/
def property (base : Expr) (name : String) : Assembly Expr :=
  node (.property · base name)

/-- An expression with a bracket behind it. -/
def element (base index : Expr) : Assembly Expr :=
  node (.element · base index)

/-- A copy loop. -/
def loop (item : String) (index : Option String) (source body : Expr) : Assembly Expr :=
  node (.loop · item index source body)

end Assembly

/-! ## The stack machine -/

/-- A step of the stack machine. -/
inductive AssemblyStep where
  | literal (value : LiteralValue)
  | interpolation (segments : List String) (count : Nat)
  /-- One operand for every key. -/
  | object (keys : List String)
  | array (count : Nat)
  | reference (name : String)
  | property (name : String)
  | element
  | ternary
  | guarded
  | call (name : String) (count : Nat)
  | binary (operator : BinaryOperator)
  | unary (operator : UnaryOperator)
  | loop (item : String) (index : Option String)
  /-- The topmost expression once more, with the ids it has. -/
  | copy
  /-- A declaration; one without a value takes nothing from the stack. -/
  | declare (name : String) (kind : DeclarationKind) (hasValue : Bool)
  /-- The last declarations become those nested in the one before them. -/
  | adopt (count : Nat)
  | scope (target : DeploymentScope)

/-- Why a step cannot be taken. -/
inductive AssemblyError where
  /-- Too few expressions on the stack, or too few declarations. -/
  | underflow
  /-- The segments of an interpolation do not stand around its parts. -/
  | segmentMismatch
deriving DecidableEq, Repr

/-- The state of the stack machine. -/
structure Assembler where
  /-- The number of the next node. -/
  next : Nat
  /-- The expressions not yet used, the topmost first. -/
  stack : List Expr
  /-- The declarations made so far, in order. -/
  declarations : List Declaration
  targetScope : DeploymentScope

/-- What a step leaves to look at. -/
inductive AssemblyResult where
  /-- An expression was put on the stack. -/
  | pushed (e : Expr)
  /-- Anything else; the last declaration is shown. -/
  | declared (d : Option Declaration)

namespace Assembler

/-- The machine before its first step. -/
def initial : Assembler :=
  ⟨0, [], [], .resourceGroup⟩

/-- Takes some operands from the stack; the last of them was the topmost. -/
def take (a : Assembler) (count : Nat) : Except AssemblyError (List Expr × Assembler) :=
  if count ≤ a.stack.length then
    .ok ((a.stack.take count).reverse, { a with stack := a.stack.drop count })
  else .error .underflow

/-- Puts a new node on the stack. -/
def push (a : Assembler) (make : Origin → Expr) : AssemblyResult × Assembler :=
  let e := make (Origin.numbered a.next)
  (.pushed e, { a with next := a.next + 1, stack := e :: a.stack })

/-- The last declaration, after a step that puts nothing on the stack. -/
def shown (a : Assembler) : AssemblyResult × Assembler :=
  (.declared a.declarations.getLast?, a)

/-- Takes a value from the stack if there is to be one. -/
def takeValue (a : Assembler) (hasValue : Bool) :
    Except AssemblyError (Option Expr × Assembler) := do
  if hasValue then
    let (operands, a) ← a.take 1
    return (operands.head?, a)
  else return (none, a)

/-- The node a step makes from its operands, for the steps that make one. -/
def compose (operands : List Expr) : AssemblyStep → Option (Origin → Expr)
  | .literal value => some (.literal · value)
  | .interpolation segments _ => some (.interpolation · segments operands)
  | .object keys => some (.object · (keys.zip operands))
  | .array _ => some (.array · operands)
  | .reference name => some (.reference · name)
  | .call name _ => some (.call · name operands)
  | step =>
    match step, operands with
    | .property name, [base] => some (.property · base name)
    | .element, [base, index] => some (.element · base index)
    | .ternary, [condition, ifTrue, ifFalse] => some (.ternary · condition ifTrue ifFalse)
    | .guarded, [condition, body] => some (.guarded · condition body)
    | .binary operator, [left, right] => some (.binary · operator left right)
    | .unary operator, [operand] => some (.unary · operator operand)
    | .loop item index, [source, body] => some (.loop · item index source body)
    | _, _ => none

/-- How many operands a step takes. -/
def operandCount : AssemblyStep → Nat
  | .interpolation _ count => count
  | .object keys => keys.length
  | .array count => count
  | .call _ count => count
  | .property _ | .unary _ => 1
  | .element | .guarded | .binary _ | .loop .. => 2
  | .ternary => 3
  | _ => 0

/-- Whether a step gives an interpolation a segment around and between all parts. -/
def segmentsFit : AssemblyStep → Bool
  | .interpolation segments count => segments.length == count + 1
  | _ => true

/-- Takes a step. -/
def step (a : Assembler) (s : AssemblyStep) :
    Except AssemblyError (AssemblyResult × Assembler) :=
  match s with
  | .copy =>
    match a.stack with
    | [] => .error .underflow
    | top :: _ => .ok (.pushed top, { a with stack := top :: a.stack })
  | .declare name kind hasValue => do
    let (value, a) ← a.takeValue hasValue
    let d : Declaration := ⟨Origin.numbered a.next, name, kind, value, []⟩
    return shown { a with next := a.next + 1, declarations := a.declarations ++ [d] }
  | .adopt count =>
    let parents := a.declarations.take (a.declarations.length - count)
    let children := a.declarations.drop (a.declarations.length - count)
    if a.declarations.length < count then .error .underflow
    else
      match parents.getLast? with
      | none => .error .underflow
      | some parent =>
        let parent := { parent with children := children }
        .ok (shown { a with declarations := parents.dropLast ++ [parent] })
  | .scope target => .ok (shown { a with targetScope := target })
  | s => do
    let (operands, a) ← a.take (operandCount s)
    if segmentsFit s then
      match compose operands s with
      | some make => return a.push make
      | none => throw .underflow
    else throw .segmentMismatch

/-- The unit assembled so far. -/
def program (a : Assembler) : BoundProgram :=
  ⟨a.targetScope, a.declarations⟩

end Assembler

end InfraGraph
