import InfraGraph.Graph.Basic

/-!
# Graphs as text

An outline has a line for every declaration and every operation, each two blanks deeper than what
holds it. The operations of a declaration come before the declarations nested in it; a declaration
without an operation has a line saying so.

## Main definitions

* `Operation.describe` — the line of an operation.
* `OperationGraph.outline` — the text of a graph.
-/

namespace InfraGraph

/-- A context after a blank, or nothing. -/
def contextSuffix : Option ReferenceContext → String
  | none => ""
  | some context => " " ++ context.display

/-- What a reference refers to, in words. -/
def Referent.describe (name : String) : Referent → String
  | .resource metadata => "resource " ++ name ++ " '" ++ metadata.type.display ++ "'"
  | .module metadata => "module " ++ name ++ " '" ++ metadata.path ++ "'"
  | .variable => "variable " ++ name

/-- What an operation is, on one line. -/
def Operation.describe : Operation → String
  | .literal _ value => "literal " ++ value.display
  | .interpolation _ segments _ => "interpolation " ++ Text.quoteList segments
  | .object _ entries =>
    "object \x7b" ++ ", ".intercalate (entries.map Prod.fst) ++ "\x7d"
  | .array _ items => "array (" ++ toString items.length ++ ")"
  | .access _ symbol referent context => referent.describe symbol.name ++ contextSuffix context
  | .parameter _ symbol => "parameter " ++ symbol.name
  | .loopVariable _ symbol binder _ => "local " ++ symbol.name ++ " of " ++ binder.display
  | .property _ _ name => "property ." ++ name
  | .element .. => "index"
  | .ternary .. => "ternary"
  | .guarded .. => "condition"
  | .call _ name _ => "call " ++ name
  | .binary _ operator _ _ => "binary " ++ operator.sign
  | .unary _ operator _ => "unary " ++ operator.sign
  | .loop o item (some index) _ _ =>
    "for (" ++ item ++ ", " ++ index ++ ") " ++ (LoopId.mk o.id).display
  | .loop o item none _ _ => "for " ++ item ++ " " ++ (LoopId.mk o.id).display

/-- Adds a line at some depth to a text. -/
def addLine (out : String) (depth : Nat) (line : String) : String :=
  out ++ Text.repeated depth "  " ++ line ++ "\n"

/-- Adds the lines of an operation. -/
def Operation.addOutline (out : String) (depth : Nat) (op : Operation) : String :=
  Operation.visit (fun out depth op => addLine out depth op.describe) out depth op

namespace DeclarationOperation

/-- What a declaration declares, on one line. -/
def describe (d : DeclarationOperation) : String :=
  d.symbol.kind.name ++ " " ++ d.symbol.name ++ ": " ++ d.symbol.declaredType.display

/-- Adds the lines of a value, or one saying that there is none. -/
def addValue (out : String) (depth : Nat) : Option Operation → String
  | some value => value.addOutline out depth
  | none => addLine out depth "<none>"

mutual

/-- Adds the lines of a declaration. -/
def addOutline (out : String) (depth : Nat) : DeclarationOperation → String
  | ⟨origin, symbol, value, children⟩ =>
    let out := addLine out depth (describe ⟨origin, symbol, value, children⟩)
    addOutlines (addValue out (depth + 1) value) (depth + 1) children

/-- Adds the lines of several declarations. -/
def addOutlines (out : String) (depth : Nat) : List DeclarationOperation → String
  | [] => out
  | d :: rest => addOutlines (addOutline out depth d) depth rest

end

end DeclarationOperation

/-- The text of a graph. -/
def OperationGraph.outline (g : OperationGraph) : String :=
  DeclarationOperation.addOutlines "" 0 g.declarations

end InfraGraph
