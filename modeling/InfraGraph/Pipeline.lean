import InfraGraph.Diagnostic.Render
import InfraGraph.Graph.Build
import InfraGraph.Graph.Usage
import InfraGraph.Json.Printer
import InfraGraph.Symbol.Binding

/-!
# The pipeline

A unit is bound, lowered, checked and looked over for unused declarations. It succeeds if nothing on
the way was an error.
-/

namespace InfraGraph

/-- What became of a unit. -/
structure Compilation where
  binding : Binding
  graph : OperationGraph
  /-- The reports of binding, of lowering and of the rules, in this order. -/
  diagnostics : Diagnostics

namespace Compilation

/-- Whether nothing was an error. -/
def success (c : Compilation) : Bool :=
  !c.diagnostics.hasErrors

/-- Whether some report carries a code. -/
def reports (c : Compilation) (code : ErrorCode) : Bool :=
  !(c.diagnostics.withCode code).isEmpty

/-- All reports as text, without any source at hand. -/
def rendered (c : Compilation) : String :=
  c.diagnostics.render .empty

end Compilation

namespace BoundProgram

/-- Runs a unit through the pipeline; its graph is always checked. -/
def compile (p : BoundProgram) : Except Violation Compilation := do
  let binding := p.bind
  let graph ← p.build binding.model .checked
  return ⟨binding, graph, binding.diagnostics ++ graph.diagnostics ++ graph.lint .default⟩

/-- The unit read back from the text it is stored as. -/
def reread (p : BoundProgram) : Json.Decoded BoundProgram :=
  Json.readJsonText BoundProgram.read p.toJson.compact

end BoundProgram

/-- The codes a unit may be reported for, in the order of the passes. -/
def ErrorCode.all : List ErrorCode :=
  [.duplicateSyntaxId, .unknownSymbol, .outputReference, .duplicateDeclaration, .missingLoopIndex,
    .unusedDeclaration]

end InfraGraph
