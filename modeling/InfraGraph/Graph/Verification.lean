import InfraGraph.Graph.Basic
import InfraGraph.Symbol.Model

/-!
# Checking graphs

What holds of every graph that was built from a unit without reused ids, checked against a symbol
model:

* a declaration holds the symbol the model has for it;
* the symbol of a reference is found again under its name where the reference stands;
* no syntax node is accounted for twice;
* a reference has a context exactly if loops replicate its symbol, with the same loops in order;
* a reference without a full index was reported.

The check first looks at all declarations and then at all operations in source order, and gives the
first fault it meets. For an operation it draws up a list of `Check`s: uses of syntax nodes, whose
outcome depends on the nodes used before, and faults that are settled already.

## Main definitions

* `Violation` and `Violation.message` — the faults and their wording.
* `Operation.checks` — what is to be checked at an operation.
* `OperationGraph.verify` — the first fault of a graph.
-/

namespace InfraGraph

/-- What is wrong with a graph. -/
inductive Violation where
  /-- The name of the symbol leads elsewhere. -/
  | danglingSymbol (node : SyntaxId) (name : String)
  | missingIndexContext (node : SyntaxId) (name : String)
  | unexpectedIndexContext (node : SyntaxId) (name : String)
  /-- The levels of the context are not the loops of the symbol. -/
  | levelMismatch (node : SyntaxId) (name : String) (expected found : Nat)
  | unreportedUnresolvedIndex (node : SyntaxId) (name : String)
  /-- The node is accounted for twice. -/
  | duplicateSyntax (node : SyntaxId)
deriving DecidableEq, Repr

namespace Violation

/-- The name of a fault. -/
def name : Violation → String
  | .danglingSymbol .. => "DanglingSymbol"
  | .missingIndexContext .. => "MissingIndexContext"
  | .unexpectedIndexContext .. => "UnexpectedIndexContext"
  | .levelMismatch .. => "LevelMismatch"
  | .unreportedUnresolvedIndex .. => "UnreportedUnresolvedIndex"
  | .duplicateSyntax .. => "DuplicateSyntax"

/-- The wording of a fault. -/
def message : Violation → String
  | .danglingSymbol node name =>
    node.display ++ ": `" ++ name ++ "` does not resolve to the symbol the operation holds"
  | .missingIndexContext node name =>
    node.display ++ ": reference to looped `" ++ name ++ "` has no index context"
  | .unexpectedIndexContext node name =>
    node.display ++ ": reference to `" ++ name
      ++ "` has an index context but the symbol is not looped"
  | .levelMismatch node name expected found =>
    node.display ++ ": index context of `" ++ name ++ "` has " ++ toString found
      ++ " level(s), symbol has " ++ toString expected ++ " loop(s)"
  | .unreportedUnresolvedIndex node name =>
    node.display ++ ": unresolved index of `" ++ name ++ "` was not reported"
  | .duplicateSyntax node => node.display ++ ": syntax node lowered more than once"

end Violation

/-- One thing to check. -/
inductive Check where
  /-- A syntax node is accounted for; it must not have been before. -/
  | uses (node : SyntaxId)
  /-- A fault in any case. -/
  | fault (v : Violation)
deriving DecidableEq, Repr

/-- The first fault of a list of checks, `seen` being the nodes accounted for before. -/
def firstFault (seen : List SyntaxId) : List Check → Option Violation
  | [] => none
  | .uses node :: rest =>
    if node ∈ seen then some (.duplicateSyntax node) else firstFault (node :: seen) rest
  | .fault v :: _ => some v

section

variable (m : SymbolModel) (reports : Diagnostics)

/-- The check that the model finds a reference's symbol again. -/
def checkSymbol (node : SyntaxId) (symbol : Symbol) : List Check :=
  if (m.lookup symbol.name node).map (·.id) = some symbol.id then []
  else [.fault (.danglingSymbol node symbol.name)]

/-- Whether a context has one level for every loop, in order. -/
def levelsMatch (context : ReferenceContext) (loops : List LoopDescriptor) : Bool :=
  context.levels.map (·.target) == loops.map (·.id)

/-- Whether a missing index was reported at a span. -/
def missingIndexReported (span : Span) : Bool :=
  (reports.withCode .missingLoopIndex).any fun d => d.position? == some span

/-- The checks on the context of a reference. -/
def checkContext (o : Origin) (symbol : Symbol) (context : Option ReferenceContext) :
    List Check :=
  let loops := m.loopsOf symbol
  match context with
  | none =>
    if loops.isEmpty then [] else [.fault (.missingIndexContext o.id symbol.name)]
  | some context =>
    if loops.isEmpty then [.fault (.unexpectedIndexContext o.id symbol.name)]
    else if levelsMatch context loops then
      context.explicitAccesses.map .uses
        ++ (if context.isUnresolved && !missingIndexReported reports o.span then
              [.fault (.unreportedUnresolvedIndex o.id symbol.name)]
            else [])
    else
      [.fault (.levelMismatch o.id symbol.name loops.length context.levels.length)]

/-- What is to be checked at an operation, its children apart. -/
def Operation.checks (op : Operation) : List Check :=
  .uses op.id ::
    match op with
    | .access o symbol _ context =>
      checkSymbol m o.id symbol ++ checkContext m reports o symbol context
    | .parameter o symbol => checkSymbol m o.id symbol
    | .loopVariable o symbol _ _ => checkSymbol m o.id symbol
    | _ => []

/-- The check that a declaration holds the symbol the model has for it. -/
def DeclarationOperation.checks (d : DeclarationOperation) : List Check :=
  if (m.declaredSymbol d.id).map (·.id) = some d.symbol.id then []
  else [.fault (.danglingSymbol d.id d.symbol.name)]

end

/-- The first fault of a graph under a symbol model. -/
def OperationGraph.verify (g : OperationGraph) (m : SymbolModel) : Option Violation :=
  firstFault []
    (g.allDeclarations.flatMap (·.checks m) ++ g.operations.flatMap (·.checks m g.diagnostics))

end InfraGraph
