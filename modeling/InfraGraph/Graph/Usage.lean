import InfraGraph.Graph.Basic

/-!
# Uses of symbols

Where a symbol is referred to, and which declarations nothing refers to.

## Main definitions

* `referenceFinder` — a visitor that stops at the references to a symbol.
* `OperationGraph.referencesTo` — the references to a symbol, in source order.
* `OperationGraph.lint` — a report on every unused declaration of the top level.
-/

namespace InfraGraph

/-! ## References -/

/-- A place that refers to a symbol. -/
structure SymbolReference where
  origin : Origin
  /-- How the reference is indexed, if it is. -/
  index : Option IndexKind
deriving DecidableEq, Repr

namespace SymbolReference

/-- A reference as JSON; one without an index has no member for it. -/
def toJson (r : SymbolReference) : Json :=
  .obj ([("syntax", r.origin.id.toJson), ("span", r.origin.span.toJson)]
    ++ r.index.toList.map fun kind => ("index", .str kind.name))

/-- A reference on one line. -/
def display (r : SymbolReference) : String :=
  r.origin.span.display ++ " " ++ r.origin.id.display
    ++ (match r.index with
        | some kind => " (" ++ kind.name ++ " index)"
        | none => "")

end SymbolReference

/-- Notes a reference, if it is one to the symbol of that number. -/
def noteReference (id : SymbolId) (o : Origin) (symbol : Symbol)
    (context : Option ReferenceContext) (found : List SymbolReference) : List SymbolReference :=
  if symbol.id = id then found ++ [⟨o, context.map fun context => context.kind⟩] else found

/-- Notes every reference to a symbol, in source order. -/
def referenceFinder (id : SymbolId) : OperationVisitor (List SymbolReference) where
  literal _ _ found := found
  interpolation _ _ _ walk found := walk found
  object _ _ walk found := walk found
  array _ _ walk found := walk found
  resourceAccess o symbol _ context walk found := walk (noteReference id o symbol context found)
  moduleAccess o symbol _ context walk found := walk (noteReference id o symbol context found)
  variableAccess o symbol context walk found := walk (noteReference id o symbol context found)
  parameterAccess o symbol found := noteReference id o symbol none found
  loopVariableAccess o symbol _ _ found := noteReference id o symbol none found
  property _ _ _ walk found := walk found
  element _ _ _ walk found := walk found
  conditional _ _ _ _ walk found := walk found
  call _ _ _ walk found := walk found
  binary _ _ _ _ walk found := walk found
  unary _ _ _ walk found := walk found
  loop _ _ _ _ _ walk found := walk found

/-- Every reference to a symbol, in source order. -/
def OperationGraph.referencesTo (g : OperationGraph) (id : SymbolId) : List SymbolReference :=
  g.accept (referenceFinder id) []

/-! ## Unused declarations -/

/-- How grave the faults found by each rule are; a rule without a level is off. -/
structure LintOptions where
  unusedDeclarations : Option Level
deriving DecidableEq, Repr

namespace LintOptions

/-- Unused declarations are warned about. -/
def default : LintOptions :=
  ⟨some .warning⟩

/-- The options as JSON. -/
def toJson (o : LintOptions) : Json :=
  .obj [("unusedDeclarations", .ofText? (o.unusedDeclarations.map Level.name))]

/-- The options from JSON; what is left out is as by default. -/
def read : Nat → Json → Json.Decoded LintOptions :=
  Json.readRecord .streamed fun room =>
    LintOptions.mk <$>
      Json.defaulted "unusedDeclarations" default.unusedDeclarations
        (Json.readOption (Level.read .streamed room))

end LintOptions

/-- Whether a symbol of that kind should be used: outputs are for the caller. -/
def SymbolKind.needsUse : SymbolKind → Bool
  | .parameter | .variable | .resource _ | .module _ => true
  | .output | .loopVariable .. => false

/-- The report on an unused declaration. -/
def reportUnused (level : Level) (d : DeclarationOperation) : Diagnostic :=
  let message :=
    d.symbol.kind.name ++ " `" ++ d.symbol.name ++ "` is declared but never used"
  { Diagnostic.ofMessage level message with code := some .unusedDeclaration }
    |>.withLabel d.span "unused declaration"

/-- The declarations on the top level that should be used and are not. Nested declarations are
deployed with the ones around them. -/
def OperationGraph.unusedDeclarations (g : OperationGraph) : List DeclarationOperation :=
  let referenced := g.referencedSymbols
  g.declarations.filter fun d =>
    d.symbol.kind.needsUse && !referenced.contains d.symbol.id.index

/-- The reports of the rules that are on. -/
def OperationGraph.lint (g : OperationGraph) (options : LintOptions) : Diagnostics :=
  match options.unusedDeclarations with
  | none => []
  | some level => g.unusedDeclarations.map (reportUnused level)

end InfraGraph
