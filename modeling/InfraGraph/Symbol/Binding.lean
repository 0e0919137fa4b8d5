import InfraGraph.Diagnostic.Basic
import InfraGraph.Symbol.Model

/-!
# Binding

Binding a unit finds out what its names mean. Every declaration and every variable of a copy loop
becomes a symbol, numbered in the order of declaring; every expression node is scoped under the copy
loops around it.

A name leads to a variable of the innermost loop around the node that binds it, and otherwise to the
first declaration of that name, wherever it stands. A nested declaration is named after those around
it, as `parent::child`, and lies inside their copy loops.

Three points of order matter. The source of a loop stands outside the loop, so the variables bound
inside the source are declared first. A declaration is numbered before the variables in its value,
and these before its nested declarations. A declaration's value is scoped from the loops around the
declaration, because its own loop is met again on the way down.

In a unit that uses one syntax id for several nodes, the last node of an id answers for it.

## Main definitions

* `BoundProgram.placements` — every declaration with its full name and the loops around it.
* `Expr.loopVariables`, `Expr.scopes` — what an expression binds, and the loops around its nodes.
* `Registry.declare` — what becomes known by one declaration.
* `BoundProgram.bind` — symbols, scopes and diagnostics of a unit.
* `Binding.model` — the symbol model of a bound unit.
-/

namespace InfraGraph

/-! ## Declarations -/

/-- A declaration where it stands. -/
structure PlacedDeclaration where
  declaration : Declaration
  /-- The full name. -/
  name : String
  /-- The copy loops around the declaration, outermost first. -/
  outer : List LoopDescriptor

/-- The full name of a declaration inside a named one. -/
def qualifiedName (parent : Option String) (name : String) : String :=
  match parent with
  | some parent => parent ++ "::" ++ name
  | none => name

namespace Declaration

/-- The copy loop that replicates a declaration: the `for` its value is, for resources and
modules. -/
def ownLoop? (d : Declaration) : Option LoopDescriptor :=
  if d.kind.isReplicable then d.value.bind LoopDescriptor.ofExpr? else none

/-- The condition a declaration is under: that of its value, or of its loop's body. -/
def condition? (d : Declaration) : Option Expr :=
  if d.kind.isReplicable then
    match d.value with
    | some (.loop _ _ _ _ (.guarded _ condition _)) => some condition
    | some (.guarded _ condition _) => some condition
    | _ => none
  else none

mutual

/-- A declaration and those nested in it, with their names and the loops around them. -/
def placements (parent : Option String) (outer : List LoopDescriptor) :
    Declaration → List PlacedDeclaration
  | ⟨origin, name, kind, value, children⟩ =>
    let d : Declaration := ⟨origin, name, kind, value, children⟩
    let full := qualifiedName parent name
    ⟨d, full, outer⟩ :: placementsAll (some full) (outer ++ d.ownLoop?.toList) children

/-- `placements` over several declarations of one parent. -/
def placementsAll (parent : Option String) (outer : List LoopDescriptor) :
    List Declaration → List PlacedDeclaration
  | [] => []
  | d :: rest => placements parent outer d ++ placementsAll parent outer rest

end

end Declaration

/-- Every declaration of a unit with its full name and the loops around it. -/
def BoundProgram.placements (p : BoundProgram) : List PlacedDeclaration :=
  Declaration.placementsAll none [] p.declarations

namespace PlacedDeclaration

/-- The copy loops that replicate the declaration, outermost first. -/
def loops (p : PlacedDeclaration) : List LoopDescriptor :=
  p.outer ++ p.declaration.ownLoop?.toList

/-- What kind of symbol a declaration introduces, and its type before loops are counted. -/
def kindAndType (target : DeploymentScope) (p : PlacedDeclaration) : SymbolKind × DeclaredType :=
  match p.declaration.kind with
  | .parameter type => (.parameter, type)
  | .variable => (.variable, .any)
  | .output type => (.output, type)
  | .resource type scope =>
    let type := TypeReference.parse type
    (.resource ⟨type, scope.getD target⟩, .resource type.type)
  | .module path scope => (.module ⟨path, scope.getD target⟩, .module path)

/-- What a declaration introduces: every loop makes its type an array once more. -/
def entity (target : DeploymentScope) (p : PlacedDeclaration) : Entity :=
  let (kind, type) := p.kindAndType target
  { name := p.name
    kind := kind
    declaredType := DeclaredType.arrayed p.loops.length type
    loops := p.loops
    condition := p.declaration.condition?
    origin := p.declaration.origin }

end PlacedDeclaration

/-! ## Expressions -/

/-- A variable of the copy loop at a node. -/
def Entity.ofLoop (o : Origin) (role : LoopRole) (name : String) : Entity where
  name := name
  kind := .loopVariable ⟨o.id⟩ role
  declaredType :=
    match role with
    | .item => .any
    | .index => .int
  loops := []
  condition := none
  origin := o

namespace Expr

mutual

/-- The loop variables an expression binds, in the order of declaring. -/
def loopVariables : Expr → List Entity
  | .literal .. => []
  | .interpolation _ _ parts => loopVariablesAll parts
  | .object _ entries => loopVariablesEntries entries
  | .array _ items => loopVariablesAll items
  | .reference .. => []
  | .property _ base _ => loopVariables base
  | .element _ base index => loopVariables base ++ loopVariables index
  | .ternary _ condition ifTrue ifFalse =>
    loopVariables condition ++ loopVariables ifTrue ++ loopVariables ifFalse
  | .guarded _ condition body => loopVariables condition ++ loopVariables body
  | .call _ _ arguments => loopVariablesAll arguments
  | .binary _ _ left right => loopVariables left ++ loopVariables right
  | .unary _ _ operand => loopVariables operand
  | .loop o item index source body =>
    loopVariables source
      ++ Entity.ofLoop o .item item :: (index.map (Entity.ofLoop o .index)).toList
      ++ loopVariables body

/-- `loopVariables` over several expressions. -/
def loopVariablesAll : List Expr → List Entity
  | [] => []
  | e :: rest => loopVariables e ++ loopVariablesAll rest

/-- `loopVariables` over the values of an object. -/
def loopVariablesEntries : List (String × Expr) → List Entity
  | [] => []
  | (_, e) :: rest => loopVariables e ++ loopVariablesEntries rest

end

/-- A node with the copy loops around it. -/
abbrev Scoped :=
  SyntaxId × List LoopDescriptor

mutual

/-- The nodes of an expression, each with the copy loops around it, when `outer` are around the
expression. -/
def scopes (outer : List LoopDescriptor) : Expr → List Scoped
  | .literal o _ => [(o.id, outer)]
  | .interpolation o _ parts => (o.id, outer) :: scopesAll outer parts
  | .object o entries => (o.id, outer) :: scopesEntries outer entries
  | .array o items => (o.id, outer) :: scopesAll outer items
  | .reference o _ => [(o.id, outer)]
  | .property o base _ => (o.id, outer) :: scopes outer base
  | .element o base index => (o.id, outer) :: (scopes outer base ++ scopes outer index)
  | .ternary o condition ifTrue ifFalse =>
    (o.id, outer) :: (scopes outer condition ++ (scopes outer ifTrue ++ scopes outer ifFalse))
  | .guarded o condition body => (o.id, outer) :: (scopes outer condition ++ scopes outer body)
  | .call o _ arguments => (o.id, outer) :: scopesAll outer arguments
  | .binary o _ left right => (o.id, outer) :: (scopes outer left ++ scopes outer right)
  | .unary o _ operand => (o.id, outer) :: scopes outer operand
  | .loop o item index source body =>
    (o.id, outer)
      :: (scopes outer source ++ scopes (outer ++ [⟨⟨o.id⟩, item, index, source, o.span⟩]) body)

/-- `scopes` over several expressions. -/
def scopesAll (outer : List LoopDescriptor) : List Expr → List Scoped
  | [] => []
  | e :: rest => scopes outer e ++ scopesAll outer rest

/-- `scopes` over the values of an object. -/
def scopesEntries (outer : List LoopDescriptor) : List (String × Expr) → List Scoped
  | [] => []
  | (_, e) :: rest => scopes outer e ++ scopesEntries outer rest

end

/-- Whether a node is a copy loop. -/
def isLoop : Expr → Bool
  | .loop .. => true
  | _ => false

end Expr

namespace PlacedDeclaration

/-- What a declaration and its value introduce, in the order of declaring. -/
def entities (target : DeploymentScope) (p : PlacedDeclaration) : List Entity :=
  p.entity target :: (p.declaration.value.map Expr.loopVariables).getD []

/-- The nodes of a declaration's value with the copy loops around them. -/
def scopes (p : PlacedDeclaration) : List Expr.Scoped :=
  (p.declaration.value.map (Expr.scopes p.outer)).getD []

end PlacedDeclaration

/-! ## Diagnostics -/

/-- The report on a node whose id is taken. -/
def reportReusedId (o : Origin) : Diagnostic :=
  (Diagnostic.error .duplicateSyntaxId
      ("syntax id " ++ o.id.display ++ " is used by more than one node"))
    |>.withLabel o.span "reused syntax id"
    |>.withNote "every node of a bound tree needs its own syntax id"

/-- The report on a declaration whose name was declared before. -/
def reportRedeclared (p : PlacedDeclaration) (first : Span) : Diagnostic :=
  (Diagnostic.error .duplicateDeclaration ("`" ++ p.name ++ "` is declared more than once"))
    |>.withLabel p.declaration.span "duplicate declaration"
    |>.withSecondaryLabel first "first declared here"

/-! ## Declaring -/

/-- What is known while the declarations of a unit are gone through. -/
structure Registry where
  /-- The symbols so far; the number of a symbol is its place. -/
  symbols : List Symbol
  /-- The full names declared so far, each with the number of the symbol that has it. -/
  globals : List (String × SymbolId)
  diagnostics : Diagnostics

namespace Registry

/-- The number of the symbol that comes next. -/
def next (r : Registry) : SymbolId :=
  ⟨r.symbols.length⟩

/-- Makes a symbol of what is introduced next. -/
def add (r : Registry) (e : Entity) : Registry :=
  { r with symbols := r.symbols ++ [⟨e, r.next⟩] }

/-- Gives the name of a declaration to the symbol that comes next. A name that is given away stays
where it is, and the declaration is reported together with the symbol that has its name. -/
def giveName (r : Registry) (p : PlacedDeclaration) : Registry :=
  { symbols := r.symbols
    globals :=
      match r.globals.lookup p.name with
      | some _ => r.globals
      | none => (p.name, r.next) :: r.globals
    diagnostics :=
      match r.globals.lookup p.name with
      | some first =>
        r.diagnostics ++ r.symbols[first.index]?.toList.map fun s => reportRedeclared p s.span
      | none => r.diagnostics }

/-- Declares a declaration and the loop variables in its value. -/
def declare (target : DeploymentScope) (r : Registry) (p : PlacedDeclaration) : Registry :=
  (p.entities target).foldl add (r.giveName p)

end Registry

/-! ## Binding a unit -/

/-- A bound unit. -/
structure Binding where
  targetScope : DeploymentScope
  /-- All symbols; the number of a symbol is its place. -/
  symbols : List Symbol
  /-- The expression nodes that have copy loops around them. -/
  scopes : List Expr.Scoped
  /-- How many copy loops the unit has. -/
  loopCount : Nat
  diagnostics : Diagnostics

/-- The binding of no unit at all: no name means anything. -/
def Binding.empty : Binding :=
  ⟨.resourceGroup, [], [], 0, []⟩

namespace BoundProgram

/-- All that a unit introduces, in the order of declaring. -/
def entities (p : BoundProgram) : List Entity :=
  p.placements.flatMap (·.entities p.targetScope)

/-- Declares all declarations of a unit in order. Reused ids are reported before that. -/
def register (p : BoundProgram) : Registry :=
  p.placements.foldl (Registry.declare p.targetScope) ⟨[], [], p.reusedIds.map reportReusedId⟩

/-- Binds a unit. -/
def bind (p : BoundProgram) : Binding where
  targetScope := p.targetScope
  symbols := p.register.symbols
  scopes := (p.placements.flatMap (·.scopes)).filter fun entry => !entry.2.isEmpty
  loopCount := p.expressions.countP Expr.isLoop
  diagnostics := p.register.diagnostics

end BoundProgram

/-- The last item that passes a test. -/
def findLast? {α : Type} (test : α → Bool) : List α → Option α
  | [] => none
  | a :: rest => (findLast? test rest).or (if test a then some a else none)

/-- What the last entry of a key holds. -/
def lookupLast? {κ α : Type} [BEq κ] (key : κ) (entries : List (κ × α)) : Option α :=
  (findLast? (·.1 == key) entries).map Prod.snd

namespace Binding

/-- The symbol of a number. -/
def symbol? (b : Binding) (id : SymbolId) : Option Symbol :=
  b.symbols[id.index]?

/-- The copy loops around a node, outermost first. -/
def enclosingLoops (b : Binding) (node : SyntaxId) : List LoopDescriptor :=
  (lookupLast? node b.scopes).getD []

/-- Whether a symbol is the variable of that name of some copy loop. -/
def isVariableOf (loop : LoopId) (name : String) (s : Symbol) : Bool :=
  match s.kind with
  | .loopVariable l _ => l == loop && s.name == name
  | _ => false

/-- The variable of that name that a copy loop binds; the index wins over an item of its name. -/
def variableOf? (b : Binding) (name : String) (loop : LoopDescriptor) : Option Symbol :=
  findLast? (isVariableOf loop.id name) b.symbols

/-- The first declaration of that full name. -/
def declarationNamed? (b : Binding) (name : String) : Option Symbol :=
  b.symbols.find? fun s => !s.kind.isLoopVariable && s.name == name

/-- What a name means at a node: a variable of the innermost loop that binds it, or else the first
declaration of that name. -/
def lookup (b : Binding) (name : String) (node : SyntaxId) : Option Symbol :=
  ((b.enclosingLoops node).reverse.findSome? (b.variableOf? name)).or (b.declarationNamed? name)

/-- The symbol a declaration introduces. -/
def declaredSymbol (b : Binding) (node : SyntaxId) : Option Symbol :=
  findLast? (fun s => !s.kind.isLoopVariable && s.declaration == node) b.symbols

/-- Where the names and nodes of the unit lead. -/
def scoping (b : Binding) : Scoping where
  lookup := b.lookup
  declaredSymbol := b.declaredSymbol
  loopsOf s := s.loops
  enclosingLoops := b.enclosingLoops

/-- The symbol model of the unit. -/
def model (b : Binding) : SymbolModel :=
  b.scoping.toModel b.loopCount

end Binding

end InfraGraph
