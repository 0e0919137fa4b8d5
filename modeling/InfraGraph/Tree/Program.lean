import InfraGraph.Tree.Expr
import InfraGraph.Tree.DeclaredType

/-!
# Bound programs

The bound tree of one compilation unit: declarations in source order, each with a value and with
nested declarations of its own.

## Main definitions

* `Declaration.flatten` — a declaration before the ones nested in it.
* `BoundProgram.expressions` — every expression node, by declaration and then in source order.
* `BoundProgram.reusedIds` — the nodes whose id an earlier node has already.
-/

namespace InfraGraph

/-- What a declaration declares. -/
inductive DeclarationKind where
  | parameter (type : DeclaredType)
  | variable
  /-- A resource of a type written with its version, and the scope it is deployed to if that is not
  the scope of the unit. -/
  | resource (type : String) (scope : Option DeploymentScope)
  | module (path : String) (scope : Option DeploymentScope)
  | output (type : DeclaredType)
deriving DecidableEq, Repr

/-- Only resources and modules are replicated by a copy loop in their value. -/
def DeclarationKind.isReplicable : DeclarationKind → Bool
  | .resource .. | .module .. => true
  | _ => false

/-- A declaration, on the top level or nested in another one. -/
structure Declaration where
  origin : Origin
  name : String
  kind : DeclarationKind
  /-- The value; for a parameter its default. -/
  value : Option Expr
  /-- Declarations that lie inside this one's copy loop. -/
  children : List Declaration
deriving Repr

namespace Declaration

/-- The id of the declaration's node. -/
def id (d : Declaration) : SyntaxId :=
  d.origin.id

/-- The span of the declaration's node. -/
def span (d : Declaration) : Span :=
  d.origin.span

/-- Whether a resource is declared. -/
def isResource (d : Declaration) : Bool :=
  match d.kind with
  | .resource .. => true
  | _ => false

/-- The expression nodes of a declaration's own value. -/
def valueNodes (d : Declaration) : List Expr :=
  match d.value with
  | none => []
  | some value => value.preorder

mutual

/-- A declaration and all that are nested in it, each before the ones nested in it. -/
def flatten : Declaration → List Declaration
  | ⟨origin, name, kind, value, children⟩ =>
    ⟨origin, name, kind, value, children⟩ :: flattenAll children

/-- `flatten` over several declarations. -/
def flattenAll : List Declaration → List Declaration
  | [] => []
  | d :: rest => flatten d ++ flattenAll rest

end

theorem flattenAll_eq (ds : List Declaration) : flattenAll ds = ds.flatMap flatten := by
  induction ds with
  | nil => rfl
  | cons d rest ih => simp [flattenAll, ih]

theorem flatten_eq (d : Declaration) : d.flatten = d :: d.children.flatMap flatten := by
  cases d
  simp [flatten, flattenAll_eq]

/-- The origins of a declaration and of the nodes of its value. -/
def ownOrigins (d : Declaration) : List Origin :=
  d.origin :: d.valueNodes.map Expr.origin

end Declaration

/-- The bound tree of one compilation unit. -/
structure BoundProgram where
  targetScope : DeploymentScope
  declarations : List Declaration
deriving Repr

/-- The items whose key an earlier item of the list has, or that is among the keys `seen` before. -/
def repeatsAfter {α κ : Type} [DecidableEq κ] (key : α → κ) (seen : List κ) : List α → List α
  | [] => []
  | a :: rest =>
    if key a ∈ seen then a :: repeatsAfter key seen rest
    else repeatsAfter key (key a :: seen) rest

namespace BoundProgram

/-- A unit deployed to a resource group. -/
def ofDeclarations (ds : List Declaration) : BoundProgram :=
  ⟨.resourceGroup, ds⟩

/-- Every declaration, nested ones included, in source order. -/
def allDeclarations (p : BoundProgram) : List Declaration :=
  p.declarations.flatMap Declaration.flatten

/-- Every expression node, declaration by declaration and then in source order. -/
def expressions (p : BoundProgram) : List Expr :=
  p.allDeclarations.flatMap Declaration.valueNodes

/-- The origin of every node: a declaration, the nodes of its value, then what is nested in it. -/
def origins (p : BoundProgram) : List Origin :=
  p.allDeclarations.flatMap Declaration.ownOrigins

/-- The nodes whose id an earlier node has already. -/
def reusedIds (p : BoundProgram) : List Origin :=
  repeatsAfter Origin.id [] p.origins

end BoundProgram

end InfraGraph
