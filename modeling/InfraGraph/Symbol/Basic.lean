import InfraGraph.Loop.Descriptor

/-!
# Symbols

What a name of a unit stands for: a declaration, or a variable of a copy loop. An `Entity` holds all
that is known of it; a `Symbol` is an entity with its number in the unit.
-/

namespace InfraGraph

/-- The number of a symbol in its unit. -/
structure SymbolId where
  index : Nat
deriving DecidableEq, Repr, Inhabited

/-- Which of a copy loop's two variables. -/
inductive LoopRole where
  | item
  | index
deriving DecidableEq, Repr

/-- The name of a role. -/
def LoopRole.name : LoopRole → String
  | .item => "item"
  | .index => "index"

/-- What is known of a resource. -/
structure ResourceMetadata where
  type : TypeReference
  scope : DeploymentScope
deriving DecidableEq, Repr

/-- What is known of a module. -/
structure ModuleMetadata where
  path : String
  scope : DeploymentScope
deriving DecidableEq, Repr

/-- What kind of thing a symbol is. -/
inductive SymbolKind where
  | resource (metadata : ResourceMetadata)
  | module (metadata : ModuleMetadata)
  | variable
  | parameter
  | output
  /-- A variable of a copy loop. -/
  | loopVariable (loop : LoopId) (role : LoopRole)
deriving DecidableEq, Repr

namespace SymbolKind

/-- Whether a variable of a copy loop is meant, and not a declaration. -/
def isLoopVariable : SymbolKind → Bool
  | .loopVariable .. => true
  | _ => false

/-- The kind in words. -/
def name : SymbolKind → String
  | .resource _ => "resource"
  | .module _ => "module"
  | .variable => "variable"
  | .parameter => "parameter"
  | .output => "output"
  | .loopVariable .. => "loop variable"

end SymbolKind

/-- What a name stands for. -/
structure Entity where
  /-- The name; of a nested declaration with the names of the declarations around it. -/
  name : String
  kind : SymbolKind
  declaredType : DeclaredType
  /-- The copy loops that replicate the declaration, outermost first. -/
  loops : List LoopDescriptor
  /-- The condition under which the declaration is deployed. -/
  condition : Option Expr
  /-- The declaration, or the `for` node of a loop variable. -/
  origin : Origin

/-- A numbered entity. -/
structure Symbol extends Entity where
  id : SymbolId

namespace Symbol

/-- The node that introduces the symbol. -/
def declaration (s : Symbol) : SyntaxId :=
  s.origin.id

/-- The span of the node that introduces the symbol. -/
def span (s : Symbol) : Span :=
  s.origin.span

/-- Whether a copy loop replicates the symbol. -/
def isLooped (s : Symbol) : Bool :=
  !s.loops.isEmpty

/-- Whether the symbol is deployed under a condition. -/
def isConditional (s : Symbol) : Bool :=
  s.condition.isSome

/-- The version of a resource's type, if it has one. -/
def apiVersion? (s : Symbol) : Option String :=
  match s.kind with
  | .resource metadata => metadata.type.version
  | _ => none

instance : BEq Symbol where
  beq a b :=
    a.id == b.id && a.name == b.name && a.kind == b.kind && a.declaredType == b.declaredType
      && a.loops == b.loops && a.condition == b.condition && a.origin == b.origin

end Symbol

/-! ## JSON form -/

/-- A symbol's number as JSON. -/
def SymbolId.toJson (id : SymbolId) : Json :=
  .ofNat id.index

/-- What is known of a resource, as members. -/
def ResourceMetadata.members (m : ResourceMetadata) : List (String × Json) :=
  [("type_reference", m.type.toJson), ("scope", m.scope.toJson)]

/-- What is known of a module, as members. -/
def ModuleMetadata.members (m : ModuleMetadata) : List (String × Json) :=
  [("path", .str m.path), ("scope", m.scope.toJson)]

/-- The kind of a symbol as JSON. -/
def SymbolKind.toJson : SymbolKind → Json
  | .resource metadata => .obj (("kind", .str "resource") :: metadata.members)
  | .module metadata => .obj (("kind", .str "module") :: metadata.members)
  | .variable => .obj [("kind", .str "variable")]
  | .parameter => .obj [("kind", .str "parameter")]
  | .output => .obj [("kind", .str "output")]
  | .loopVariable loop role =>
    .obj [("kind", .str "local"), ("loop_id", loop.toJson), ("role", .str role.name)]

/-- A symbol as JSON. -/
def Symbol.toJson (s : Symbol) : Json :=
  .obj
    [("id", s.id.toJson), ("name", .str s.name), ("kind", s.kind.toJson),
      ("declared_type", s.declaredType.toJson), ("loops", .arr (s.loops.map LoopDescriptor.toJson)),
      ("condition", (s.condition.map Expr.toJson).getD .null),
      ("declaration", s.declaration.toJson), ("span", s.span.toJson)]

end InfraGraph
