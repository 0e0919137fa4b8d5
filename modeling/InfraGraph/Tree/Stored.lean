import InfraGraph.Tree.Program

/-!
# The stored form of bound trees

A bound tree is stored as JSON. A node's own members (`id`, `span`, and for declarations also
`name`, `value` and `children`) stand in one object with a `kind` and the members of that kind.
Members that are no part of a node are ignored, so a newer tree can be read.

`toJson` leaves out what has a default and has that default in every reader: an absent value, no
children, no scope of its own, no index variable.

## Main definitions

* `Expr.toJson`, `Declaration.toJson`, `BoundProgram.toJson` — writing.
* `Expr.read`, `Declaration.read`, `BoundProgram.read` — reading.
-/

namespace InfraGraph

/-! ## Writing -/

/-- The members every expression node begins with. -/
def Origin.members (o : Origin) (kind : String) : List (String × Json) :=
  [("id", o.id.toJson), ("span", o.span.toJson), ("kind", .str kind)]

/-- A member that is left out when there is nothing to write. -/
def optionalMember {α : Type} (name : String) (write : α → Json) :
    Option α → List (String × Json)
  | none => []
  | some a => [(name, write a)]

namespace Expr

mutual

/-- An expression as JSON. -/
def toJson : Expr → Json
  | .literal o value => .obj (o.members "literal" ++ [("value", value.toJson)])
  | .interpolation o segments parts =>
    .obj (o.members "interpolation"
      ++ [("segments", .arr (segments.map Json.str)), ("expressions", .arr (toJsonAll parts))])
  | .object o entries =>
    .obj (o.members "object" ++ [("properties", .arr (toJsonEntries entries))])
  | .array o items => .obj (o.members "array" ++ [("items", .arr (toJsonAll items))])
  | .reference o name => .obj (o.members "reference" ++ [("name", .str name)])
  | .property o base name =>
    .obj (o.members "propertyAccess" ++ [("base", toJson base), ("property", .str name)])
  | .element o base index =>
    .obj (o.members "arrayAccess" ++ [("base", toJson base), ("index", toJson index)])
  | .ternary o condition ifTrue ifFalse =>
    .obj (o.members "ternary"
      ++ [("condition", toJson condition), ("ifTrue", toJson ifTrue), ("ifFalse", toJson ifFalse)])
  | .guarded o condition body =>
    .obj (o.members "ifCondition" ++ [("condition", toJson condition), ("body", toJson body)])
  | .call o name arguments =>
    .obj (o.members "functionCall"
      ++ [("name", .str name), ("arguments", .arr (toJsonAll arguments))])
  | .binary o operator left right =>
    .obj (o.members "binary"
      ++ [("operator", .str operator.name), ("left", toJson left), ("right", toJson right)])
  | .unary o operator operand =>
    .obj (o.members "unary" ++ [("operator", .str operator.name), ("operand", toJson operand)])
  | .loop o item index source body =>
    .obj (o.members "for" ++ [("itemVariable", .str item)]
      ++ optionalMember "indexVariable" Json.str index
      ++ [("source", toJson source), ("body", toJson body)])

/-- Expressions as JSON. -/
def toJsonAll : List Expr → List Json
  | [] => []
  | e :: rest => toJson e :: toJsonAll rest

/-- The entries of an object literal as JSON. -/
def toJsonEntries : List (String × Expr) → List Json
  | [] => []
  | (key, e) :: rest => .obj [("key", .str key), ("value", toJson e)] :: toJsonEntries rest

end

end Expr

/-- The kind of a declaration and the members it brings. -/
def DeclarationKind.members : DeclarationKind → List (String × Json)
  | .parameter type => [("kind", .str "parameter"), ("type", type.toJson)]
  | .variable => [("kind", .str "variable")]
  | .resource type scope =>
    [("kind", .str "resource"), ("type", .str type)]
      ++ optionalMember "scope" DeploymentScope.toJson scope
  | .module path scope =>
    [("kind", .str "module"), ("path", .str path)]
      ++ optionalMember "scope" DeploymentScope.toJson scope
  | .output type => [("kind", .str "output"), ("type", type.toJson)]

namespace Declaration

mutual

/-- A declaration as JSON. -/
def toJson : Declaration → Json
  | ⟨origin, name, kind, value, children⟩ =>
    .obj ([("id", origin.id.toJson), ("name", .str name), ("span", origin.span.toJson)]
      ++ kind.members
      ++ optionalMember "value" Expr.toJson value
      ++ (if children.isEmpty then [] else [("children", .arr (toJsonAll children))]))

/-- Declarations as JSON. -/
def toJsonAll : List Declaration → List Json
  | [] => []
  | d :: rest => toJson d :: toJsonAll rest

end

end Declaration

/-- A unit as JSON. -/
def BoundProgram.toJson (p : BoundProgram) : Json :=
  .obj [("targetScope", p.targetScope.toJson),
    ("declarations", .arr (Declaration.toJsonAll p.declarations))]

/-! ## Reading -/

/-- The members of a node that are its own. -/
def Origin.fields (stage : Stage) (room : Nat) : Json.Fields Origin :=
  Origin.mk <$> Json.required "id" SyntaxId.read
    <*> Json.defaulted "span" Span.unknown (Span.read stage room)

namespace Expr

/-- An entry of an object literal, given how expressions are read. -/
def readEntry (child : Nat → Json → Json.Decoded Expr) :
    Nat → Json → Json.Decoded (String × Expr) :=
  Json.readRecord .collected fun room =>
    Prod.mk <$> Json.required "key" Json.readText <*> Json.required "value" (child room)

/-- The kinds of expressions with their members, given how expressions are read. -/
def kinds (child : Nat → Json → Json.Decoded Expr) (room : Nat) :
    List (String × Json.Fields (Origin → Expr)) :=
  let one (name : String) := Json.required name (child room)
  let many (name : String) := Json.required name (Json.readList child room)
  let text (name : String) := Json.required name Json.readText
  [("literal",
      (fun value o => .literal o value) <$>
        Json.required "value" (LiteralValue.read .collected room)),
    ("interpolation",
      (fun segments parts o => .interpolation o segments parts) <$>
        Json.required "segments" (Json.readList (fun _ => Json.readText) room)
        <*> many "expressions"),
    ("object",
      (fun entries o => .object o entries) <$>
        Json.required "properties" (Json.readList (readEntry child) room)),
    ("array", (fun items o => .array o items) <$> many "items"),
    ("reference", (fun name o => .reference o name) <$> text "name"),
    ("propertyAccess",
      (fun base name o => .property o base name) <$> one "base" <*> text "property"),
    ("arrayAccess", (fun base index o => .element o base index) <$> one "base" <*> one "index"),
    ("ternary",
      (fun condition ifTrue ifFalse o => .ternary o condition ifTrue ifFalse) <$>
        one "condition" <*> one "ifTrue" <*> one "ifFalse"),
    ("ifCondition",
      (fun condition body o => .guarded o condition body) <$> one "condition" <*> one "body"),
    ("functionCall",
      (fun name arguments o => .call o name arguments) <$> text "name" <*> many "arguments"),
    ("binary",
      (fun operator left right o => .binary o operator left right) <$>
        Json.required "operator" (BinaryOperator.read .collected room)
        <*> one "left" <*> one "right"),
    ("unary",
      (fun operator operand o => .unary o operator operand) <$>
        Json.required "operator" (UnaryOperator.read .collected room) <*> one "operand"),
    ("for",
      (fun item index source body o => .loop o item index source body) <$>
        text "itemVariable"
        <*> Json.defaulted "indexVariable" none (Json.readOption Json.readText)
        <*> one "source" <*> one "body")]

/-- An expression, given how the expressions inside it are read. -/
def readNode (child : Nat → Json → Json.Decoded Expr) (stage : Stage) :
    Nat → Json → Json.Decoded Expr :=
  Json.readObject fun room members tear => do
    let (origin, rest) ← (Origin.fields stage room).readOuter stage room members tear
    let kind := Json.required "kind" (Json.readTag (kinds child room))
    let (fields, rest) ← kind.readOuter .collected room rest none
    return (← fields.read rest none) origin

/-- `read`, with a bound on the layers of expressions. -/
def readWithin : Nat → Stage → Nat → Json → Json.Decoded Expr
  | layers + 1, stage => readNode (readWithin layers .collected) stage
  | 0, _ => Json.readObject fun _ _ _ => .error (.broken .malformed)

/-- An expression from JSON. Every expression is an object, so there are no more layers than
fit. -/
def read (stage : Stage) (room : Nat) : Json → Json.Decoded Expr :=
  readWithin room stage room

end Expr

/-- The kinds of declarations with their members. -/
def DeclarationKind.kinds (room : Nat) : List (String × Json.Fields DeclarationKind) :=
  let type := Json.required "type" (DeclaredType.read .collected room)
  let scope :=
    Json.defaulted "scope" none (Json.readOption (DeploymentScope.read .collected room))
  [("parameter", .parameter <$> type),
    ("variable", Json.Fields.pure .variable),
    ("resource", .resource <$> Json.required "type" Json.readText <*> scope),
    ("module", .module <$> Json.required "path" Json.readText <*> scope),
    ("output", .output <$> type)]

namespace Declaration

/-- The members of a declaration that are its own, given how nested declarations are read. -/
def fields (child : Nat → Json → Json.Decoded Declaration) (stage : Stage) (room : Nat) :
    Json.Fields (DeclarationKind → Declaration) :=
  (fun id name span value children kind => ⟨⟨id, span⟩, name, kind, value, children⟩) <$>
    Json.required "id" SyntaxId.read
    <*> Json.required "name" Json.readText
    <*> Json.defaulted "span" Span.unknown (Span.read stage room)
    <*> Json.defaulted "value" none (Json.readOption (Expr.read stage room))
    <*> Json.defaulted "children" [] (Json.readList child room)

/-- A declaration, given how nested declarations are read. -/
def readNode (child : Nat → Json → Json.Decoded Declaration) (stage : Stage) :
    Nat → Json → Json.Decoded Declaration :=
  Json.readObject fun room members tear => do
    let (build, rest) ← (fields child stage room).readOuter stage room members tear
    let kind := Json.required "kind" (Json.readTag (DeclarationKind.kinds room))
    let (own, rest) ← kind.readOuter .collected room rest none
    return build (← own.read rest none)

/-- `read`, with a bound on the layers of declarations. -/
def readWithin : Nat → Stage → Nat → Json → Json.Decoded Declaration
  | layers + 1, stage => readNode (readWithin layers stage) stage
  | 0, _ => Json.readObject fun _ _ _ => .error (.broken .malformed)

/-- A declaration from JSON. -/
def read (stage : Stage) (room : Nat) : Json → Json.Decoded Declaration :=
  readWithin room stage room

end Declaration

/-- A unit from JSON. -/
def BoundProgram.read : Nat → Json → Json.Decoded BoundProgram :=
  Json.readRecord .streamed fun room =>
    BoundProgram.mk <$>
      Json.defaulted "targetScope" .resourceGroup (DeploymentScope.read .streamed room)
      <*> Json.required "declarations" (Json.readList (Declaration.read .streamed) room)

end InfraGraph
