import InfraGraph.Graph.Basic

/-!
# The stored form of graphs

A graph is written as JSON and never read back. An operation is an object whose `operation` member
says what it is; a symbol is written as its name.
-/

namespace InfraGraph

/-- The stored name of what a reference refers to. -/
def Referent.operationName : Referent → String
  | .resource _ => "resourceInfo"
  | .module _ => "moduleInfo"
  | .variable => "variableAccess"

/-- The member that tells what is known of a referent, if it has one. -/
def Referent.metadataMember : Referent → List (String × Json)
  | .resource metadata => [("metadata", .obj metadata.members)]
  | .module metadata => [("metadata", .obj metadata.members)]
  | .variable => []

/-- A level of a context, given its outcome. -/
def levelJson (target : LoopId) (outcome : List (String × Json)) : Json :=
  .obj [("targetLoop", target.toJson), ("outcome", .obj outcome)]

namespace Operation

/-- The stored name of what an operation is. -/
def tag : Operation → String
  | .literal .. => "literal"
  | .interpolation .. => "interpolation"
  | .object .. => "object"
  | .array .. => "array"
  | .access _ _ referent _ => referent.operationName
  | .parameter .. => "parameterAccess"
  | .loopVariable .. => "localVariableAccess"
  | .property .. => "propertyAccess"
  | .element .. => "arrayAccess"
  | .ternary .. => "conditional"
  | .guarded .. => "conditional"
  | .call .. => "functionCall"
  | .binary .. => "binary"
  | .unary .. => "unary"
  | .loop .. => "for"

/-- The members every operation begins with. -/
def header (op : Operation) : List (String × Json) :=
  [("operation", .str op.tag), ("syntax", op.id.toJson), ("span", op.span.toJson)]

mutual

/-- An operation as JSON. -/
def toJson : Operation → Json
  | op@(.literal _ value) => .obj (op.header ++ [("value", value.toJson)])
  | op@(.interpolation _ segments parts) =>
    .obj (op.header
      ++ [("segments", .arr (segments.map Json.str)), ("expressions", .arr (toJsonAll parts))])
  | op@(.object _ entries) => .obj (op.header ++ [("properties", .arr (toJsonEntries entries))])
  | op@(.array _ items) => .obj (op.header ++ [("items", .arr (toJsonAll items))])
  | op@(.access _ symbol referent none) =>
    .obj (op.header ++ [("symbol", .str symbol.name)]
      ++ referent.metadataMember ++ [("indexContext", .null)])
  | op@(.access _ symbol referent (some ⟨levels⟩)) =>
    .obj (op.header ++ [("symbol", .str symbol.name)] ++ referent.metadataMember
      ++ [("indexContext", .obj [("levels", .arr (toJsonLevels levels))])])
  | op@(.parameter _ symbol) => .obj (op.header ++ [("symbol", .str symbol.name)])
  | op@(.loopVariable _ symbol binder role) =>
    .obj (op.header
      ++ [("symbol", .str symbol.name), ("loopId", binder.toJson), ("role", .str role.name)])
  | op@(.property _ base name) =>
    .obj (op.header ++ [("base", toJson base), ("property", .str name)])
  | op@(.element _ base index) =>
    .obj (op.header ++ [("base", toJson base), ("index", toJson index)])
  | op@(.ternary _ condition ifTrue ifFalse) =>
    .obj (op.header ++ [("condition", toJson condition), ("ifTrue", toJson ifTrue),
        ("ifFalse", toJson ifFalse)])
  | op@(.guarded _ condition body) =>
    .obj (op.header
      ++ [("condition", toJson condition), ("ifTrue", toJson body), ("ifFalse", .null)])
  | op@(.call _ name arguments) =>
    .obj (op.header ++ [("name", .str name), ("arguments", .arr (toJsonAll arguments))])
  | op@(.binary _ operator left right) =>
    .obj (op.header
      ++ [("operator", .str operator.name), ("left", toJson left), ("right", toJson right)])
  | op@(.unary _ operator operand) =>
    .obj (op.header ++ [("operator", .str operator.name), ("operand", toJson operand)])
  | op@(.loop _ item index source body) =>
    .obj (op.header ++ [("loopId", op.id.toJson), ("itemVariable", .str item),
        ("indexVariable", .ofText? index), ("source", toJson source), ("body", toJson body)])

/-- Operations as JSON. -/
def toJsonAll : List Operation → List Json
  | [] => []
  | op :: rest => toJson op :: toJsonAll rest

/-- The entries of an object as JSON. -/
def toJsonEntries : List (String × Operation) → List Json
  | [] => []
  | (key, op) :: rest => .obj [("key", .str key), ("value", toJson op)] :: toJsonEntries rest

/-- The levels of a context as JSON. -/
def toJsonLevels : List (IndexLevel Operation) → List Json
  | [] => []
  | ⟨target, .implicit scope index⟩ :: rest =>
    levelJson target
        [("kind", .str "implicit"), ("scopeLoop", scope.toJson), ("indexVariable", .ofText? index)]
      :: toJsonLevels rest
  | ⟨target, .explicit bracket index⟩ :: rest =>
    levelJson target
        [("kind", .str "explicit"), ("access", bracket.toJson), ("index", toJson index)]
      :: toJsonLevels rest
  | ⟨target, .unresolved⟩ :: rest =>
    levelJson target [("kind", .str "unresolved")] :: toJsonLevels rest

end

end Operation

namespace DeclarationOperation

mutual

/-- A declaration as JSON; one without nested declarations has no member for them. -/
def toJson : DeclarationOperation → Json
  | ⟨origin, symbol, value, children⟩ =>
    .obj ([("syntax", origin.id.toJson), ("span", origin.span.toJson),
        ("symbol", .str symbol.name), ("value", (value.map Operation.toJson).getD .null)]
      ++ (if children.isEmpty then [] else [("children", .arr (toJsonAll children))]))

/-- Declarations as JSON. -/
def toJsonAll : List DeclarationOperation → List Json
  | [] => []
  | d :: rest => toJson d :: toJsonAll rest

end

end DeclarationOperation

/-- The declarations of a graph as JSON. -/
def OperationGraph.declarationsJson (g : OperationGraph) : Json :=
  .arr (DeclarationOperation.toJsonAll g.declarations)

end InfraGraph
