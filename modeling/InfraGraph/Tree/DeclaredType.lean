import InfraGraph.Json.Variant

/-!
# Declared types, deployment scopes and resource types

What a declaration says about itself apart from its value.

## Main definitions

* `DeclaredType` — the declared shape of a symbol; nothing is inferred.
* `DeploymentScope` — what a resource is deployed to.
* `TypeReference` — a resource type with its version, split at the first `@`.
-/

namespace InfraGraph

/-- The declared shape of a symbol. -/
inductive DeclaredType where
  /-- Not declared. -/
  | any
  | string
  | int
  | bool
  | object
  | array (element : DeclaredType)
  /-- A resource of the named type. -/
  | resource (type : String)
  /-- A module from the given path. -/
  | module (path : String)
deriving DecidableEq, Repr

namespace DeclaredType

/-- What an array holds; `any` for a type that is no array. -/
def elementType : DeclaredType → DeclaredType
  | .array element => element
  | _ => .any

/-- Whether the type is an array. -/
def isArray : DeclaredType → Bool
  | .array _ => true
  | _ => false

/-- The type under `n` layers of arrays. -/
def arrayed : Nat → DeclaredType → DeclaredType
  | 0, ty => ty
  | n + 1, ty => .array (arrayed n ty)

/-- The written form of a type. -/
def display : DeclaredType → String
  | .any => "any"
  | .string => "string"
  | .int => "int"
  | .bool => "bool"
  | .object => "object"
  | .array element => element.display ++ "[]"
  | .resource type => "resource '" ++ type ++ "'"
  | .module path => "module '" ++ path ++ "'"

/-- A type as JSON. -/
def toJson : DeclaredType → Json
  | .any => .str "any"
  | .string => .str "string"
  | .int => .str "int"
  | .bool => .str "bool"
  | .object => .str "object"
  | .array element => .obj [("array", element.toJson)]
  | .resource type => .obj [("resource", .str type)]
  | .module path => .obj [("module", .str path)]

/-- The variants of a type, given how the element of an array is read. -/
def table (element : Json → Json.Decoded DeclaredType) :
    List (String × Json.Variant DeclaredType) :=
  [("any", .plain .any), ("string", .plain .string), ("int", .plain .int), ("bool", .plain .bool),
    ("object", .plain .object), ("array", .payload fun v => (element v).map .array),
    ("resource", .payload fun v => (Json.readText v).map .resource),
    ("module", .payload fun v => (Json.readText v).map .module)]

/-- `read`, with a bound on the layers of arrays. -/
def readWithin (stage : Stage) : Nat → Nat → Json → Json.Decoded DeclaredType
  | 0, _, _ => .error (.broken .malformed)
  | layers + 1, room, v =>
    Json.readVariant stage (fun room => table (readWithin stage layers room)) room v

/-- A type from JSON. Every layer of arrays is an object, so there are no more than fit. -/
def read (stage : Stage) (room : Nat) : Json → Json.Decoded DeclaredType :=
  readWithin stage (room + 1) room

end DeclaredType

/-- What a resource is deployed to. -/
inductive DeploymentScope where
  | resourceGroup
  | subscription
  | managementGroup
  | tenant
deriving DecidableEq, Repr, Inhabited

namespace DeploymentScope

/-- The scopes by name. -/
def table : List (String × DeploymentScope) :=
  [("resourceGroup", .resourceGroup), ("subscription", .subscription),
    ("managementGroup", .managementGroup), ("tenant", .tenant)]

/-- The name of a scope. -/
def name : DeploymentScope → String
  | .resourceGroup => "resourceGroup"
  | .subscription => "subscription"
  | .managementGroup => "managementGroup"
  | .tenant => "tenant"

/-- A scope as JSON. -/
def toJson (s : DeploymentScope) : Json :=
  .str s.name

/-- A scope from JSON. -/
def read (stage : Stage) : Nat → Json → Json.Decoded DeploymentScope :=
  Json.readName stage table

end DeploymentScope

/-- A resource type and, if one is given, its version. -/
structure TypeReference where
  type : String
  version : Option String
deriving DecidableEq, Repr

namespace TypeReference

/-- What stands before the first `@` and, if there is one, what stands after it. -/
def splitAtSign : List Char → List Char × Option (List Char)
  | [] => ([], none)
  | c :: rest =>
    if c = '@' then ([], some rest)
    else
      let (before, after) := splitAtSign rest
      (c :: before, after)

/-- Splits a written type at its first `@`; an empty version is none. -/
def parse (text : String) : TypeReference :=
  let (before, after) := splitAtSign text.toList
  { type := String.ofList before
    version := (after.filter fun v => !v.isEmpty).map String.ofList }

/-- The written form. -/
def display (r : TypeReference) : String :=
  match r.version with
  | some version => r.type ++ "@" ++ version
  | none => r.type

/-- A resource type as JSON. -/
def toJson (r : TypeReference) : Json :=
  .obj [("type_name", .str r.type), ("api_version", .ofText? r.version)]

end TypeReference

end InfraGraph
