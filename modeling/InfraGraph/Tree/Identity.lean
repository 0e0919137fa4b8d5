import InfraGraph.Source.Span

/-!
# Identity of syntax nodes

Every node of a bound tree has a `SyntaxId`, which is unique in a well-formed tree, and a span. The
two together are its `Origin`; whatever is built from the node keeps that. A copy loop is known by
the id of its `for` node.
-/

namespace InfraGraph

/-- The identity of a syntax node in its unit. -/
structure SyntaxId where
  val : UInt32
deriving DecidableEq, Repr, Inhabited

namespace SyntaxId

/-- The written form of an id. -/
def display (id : SyntaxId) : String :=
  "#" ++ toString id.val.toNat

/-- An id as JSON. -/
def toJson (id : SyntaxId) : Json :=
  .ofNat id.val.toNat

/-- An id from JSON. -/
def read (v : Json) : Json.Decoded SyntaxId :=
  (Json.readUInt32 v).map SyntaxId.mk

end SyntaxId

/-- The identity of a copy loop: the id of its `for` node. -/
structure LoopId where
  node : SyntaxId
deriving DecidableEq, Repr, Inhabited

/-- The written form of a loop's identity. -/
def LoopId.display (id : LoopId) : String :=
  "loop" ++ id.node.display

/-- A loop's identity as JSON. -/
def LoopId.toJson (id : LoopId) : Json :=
  id.node.toJson

/-- Which syntax node something comes from, and where that node stands. -/
structure Origin where
  id : SyntaxId
  span : Span
deriving DecidableEq, Repr, Inhabited

end InfraGraph
