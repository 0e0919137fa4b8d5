import InfraGraph.Tree.Stored

/-!
# Copy loops

A `LoopDescriptor` is what is known of a copy loop away from its `for` node: whose loop it is, the
variables it binds, and the expression it runs over.

## Main definitions

* `LoopDescriptor.ofExpr?` — the descriptor of a `for` node.
* `LoopDescriptor.denotesSameLoop` — one `for` node, or sources of one shape.
-/

namespace InfraGraph

/-- A copy loop. -/
structure LoopDescriptor where
  id : LoopId
  item : String
  index : Option String
  source : Expr
  span : Span
deriving Repr

namespace LoopDescriptor

/-- The descriptor of a `for` node. -/
def ofExpr? : Expr → Option LoopDescriptor
  | .loop o item index source _ => some ⟨⟨o.id⟩, item, index, source, o.span⟩
  | _ => none

/-- Whether two loops are one loop, or run over sources of the same shape. -/
def denotesSameLoop (a b : LoopDescriptor) : Bool :=
  a.id == b.id || a.source.sameShape b.source

instance : BEq LoopDescriptor where
  beq a b :=
    a.id == b.id && a.item == b.item && a.index == b.index && a.source == b.source
      && a.span == b.span

/-- A loop as JSON. -/
def toJson (l : LoopDescriptor) : Json :=
  .obj
    [("id", l.id.toJson), ("item_variable", .str l.item), ("index_variable", .ofText? l.index),
      ("source", l.source.toJson), ("span", l.span.toJson)]

/-- A loop from JSON. -/
def read (stage : Stage) : Nat → Json → Json.Decoded LoopDescriptor :=
  Json.readRecord stage fun room =>
    LoopDescriptor.mk <$> Json.required "id" (fun v => (SyntaxId.read v).map LoopId.mk)
      <*> Json.required "item_variable" Json.readText
      <*> Json.field "index_variable" (Json.readOption Json.readText) (.ok none)
        (.error .wrongLength)
      <*> Json.required "source" (Expr.read stage room)
      <*> Json.required "span" (Span.read stage room)

end LoopDescriptor

end InfraGraph
