import InfraGraph.Symbol.Binding

/-!
# Revised scopings

A graph is checked against a symbol model, and the model need not be the one it was built from. A
`Revision` says how a scoping differs from another one: names that mean nothing or mean what another
name means, declarations without a symbol, and other copy loops around symbols or nodes. Whatever it
does not mention stays as it is.
-/

namespace InfraGraph

/-- How a scoping differs from another one. -/
structure Revision where
  /-- The copy loops of symbols, by name. -/
  loops : List (String × List LoopDescriptor)
  /-- The copy loops around nodes, by the written number of the node. -/
  scopes : List (String × List LoopDescriptor)
  /-- Names that mean nothing. -/
  hidden : List String
  /-- Declarations that have no symbol. -/
  unbound : List SyntaxId
  /-- Names that mean what another name means. -/
  aliases : List (String × String)

namespace Revision

/-- No difference. -/
def none : Revision :=
  ⟨[], [], [], [], []⟩

/-- The scoping with the differences of a revision. A name is hidden before it is renamed. -/
def apply (r : Revision) (s : Scoping) : Scoping where
  lookup name node :=
    if r.hidden.contains name then Option.none
    else s.lookup ((lookupLast? name r.aliases).getD name) node
  declaredSymbol node := if r.unbound.contains node then Option.none else s.declaredSymbol node
  loopsOf symbol := (lookupLast? symbol.name r.loops).getD (s.loopsOf symbol)
  enclosingLoops node :=
    (lookupLast? (toString node.val.toNat) r.scopes).getD (s.enclosingLoops node)

/-- How many copy loops a revision brings in. -/
def loopCount (r : Revision) : Nat :=
  (r.scopes.flatMap fun entry => entry.2).length + (r.loops.flatMap fun entry => entry.2).length

/-- The symbol model of a bound unit with the differences of a revision. -/
def model (r : Revision) (b : Binding) : SymbolModel :=
  (r.apply b.scoping).toModel (b.loopCount + r.loopCount)

/-- A revision from JSON; what is left out stays as it is. -/
def read : Nat → Json → Json.Decoded Revision :=
  Json.readRecord .streamed fun room =>
    let chains := Json.readEntries (Json.readList (LoopDescriptor.read .streamed)) room
    Revision.mk <$>
      Json.defaulted "loops" [] chains
      <*> Json.defaulted "scopes" [] chains
      <*> Json.defaulted "hidden" [] (Json.readList (fun _ => Json.readText) room)
      <*> Json.defaulted "unbound" [] (Json.readList (fun _ => SyntaxId.read) room)
      <*> Json.defaulted "alias" [] (Json.readEntries (fun _ => Json.readText) room)

end Revision

end InfraGraph
