import InfraGraph.Proofs.Symbol.LexicalScope

/-!
# What binding reports

Binding goes over a unit twice: it remembers the ids that it has seen, and then
it declares, with names and numbers in tables.  Neither needs a tree that is well
formed.  What comes of it can be said without memory and without tables: the
nodes that have the id of an earlier node, and then the declarations that have
the full name of an earlier declaration.

## Main results

* `origins_eq` — the order of the nodes.
* `bind_reports` — the reports of binding, for every unit.
-/

namespace InfraGraph

namespace Declaration

/-- The nodes of a declaration and of those nested in it. -/
def origins (d : Declaration) : List Origin :=
  d.flatten.flatMap ownOrigins

/-- A declaration, then its value from the outside inwards, and then the
declarations nested in it. -/
theorem origins_eq (d : Declaration) :
    d.origins = d.origin :: (d.valueNodes.map Expr.origin ++ d.children.flatMap origins) := by
  rw [origins, flatten_eq, List.flatMap_cons, List.flatMap_assoc, ownOrigins, List.cons_append]
  rfl

end Declaration

namespace BoundProgram

theorem origins_eq_flatMap (p : BoundProgram) :
    p.origins = p.declarations.flatMap Declaration.origins :=
  List.flatMap_assoc

/-- The nodes found by remembering ids. -/
theorem reusedIds_eq (p : BoundProgram) :
    p.reusedIds = (repeats Origin.id p.origins).map Prod.fst :=
  repeatsAfter_eq Origin.id p.origins

/-- The declarations with the full name of an earlier one. -/
theorem repeats_placements (p : BoundProgram) :
    repeats PlacedDeclaration.name p.placements =
      (repeats NestedDeclaration.fullName p.nestedDeclarations).map
        (Prod.map NestedDeclaration.placed NestedDeclaration.placed) := by
  rw [placements_eq_map_nested, repeats_map]
  rfl

/-- **The reports of binding**, whether ids are reused or not.  Let the nodes be
in order: a declaration, the nodes of its value, then what is nested in it.
Let the declarations be in order too, each with those around it, so that its full
name is known.  There is a report `ET001` for each node whose id an earlier node has, at the
node; and then a report `ER003` for each declaration whose full name an earlier
declaration has, at the declaration and with the span of the first declaration
of that name; and no other.  So no id is reused exactly if all nodes have
different ids. -/
theorem bind_reports (p : BoundProgram) :
    p.bind.diagnostics =
        (repeats Origin.id p.origins).map (fun (o, _) => reportReusedId o) ++
          (repeats NestedDeclaration.fullName p.nestedDeclarations).map
            (fun (d, first) => reportRedeclared d.placed first.declaration.span) ∧
      (p.origins = p.declarations.flatMap Declaration.origins ∧ ∀ d : Declaration,
        d.origins = d.origin :: (d.valueNodes.map Expr.origin ++
          d.children.flatMap Declaration.origins)) ∧
      (p.nestedDeclarations = p.declarations.flatMap (Declaration.nested []) ∧
        ∀ (around : List Declaration) (d : Declaration), d.nested around =
          ⟨around, d⟩ :: d.children.flatMap (Declaration.nested (around ++ [d]))) ∧
      (∀ o, (reportReusedId o).level = .error ∧
        (reportReusedId o).code.map ErrorCode.display = some "ET001" ∧
          (reportReusedId o).labels.map (fun l => (l.span, l.primary)) = [(o.span, true)]) ∧
      (∀ d first, (reportRedeclared d first).level = .error ∧
        (reportRedeclared d first).code.map ErrorCode.display = some "ER003" ∧
          (reportRedeclared d first).labels.map (fun l => (l.span, l.primary)) =
            [(d.declaration.span, true), (first, false)]) ∧
      p.reusedIds = (repeats Origin.id p.origins).map Prod.fst ∧
      (p.reusedIds = [] ↔ (p.origins.map Origin.id).Nodup) := by
  have hreused : ErrorCode.duplicateSyntaxId.display = "ET001" := by decide
  have hredeclared : ErrorCode.duplicateDeclaration.display = "ER003" := by decide
  refine ⟨?_, ⟨p.origins_eq_flatMap, Declaration.origins_eq⟩,
    ⟨Declaration.nestedAll_eq [] p.declarations, Declaration.nested_eq⟩,
    fun o => ⟨rfl, congrArg some hreused, rfl⟩,
    fun d first => ⟨rfl, congrArg some hredeclared, rfl⟩, p.reusedIds_eq, reusedIds_eq_nil_iff⟩
  rw [diagnostics_bind, reusedIds_eq, repeats_placements, List.map_map, List.map_map]
  rfl

/-- Two resources of one name and one id, the variable of a copy loop numbered
between them, and a variable nested in each.  The second variable has the id of
the first. -/
def clashing : BoundProgram :=
  let spot (line : UInt32) : Span := ⟨⟨line, 1, 0⟩, ⟨line, 1, 0⟩, 0⟩
  let value : Expr := .loop ⟨⟨1⟩, spot 1⟩ "i" none (.reference ⟨⟨2⟩, spot 1⟩ "all")
    (.object ⟨⟨3⟩, spot 1⟩ [])
  let inner (line : UInt32) : Declaration := ⟨⟨⟨4⟩, spot line⟩, "x", .variable, none, []⟩
  .ofDeclarations
    [⟨⟨⟨0⟩, spot 1⟩, "store", .resource "T" none, some value, [inner 2]⟩,
      ⟨⟨⟨0⟩, spot 3⟩, "store", .resource "T" none, none, [inner 4]⟩]

example : clashing.bind.diagnostics.map (fun d =>
    (d.code.map ErrorCode.display, d.labels.map (·.span.start.line))) =
      [(some "ET001", [3]), (some "ET001", [4]),
        (some "ER003", [3, 1]), (some "ER003", [4, 2])] := by
  decide

end BoundProgram

end InfraGraph
