import InfraGraph.Proofs.Graph.Declarations
import InfraGraph.Proofs.Graph.Raising
import InfraGraph.Proofs.Symbol.Entities
import InfraGraph.Scenario

/-!
# Nothing is lost

What lowering keeps of a unit under the unit's own model.  Every declaration
has a symbol there, so all declarations are kept; of their values, what fails
is left out and nothing else.

This is said twice over, since neither way says all.  The ids that a graph
accounts for are those of the nodes that survive, each once.  And the graph is
the unit in another form: raised again, the value of each declaration is what
it was, less the failing entries of objects and lists.

## Main results

* `boundDeclarations_eq` — all declarations are lowered.
* `mirrors_lower` — declarations and values, each at its place.
* `lower_total` — nothing is lost and nothing is doubled.
-/

namespace InfraGraph

variable {m : SymbolModel}

/-! ## All declarations -/

theorem Declaration.bound_eq_flatten {d : Declaration}
    (h : ∀ d' ∈ d.flatten, (m.declaredSymbol d'.id).isSome) : d.bound m = d.flatten := by
  induction d using Declaration.induction with
  | step d ih =>
      obtain ⟨s, hs⟩ := Option.isSome_iff_exists.1 (h d d.mem_flatten_self)
      rw [bound_of_some hs, flatten_eq]
      refine congrArg (d :: ·) (List.flatMap_congr fun c hc => ih c hc fun d' hd' => ?_)
      exact h d' (flatten_subset_of_mem_children hc hd')

/-- What a declaration with all that is nested in it looks like in the graph:
the same node with a symbol made from it, its value less what fails, and the
nested declarations at their places. -/
inductive Declaration.Mirrors (m : SymbolModel) (spans : SyntaxId → Span) :
    Declaration → DeclarationOperation → Prop
  | intro {d : Declaration} {o : DeclarationOperation} :
      o.origin = d.origin → o.symbol.origin = d.origin →
      o.value.map (Operation.raise spans) =
        (d.value.filter fun value => !value.fails m).map (Expr.prune m) →
      List.Forall₂ (Mirrors m spans) d.children o.children → Mirrors m spans d o

theorem map_id_of_forall₂ {ds : List Declaration} {os : List DeclarationOperation}
    (h : List.Forall₂ (LowersTo m) ds os) : os.map (·.id) = ds.map (·.id) := by
  induction h with
  | nil => rfl
  | @cons d o ds os hd _ ih =>
      have hid : o.id = d.id := congrArg Origin.id hd.origin
      rw [List.map_cons, List.map_cons, hid, ih]

/-- If every declaration of a list is lowered, each is at its place. -/
theorem forall₂_lowerAll {R : Declaration → DeclarationOperation → Prop} {ds : List Declaration}
    (h : ∀ d ∈ ds, ∃ o, (d.lower m).value = some o ∧ R d o) :
    List.Forall₂ R ds (Declaration.lowerAll m ds).value := by
  rw [Declaration.lowerAll_value]
  induction ds with
  | nil => exact .nil
  | cons d ds ih =>
      obtain ⟨o, ho, hR⟩ := h d List.mem_cons_self
      rw [List.filterMap_cons, ho]
      exact .cons hR (ih fun d' hd' => h d' (List.mem_cons_of_mem _ hd'))

namespace BoundProgram

variable {p : BoundProgram}

theorem boundDeclarations_eq (h : p.reusedIds = []) :
    p.boundDeclarations p.bind.model = p.allDeclarations := by
  refine List.flatMap_congr fun root hroot => Declaration.bound_eq_flatten fun d hd => ?_
  exact isSome_declaredSymbol h (flatten_subset_allDeclarations hroot hd)

/-- The span of the first expression node of an id. -/
def spanOf (p : BoundProgram) (id : SyntaxId) : Span :=
  ((p.expressions.find? fun n => n.id == id).map Expr.span).getD default

theorem spanOf_eq (h : p.reusedIds = []) {n : Expr} (hn : n ∈ p.expressions) :
    p.spanOf n.id = n.span := by
  have hfound : p.expressions.find? (·.id == n.id) = some n :=
    (find?_eq_some_iff_of_nodup (nodup_expressionIds h)).2 ⟨hn, rfl⟩
  rw [spanOf, hfound, Option.map_some, Option.getD_some]

/-- The value of a declaration is kept, less what fails. -/
theorem raise_lowerValue (h : p.reusedIds = []) {d : Declaration} (hd : d ∈ p.allDeclarations) :
    (lowerValue p.bind.model d.value).value.map (Operation.raise p.spanOf) =
      (d.value.filter fun value => !value.fails p.bind.model).map (Expr.prune p.bind.model) := by
  cases hvalue : d.value with
  | none => rfl
  | some value =>
      have hlower : lowerValue p.bind.model (some value) = value.lower p.bind.model := rfl
      rw [hlower]
      cases hop : (value.lower p.bind.model).value with
      | none =>
          have hfails := (lower_eq_none_iff value).1 hop
          simp [hfails]
      | some op =>
          have hkept := not_fails_of_lower hop
          have hraise : op.raise p.spanOf = value.prune p.bind.model :=
            raise_lower p.bind.keepsNames_model
              (fun n hn => spanOf_eq h (mem_expressions hd hvalue hn)) hop
          simp [hkept, hraise]

/-- Each declaration at its place. -/
theorem mirrors_lower (h : p.reusedIds = []) {d : Declaration} (hd : d.flatten ⊆ p.allDeclarations) :
    ∃ o, (d.lower p.bind.model).value = some o ∧ d.Mirrors p.bind.model p.spanOf o := by
  induction d using Declaration.induction with
  | step d ih =>
      have hmem : d ∈ p.allDeclarations := hd d.mem_flatten_self
      have ih (c : Declaration) (hc : c ∈ d.children) := ih c hc fun d' hd' =>
        hd (Declaration.flatten_subset_of_mem_children hc hd')
      obtain ⟨s, placed, hs, -, rfl, hentity⟩ := exists_declaredSymbol h hmem
      refine ⟨_, Declaration.lower_of_some hs, rfl, ?_, raise_lowerValue h hmem, ?_⟩
      · rw [hentity]
        rfl
      · exact forall₂_lowerAll ih

/-- The declarations of a graph are those of the unit. -/
theorem declarationIds_lower (h : p.reusedIds = []) :
    (p.lower p.bind.model).allDeclarations.map (·.id) = p.allDeclarations.map (·.id) := by
  rw [map_id_of_forall₂ p.forall₂_lowersTo, boundDeclarations_eq h]

theorem mem_survivors_iff (h : p.reusedIds = []) {n : Expr} :
    n ∈ p.survivors p.bind.model ↔
      ∃ d ∈ p.allDeclarations, ∃ value, d.value = some value ∧ value.Survives p.bind.model n := by
  rw [survivors, boundDeclarations_eq h, List.mem_flatMap]
  refine exists_congr fun d => and_congr_right fun _ => ?_
  rw [Declaration.survivors]
  cases d.value with
  | none => simp
  | some value => simp [Expr.mem_survivors]

/-- What a graph accounts for is what survives in some declaration. -/
theorem mem_accounted_iff (h : p.reusedIds = []) {id : SyntaxId} :
    id ∈ (p.lower p.bind.model).accounted ↔
      ∃ d ∈ p.allDeclarations, ∃ value, d.value = some value ∧
        ∃ n, value.Survives p.bind.model n ∧ n.id = id := by
  rw [accounted_lower_perm.mem_iff, List.mem_map]
  simp only [mem_survivors_iff h]
  constructor
  · rintro ⟨n, ⟨d, hd, value, hvalue, hn⟩, rfl⟩
    exact ⟨d, hd, value, hvalue, n, hn, rfl⟩
  · rintro ⟨d, hd, value, hvalue, n, hn, rfl⟩
    exact ⟨n, ⟨d, hd, value, hvalue, hn⟩, rfl⟩

/-- **Nothing is lost and nothing is doubled.**  The graph of a unit accounts
once for every node that survives and for no other; it has every declaration
once and at its place; and the value of each declaration, raised again, is
what it was, less the failing entries of objects and lists. -/
theorem lower_total (p : BoundProgram) (h : p.reusedIds = []) :
    let m := p.bind.model
    let g := p.lower m
    g.accounted.Nodup ∧
      (∀ id, id ∈ g.accounted ↔ ∃ d ∈ p.allDeclarations, ∃ value, d.value = some value ∧
        ∃ n, value.Survives m n ∧ n.id = id) ∧
      (g.allDeclarations.map (·.id)).Nodup ∧
      g.allDeclarations.map (·.id) = p.allDeclarations.map (·.id) ∧
      List.Forall₂ (Declaration.Mirrors m p.spanOf) p.declarations g.declarations := by
  refine ⟨nodup_accounted h, fun id => mem_accounted_iff h, ?_, declarationIds_lower h, ?_⟩
  · rw [declarationIds_lower h]
    exact nodup_declarationIds h
  · refine forall₂_lowerAll fun d hd => mirrors_lower h fun d' hd' => ?_
    exact List.mem_flatMap.2 ⟨d, hd, hd'⟩

/-- The unit with nested loops: a declaration inside another one, and brackets
folded into references. -/
theorem lower_total_of_nested :
    let p := (Scenario.nested.run 0).1.program
    p.reusedIds = [] ∧ (p.lower p.bind.model).accounted.Nodup ∧
      List.Forall₂ (Declaration.Mirrors p.bind.model p.spanOf) p.declarations
        (p.lower p.bind.model).declarations := by
  have h : (Scenario.nested.run 0).1.program.reusedIds = [] := by decide
  obtain ⟨hnodup, -, -, -, hmirrors⟩ := lower_total _ h
  exact ⟨h, hnodup, hmirrors⟩

end BoundProgram

end InfraGraph
