import InfraGraph.Proofs.Graph.Verification
import InfraGraph.Proofs.Relabeling.Renumbering
import InfraGraph.Proofs.Graph.Restoring

/-!
# A unit with other labels

The ids of nodes say which nodes are the same, under which entry a table has
the loops around a node, which loop a variable belongs to, and which bracket
was folded into a reference.  Spans point to the source.  To binding and
lowering both are opaque: ids are compared with each other and with nothing
else, and spans are handed on.

So a unit may be labeled anew in any way that keeps different nodes different.
It introduces the same under the same numbers, it is reported on in the same
words, and its graph is the one there was with the new labels in it.

## Main definitions

* `Relabeling.labeling` — new ids and spans only.
* `BoundProgram.relabel`, `OperationGraph.relabel` — units and graphs.
* `BoundProgram.KeepsApart` — new ids that are different where the old ones were.

## Main results

* `placements_relabel`, `entities_relabel`, `origins_relabel` — what the unit
  has, with the new labels.
* `meaningInside_relabel` — names mean the same thing with its new labels.
* `corresponds_relabel` — a unit corresponds to itself with other labels.
* `build_relabel` — so its graph is the one there was.
-/

namespace InfraGraph

/-- New labels for nodes, while symbols keep their numbers. -/
def Relabeling.labeling (f : SyntaxId → SyntaxId) (g : Span → Span) : Relabeling :=
  ⟨f, g, id⟩

/-- A unit with new labels. -/
def BoundProgram.relabel (ρ : Relabeling) (p : BoundProgram) : BoundProgram :=
  ⟨p.targetScope, p.declarations.map (Declaration.relabel ρ)⟩

/-- A graph with new labels. -/
def OperationGraph.relabel (ρ : Relabeling) (g : OperationGraph) : OperationGraph where
  declarations := g.declarations.map (DeclarationOperation.relabel ρ)
  diagnostics := g.diagnostics.map (Diagnostic.relabel ρ)
  resolved := g.resolved.map ρ.symbol

/-! ## Expressions, loops and declarations -/

section

variable (ρ : Relabeling)

theorem Expr.isLoop_relabel (e : Expr) : (e.relabel ρ).isLoop = e.isLoop := by
  cases e <;> rfl

theorem Expr.loopVariables_relabel (e : Expr) :
    (e.relabel ρ).loopVariables = e.loopVariables.map (Entity.relabel ρ) := by
  induction e using Expr.induction with
  | step e ih =>
      cases hloop : e.isLoop with
      | false =>
          have hchildren : (e.relabel ρ).children = e.children.map (relabel ρ) :=
            children_mapOrigin _ e
          rw [loopVariables_of_not_loop hloop, loopVariables_of_not_loop (by rwa [isLoop_relabel]),
            hchildren, List.flatMap_map, List.map_flatMap]
          exact List.flatMap_congr ih
      | true =>
          cases e with
          | loop o item index source body =>
              have hsource : (source.relabel ρ).loopVariables = _ := ih source (by simp [children])
              have hbody : (body.relabel ρ).loopVariables = _ := ih body (by simp [children])
              show (source.relabel ρ).loopVariables ++ _ :: _ ++ (body.relabel ρ).loopVariables = _
              rw [hsource, hbody, loopVariables, List.map_append, List.map_append]
              cases index <;> rfl
          | _ => cases hloop

theorem LoopDescriptor.introduced?_relabel (l : LoopDescriptor) (name : String) :
    (l.relabel ρ).introduced? name = (l.introduced? name).map (Entity.relabel ρ) := by
  unfold introduced?
  by_cases hindex : l.index = some name
  · rw [if_pos hindex]
    exact if_pos hindex
  · by_cases hitem : l.item = name
    · rw [if_neg hindex, if_pos hitem]
      exact (if_neg hindex).trans (if_pos hitem)
    · rw [if_neg hindex, if_neg hitem]
      exact (if_neg hindex).trans (if_neg hitem)

namespace Declaration

theorem valueNodes_relabel (d : Declaration) :
    (d.relabel ρ).valueNodes = d.valueNodes.map (Expr.relabel ρ) := by
  rw [relabel_eq, valueNodes, valueNodes]
  cases d.value with
  | none => rfl
  | some value => exact value.preorder_mapOrigin _

theorem ownOrigins_relabel (d : Declaration) :
    (d.relabel ρ).ownOrigins = d.ownOrigins.map ρ.origin := by
  have horigin : (d.relabel ρ).origin = ρ.origin d.origin := by rw [relabel_eq]
  rw [ownOrigins, ownOrigins, valueNodes_relabel, horigin, List.map_cons, List.map_map,
    List.map_map]
  exact congrArg (_ :: ·) (List.map_congr_left fun n _ => n.origin_mapOrigin _)

theorem flatten_relabel (d : Declaration) :
    (d.relabel ρ).flatten = d.flatten.map (relabel ρ) := by
  induction d using Declaration.induction with
  | step d ih =>
      rw [flatten_eq d, List.map_cons, List.map_flatMap, flatten_eq, relabel_eq, List.flatMap_map]
      exact congrArg (_ :: ·) (List.flatMap_congr ih)

theorem placements_relabel (d : Declaration) (parent : Option String)
    (outer : List LoopDescriptor) :
    (d.relabel ρ).placements parent (outer.map (LoopDescriptor.relabel ρ)) =
      (d.placements parent outer).map (PlacedDeclaration.relabel ρ) := by
  induction d using Declaration.induction generalizing parent outer with
  | step d ih =>
      have hname : (d.relabel ρ).name = d.name := by rw [relabel_eq]
      have hchildren : (d.relabel ρ).children = d.children.map (relabel ρ) := by rw [relabel_eq]
      have hloops : outer.map (LoopDescriptor.relabel ρ) ++ (d.relabel ρ).ownLoop?.toList =
          (outer ++ d.ownLoop?.toList).map (LoopDescriptor.relabel ρ) := by
        rw [ownLoop?_relabel, List.map_append]
        cases d.ownLoop? <;> rfl
      rw [placements_eq, placements_eq, List.map_cons, List.map_flatMap, hname, hchildren, hloops,
        List.flatMap_map]
      exact congrArg (_ :: ·) (List.flatMap_congr fun c hc => ih c hc _ _)

end Declaration

theorem PlacedDeclaration.entities_relabel (target : DeploymentScope) (d : PlacedDeclaration) :
    (d.relabel ρ).entities target = (d.entities target).map (Entity.relabel ρ) := by
  have hvalue : (d.relabel ρ).declaration.value = d.declaration.value.map (Expr.relabel ρ) := by
    rw [relabel, Declaration.relabel_eq]
  rw [entities, entities, entity_relabel, hvalue, List.map_cons]
  cases d.declaration.value with
  | none => rfl
  | some value => exact congrArg (_ :: ·) (value.loopVariables_relabel ρ)

theorem PlacedDeclaration.span_relabel (d : PlacedDeclaration) :
    (d.relabel ρ).declaration.span = ρ.span d.declaration.span := by
  rw [relabel, Declaration.relabel_eq]
  rfl

theorem reportRedeclared_relabel (d : PlacedDeclaration) (first : Span) :
    reportRedeclared (d.relabel ρ) (ρ.span first) = (reportRedeclared d first).relabel ρ := by
  rw [reportRedeclared, d.span_relabel]
  rfl

/-! ## What the unit has -/

namespace BoundProgram

variable (p : BoundProgram)

theorem placements_relabel :
    (p.relabel ρ).placements = p.placements.map (PlacedDeclaration.relabel ρ) := by
  rw [placements_eq_flatMap, placements_eq_flatMap, relabel, List.flatMap_map, List.map_flatMap]
  exact List.flatMap_congr fun d _ => d.placements_relabel ρ none []

theorem entities_relabel : (p.relabel ρ).entities = p.entities.map (Entity.relabel ρ) := by
  rw [entities, entities, placements_relabel, List.flatMap_map, List.map_flatMap]
  exact List.flatMap_congr fun d _ => d.entities_relabel ρ _

theorem allDeclarations_relabel :
    (p.relabel ρ).allDeclarations = p.allDeclarations.map (Declaration.relabel ρ) := by
  rw [allDeclarations, allDeclarations, relabel, List.flatMap_map, List.map_flatMap]
  exact List.flatMap_congr fun d _ => d.flatten_relabel ρ

theorem origins_relabel : (p.relabel ρ).origins = p.origins.map ρ.origin := by
  rw [origins, origins, allDeclarations_relabel, List.flatMap_map, List.map_flatMap]
  exact List.flatMap_congr fun d _ => d.ownOrigins_relabel ρ

/-- **A name means the same thing** with its new labels, inside loops with new
labels. -/
theorem meaningInside_relabel (loops : List LoopDescriptor) (name : String) :
    (p.relabel ρ).meaningInside (loops.map (LoopDescriptor.relabel ρ)) name =
      (p.meaningInside loops name).map (Entity.relabel ρ) := by
  have hvariable : (loops.map (LoopDescriptor.relabel ρ)).reverse.findSome?
        (·.introduced? name) =
      (loops.reverse.findSome? (·.introduced? name)).map (Entity.relabel ρ) := by
    rw [← List.map_reverse, List.findSome?_map, List.map_findSome?]
    exact congrArg (List.findSome? · _) (funext fun l => l.introduced?_relabel ρ name)
  have hdeclared : ((p.relabel ρ).placements.find? (·.name == name)).map
        (·.entity (p.relabel ρ).targetScope) =
      ((p.placements.find? (·.name == name)).map (·.entity p.targetScope)).map
        (Entity.relabel ρ) := by
    rw [placements_relabel, List.find?_map, Option.map_map, Option.map_map]
    exact congrArg (Option.map · _) (funext fun d => d.entity_relabel ρ p.targetScope)
  rw [meaningInside_eq, meaningInside_eq, hvariable, hdeclared, Option.map_or]

theorem bind_symbols_relabel (hnumber : ∀ i, ρ.symbol i = i) :
    (p.relabel ρ).bind.symbols = p.bind.symbols.map (Symbol.relabel ρ) := by
  rw [symbols_bind, symbols_bind]
  apply List.ext_getElem?
  intro i
  rw [entities_relabel, List.getElem?_mapIdx, List.getElem?_map, List.getElem?_map,
    List.getElem?_mapIdx, Option.map_map, Option.map_map]
  exact congrArg (Option.map · _) (funext fun v => congrArg (Symbol.mk _) (hnumber ⟨i⟩).symm)

end BoundProgram

end

/-! ## Its graph -/

namespace BoundProgram

variable {p : BoundProgram} {ρ : Relabeling}

/-- New labels keep the nodes of a unit apart. -/
def KeepsApart (ρ : Relabeling) (p : BoundProgram) : Prop :=
  ∀ o ∈ p.origins, ∀ o' ∈ p.origins, ρ.node o.id = ρ.node o'.id → o.id = o'.id

theorem mem_origins_of_mem_expressions {n : Expr} (hn : n ∈ p.expressions) :
    n.origin ∈ p.origins := by
  obtain ⟨d, hd, hvalue⟩ := List.mem_flatMap.1 hn
  exact List.mem_flatMap.2 ⟨d, hd, List.mem_cons_of_mem _ (List.mem_map_of_mem hvalue)⟩

section

variable (h : p.reusedIds = []) (hapart : p.KeepsApart ρ)

include h hapart

theorem reusedIds_relabel : (p.relabel ρ).reusedIds = [] := by
  rw [reusedIds_eq_nil_iff] at h ⊢
  rw [origins_relabel, List.map_map]
  refine List.Nodup.map_on ?_ (List.Nodup.of_map _ h)
  intro o ho o' ho' heq
  exact List.inj_on_of_nodup_map h ho ho' (hapart o ho o' ho' heq)

theorem eq_of_relabel_toEntity_eq {s t : Symbol} (hs : s ∈ p.bind.symbols)
    (ht : t ∈ p.bind.symbols) (hentity : s.toEntity.relabel ρ = t.toEntity.relabel ρ) :
    s = t := by
  have hnodup := nodup_entities (reusedIds_relabel h hapart)
  rw [entities_relabel] at hnodup
  have hmem {u : Symbol} (hu : u ∈ p.bind.symbols) : u.toEntity ∈ p.entities :=
    List.mem_of_getElem? (mem_symbols.1 hu)
  exact eq_of_toEntity_eq h hs ht
    (List.inj_on_of_nodup_map hnodup (hmem hs) (hmem ht) hentity)

/-- A unit corresponds to itself with other labels. -/
theorem corresponds_relabel (hnumber : ∀ i, ρ.symbol i = i) :
    Corresponds ρ p (p.relabel ρ) where
  unique := h
  unique' := reusedIds_relabel h hapart
  node_injective n hn n' hn' hid :=
    hapart n.origin (mem_origins_of_mem_expressions hn) n'.origin
      (mem_origins_of_mem_expressions hn') hid
  entity_injective s hs t ht hentity := eq_of_relabel_toEntity_eq h hapart hs ht hentity
  number s hs t ht hentity := by
    rw [bind_symbols_relabel ρ p hnumber] at ht
    obtain ⟨u, hu, rfl⟩ := List.mem_map.1 ht
    rw [eq_of_relabel_toEntity_eq h hapart hu hs hentity]
    rfl
  meaning n chain name _ _ := p.meaningInside_relabel ρ chain name

theorem lower_relabel (hnumber : ∀ i, ρ.symbol i = i) :
    (p.relabel ρ).lower (p.relabel ρ).bind.model = (p.lower p.bind.model).relabel ρ := by
  have hcorresponds := corresponds_relabel h hapart hnumber
  have hlower : Declaration.lowerAll (p.relabel ρ).bind.model (p.relabel ρ).declarations =
      (Declaration.lowerAll p.bind.model p.declarations).relabel ρ
        (List.map (DeclarationOperation.relabel ρ)) := by
    refine Declaration.lowerAll_relabel_of_lower fun d hd =>
      hcorresponds.lower_relabel rfl fun c hc => ?_
    obtain ⟨placed, hplaced, hdeclaration⟩ :=
      mem_allDeclarations.1 (flatten_subset_allDeclarations hd hc)
    refine ⟨placed, hplaced, hdeclaration, ?_⟩
    rw [placements_relabel]
    exact List.mem_map_of_mem hplaced
  rw [lower, hlower]
  rfl

theorem bind_diagnostics_relabel :
    (p.relabel ρ).bind.diagnostics = p.bind.diagnostics.map (Diagnostic.relabel ρ) := by
  rw [diagnostics_bind, diagnostics_bind, h, reusedIds_relabel h hapart, placements_relabel,
    repeats_map, List.map_nil, List.nil_append, List.nil_append, List.map_map, List.map_map]
  refine List.map_congr_left fun (d, first) _ => ?_
  show reportRedeclared (d.relabel ρ) (first.relabel ρ).declaration.span = _
  rw [first.span_relabel, reportRedeclared_relabel]
  rfl

end

/-- **Labels are opaque.**  Let the nodes of a unit without reused ids get other
ids, and all of its spans become others; different nodes keep different ids, and
of the spans nothing is asked.  The unit then introduces the same under the same
numbers and is reported on in the same words, and its graph, built in any mode,
is the graph there was: with the new ids in its operations, its declarations,
its loops and the brackets folded into references, and the new spans wherever a
span stands. -/
theorem build_relabel (h : p.reusedIds = []) (f : SyntaxId → SyntaxId) (g : Span → Span)
    (hinjective : ∀ o ∈ p.origins, ∀ o' ∈ p.origins, f o.id = f o'.id → o.id = o'.id) :
    let ρ : Relabeling := .labeling f g
    (p.relabel ρ).bind.symbols = p.bind.symbols.map (Symbol.relabel ρ) ∧
      (p.relabel ρ).bind.diagnostics = p.bind.diagnostics.map (Diagnostic.relabel ρ) ∧
      ∀ options, ∃ graph, p.build p.bind.model options = .ok graph ∧
        (p.relabel ρ).build (p.relabel ρ).bind.model options = .ok (graph.relabel ρ) := by
  intro ρ
  have hapart : p.KeepsApart ρ := hinjective
  have hnumber (i : SymbolId) : ρ.symbol i = i := rfl
  refine ⟨bind_symbols_relabel ρ p hnumber, bind_diagnostics_relabel h hapart, ?_⟩
  intro options
  refine ⟨_, build_of_stable h p.bind.stable_model options, ?_⟩
  rw [build_of_stable (reusedIds_relabel h hapart) (p.relabel ρ).bind.stable_model,
    lower_relabel h hapart hnumber]

/-- The unit with nested loops, its ids moved about and all of its spans the
same: the bracket that was folded into a reference is known by its new id, and
the missing index is reported as before. -/
theorem build_relabel_of_nested :
    let p := (Scenario.nested.run 0).1.program
    let f (i : SyntaxId) : SyntaxId := ⟨(7 * i.val + 3) % 101⟩
    let ρ : Relabeling := .labeling f fun _ => default
    p.reusedIds = [] ∧ f ⟨0⟩ = f ⟨101⟩ ∧
      (∀ o ∈ p.origins, ∀ o' ∈ p.origins, f o.id = f o'.id → o.id = o'.id) ∧
      ∃ graph, p.build p.bind.model .checked = .ok graph ∧
        (p.relabel ρ).build (p.relabel ρ).bind.model .checked = .ok (graph.relabel ρ) ∧
        graph.foldedAccesses = [⟨22⟩] ∧ (graph.relabel ρ).foldedAccesses = [⟨56⟩] ∧
        (graph.relabel ρ).diagnostics.map (·.message) = graph.diagnostics.map (·.message) ∧
        graph.diagnostics.length = 1 := by
  intro p f ρ
  have h : p.reusedIds = [] := by decide
  have hinjective (o : Origin) (ho : o ∈ p.origins) (o' : Origin) (ho' : o' ∈ p.origins)
      (heq : f o.id = f o'.id) : o.id = o'.id := by
    have hnodup : (p.origins.map fun o => f o.id).Nodup := by decide
    rw [List.inj_on_of_nodup_map hnodup ho ho' heq]
  obtain ⟨-, -, hbuild⟩ := build_relabel h f (fun _ => default) hinjective
  obtain ⟨graph, hgraph, hrelabeled⟩ := hbuild .checked
  refine ⟨h, by decide, hinjective, graph, hgraph, hrelabeled, ?_⟩
  rw [build_of_stable h p.bind.stable_model] at hgraph
  obtain rfl := Except.ok.inj hgraph
  decide +kernel

end BoundProgram

end InfraGraph
