import InfraGraph.Graph.Usage
import InfraGraph.Proofs.Graph.Totality

/-!
# What is used

Which symbols the references of a unit mean is put together from two lists: the
symbols of the operations that there are, and those that were found on the way,
of which some lost their operation.  The second alone is complete.  Every
reference node is lowered whatever becomes of the nodes around it, so what was
found on the way is what the reference nodes of the unit mean, one by one and in
source order; and an operation has no symbol that a reference node did not have
before it.

So a declaration counts as used if some reference node means it, although the
node may have been left out of the graph.

## Main definitions

* `SymbolModel.meant` — the symbols that some nodes mean.
* `BoundProgram.Unused` — a declaration whose symbol no node of the unit means.

## Main results

* `resolved_spine`, `BoundProgram.resolved_lower` — what is found on the way to
  an operation, and in a unit.
* `mem_referencedSymbols`, `lint_lower` — what counts as referred to, and what
  is reported as unused.
* `uses_exact` — both.
-/

namespace InfraGraph

namespace Lowered

@[simp] theorem resolved_pure {α : Type} (a : α) : (Pure.pure a : Lowered α).resolved = [] := rfl

@[simp] theorem resolved_bind {α β : Type} (x : Lowered α) (f : α → Lowered β) :
    (x >>= f).resolved = x.resolved ++ (f x.value).resolved := rfl

@[simp] theorem resolved_report (d : Diagnostic) : (report d).resolved = [] := rfl

end Lowered

/-- The symbols that some nodes mean, in their order. -/
def SymbolModel.meant (m : SymbolModel) (nodes : List Expr) : List SymbolId :=
  nodes.filterMap fun n => (m.resolve n).map (·.id)

variable {m : SymbolModel}

theorem SymbolModel.mem_meant {nodes : List Expr} {id : SymbolId} :
    id ∈ m.meant nodes ↔ ∃ n ∈ nodes, ∃ s, m.resolve n = some s ∧ s.id = id := by
  simp only [meant, List.mem_filterMap, Option.map_eq_some_iff]

theorem SymbolModel.meant_append (nodes others : List Expr) :
    m.meant (nodes ++ others) = m.meant nodes ++ m.meant others :=
  List.filterMap_append ..

theorem SymbolModel.meant_flatMap {α : Type} (l : List α) (nodes : α → List Expr) :
    m.meant (l.flatMap nodes) = l.flatMap fun a => m.meant (nodes a) := by
  rw [meant, List.filterMap_flatMap]
  rfl

/-- A node means something only if it is a reference. -/
theorem SymbolModel.meant_preorder_plain {e : Expr} (hplain : e.isPlain = true) :
    m.meant e.preorder = e.children.flatMap fun c => m.meant c.preorder := by
  rw [Expr.preorder_eq, meant, List.filterMap_cons, Expr.resolve_of_isPlain hplain,
    ← meant_flatMap]
  rfl

/-! ## Expressions -/

/-- Referring to a symbol resolves nothing more. -/
theorem refer_resolved (site : Origin) (name : String) (symbol : Symbol)
    (brackets : List Bracket) : (refer m site name symbol brackets).resolved = [] := by
  have hindexed (referent : Referent) :
      (referIndexed m site name symbol referent brackets).resolved = [] := by
    unfold referIndexed
    dsimp only
    split <;> rfl
  unfold refer
  split <;> first | rfl | exact hindexed _

theorem close_resolved (s : Spine) : (s.close m).resolved = [] := by
  unfold Spine.close
  split <;> simp [refer_resolved]

theorem lower_resolved (e : Expr) : (e.lower m).resolved = (e.spine m).resolved := by
  rw [Expr.lower, Lowered.resolved_bind, close_resolved, List.append_nil]

theorem lowerAll_resolved (es : List Expr) :
    (Expr.lowerAll m es).resolved = es.flatMap fun e => (e.spine m).resolved := by
  induction es with
  | nil => rfl
  | cons e es ih =>
      rw [List.flatMap_cons, ← ih]
      simp [Expr.lowerAll, close_resolved]

theorem lowerEntries_resolved (entries : List (String × Expr)) :
    (Expr.lowerEntries m entries).resolved =
      (entries.map Prod.snd).flatMap fun e => (e.spine m).resolved := by
  induction entries with
  | nil => rfl
  | cons entry entries ih =>
      obtain ⟨key, e⟩ := entry
      rw [List.map_cons, List.flatMap_cons, ← ih]
      simp [Expr.lowerEntries, close_resolved]

/-- A plain node resolves nothing of its own. -/
theorem spine_plain_resolved {e : Expr} (hplain : e.isPlain = true) :
    (e.spine m).resolved = e.children.flatMap fun c => (c.spine m).resolved := by
  cases e with
  | reference => cases hplain
  | element => cases hplain
  | _ => simp [Expr.spine, close_resolved, lowerAll_resolved, lowerEntries_resolved,
      Expr.children]

/-- **What is found on the way to an operation**: what the reference nodes of
the expression mean, in source order, whatever becomes of them. -/
theorem resolved_spine (e : Expr) : (e.spine m).resolved = m.meant e.preorder := by
  induction e using Expr.induction with
  | step e ih =>
      by_cases hplain : e.isPlain = true
      · rw [spine_plain_resolved hplain, SymbolModel.meant_preorder_plain hplain]
        exact List.flatMap_congr ih
      · cases e with
        | reference o name =>
            have hresolve : m.resolve (.reference o name) = m.lookup name o.id := rfl
            rw [Expr.preorder, SymbolModel.meant, List.filterMap_cons, hresolve]
            simp only [Expr.spine, resolveName]
            cases m.lookup name o.id <;> rfl
        | element o base index =>
            have hbase := ih base List.mem_cons_self
            have hindex := ih index (List.mem_cons_of_mem _ List.mem_cons_self)
            have hspine : ((Expr.element o base index).spine m).resolved =
                (base.spine m).resolved ++ (index.spine m).resolved := by
              simp [Expr.spine, close_resolved]
            rw [hspine, hbase, hindex, ← SymbolModel.meant_append]
            rfl
        | _ => exact absurd rfl hplain

theorem lowerValue_resolved (d : Declaration) :
    (lowerValue m d.value).resolved = m.meant d.valueNodes := by
  rw [Declaration.valueNodes]
  cases d.value with
  | none => rfl
  | some value => exact (lower_resolved value).trans (resolved_spine value)

/-! ## Declarations -/

namespace Declaration

theorem lowerAll_resolved (ds : List Declaration) :
    (lowerAll m ds).resolved = ds.flatMap fun d => (d.lower m).resolved := by
  induction ds with
  | nil => rfl
  | cons d ds ih =>
      have hcons : (lowerAll m (d :: ds)).resolved =
          (d.lower m).resolved ++ ((lowerAll m ds).resolved ++ []) := rfl
      rw [hcons, List.append_nil, ih, List.flatMap_cons]

theorem lower_resolved_of_some {d : Declaration} {s : Symbol}
    (h : m.declaredSymbol d.id = some s) :
    (d.lower m).resolved =
      (lowerValue m d.value).resolved ++ (lowerAll m d.children).resolved := by
  obtain ⟨origin, name, kind, value, children⟩ := d
  have h : m.declaredSymbol origin.id = some s := h
  simp [lower, h]

theorem resolved_lower {d : Declaration}
    (h : ∀ d' ∈ d.flatten, (m.declaredSymbol d'.id).isSome) :
    (d.lower m).resolved = m.meant (d.flatten.flatMap valueNodes) := by
  induction d using Declaration.induction with
  | step d ih =>
      obtain ⟨s, hs⟩ := Option.isSome_iff_exists.1 (h d d.mem_flatten_self)
      rw [lower_resolved_of_some hs, lowerAll_resolved, lowerValue_resolved, flatten_eq,
        List.flatMap_cons, SymbolModel.meant_append, List.flatMap_assoc,
        SymbolModel.meant_flatMap]
      refine congrArg _ (List.flatMap_congr fun c hc => ih c hc fun d' hd' => ?_)
      exact h d' (flatten_subset_of_mem_children hc hd')

end Declaration

/-! ## Graphs -/

namespace OperationGraph

/-- The symbols that some reference means, as often as it is found out. -/
def referenced (g : OperationGraph) : List SymbolId :=
  (g.roots.flatMap Operation.preorder).filterMap (fun op => op.symbol?.map (·.id)) ++ g.resolved

theorem mem_referencedSymbols (g : OperationGraph) (id : SymbolId) :
    id.index ∈ g.referencedSymbols ↔ id ∈ g.referenced := by
  have hindex : Function.Injective SymbolId.index := fun i j hij => congrArg SymbolId.mk hij
  have hlist : (g.operations.filterMap fun op => op.symbol?.map fun s => s.id.index) ++
      g.resolved.map (·.index) = g.referenced.map (·.index) := by
    rw [referenced, operations_eq, List.map_append, List.map_filterMap]
    refine congrArg (· ++ _) (List.filterMap_congr fun op _ => ?_)
    rw [Option.map_map]
    rfl
  rw [referencedSymbols, mem_ascending, hlist, List.mem_map_of_injective hindex]

end OperationGraph

/-! ## Declarations without a use -/

namespace DeclarationKind

/-- Whether a declaration of that kind should be used: outputs are for the
caller. -/
def needsUse : DeclarationKind → Bool
  | .output _ => false
  | _ => true

/-- The kind in a word. -/
def word : DeclarationKind → String
  | .parameter _ => "parameter"
  | .variable => "variable"
  | .resource .. => "resource"
  | .module .. => "module"
  | .output _ => "output"

end DeclarationKind

namespace PlacedDeclaration

theorem needsUse_entity (target : DeploymentScope) (d : PlacedDeclaration) :
    (d.entity target).kind.needsUse = d.declaration.kind.needsUse := by
  show (d.kindAndType target).1.needsUse = _
  rw [kindAndType]
  cases d.declaration.kind <;> rfl

theorem name_kind_entity (target : DeploymentScope) (d : PlacedDeclaration) :
    (d.entity target).kind.name = d.declaration.kind.word := by
  show (d.kindAndType target).1.name = _
  rw [kindAndType]
  cases d.declaration.kind <;> rfl

end PlacedDeclaration

/-- The report on a declaration of the top level that nothing refers to. -/
def Declaration.reportUnused (level : Level) (d : Declaration) : Diagnostic :=
  let message := d.kind.word ++ " `" ++ d.name ++ "` is declared but never used"
  { Diagnostic.ofMessage level message with code := some .unusedDeclaration }
    |>.withLabel d.span "unused declaration"

namespace BoundProgram

/-- A declaration that should be used, while no reference node of the unit means
its symbol. -/
def Unused (p : BoundProgram) (d : Declaration) : Prop :=
  d.kind.needsUse = true ∧ ∃ own ∈ p.bind.model.declaredSymbol d.id,
    ∀ n ∈ p.expressions, ∀ s ∈ p.bind.model.resolve n, s.id ≠ own.id

instance (p : BoundProgram) : DecidablePred p.Unused :=
  fun _ => inferInstanceAs (Decidable (_ ∧ _))

variable {p : BoundProgram}

theorem declarations_sublist (p : BoundProgram) : p.declarations.Sublist p.allDeclarations := by
  have hsingle : p.declarations.flatMap (fun d => [d]) = p.declarations :=
    List.flatMap_singleton' _
  have hsublist : (p.declarations.flatMap fun d => [d]).Sublist p.allDeclarations :=
    List.Sublist.flatMap_right _ fun d _ => List.singleton_sublist.2 d.mem_flatten_self
  rwa [hsingle] at hsublist

/-- A declaration of the top level stands under its own name. -/
theorem mem_placements_of_mem_declarations {d : Declaration} (hd : d ∈ p.declarations) :
    (⟨d, d.name, []⟩ : PlacedDeclaration) ∈ p.placements := by
  rw [placements_eq_flatMap]
  refine List.mem_flatMap.2 ⟨d, hd, ?_⟩
  rw [Declaration.placements_eq]
  exact List.mem_cons_self

section

variable (h : p.reusedIds = [])

include h

/-- **What is found in a unit**: what its reference nodes mean. -/
theorem resolved_lower : (p.lower p.bind.model).resolved = p.bind.model.meant p.expressions := by
  have hall : (p.lower p.bind.model).resolved =
      (Declaration.lowerAll p.bind.model p.declarations).resolved := rfl
  rw [hall, Declaration.lowerAll_resolved, expressions, allDeclarations, List.flatMap_assoc,
    SymbolModel.meant_flatMap]
  refine List.flatMap_congr fun root hroot => Declaration.resolved_lower fun d hd => ?_
  exact isSome_declaredSymbol h (flatten_subset_allDeclarations hroot hd)

/-- **What is referred to**: the symbols that some reference node means. -/
theorem mem_referencedSymbols {id : SymbolId} :
    id.index ∈ (p.lower p.bind.model).referencedSymbols ↔
      ∃ n ∈ p.expressions, ∃ s, p.bind.model.resolve n = some s ∧ s.id = id := by
  rw [OperationGraph.mem_referencedSymbols, OperationGraph.referenced, List.mem_append,
    resolved_lower h, SymbolModel.mem_meant]
  refine or_iff_right_of_imp fun hid => ?_
  obtain ⟨op, hop, hsymbol⟩ := List.mem_filterMap.1 hid
  obtain ⟨s, hs, hsid⟩ := Option.map_eq_some_iff.1 hsymbol
  rw [← OperationGraph.operations_eq] at hop
  obtain ⟨name, -, -, hnode, hlookup, -, -⟩ := sourced_operations hop s hs
  exact ⟨.reference op.origin name, hnode, s, hlookup, hsid⟩

/-- What a declaration of the top level became is reported under the same
conditions and in the same words. -/
theorem lower_of_mem_declarations {d : Declaration} (hd : d ∈ p.declarations) :
    ∃ o, (d.lower p.bind.model).value = some o ∧
      (∀ level, InfraGraph.reportUnused level o = d.reportUnused level) ∧
      ((o.symbol.kind.needsUse &&
        !(p.lower p.bind.model).referencedSymbols.contains o.symbol.id.index) = true ↔
          p.Unused d) := by
  obtain ⟨s, -, hs, hentity⟩ :=
    exists_symbol_of_placed h (mem_placements_of_mem_declarations hd)
  have hs : p.bind.model.declaredSymbol d.id = some s := hs
  have hname : s.name = d.name := by rw [hentity]; rfl
  have hkind : s.kind.name = d.kind.word := by
    rw [hentity]
    exact PlacedDeclaration.name_kind_entity _ _
  have hneeds : s.kind.needsUse = d.kind.needsUse := by
    rw [hentity]
    exact PlacedDeclaration.needsUse_entity _ _
  refine ⟨_, Declaration.lower_of_some hs, fun level => ?_, ?_⟩
  · rw [InfraGraph.reportUnused, Declaration.reportUnused, hname, hkind]
    rfl
  · have hcontains : (p.lower p.bind.model).referencedSymbols.contains s.id.index = false ↔
        ∀ n ∈ p.expressions, ∀ t ∈ p.bind.model.resolve n, t.id ≠ s.id := by
      rw [← Bool.not_eq_true, List.contains_iff_mem, mem_referencedSymbols h]
      push Not
      rfl
    rw [Bool.and_eq_true, Bool.not_eq_true', hcontains, hneeds, Unused, hs]
    simp

/-- **The declarations that are reported as unused.** -/
theorem lint_lower (level : Level) :
    (p.lower p.bind.model).lint ⟨some level⟩ =
      (p.declarations.filter fun d => p.Unused d).map (Declaration.reportUnused level) := by
  have hlowers := forall₂_lowerAll fun d => lower_of_mem_declarations h (d := d)
  have hlint : (p.lower p.bind.model).lint ⟨some level⟩ =
      ((Declaration.lowerAll p.bind.model p.declarations).value.filter fun o =>
        o.symbol.kind.needsUse &&
          !(p.lower p.bind.model).referencedSymbols.contains o.symbol.id.index).map
        (InfraGraph.reportUnused level) := rfl
  rw [hlint]
  generalize (Declaration.lowerAll p.bind.model p.declarations).value = os at hlowers ⊢
  generalize p.declarations = ds at hlowers ⊢
  induction hlowers with
  | nil => rfl
  | @cons d o ds os hd _ ih =>
      obtain ⟨hreport, htest⟩ := hd
      rw [List.filter_cons, List.filter_cons]
      by_cases hunused : p.Unused d
      · rw [if_pos (htest.2 hunused), if_pos (decide_eq_true hunused), List.map_cons,
          List.map_cons, hreport, ih]
      · rw [if_neg (mt htest.1 hunused), if_neg (by simpa using hunused), ih]

end

open Assembly in
/-- A unit in which `size` is only referred to beside a name that means nothing,
and the name of the parameter `names` is taken by a loop. -/
def elidedUse : BoundProgram :=
  let unit : Assembly BoundProgram := do
    let size ← Scenario.parameter "size" .int
    let names ← Scenario.parameter "names" Scenario.strings
    let known ← reference "size"
    let unknown ← reference "missing"
    let value ← node (.call · "product" [known, unknown])
    let area ← Scenario.bindVariable "area" value
    let source ← reference "area"
    let body ← reference "names"
    let value ← loop "names" none source body
    let list ← Scenario.output "list" Scenario.strings value
    return .ofDeclarations [size, names, area, list]
  (unit.run 0).1

/-- **What counts as used is exact, also after errors.**  The symbols that count
as referred to are those that some reference node of the unit means, be it in
the graph or not; and reported as unused are, in source order and once each, the
parameters, variables, resources and modules of the top level whose symbol no
reference node means. -/
theorem uses_exact (h : p.reusedIds = []) :
    (∀ id : SymbolId, id.index ∈ (p.lower p.bind.model).referencedSymbols ↔
      ∃ n ∈ p.expressions, ∃ s, p.bind.model.resolve n = some s ∧ s.id = id) ∧
    (∀ level, (p.lower p.bind.model).lint ⟨some level⟩ =
      (p.declarations.filter fun d => p.Unused d).map (Declaration.reportUnused level)) ∧
    ((p.declarations.filter fun d => p.Unused d).map Declaration.id).Nodup := by
  refine ⟨fun _ => mem_referencedSymbols h, lint_lower h, ?_⟩
  exact ((List.filter_sublist.trans p.declarations_sublist).map _).nodup (nodup_declarationIds h)

/-- The call is left out, and yet `size` is used; the parameter `names` is not,
although a reference has its name. -/
theorem uses_exact_of_elidedUse :
    let p := elidedUse
    let g := p.lower p.bind.model
    p.reusedIds = [] ∧ (∀ op ∈ g.operations, op.symbol?.map (·.id) ≠ some ⟨0⟩) ∧
      0 ∈ g.referencedSymbols ∧
      (g.lint .default).map (·.message) = ["parameter `names` is declared but never used"] := by
  have h : elidedUse.reusedIds = [] := by decide
  obtain ⟨hreferenced, hlint, -⟩ := uses_exact h
  refine ⟨h, ?_, (hreferenced ⟨0⟩).2 ?_, ?_⟩
  · rw [OperationGraph.operations_eq]
    decide
  · exact SymbolModel.mem_meant.1 (by decide)
  · rw [LintOptions.default, hlint]
    decide

end BoundProgram

end InfraGraph
