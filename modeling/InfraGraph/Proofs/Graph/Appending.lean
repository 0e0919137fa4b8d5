import InfraGraph.Proofs.Graph.DeclarationOrder

/-!
# More declarations at the end

Binding and lowering go through a unit once, from the front to the back, but
not every table they fill is read that way: the loops of all declarations are
compared with each other, and a name is looked up among all symbols.  What
stands at the end of a unit might change what was found at its front.

It does not.  Symbols are numbered by their places, so those there were keep
their numbers.  Of two declarations of one name the first is meant, and loop
variables are looked up in the loops around a node, so a name goes on to mean
what it meant.  Only a name that meant nothing may be given a meaning; that is
what the hypothesis rules out.

## Main definitions

* `BoundProgram.append` — a unit with more declarations at its end.
* `BoundProgram.KeepsUnknown` — they declare no name that means nothing.

## Main results

* `symbols_prefix_append` — the symbols there were come first.
* `lower_append` — so do the declarations and the reports.
-/

namespace InfraGraph

namespace BoundProgram

/-- A unit with more declarations at its end. -/
def append (p : BoundProgram) (ds : List Declaration) : BoundProgram :=
  ⟨p.targetScope, p.declarations ++ ds⟩

/-- No reference of a unit that means nothing there has the full name of one of
the declarations or of one nested in them. -/
def KeepsUnknown (p : BoundProgram) (ds : List Declaration) : Prop :=
  ∀ n ∈ p.expressions, ∀ name, n.referenceName? = some name →
    p.bind.model.lookup name n.id = none →
      ∀ d ∈ Declaration.nestedAll [] ds, d.fullName ≠ name

variable {p : BoundProgram} {ds : List Declaration}

/-! ## What there was comes first -/

theorem nestedDeclarations_append : (p.append ds).nestedDeclarations =
    p.nestedDeclarations ++ Declaration.nestedAll [] ds := by
  rw [nestedDeclarations, nestedDeclarations, Declaration.nestedAll_eq, Declaration.nestedAll_eq,
    Declaration.nestedAll_eq, ← List.flatMap_append]
  rfl

theorem declarations_prefix_append : p.declarations <+: (p.append ds).declarations :=
  List.prefix_append _ _

theorem placements_prefix_append : p.placements <+: (p.append ds).placements := by
  rw [placements_eq_flatMap, placements_eq_flatMap]
  exact declarations_prefix_append.flatMap _

theorem entities_prefix_append : p.entities <+: (p.append ds).entities :=
  placements_prefix_append.flatMap _

theorem reusedIds_of_append (h : (p.append ds).reusedIds = []) : p.reusedIds = [] := by
  have horigins : p.origins <+: (p.append ds).origins :=
    (declarations_prefix_append.flatMap _).flatMap _
  rw [reusedIds_eq_nil_iff] at h ⊢
  exact h.sublist (horigins.sublist.map _)

/-- The symbols there were keep their numbers. -/
theorem symbols_prefix_append : p.bind.symbols <+: (p.append ds).bind.symbols := by
  obtain ⟨more, hmore⟩ : p.entities <+: (p.append ds).entities := entities_prefix_append
  rw [symbols_bind, symbols_bind, ← hmore, List.mapIdx_append]
  exact List.prefix_append _ _

theorem renumbers_append : Renumbers id p (p.append ds) where
  bijective := Function.bijective_id
  number v hv _ := by
    classical
    have hindex : p.entities.idxOf v = (p.append ds).entities.idxOf v :=
      entities_prefix_append.idxOf_eq_of_mem hv
    rw [symbolOf, symbolOf, hindex]
    rfl

/-! ## Names mean what they meant -/

/-- A name that meant something means the same. -/
theorem meaningInside_append {loops : List LoopDescriptor} {name : String}
    (h : p.meaningInside loops name = none →
      ∀ d ∈ Declaration.nestedAll [] ds, d.fullName ≠ name) :
    (p.append ds).meaningInside loops name = p.meaningInside loops name := by
  rw [meaningInside, meaningInside, nestedDeclarations_append, List.find?_append]
  cases hvariable : loops.reverse.findSome? (·.introduced? name) with
  | some v => rfl
  | none =>
      cases hdeclared : p.nestedDeclarations.find? (·.fullName == name) with
      | some d => rfl
      | none =>
          have hnone : p.meaningInside loops name = none := by
            rw [meaningInside, hvariable, hdeclared]
            rfl
          have hmore : (Declaration.nestedAll [] ds).find? (·.fullName == name) = none := by
            rw [List.find?_eq_none]
            intro d hd heq
            exact h hnone d hd (eq_of_beq heq)
          rw [hmore]
          rfl

/-- At the nodes there were, names mean what they meant. -/
theorem meaningInside_append_of_located (h : p.reusedIds = []) (hunknown : p.KeepsUnknown ds)
    {n : Expr} {chain : List LoopDescriptor} {name : String} (hn : (n, chain) ∈ p.located)
    (hname : n.referenceName? = some name) :
    (p.append ds).meaningInside chain name = p.meaningInside chain name := by
  apply meaningInside_append
  intro hnone
  have hchain : p.bind.enclosingLoops n.id = chain := enclosingLoops_eq h hn
  have hbound : p.bind.enclosingLoops n.id ⊆ p.boundLoops := fun l hl =>
    (boundLoops_perm p).mem_iff.2 (enclosingLoops_subset_copyLoops p n.id hl)
  have hlookup := map_lookup h hbound name
  rw [hchain, hnone, Option.map_eq_none_iff] at hlookup
  exact hunknown n (mem_expressions_of_located hn) name hname hlookup

theorem corresponds_append (h : (p.append ds).reusedIds = []) (hunknown : p.KeepsUnknown ds) :
    Corresponds .same p (p.append ds) :=
  have hp : p.reusedIds = [] := reusedIds_of_append h
  corresponds_of_located renumbers_append hp h fun _ _ _ hn hname =>
    meaningInside_append_of_located hp hunknown hn hname

/-! ## Its graph -/

/-- A declaration there was becomes what it became, with the same reports. -/
theorem lower_declaration_append (h : (p.append ds).reusedIds = [])
    (hunknown : p.KeepsUnknown ds) {d : Declaration} (hd : d ∈ p.declarations) :
    d.lower (p.append ds).bind.model = d.lower p.bind.model := by
  have hlower := (corresponds_append h hunknown).lower_relabel rfl (d := d) fun c hc => by
    obtain ⟨placed, hplaced, hdeclaration⟩ :=
      mem_allDeclarations.1 (flatten_subset_allDeclarations hd hc)
    refine ⟨placed, hplaced, hdeclaration, ?_⟩
    rw [Relabeling.same, placed.relabel_renumbering]
    exact placements_prefix_append.subset hplaced
  have hsame (o : Option DeclarationOperation) :
      o.map (DeclarationOperation.relabel .same) = o := by
    rw [funext DeclarationOperation.relabel_same, Option.map_id']
  rwa [Lowered.relabel_same hsame, Relabeling.same, Declaration.relabel_renumbering] at hlower

/-- **Declarations at the end change nothing before them.**  Let declarations
be put at the end of a unit, so that no id is used twice and no name that means
nothing in the unit is declared by them.  They may well declare names again
that the unit declares, and have loops over the same sources with the same
variables.  The symbols there were are the first symbols still, with their
numbers; the operations there were are the first declarations of the graph,
which is built in every mode, and what was reported is reported first. -/
theorem lower_append (h : (p.append ds).reusedIds = []) (hunknown : p.KeepsUnknown ds) :
    p.bind.symbols <+: (p.append ds).bind.symbols ∧
      ∀ options, ∃ g g', p.build p.bind.model options = .ok g ∧
        (p.append ds).build (p.append ds).bind.model options = .ok g' ∧
        g.declarations <+: g'.declarations ∧ g.diagnostics <+: g'.diagnostics ∧
        g.resolved <+: g'.resolved := by
  have hp : p.reusedIds = [] := reusedIds_of_append h
  have hlower (d : Declaration) (hd : d ∈ p.declarations) :=
    lower_declaration_append h hunknown hd
  refine ⟨symbols_prefix_append, fun options => ⟨_, _,
    build_of_stable hp p.bind.stable_model options,
    build_of_stable h (p.append ds).bind.stable_model options, ?_, ?_, ?_⟩⟩
  · show (Declaration.lowerAll _ _).value <+: (Declaration.lowerAll _ _).value
    rw [Declaration.lowerAll_value, Declaration.lowerAll_value,
      ← List.filterMap_congr fun d hd => congrArg Lowered.value (hlower d hd)]
    exact declarations_prefix_append.filterMap _
  · show (Declaration.lowerAll _ _).reports <+: (Declaration.lowerAll _ _).reports
    rw [Declaration.lowerAll_reports, Declaration.lowerAll_reports,
      ← List.flatMap_congr fun d hd => congrArg Lowered.reports (hlower d hd)]
    exact declarations_prefix_append.flatMap _
  · show (Declaration.lowerAll _ _).resolved <+: (Declaration.lowerAll _ _).resolved
    rw [Declaration.lowerAll_resolved, Declaration.lowerAll_resolved,
      ← List.flatMap_congr fun d hd => congrArg Lowered.resolved (hlower d hd)]
    exact declarations_prefix_append.flatMap _

open Assembly in
/-- The variable `third`, which refers to nothing. -/
def dangling : Assembly Declaration := do
  Scenario.bindVariable "third" (← reference "missing")

open Assembly in
/-- The parameter `accounts` once more, and once more
`second = for a in accounts: for c in a.containers: c`, in which `missing` is
nested. -/
def repetition : Assembly (List Declaration) := do
  let accounts ← declare "accounts" (.parameter .bool) none
  let source ← reference "accounts"
  let account ← reference "a"
  let containers ← property account "containers"
  let container ← reference "c"
  let inner ← loop "c" none containers container
  let outer ← loop "a" none source inner
  let second ← Scenario.resource "second" Scenario.storageType outer
  let missing ← declare "missing" .variable none
  return [accounts, { second with children := [missing] }]

/-- The twins and a reference to nothing, before names and loops of theirs come
once more: the name that means nothing is declared inside another one only. -/
theorem lower_append_of_twins :
    let p := twins.append [(dangling.run 100).1]
    let ds := (repetition.run 200).1
    (p.append ds).reusedIds = [] ∧ p.KeepsUnknown ds ∧
      (p.append ds).bind.diagnostics.map (·.code) =
        [some .duplicateDeclaration, some .duplicateDeclaration] ∧
      ∃ g g', p.build p.bind.model .checked = .ok g ∧
        (p.append ds).build (p.append ds).bind.model .checked = .ok g' ∧
        g.declarations <+: g'.declarations ∧ g.diagnostics <+: g'.diagnostics ∧
        g'.diagnostics.map (·.code) = [some .unknownSymbol] := by
  intro p ds
  have h : (p.append ds).reusedIds = [] := by decide
  have hunknown : p.KeepsUnknown ds := by
    have hdeclared : ∀ n ∈ p.expressions, ∀ d ∈ Declaration.nestedAll [] ds,
        n.referenceName? = some d.fullName →
          (p.bind.model.lookup d.fullName n.id).isSome := by decide
    rintro n hn _ hname hlookup d hd rfl
    have hsome := hdeclared n hn d hd hname
    rw [hlookup] at hsome
    cases hsome
  obtain ⟨g, g', hg, hg', hdeclarations, hdiagnostics, -⟩ := (lower_append h hunknown).2 .checked
  refine ⟨h, hunknown, by decide, g, g', hg, hg', hdeclarations, hdiagnostics, ?_⟩
  rw [build_of_stable h (p.append ds).bind.stable_model] at hg'
  obtain rfl := Except.ok.inj hg'
  decide

end BoundProgram

end InfraGraph
