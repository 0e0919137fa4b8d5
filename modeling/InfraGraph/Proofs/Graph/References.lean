import InfraGraph.Graph.Usage
import InfraGraph.Proofs.Graph.Restoring
import InfraGraph.Proofs.Graph.Traversals
import InfraGraph.Scenario

/-!
# Where symbols are referred to

The references of a graph are found by a walk over its operations, in which
brackets have moved: from around a reference into its context.  Still the
references come out in source order.  A bracket itself is no reference, and the
indices in brackets stand behind what they are applied to, whether they are the
children of the reference or stand around it.  So, the brackets apart, a spine
lists its references in one order however it is closed.

## Main definitions

* `Operation.referrals`, `Expr.referrals` — the references of a tree with their
  symbols, in source order.

## Main results

* `referencesTo_eq` — the visitor finds what a test of each operation finds.
* `referrals_lower` — an operation has the references of its expression that
  survive.
* `references_exact` — what is found for a symbol.
-/

namespace InfraGraph

/-! ## The walk -/

/-- The reference an operation is, if it refers to the symbol of that number. -/
def Operation.referenceTo? (id : SymbolId) (op : Operation) : Option SymbolReference :=
  match op.symbol? with
  | some symbol =>
    if symbol.id = id then some ⟨op.origin, op.context?.map fun context => context.kind⟩ else none
  | none => none

theorem noteReference_eq {id : SymbolId} {op : Operation} {symbol : Symbol}
    (h : op.symbol? = some symbol) (found : List SymbolReference) :
    noteReference id op.origin symbol op.context? found =
      found ++ (op.referenceTo? id).toList := by
  rw [noteReference, Operation.referenceTo?, h]
  by_cases hid : symbol.id = id <;> simp [hid]

/-- The finder does at each node what a test of that node alone would do. -/
theorem follows_referenceFinder (id : SymbolId) :
    (referenceFinder id).Follows fun found op => found ++ (op.referenceTo? id).toList := by
  intro op found
  dsimp only
  cases hsymbol : op.symbol? with
  | none =>
      have hnone : op.referenceTo? id = none := by rw [Operation.referenceTo?, hsymbol]
      rw [hnone, Option.toList_none, List.append_nil]
      cases op with
      | object o entries => rw [Operation.accept_object, referenceFinder]
      | access => cases hsymbol
      | parameter => cases hsymbol
      | loopVariable => cases hsymbol
      | _ => rfl
  | some symbol =>
      rw [← noteReference_eq hsymbol]
      cases op with
      | access o symbol referent context =>
          cases hsymbol
          rw [Operation.accept_access]
          cases referent <;> rfl
      | parameter => cases hsymbol; rfl
      | loopVariable => cases hsymbol; rfl
      | _ => cases hsymbol

/-- What is found for a symbol: the operations that refer to it, one by one. -/
theorem OperationGraph.referencesTo_eq (g : OperationGraph) (id : SymbolId) :
    g.referencesTo id = g.operations.filterMap (Operation.referenceTo? id) := by
  rw [referencesTo, accept_eq_foldl (follows_referenceFinder id), ← List.flatMap_eq_foldl,
    List.filterMap_eq_flatMap_toList]

/-! ## References with their symbols -/

/-- The place of a reference and its symbol. -/
def Operation.referral? (op : Operation) : Option (Origin × Symbol) :=
  op.symbol?.map (op.origin, ·)

/-- The references of an operation with their symbols, in source order. -/
def Operation.referrals (op : Operation) : List (Origin × Symbol) :=
  op.preorder.filterMap referral?

/-- The place of a reference node and the symbol that it means. -/
def SymbolModel.referral? (m : SymbolModel) (n : Expr) : Option (Origin × Symbol) :=
  (m.resolve n).map (n.origin, ·)

/-- The references of an expression that survive, with what they mean, in source
order. -/
def Expr.referrals (m : SymbolModel) (e : Expr) : List (Origin × Symbol) :=
  (e.survivors m).filterMap m.referral?

variable {m : SymbolModel}

/-- The place of a reference, if it is one to the symbol of that number. -/
def placeOf? (id : SymbolId) (r : Origin × Symbol) : Option Origin :=
  if r.2.id = id then some r.1 else none

theorem Operation.map_origin_referenceTo? (op : Operation) (id : SymbolId) :
    (op.referenceTo? id).map (·.origin) = op.referral?.bind (placeOf? id) := by
  rw [referenceTo?, referral?]
  cases op.symbol? with
  | none => rfl
  | some symbol => by_cases hid : symbol.id = id <;> simp [placeOf?, hid]

/-- What a reference to a symbol is made from. -/
theorem Operation.referenceTo?_eq_some_iff {op : Operation} {id : SymbolId}
    {r : SymbolReference} :
    op.referenceTo? id = some r ↔ ∃ s, op.symbol? = some s ∧ s.id = id ∧
      r = ⟨op.origin, op.context?.map fun context => context.kind⟩ := by
  rw [referenceTo?]
  cases op.symbol? with
  | none => simp
  | some symbol =>
      by_cases hid : symbol.id = id
      · simp [hid, eq_comm]
      · simp [hid]

theorem Operation.referrals_eq (op : Operation) :
    op.referrals = op.referral?.toList ++ op.children.flatMap referrals := by
  rw [referrals, preorder_eq, List.filterMap_cons, List.filterMap_flatMap]
  cases op.referral? <;> rfl

theorem Expr.referrals_of_not_fails {e : Expr} (h : e.fails m = false) :
    e.referrals m = (m.referral? e).toList ++ e.children.flatMap (referrals m) := by
  rw [referrals, survivors_of_not_fails h, List.filterMap_cons, List.filterMap_flatMap]
  cases m.referral? e <;> rfl

/-- A bracket is no reference; its index comes behind what it is applied to. -/
theorem referrals_withBrackets (op : Operation) (brackets : List Bracket) :
    (op.withBrackets brackets).referrals =
      op.referrals ++ brackets.flatMap (·.index.referrals) := by
  induction brackets generalizing op with
  | nil => exact (List.append_nil _).symm
  | cons b brackets ih =>
      have helement : (Operation.element b.access op b.index).referrals =
          op.referrals ++ b.index.referrals := by
        rw [Operation.referrals_eq]
        simp [Operation.referral?, Operation.symbol?, Operation.children]
      rw [Operation.withBrackets_cons, ih, helement, List.flatMap_cons, List.append_assoc]

/-- A reference comes before the indices that it has used. -/
theorem Referred.referrals_eq {site : Origin} {symbol : Symbol} {brackets rest : List Bracket}
    {op : Operation} (h : Referred m site symbol brackets op rest) :
    op.referrals = (site, symbol) :: op.usedBrackets.flatMap (·.2.referrals) := by
  rw [Operation.referrals_eq, Operation.referral?, h.symbol_eq, h.origin_eq, h.children_eq,
    List.flatMap_map]
  rfl

/-! ## Spines -/

/-- The references of a spine: that of its head, then those in its brackets. -/
def Spine.referrals (s : Spine) : List (Origin × Symbol) :=
  (match s.head with
    | some (.operation op) => op.referrals
    | some (.symbol site _ symbol) => [(site, symbol)]
    | none => [])
  ++ (s.brackets.filterMap fun b => b.map ExplicitIndex.pair).flatMap (·.2.referrals)

theorem referrals_spine_element (o : Origin) (base : Expr) {index : Expr} {i : Operation}
    (h : (index.lower m).value = some i) :
    ((Expr.element o base index).spine m).value.referrals =
      (base.spine m).value.referrals ++ i.referrals := by
  rw [spine_element]
  simp [Spine.referrals, h, ExplicitIndex.pair]

/-- Closing a spine keeps its references in order. -/
theorem Spine.Closes.referrals_eq {s : Spine} {op : Operation} (h : s.Closes m op) :
    op.referrals = s.referrals := by
  cases h with
  | @operation base brackets =>
      rw [referrals_withBrackets, Spine.referrals, filterMap_pair_map_some, List.flatMap_map]
      rfl
  | @symbol site name symbol brackets base rest hrefer =>
      have hreferred := referred_of_refer hrefer
      rw [referrals_withBrackets, hreferred.referrals_eq, Spine.referrals,
        filterMap_pair_map_some, ← hreferred.conserved, List.flatMap_append, List.flatMap_map]
      rfl

/-- **An operation has the references of its expression** that survive, in the
same order. -/
theorem referrals_lower {e : Expr} {op : Operation} (h : (e.lower m).value = some op) :
    op.referrals = e.referrals m := by
  induction e using Expr.induction generalizing op with
  | step e ih =>
      have hkept := not_fails_of_lower h
      rw [Expr.referrals_of_not_fails hkept]
      by_cases hplain : e.isPlain = true
      · obtain ⟨-, hsymbol, -, hchildren⟩ := lower_plain hplain h
        rw [Operation.referrals_eq, Operation.referral?, hsymbol, SymbolModel.referral?,
          Expr.resolve_of_isPlain hplain, hchildren, List.filterMap_eq_flatMap_toList,
          List.flatMap_assoc]
        refine congrArg _ (List.flatMap_congr fun c hc => ?_)
        cases hc' : (c.lower m).value with
        | none => simp [Expr.referrals, Expr.survivors_of_fails ((lower_eq_none_iff c).1 hc')]
        | some x => simpa using ih c hc hc'
      · cases e with
        | reference o name =>
            have hresolve : m.resolve (.reference o name) = m.lookup name o.id := rfl
            rw [(closes_of_close h).referrals_eq, spine_reference, SymbolModel.referral?, hresolve]
            cases m.lookup name o.id <;> rfl
        | element o base index =>
            rw [Expr.fails_element, Bool.or_eq_false_iff] at hkept
            obtain ⟨b, hb⟩ := lower_of_not_fails hkept.1
            obtain ⟨i, hi⟩ := lower_of_not_fails hkept.2
            -- As with what is accounted for, the base and the whole share the spine only.
            have hbase := (closes_of_close hb).referrals_eq.symm.trans
              (ih base List.mem_cons_self hb)
            have hindex := ih index (List.mem_cons_of_mem _ List.mem_cons_self) hi
            rw [(closes_of_close h).referrals_eq, referrals_spine_element o base hi, hbase, hindex]
            simp [Expr.children, SymbolModel.referral?, Scoping.resolve, Expr.referenceName?]
        | _ => exact absurd rfl hplain

/-- Where nothing fails, every node survives. -/
theorem Expr.survives_of_not_fails {e n : Expr} (h : ∀ n ∈ e.preorder, n.fails m = false)
    (hn : n ∈ e.preorder) : e.Survives m n := by
  induction e using Expr.induction with
  | step e ih =>
      rw [preorder_eq] at h hn
      have he : e.fails m = false := h e List.mem_cons_self
      rcases List.mem_cons.1 hn with rfl | hn
      · exact .root he
      · obtain ⟨c, hc, hn⟩ := List.mem_flatMap.1 hn
        refine .child he hc (ih c hc (fun n hn => h n ?_) hn)
        exact List.mem_cons_of_mem _ (List.mem_flatMap.2 ⟨c, hc, hn⟩)

/-! ## Graphs -/

theorem LowersTo.referrals_eq {d : Declaration} {o : DeclarationOperation}
    (h : LowersTo m d o) :
    o.value.toList.flatMap Operation.referrals = (d.survivors m).filterMap m.referral? := by
  rw [h.value, Declaration.survivors]
  cases d.value with
  | none => rfl
  | some value =>
      have hlower : lowerValue m (some value) = value.lower m := rfl
      rw [hlower]
      cases hop : (value.lower m).value with
      | none =>
          dsimp only
          rw [Expr.survivors_of_fails ((lower_eq_none_iff value).1 hop)]
          rfl
      | some op => simpa [Expr.referrals] using referrals_lower hop

namespace BoundProgram

variable {p : BoundProgram}

/-- **The references of a graph** are the references of the unit that survive,
in the same order. -/
theorem referrals_operations :
    (p.lower m).operations.filterMap Operation.referral? =
      (p.survivors m).filterMap m.referral? := by
  have hlowers := p.forall₂_lowersTo (m := m)
  rw [OperationGraph.operations_eq, OperationGraph.roots, survivors, List.filterMap_flatMap,
    List.filterMap_flatMap]
  generalize (p.lower m).allDeclarations = os, p.boundDeclarations m = ds at hlowers ⊢
  induction hlowers with
  | nil => rfl
  | @cons d o ds os hd _ ih =>
      rw [List.flatMap_cons, ← hd.referrals_eq, ← ih]
      cases hvalue : o.value <;> simp [hvalue, Operation.referrals]

/-- The operations have different ids. -/
theorem nodup_operationIds (h : p.reusedIds = []) :
    ((p.lower m).operations.map Operation.id).Nodup := by
  have hsublist : ((p.lower m).operations.map Operation.id).Sublist (p.lower m).accounted := by
    rw [List.map_eq_flatMap, OperationGraph.accounted]
    refine List.Sublist.flatMap_right _ fun op _ => ?_
    exact List.singleton_sublist.2 List.mem_cons_self
  exact hsublist.nodup (nodup_accounted h)

/-- An operation is found by its id. -/
theorem find?_lower (h : p.reusedIds = []) {op : Operation} (hop : op ∈ (p.lower m).operations) :
    (p.lower m).find? op.id = some op :=
  (find?_eq_some_iff_of_nodup (nodup_operationIds h)).2 ⟨hop, rfl⟩

section

variable (h : p.reusedIds = [])

include h

/-- Where nothing was reported that leaves something out, all nodes survive. -/
theorem mem_survivors_of_keepsAll
    (hreports : Diagnostics.KeepsAll (p.lower p.bind.model).diagnostics) {n : Expr}
    (hn : n ∈ p.expressions) : n ∈ p.survivors p.bind.model := by
  obtain ⟨d, hd, hn⟩ := List.mem_flatMap.1 hn
  rw [diagnostics_lower h, keepsAll_flatMap] at hreports
  have hreports := hreports d hd
  obtain ⟨value, hvalue, hn⟩ := Declaration.mem_valueNodes.1 hn
  rw [hvalue] at hreports
  have hreports : Diagnostics.KeepsAll (value.lower p.bind.model).reports := hreports
  have hkept := not_fails_of_keepsAll_lower hreports
  rw [lower_reports, keepsAll_append] at hreports
  exact (mem_survivors_iff h).2 ⟨d, hd, value, hvalue,
    Expr.survives_of_not_fails (not_fails_of_keepsAll hreports.1 hkept) hn⟩

end

/-- A node that means a symbol of that number means that symbol. -/
theorem any_resolve_iff {s : Symbol} (hs : s ∈ p.bind.symbols) {n : Expr} :
    (p.bind.model.resolve n).any (·.id == s.id) = true ↔ p.bind.model.resolve n = some s := by
  rw [Option.any_eq_true]
  constructor
  · rintro ⟨t, ht, hid⟩
    rw [ht, eq_of_symbolId_eq (Binding.mem_symbols_of_resolve ht) hs (eq_of_beq hid)]
  · intro hresolve
    exact ⟨s, hresolve, beq_self_eq_true s.id⟩

/-- The places of the references to a symbol are those of the surviving nodes
that mean it. -/
theorem map_origin_referencesTo (id : SymbolId) :
    ((p.lower m).referencesTo id).map (·.origin) =
      ((p.survivors m).filter fun n => (m.resolve n).any (·.id == id)).map Expr.origin := by
  rw [OperationGraph.referencesTo_eq, List.map_filterMap, ← List.filterMap_eq_filter,
    List.map_filterMap]
  calc (p.lower m).operations.filterMap (fun op => (op.referenceTo? id).map (·.origin))
      = ((p.lower m).operations.filterMap Operation.referral?).filterMap (placeOf? id) := by
        rw [List.filterMap_filterMap]
        exact List.filterMap_congr fun op _ => op.map_origin_referenceTo? id
    _ = ((p.survivors m).filterMap m.referral?).filterMap (placeOf? id) := by
        rw [referrals_operations]
    _ = (p.survivors m).filterMap fun n =>
          (Option.guard (fun n => (m.resolve n).any (·.id == id)) n).map Expr.origin := by
        rw [List.filterMap_filterMap]
        refine List.filterMap_congr fun n _ => ?_
        rw [SymbolModel.referral?, Option.guard]
        cases m.resolve n with
        | none => rfl
        | some symbol => by_cases hid : symbol.id = id <;> simp [placeOf?, hid]

/-- **The references to a symbol**: in the order of the nodes of the unit, each
reference node that means it and lies in nothing that was left out, and no
other; all of them, if neither unknown names nor outputs were reported.  Each
has the kind of the context of its operation, if there is one. -/
theorem references_exact (h : p.reusedIds = []) {s : Symbol} (hs : s ∈ p.bind.symbols) :
    let m := p.bind.model
    let g := p.lower m
    ∃ nodes : List Expr, nodes.Sublist p.expressions ∧ (nodes.map Expr.id).Nodup ∧
      (∀ n, n ∈ nodes ↔
        (∃ d ∈ p.allDeclarations, ∃ value, d.value = some value ∧ value.Survives m n) ∧
          m.resolve n = some s) ∧
      (g.diagnostics.withCode .unknownSymbol = [] →
        g.diagnostics.withCode .outputReference = [] →
          ∀ n ∈ p.expressions, m.resolve n = some s → n ∈ nodes) ∧
      (g.referencesTo s.id).map (·.origin) = nodes.map Expr.origin ∧
      ∀ r ∈ g.referencesTo s.id, ∃ op, g.find? r.origin.id = some op ∧ op.symbol? = some s ∧
        r.index = op.context?.map fun context => context.kind := by
  intro m g
  have hnodes (n : Expr) :
      n ∈ (p.survivors m).filter (fun n => (m.resolve n).any (·.id == s.id)) ↔
        n ∈ p.survivors m ∧ m.resolve n = some s := by
    rw [List.mem_filter, any_resolve_iff hs]
  have hsublist : ((p.survivors m).filter fun n => (m.resolve n).any (·.id == s.id)).Sublist
      p.expressions := List.filter_sublist.trans survivors_sublist
  refine ⟨_, hsublist, (hsublist.map _).nodup (nodup_expressionIds h), fun n => ?_, ?_,
    map_origin_referencesTo s.id, ?_⟩
  · rw [hnodes, mem_survivors_iff h]
  · intro hunknown houtput n hn hresolve
    exact (hnodes n).2 ⟨mem_survivors_of_keepsAll h ⟨hunknown, houtput⟩ hn, hresolve⟩
  · intro r hr
    rw [OperationGraph.referencesTo_eq] at hr
    obtain ⟨op, hop, hr⟩ := List.mem_filterMap.1 hr
    obtain ⟨t, ht, hid, rfl⟩ := Operation.referenceTo?_eq_some_iff.1 hr
    obtain ⟨name, -, -, -, hlookup, -, -⟩ := sourced_operations hop t ht
    obtain rfl := eq_of_symbolId_eq (Binding.mem_symbols_of_lookup hlookup) hs hid
    exact ⟨op, find?_lower h hop, ht, rfl⟩

/-- The unit with nested loops: the container is referred to from inside both
loops, from inside the outer one, and there with an index. -/
theorem references_exact_of_nested :
    let p := (Scenario.nested.run 0).1.program
    let g := p.lower p.bind.model
    p.reusedIds = [] ∧ ∃ s ∈ p.bind.symbols, s.name = "storage::blob" ∧
      (g.referencesTo s.id).map (·.index) =
        [some .implicit, some .unresolved, some .explicit] ∧
      ∃ nodes : List Expr, nodes.Sublist p.expressions ∧
        (∀ n ∈ p.expressions, p.bind.model.resolve n = some s → n ∈ nodes) ∧
        (g.referencesTo s.id).map (·.origin) = nodes.map Expr.origin := by
  have h : (Scenario.nested.run 0).1.program.reusedIds = [] := by decide
  have hs := List.mem_of_getElem? (l := (Scenario.nested.run 0).1.program.bind.symbols) (i := 4) rfl
  obtain ⟨nodes, hsublist, -, -, hall, horigins, -⟩ := references_exact h hs
  exact ⟨h, _, hs, rfl, by decide, nodes, hsublist, hall (by decide) (by decide), horigins⟩

end BoundProgram

end InfraGraph
