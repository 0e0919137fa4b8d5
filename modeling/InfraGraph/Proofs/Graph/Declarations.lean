import InfraGraph.Proofs.Graph.Elision
import InfraGraph.Proofs.Graph.Provenance

/-!
# Lowering units

What is known of the lowering of one expression, put together for a unit.

A declaration without a symbol is left out with all that is nested in it, so
`Declaration.bound` lists the declarations that are lowered.  The graph has
one declaration for each of them in the same order, `forall₂_lowersTo`, and
everything else about the operations of a graph follows from it.

## Main results

* `forall₂_lowersTo` — the declarations of a graph, one by one.
* `accounted_lower_perm` — the operations account for the survivors of the
  unit.
* `sourced_operations` — every reference of a graph has a source in the unit.
* `exists_refer` — what became of a reference of the unit.
-/

namespace InfraGraph

variable {m : SymbolModel}

/-! ## Declarations that are lowered -/

namespace Declaration

/-- The declarations of a tree that have a symbol, as have all those around
them. -/
def bound (m : SymbolModel) (d : Declaration) : List Declaration :=
  if (m.declaredSymbol d.id).isSome then d :: d.children.attach.flatMap fun c => bound m c.1
  else []
termination_by sizeOf d
decreasing_by exact sizeOf_lt_of_mem_children c.2

theorem bound_of_none {d : Declaration} (h : m.declaredSymbol d.id = none) : d.bound m = [] := by
  rw [bound, h]
  rfl

theorem bound_of_some {d : Declaration} {s : Symbol} (h : m.declaredSymbol d.id = some s) :
    d.bound m = d :: d.children.flatMap (bound m) := by
  rw [bound, h]
  simp

theorem bound_sublist (d : Declaration) : (d.bound m).Sublist d.flatten := by
  induction d using Declaration.induction with
  | step d ih =>
      cases h : m.declaredSymbol d.id with
      | none =>
          rw [bound_of_none h]
          exact List.nil_sublist _
      | some s =>
          rw [bound_of_some h, flatten_eq]
          exact (List.Sublist.flatMap_right _ ih).cons_cons d

theorem lower_of_none {d : Declaration} (h : m.declaredSymbol d.id = none) :
    (d.lower m).value = none := by
  obtain ⟨origin, name, kind, value, children⟩ := d
  have h : m.declaredSymbol origin.id = none := h
  simp [lower, h]

theorem lower_of_some {d : Declaration} {s : Symbol} (h : m.declaredSymbol d.id = some s) :
    (d.lower m).value =
      some ⟨d.origin, s, (lowerValue m d.value).value, (lowerAll m d.children).value⟩ := by
  obtain ⟨origin, name, kind, value, children⟩ := d
  have h : m.declaredSymbol origin.id = some s := h
  simp [lower, h]

theorem lower_reports_of_some {d : Declaration} {s : Symbol}
    (h : m.declaredSymbol d.id = some s) :
    (d.lower m).reports = (lowerValue m d.value).reports ++ (lowerAll m d.children).reports := by
  obtain ⟨origin, name, kind, value, children⟩ := d
  have h : m.declaredSymbol origin.id = some s := h
  simp [lower, h]

theorem lowerAll_value (ds : List Declaration) :
    (lowerAll m ds).value = ds.filterMap fun d => (d.lower m).value := by
  induction ds with
  | nil => rfl
  | cons d ds ih =>
      have hcons : (lowerAll m (d :: ds)).value =
          (d.lower m).value.toList ++ (lowerAll m ds).value := rfl
      rw [hcons, ih, List.filterMap_cons]
      cases (d.lower m).value <;> rfl

theorem lowerAll_reports (ds : List Declaration) :
    (lowerAll m ds).reports = ds.flatMap fun d => (d.lower m).reports := by
  induction ds with
  | nil => rfl
  | cons d ds ih =>
      rw [List.flatMap_cons, ← ih]
      simp [lowerAll]

end Declaration

/-- What one declaration became, the nested ones apart. -/
structure LowersTo (m : SymbolModel) (d : Declaration) (o : DeclarationOperation) : Prop where
  origin : o.origin = d.origin
  symbol : m.declaredSymbol d.id = some o.symbol
  value : o.value = (lowerValue m d.value).value

theorem forall₂_lowersTo_flatMap {ds : List Declaration}
    (h : ∀ d ∈ ds, ∀ o, (d.lower m).value = some o →
      List.Forall₂ (LowersTo m) (d.bound m) o.flatten) :
    List.Forall₂ (LowersTo m) (ds.flatMap (Declaration.bound m))
      ((Declaration.lowerAll m ds).value.flatMap DeclarationOperation.flatten) := by
  rw [Declaration.lowerAll_value]
  induction ds with
  | nil => exact .nil
  | cons d ds ih =>
      have ih := ih fun d' hd' => h d' (by simp [hd'])
      rw [List.flatMap_cons, List.filterMap_cons]
      cases hd : (d.lower m).value with
      | none =>
          have hnone : m.declaredSymbol d.id = none := by
            by_contra hsome
            obtain ⟨s, hs⟩ := Option.ne_none_iff_exists'.1 hsome
            rw [Declaration.lower_of_some hs] at hd
            cases hd
          rw [Declaration.bound_of_none hnone]
          exact ih
      | some o =>
          rw [List.flatMap_cons]
          exact List.rel_append (h d (by simp) o hd) ih

theorem forall₂_flatten {d : Declaration} {o : DeclarationOperation}
    (h : (d.lower m).value = some o) : List.Forall₂ (LowersTo m) (d.bound m) o.flatten := by
  induction d using Declaration.induction generalizing o with
  | step d ih =>
      cases hs : m.declaredSymbol d.id with
      | none =>
          rw [Declaration.lower_of_none hs] at h
          cases h
      | some s =>
          rw [Declaration.lower_of_some hs] at h
          obtain rfl := Option.some.inj h
          rw [Declaration.bound_of_some hs, DeclarationOperation.flatten_eq]
          exact .cons ⟨rfl, hs, rfl⟩ (forall₂_lowersTo_flatMap fun c hc o => ih c hc)

theorem lowerValue_reports_subset {d : Declaration} :
    ∀ d' ∈ d.bound m, (lowerValue m d'.value).reports ⊆ (d.lower m).reports := by
  induction d using Declaration.induction with
  | step d ih =>
      intro d' hd'
      cases hs : m.declaredSymbol d.id with
      | none => simp [Declaration.bound_of_none hs] at hd'
      | some s =>
          rw [Declaration.lower_reports_of_some hs]
          rw [Declaration.bound_of_some hs, List.mem_cons, List.mem_flatMap] at hd'
          rcases hd' with rfl | ⟨c, hc, hd'⟩
          · exact List.subset_append_left _ _
          · intro r hr
            rw [Declaration.lowerAll_reports]
            exact List.mem_append_right _ (List.mem_flatMap.2 ⟨c, hc, ih c hc d' hd' hr⟩)

/-! ## Units -/

namespace BoundProgram

variable (p : BoundProgram)

/-- The declarations of a unit that have a symbol, as have all those around
them. -/
def boundDeclarations (m : SymbolModel) : List Declaration :=
  p.declarations.flatMap (Declaration.bound m)

theorem boundDeclarations_sublist : (p.boundDeclarations m).Sublist p.allDeclarations :=
  List.Sublist.flatMap_right _ fun d _ => d.bound_sublist

/-- **The declarations of a graph**, one for each that has a symbol. -/
theorem forall₂_lowersTo :
    List.Forall₂ (LowersTo m) (p.boundDeclarations m) (p.lower m).allDeclarations :=
  forall₂_lowersTo_flatMap fun _ _ _ => forall₂_flatten

/-- What a unit reports has what its values report. -/
theorem lowerValue_reports_subset {d : Declaration} (hd : d ∈ p.boundDeclarations m) :
    (lowerValue m d.value).reports ⊆ (p.lower m).diagnostics := by
  obtain ⟨root, hroot, hd⟩ := List.mem_flatMap.1 hd
  intro r hr
  have hall : (p.lower m).diagnostics = (Declaration.lowerAll m p.declarations).reports := rfl
  rw [hall, Declaration.lowerAll_reports]
  exact List.mem_flatMap.2 ⟨root, hroot, InfraGraph.lowerValue_reports_subset d hd hr⟩

end BoundProgram

/-! ## The operations of a graph -/

/-- The surviving nodes of a declaration's value. -/
def Declaration.survivors (m : SymbolModel) (d : Declaration) : List Expr :=
  match d.value with
  | none => []
  | some value => value.survivors m

theorem Declaration.survivors_sublist (d : Declaration) :
    (d.survivors m).Sublist d.valueNodes := by
  unfold survivors valueNodes
  cases d.value with
  | none => exact List.Sublist.refl _
  | some value => exact value.survivors_sublist

theorem Declaration.preorder_subset_valueNodes {d : Declaration} {value : Expr}
    (h : d.value = some value) : value.preorder ⊆ d.valueNodes :=
  fun _ hn => mem_valueNodes.2 ⟨value, h, hn⟩

/-- The syntax nodes a graph accounts for, as operations or as brackets folded
into them. -/
def OperationGraph.accounted (g : OperationGraph) : List SyntaxId :=
  g.operations.flatMap fun op => op.id :: op.foldedAccesses

theorem OperationGraph.accounted_eq (g : OperationGraph) :
    g.accounted = g.roots.flatMap Operation.accounted := by
  rw [accounted, operations_eq, List.flatMap_assoc]
  rfl

theorem LowersTo.accounted_perm {d : Declaration} {o : DeclarationOperation}
    (h : LowersTo m d o) :
    (o.value.toList.flatMap Operation.accounted).Perm ((d.survivors m).map Expr.id) := by
  rw [h.value, Declaration.survivors]
  cases d.value with
  | none => exact List.Perm.refl _
  | some value =>
      have hlower : lowerValue m (some value) = value.lower m := rfl
      rw [hlower]
      cases hop : (value.lower m).value with
      | none =>
          dsimp only
          rw [Expr.survivors_of_fails ((lower_eq_none_iff value).1 hop)]
          exact List.Perm.refl _
      | some op => simpa using InfraGraph.accounted_perm hop

theorem accounted_perm_of_forall₂ {ds : List Declaration} {os : List DeclarationOperation}
    (h : List.Forall₂ (LowersTo m) ds os) :
    ((os.filterMap (·.value)).flatMap Operation.accounted).Perm
      ((ds.flatMap (Declaration.survivors m)).map Expr.id) := by
  induction h with
  | nil => exact List.Perm.refl _
  | @cons d o ds os h _ ih =>
      rw [List.flatMap_cons, List.map_append]
      refine List.Perm.trans (List.Perm.of_eq ?_) (h.accounted_perm.append ih)
      cases hvalue : o.value <;> simp [hvalue]

theorem exists_lowersTo {ds : List Declaration} {os : List DeclarationOperation}
    (h : List.Forall₂ (LowersTo m) ds os) {o : DeclarationOperation} (ho : o ∈ os) :
    ∃ d ∈ ds, LowersTo m d o := by
  induction h with
  | nil => cases ho
  | @cons d o' ds os h _ ih =>
      rcases List.mem_cons.1 ho with rfl | ho
      · exact ⟨d, by simp, h⟩
      · obtain ⟨d', hd', h'⟩ := ih ho
        exact ⟨d', by simp [hd'], h'⟩

namespace BoundProgram

/-- The nodes of a unit that survive. -/
def survivors (m : SymbolModel) (p : BoundProgram) : List Expr :=
  (p.boundDeclarations m).flatMap (Declaration.survivors m)

variable {p : BoundProgram}

theorem survivors_sublist : (p.survivors m).Sublist p.expressions :=
  (List.Sublist.flatMap_right _ fun d _ => d.survivors_sublist).trans
    (p.boundDeclarations_sublist.flatMap _)

/-- **The operations of a graph account for the survivors of the unit**, each
once and nothing else. -/
theorem accounted_lower_perm :
    (p.lower m).accounted.Perm ((p.survivors m).map Expr.id) := by
  rw [OperationGraph.accounted_eq]
  exact accounted_perm_of_forall₂ p.forall₂_lowersTo

/-- Where no id is reused, nothing is accounted for twice. -/
theorem nodup_accounted (h : p.reusedIds = []) : (p.lower m).accounted.Nodup := by
  rw [accounted_lower_perm.nodup_iff]
  exact (survivors_sublist.map _).nodup (nodup_expressionIds h)

theorem mem_expressions {d : Declaration} {value n : Expr} (hd : d ∈ p.allDeclarations)
    (hvalue : d.value = some value) (hn : n ∈ value.preorder) : n ∈ p.expressions :=
  List.mem_flatMap.2 ⟨d, hd, d.preorder_subset_valueNodes hvalue hn⟩

/-- An operation stands below what the value of a declaration became. -/
theorem exists_root {op : Operation} (h : op ∈ (p.lower m).operations) :
    ∃ d ∈ p.boundDeclarations m, ∃ value root, d.value = some value ∧
      (value.lower m).value = some root ∧ op ∈ root.preorder ∧
      root.preorder ⊆ (p.lower m).operations := by
  rw [OperationGraph.operations_eq] at h ⊢
  obtain ⟨root, hroot, hop⟩ := List.mem_flatMap.1 h
  obtain ⟨o, ho, hvalue⟩ := List.mem_filterMap.1 hroot
  obtain ⟨d, hd, hlowers⟩ := exists_lowersTo p.forall₂_lowersTo ho
  rw [hlowers.value] at hvalue
  cases hd' : d.value with
  | none =>
      rw [hd'] at hvalue
      cases hvalue
  | some value =>
      rw [hd'] at hvalue
      exact ⟨d, hd, value, root, hd', hvalue, hop,
        fun x hx => List.mem_flatMap.2 ⟨root, hroot, hx⟩⟩

/-- **Every reference of a graph has a source** in the unit. -/
theorem sourced_operations {op : Operation} (h : op ∈ (p.lower m).operations) :
    Sourced m p.expressions (p.lower m).diagnostics op := by
  obtain ⟨d, hd, value, root, hvalue, hroot, hop, -⟩ := exists_root h
  have hreports := p.lowerValue_reports_subset hd
  rw [hvalue] at hreports
  exact (sourced_lower hroot op hop).mono
    (fun _ => mem_expressions (p.boundDeclarations_sublist.subset hd) hvalue) hreports

/-- An operation of a graph comes from a node of the unit, and what is below
its root is in the graph as well. -/
theorem traced_operations {op : Operation} (h : op ∈ (p.lower m).operations) :
    ∃ root, Traced m p.expressions p.bracketedReferences root op ∧
      root.preorder ⊆ (p.lower m).operations := by
  obtain ⟨d, hd, value, root, hvalue, hroot, hop, hsub⟩ := exists_root h
  have hd := p.boundDeclarations_sublist.subset hd
  exact ⟨root, (traced_lower hroot op hop).mono (fun _ => mem_expressions hd hvalue)
    (fun _ => mem_bracketedReferences hd hvalue) (List.Subset.refl _), hsub⟩

/-- **What became of a reference**, if the graph has an operation for it: it was
referred to with all brackets behind it, and those that it did not use are
around the operation. -/
theorem exists_refer (h : p.reusedIds = []) {r : BracketedReference}
    (hr : r ∈ p.bracketedReferences) {x : Operation} (hx : x ∈ (p.lower m).operations)
    (hid : x.id = r.site.id) :
    ∃ symbol brackets rest, m.lookup r.name r.site.id = some symbol ∧
      r.lowered m = some brackets ∧
      (refer m r.site r.name symbol brackets).value = some (x, rest) ∧
      x.withBrackets rest ∈ (p.lower m).operations := by
  obtain ⟨root, htraced, hroot⟩ := traced_operations hx
  cases htraced with
  | @node n hn hname horigin =>
      have hnode : n = r.node := by
        refine eq_of_id_eq h hn (node_mem_expressions hr) ?_
        rw [← show x.id = n.id from congrArg Origin.id horigin, hid]
        rfl
      rw [hnode] at hname
      cases hname
  | @reference r' symbol brackets rest hr' hlookup hlowered hrefer hmem =>
      have hsite : x.id = r'.site.id := congrArg Origin.id (referred_of_refer hrefer).origin_eq
      obtain rfl := eq_of_site_eq h hr hr' (hid.symm.trans hsite)
      exact ⟨symbol, brackets, rest, hlookup, hlowered, hrefer, hroot hmem⟩

/-- An indexed reference was correlated where it stands. -/
theorem correlated_of_context {op : Operation} (hop : op ∈ (p.lower m).operations)
    {context : ReferenceContext} (hcontext : op.context? = some context) :
    ∃ symbol name brackets rest, op.symbol? = some symbol ∧
      Expr.reference op.origin name ∈ p.expressions ∧ m.lookup name op.id = some symbol ∧
      correlate m.sameLoop (m.loopsOf symbol) (m.enclosingLoops op.id) brackets =
        (some context, rest) := by
  obtain ⟨symbol, hsymbol⟩ : ∃ symbol, op.symbol? = some symbol := by
    cases op <;> first | exact ⟨_, rfl⟩ | cases hcontext
  obtain ⟨name, brackets, rest, hnode, hlookup, hrefer, -⟩ :=
    sourced_operations hop symbol hsymbol
  exact ⟨symbol, name, brackets, rest, hsymbol, hnode, hlookup,
    (referred_of_refer hrefer).correlate_eq hcontext⟩

end BoundProgram

end InfraGraph
