import InfraGraph.Proofs.Graph.Reports
import InfraGraph.Proofs.Tree.Erasure

/-!
# Restoring a unit

Raised again, the value of a declaration is what it was less the entries that
have failed.  What fails is reported, so of a unit without reports on names and
outputs nothing has failed, and pruning leaves every value as it is.

Only the spans of the brackets folded into contexts are nowhere in the graph.
`Operation.raise` asks for them; whichever it is given, it puts them at these
brackets and at no other node.  So one function restores every unit without
such reports up to the spans of its folded brackets.

## Main results

* `not_fails_of_keepsAll` — where nothing was reported, nothing has failed.
* `prune_eq_self` — where nothing has failed, nothing is pruned.
* `raise_eq_mapOrigin` — what the spans given to `raise` are good for.
* `restores_lower` — a unit is restored from its graph.
-/

namespace InfraGraph

variable {m : SymbolModel}

/-! ## Nothing fails without a report -/

theorem not_fails_of_keepsAll_lower {e : Expr} (h : Diagnostics.KeepsAll (e.lower m).reports) :
    e.fails m = false := by
  obtain ⟨op, hop⟩ := Option.isSome_iff_exists.1 (isSome_lower_of_keepsAll h)
  exact not_fails_of_lower hop

/-- Where nothing was reported on the parts of an expression that does not
fail, none of its nodes fails. -/
theorem not_fails_of_keepsAll {e : Expr} (h : Diagnostics.KeepsAll (e.spine m).reports)
    (he : e.fails m = false) : ∀ n ∈ e.preorder, n.fails m = false := by
  induction e using Expr.induction with
  | step e ih =>
      have hchildren : ∀ c ∈ e.children, Diagnostics.KeepsAll (c.spine m).reports ∧
          c.fails m = false := by
        by_cases hplain : e.isPlain = true
        · rw [spine_plain_reports hplain, keepsAll_flatMap] at h
          intro c hc
          have hlower := h c hc
          refine ⟨?_, not_fails_of_keepsAll_lower hlower⟩
          rw [lower_reports, keepsAll_append] at hlower
          exact hlower.1
        · cases e with
          | reference o name => exact fun c hc => absurd hc List.not_mem_nil
          | element o base index =>
              rw [spine_element_reports, keepsAll_append] at h
              rw [Expr.fails_element, Bool.or_eq_false_iff] at he
              have hindex := h.2
              rw [lower_reports, keepsAll_append] at hindex
              intro c hc
              simp only [Expr.children, List.mem_cons, List.not_mem_nil, or_false] at hc
              rcases hc with rfl | rfl
              · exact ⟨h.1, he.1⟩
              · exact ⟨hindex.1, he.2⟩
          | _ => exact absurd rfl hplain
      rw [Expr.preorder_eq]
      intro n hn
      rcases List.mem_cons.1 hn with rfl | hn
      · exact he
      · obtain ⟨c, hc, hn⟩ := List.mem_flatMap.1 hn
        exact ih c hc (hchildren c hc).1 (hchildren c hc).2 n hn

/-! ## Nothing to prune -/

/-- Where nothing has failed, nothing is pruned. -/
theorem Expr.prune_eq_self {e : Expr} (h : ∀ n ∈ e.preorder, n.fails m = false) :
    e.prune m = e := by
  induction e using Expr.induction with
  | step e ih =>
      have hself (c : Expr) (hc : c ∈ e.children) : c.prune m = c :=
        ih c hc fun n hn => h n (preorder_subset_of_mem_children hc hn)
      have hkept (c : Expr) (hc : c ∈ e.children) : (!c.fails m) = true := by
        rw [h c (preorder_subset_of_mem_children hc (by simp [preorder_eq c])), Bool.not_false]
      cases e with
      | literal | reference => rfl
      | interpolation _ _ parts | call _ _ parts =>
          have hself : ∀ c ∈ parts, c.prune m = c := hself
          rw [prune, pruneAll_eq, map_eq_self hself]
      | array o items =>
          have hself : ∀ c ∈ items, c.prune m = c := hself
          have hitems : items.filter (fun c => !c.fails m) = items := List.filter_eq_self.2 hkept
          rw [prune, pruneItems_eq, hitems, map_eq_self hself]
      | object o entries =>
          have hvalue (entry : String × Expr) (hentry : entry ∈ entries) :
              entry.2 ∈ (Expr.object o entries).children := List.mem_map_of_mem hentry
          have hentries : entries.filter (fun entry => !entry.2.fails m) = entries :=
            List.filter_eq_self.2 fun entry hentry => hkept _ (hvalue entry hentry)
          rw [prune, pruneEntries_eq, hentries,
            map_eq_self fun entry hentry => by rw [hself _ (hvalue entry hentry)]]
      | _ =>
          simp only [children, List.forall_mem_cons] at hself
          simp only [prune, hself]

/-! ## Spans of folded brackets -/

/-- Another span for the nodes of some ids. -/
def Origin.respan (nodes : List SyntaxId) (spans : SyntaxId → Span) (o : Origin) : Origin :=
  if o.id ∈ nodes then ⟨o.id, spans o.id⟩ else o

/-- The brackets that are folded into the contexts of a graph. -/
def OperationGraph.foldedAccesses (g : OperationGraph) : List SyntaxId :=
  g.operations.flatMap Operation.foldedAccesses

namespace Operation

variable {spans spans' : SyntaxId → Span} {folded : List SyntaxId}

theorem mapOrigin_raiseBrackets {base : Expr} {brackets : List (SyntaxId × Operation)}
    (hfolded : ∀ b ∈ brackets, b.1 ∈ folded)
    (hindices : ∀ b ∈ brackets, b.2.raise spans' =
      (b.2.raise spans).mapOrigin (Origin.respan folded spans')) :
    raiseBrackets spans' (base.mapOrigin (Origin.respan folded spans')) brackets =
      (raiseBrackets spans base brackets).mapOrigin (Origin.respan folded spans') := by
  induction brackets generalizing base with
  | nil => rfl
  | cons b brackets ih =>
      obtain ⟨hb, hbrackets⟩ := List.forall_mem_cons.1 hfolded
      obtain ⟨hindex, hindices⟩ := List.forall_mem_cons.1 hindices
      have helement : (Expr.element ⟨b.1, spans' b.1⟩
            (base.mapOrigin (Origin.respan folded spans')) (b.2.raise spans')) =
          (Expr.element ⟨b.1, spans b.1⟩ base (b.2.raise spans)).mapOrigin
            (Origin.respan folded spans') := by
        rw [Expr.mapOrigin, Origin.respan, if_pos hb, hindex]
      show raiseBrackets spans' (.element _ _ _) brackets = _
      rw [helement]
      exact ih hbrackets hindices

theorem raise_access (o : Origin) (symbol : Symbol) (referent : Referent)
    (context : ReferenceContext) :
    (access o symbol referent (some context)).raise spans =
      raiseBrackets spans (.reference o symbol.name) context.brackets := by
  obtain ⟨levels⟩ := context
  exact raiseLevels_eq _ _

/-- The spans given to `raise` are put at the folded brackets and nowhere
else. -/
theorem raise_eq_mapOrigin {op : Operation}
    (h : ∀ x ∈ op.preorder, x.id ∉ folded ∧ ∀ a ∈ x.foldedAccesses, a ∈ folded) :
    op.raise spans' = (op.raise spans).mapOrigin (Origin.respan folded spans') := by
  induction op using Operation.induction with
  | step op ih =>
      rw [preorder_eq, List.forall_mem_cons] at h
      obtain ⟨⟨hid, hfolded⟩, h⟩ := h
      have ih (c : Operation) (hc : c ∈ op.children) :
          c.raise spans' = (c.raise spans).mapOrigin (Origin.respan folded spans') :=
        ih c hc fun x hx => h x (List.mem_flatMap.2 ⟨c, hc, hx⟩)
      have horigin (o : Origin) (ho : op.origin = o) : o.respan folded spans' = o := by
        subst ho
        exact if_neg hid
      cases op with
      | access o symbol referent context =>
          have hreference : Expr.reference o symbol.name =
              (Expr.reference o symbol.name).mapOrigin (Origin.respan folded spans') := by
            rw [Expr.mapOrigin, horigin o rfl]
          cases context with
          | none => exact hreference
          | some context =>
              rw [raise_access, raise_access, ← mapOrigin_raiseBrackets, ← hreference]
              · exact fun b hb => hfolded b.1 (List.mem_map_of_mem hb)
              · exact fun b hb => ih b.2 (List.mem_map_of_mem hb)
      | interpolation o | call o | array o =>
          rw [raise, raise, raiseAll_eq, raiseAll_eq, Expr.mapOrigin, Expr.mapOriginAll_eq,
            List.map_map, horigin o rfl]
          exact congrArg _ (List.map_congr_left ih)
      | object o entries =>
          rw [raise, raise, raiseEntries_eq, raiseEntries_eq, Expr.mapOrigin,
            Expr.mapOriginEntries_eq, List.map_map, horigin o rfl]
          refine congrArg _ (List.map_congr_left fun entry hentry => ?_)
          exact congrArg _ (ih entry.2 (List.mem_map_of_mem hentry))
      | _ =>
          simp only [children, List.forall_mem_cons] at ih
          simp only [origin, forall_eq'] at horigin
          simp only [raise, Expr.mapOrigin, horigin, ih]

end Operation

/-! ## Units -/

/-- What a declaration looks like in a graph that it can be restored from: the
same node, a value that is raised to the value of the declaration, but for the
spans of some brackets, and the nested declarations at their places. -/
inductive Declaration.RestoredFrom (folded : List SyntaxId) (spans : SyntaxId → Span) :
    Declaration → DeclarationOperation → Prop
  | intro {d : Declaration} {o : DeclarationOperation} :
      o.origin = d.origin →
      o.value.map (Operation.raise spans) =
        d.value.map (Expr.mapOrigin (Origin.respan folded spans)) →
      List.Forall₂ (RestoredFrom folded spans) d.children o.children →
      RestoredFrom folded spans d o

/-- A folded bracket is no operation of its own. -/
theorem OperationGraph.not_mem_foldedAccesses {g : OperationGraph} (h : g.accounted.Nodup)
    {x : Operation} (hx : x ∈ g.operations) : x.id ∉ g.foldedAccesses := by
  have hperm := List.map_append_flatMap_perm g.operations Operation.id Operation.foldedAccesses
  have hnodup := hperm.nodup_iff.2 h
  rw [List.nodup_append] at hnodup
  exact fun hfolded => hnodup.2.2 x.id (List.mem_map_of_mem hx) x.id hfolded rfl

namespace BoundProgram

variable {p : BoundProgram}

/-- The value of a declaration is restored if nothing was reported that leaves
anything out. -/
theorem restored_lowerValue (h : p.reusedIds = [])
    (hkeeps : Diagnostics.KeepsAll (p.lower p.bind.model).diagnostics)
    (spans : SyntaxId → Span) {d : Declaration} (hd : d ∈ p.allDeclarations) :
    (lowerValue p.bind.model d.value).value.map (Operation.raise spans) =
      d.value.map (Expr.mapOrigin
        (Origin.respan (p.lower p.bind.model).foldedAccesses spans)) := by
  rw [diagnostics_lower h, keepsAll_flatMap] at hkeeps
  have hkeeps := hkeeps d hd
  cases hvalue : d.value with
  | none => rfl
  | some value =>
      rw [hvalue] at hkeeps
      have hkeeps : Diagnostics.KeepsAll (value.lower p.bind.model).reports := hkeeps
      obtain ⟨op, hop⟩ := Option.isSome_iff_exists.1 (isSome_lower_of_keepsAll hkeeps)
      have hraise : op.raise p.spanOf = value := by
        rw [raise_lower p.bind.keepsNames_model
          (fun n hn => spanOf_eq h (mem_expressions hd hvalue hn)) hop]
        rw [lower_reports, keepsAll_append] at hkeeps
        exact Expr.prune_eq_self (not_fails_of_keepsAll hkeeps.1 (not_fails_of_lower hop))
      have hroot : op ∈ (p.lower p.bind.model).roots := by
        rw [roots_lower h]
        exact List.mem_filterMap.2 ⟨d, hd, by rw [hvalue]; exact hop⟩
      have hlower : lowerValue p.bind.model (some value) = value.lower p.bind.model := rfl
      rw [hlower, hop, Option.map_some, Option.map_some, ← hraise]
      refine congrArg some (Operation.raise_eq_mapOrigin fun x hx => ?_)
      have hx : x ∈ (p.lower p.bind.model).operations := by
        rw [OperationGraph.operations_eq]
        exact List.mem_flatMap.2 ⟨op, hroot, hx⟩
      exact ⟨OperationGraph.not_mem_foldedAccesses (nodup_accounted h) hx,
        fun a ha => List.mem_flatMap.2 ⟨x, hx, ha⟩⟩

theorem restoredFrom_lower (h : p.reusedIds = [])
    (hkeeps : Diagnostics.KeepsAll (p.lower p.bind.model).diagnostics)
    (spans : SyntaxId → Span) {d : Declaration} (hd : d.flatten ⊆ p.allDeclarations) :
    ∃ o, (d.lower p.bind.model).value = some o ∧
      d.RestoredFrom (p.lower p.bind.model).foldedAccesses spans o := by
  induction d using Declaration.induction with
  | step d ih =>
      have hmem : d ∈ p.allDeclarations := hd d.mem_flatten_self
      have ih (c : Declaration) (hc : c ∈ d.children) := ih c hc fun d' hd' =>
        hd (Declaration.flatten_subset_of_mem_children hc hd')
      obtain ⟨s, -, hs, -⟩ := exists_declaredSymbol h hmem
      exact ⟨_, Declaration.lower_of_some hs, rfl, restored_lowerValue h hkeeps spans hmem,
        forall₂_lowerAll ih⟩

/-- **A unit is restored from its graph** if no name was reported as unknown and
no reference to an output.  Every declaration is at its place, and its value
is raised to the value that it had, whichever spans the folded brackets are
given. -/
theorem restores_lower (h : p.reusedIds = [])
    (hunknown : (p.lower p.bind.model).diagnostics.withCode .unknownSymbol = [])
    (houtput : (p.lower p.bind.model).diagnostics.withCode .outputReference = [])
    (spans : SyntaxId → Span) :
    List.Forall₂ (Declaration.RestoredFrom (p.lower p.bind.model).foldedAccesses spans)
      p.declarations (p.lower p.bind.model).declarations := by
  refine forall₂_lowerAll fun d hd => restoredFrom_lower h ⟨hunknown, houtput⟩ spans ?_
  intro d' hd'
  exact List.mem_flatMap.2 ⟨d, hd, hd'⟩

/-- The unit with nested loops is restored, although a bracket is folded into
one of its references. -/
theorem restores_lower_of_nested :
    let p := (Scenario.nested.run 0).1.program
    p.reusedIds = [] ∧ (p.lower p.bind.model).foldedAccesses = [⟨22⟩] ∧
      List.Forall₂ (Declaration.RestoredFrom [⟨22⟩] fun _ => default) p.declarations
        (p.lower p.bind.model).declarations := by
  have h : (Scenario.nested.run 0).1.program.reusedIds = [] := by decide
  have hfolded : ((Scenario.nested.run 0).1.program.lower
      (Scenario.nested.run 0).1.program.bind.model).foldedAccesses = [⟨22⟩] := by
    rw [OperationGraph.foldedAccesses, OperationGraph.operations, Operation.drain_eq]
    decide
  have hrestored := restores_lower h (by decide) (by decide) fun _ => default
  rw [hfolded] at hrestored
  exact ⟨h, hfolded, hrestored⟩

end BoundProgram

end InfraGraph
