import InfraGraph.Graph.Build
import InfraGraph.Pipeline
import InfraGraph.Proofs.Graph.Declarations
import InfraGraph.Proofs.Symbol.Lookup
import InfraGraph.Scenario

/-!
# Graphs pass their check

The check of a graph is a list of uses and faults.  A graph that was lowered
has no fault on its list, whatever the unit, and what it uses is what it
accounts for.  So the only fault that is left is a node used twice, and that
needs an id that the unit has used twice.

Each check asks again what lowering has asked before: the symbol of a
reference, the loops of the symbol, and whether a missing index was reported.
`Sourced` keeps the answers.

## Main results

* `firstFault_eq_none_iff` — what it takes to have no fault.
* `checks_of_sourced`, `checks_of_lowersTo` — an operation and a declaration.
* `verify_lower` — every graph of a unit without reused ids passes.
-/

namespace InfraGraph

variable {m : SymbolModel}

/-! ## Lists of checks -/

/-- The node that a check accounts for. -/
def Check.used? : Check → Option SyntaxId
  | .uses node => some node
  | .fault _ => none

/-- There is no fault in a list of checks exactly if none is listed and every
node is used once. -/
theorem firstFault_eq_none_iff {seen : List SyntaxId} {checks : List Check} :
    firstFault seen checks = none ↔
      (∀ v, Check.fault v ∉ checks) ∧ (checks.filterMap Check.used?).Nodup ∧
        ∀ node ∈ checks.filterMap Check.used?, node ∉ seen := by
  induction checks generalizing seen with
  | nil => simp [firstFault]
  | cons check checks ih =>
      cases check with
      | fault v =>
          constructor
          · intro h
            cases h
          · rintro ⟨hfault, -⟩
            exact absurd List.mem_cons_self (hfault v)
      | uses node =>
          have hused : (Check.uses node :: checks).filterMap Check.used? =
              node :: checks.filterMap Check.used? := rfl
          rw [firstFault, hused, List.nodup_cons]
          by_cases hseen : node ∈ seen
          · rw [if_pos hseen]
            constructor
            · intro h
              cases h
            · rintro ⟨-, -, hnew⟩
              exact absurd hseen (hnew node List.mem_cons_self)
          · rw [if_neg hseen, ih]
            simp only [List.mem_cons, reduceCtorEq, false_or, not_or, forall_eq_or_imp, hseen,
              not_false_eq_true, true_and]
            constructor
            · rintro ⟨hfault, hnodup, hnew⟩
              exact ⟨hfault, ⟨fun hmem => (hnew node hmem).1 rfl, hnodup⟩, fun n hn => (hnew n hn).2⟩
            · rintro ⟨hfault, ⟨hnode, hnodup⟩, hnew⟩
              refine ⟨hfault, hnodup, fun n hn => ⟨?_, hnew n hn⟩⟩
              rintro rfl
              exact hnode hn

theorem firstFault_uses {nodes : List SyntaxId} (h : nodes.Nodup) :
    firstFault [] (nodes.map Check.uses) = none := by
  have hused : (nodes.map Check.uses).filterMap Check.used? = nodes := by
    rw [List.filterMap_map]
    exact (congrFun List.filterMap_eq_map nodes).trans (List.map_id nodes)
  rw [firstFault_eq_none_iff, hused]
  refine ⟨?_, h, fun _ _ => List.not_mem_nil⟩
  intro v hv
  obtain ⟨node, -, hnode⟩ := List.mem_map.1 hv
  cases hnode

/-! ## What lowering leaves to be checked -/

theorem checks_of_lowersTo {d : Declaration} {o : DeclarationOperation} (h : LowersTo m d o) :
    o.checks m = [] := by
  have hid : o.id = d.id := congrArg Origin.id h.origin
  rw [DeclarationOperation.checks, hid, h.symbol]
  exact if_pos rfl

theorem missingIndexReported_of_mem {reports : Diagnostics} {d : Diagnostic} {span : Span}
    (hd : d ∈ reports) (hcode : d.code = some .missingLoopIndex)
    (hposition : d.position? = some span) : missingIndexReported reports span = true := by
  rw [missingIndexReported, List.any_eq_true]
  refine ⟨d, ?_, by simp [hposition]⟩
  exact List.mem_filter.2 ⟨hd, by simp [hcode]⟩

theorem checkSymbol_of_stable (hm : m.Stable) {name : String} {node : SyntaxId} {symbol : Symbol}
    (h : m.lookup name node = some symbol) : checkSymbol m node symbol = [] := by
  rw [checkSymbol, if_pos (hm name node symbol h)]

/-- The context that `correlate` gives passes, if its missing indices were
reported. -/
theorem checkContext_of_correlate {reports : Diagnostics} {o : Origin} {symbol : Symbol}
    {context : Option ReferenceContext} {brackets rest : List Bracket}
    (hcorrelate : correlate m.sameLoop (m.loopsOf symbol) (m.enclosingLoops o.id) brackets =
      (context, rest))
    (hreported : ∀ c, context = some c → c.isUnresolved = true →
      missingIndexReported reports o.span = true) :
    checkContext m reports o symbol context =
      ((context.map fun c => c.explicitAccesses).getD []).map Check.uses := by
  cases context with
  | none =>
      have hloops : m.loopsOf symbol = [] := (eq_nil_of_correlate hcorrelate).1
      simp [checkContext, hloops]
  | some c =>
      have hloops : m.loopsOf symbol ≠ [] := by
        intro hnil
        rw [hnil, correlate_nil] at hcorrelate
        cases hcorrelate
      have hlevels : levelsMatch c (m.loopsOf symbol) = true := by
        rw [levelsMatch, (indexes_of_correlate hcorrelate).targets]
        exact beq_self_eq_true _
      have hunreported : (c.isUnresolved && !missingIndexReported reports o.span) = false := by
        cases hc : c.isUnresolved with
        | false => rfl
        | true => simp [hreported c rfl hc]
      simp [checkContext, hloops, hlevels, hunreported]

/-- A reference passes if its symbol is found again and a missing index was
reported. -/
theorem checks_of_referred {reports : Diagnostics} {site : Origin} {symbol : Symbol}
    {brackets rest : List Bracket} {op : Operation}
    (h : Referred m site symbol brackets op rest) (hsymbol : checkSymbol m site.id symbol = [])
    (hreported : ∀ c, op.context? = some c → c.isUnresolved = true →
      missingIndexReported reports site.span = true) :
    op.checks m reports = (op.id :: op.foldedAccesses).map Check.uses := by
  cases h with
  | parameter =>
      have hchecks : (Operation.parameter site symbol).checks m reports =
          .uses site.id :: checkSymbol m site.id symbol := rfl
      rw [hchecks, hsymbol]
      rfl
  | @loopVariable loop role =>
      have hchecks : (Operation.loopVariable site symbol loop role).checks m reports =
          .uses site.id :: checkSymbol m site.id symbol := rfl
      rw [hchecks, hsymbol]
      rfl
  | @access referent context _ _ hcorrelate =>
      have hchecks : (Operation.access site symbol referent context).checks m reports =
          .uses site.id ::
            (checkSymbol m site.id symbol ++ checkContext m reports site symbol context) := rfl
      rw [hchecks, hsymbol, checkContext_of_correlate hcorrelate hreported]
      rfl

/-- **An operation of known source passes**: all that is left is to use its
node and the brackets folded into it. -/
theorem checks_of_sourced (hm : m.Stable) {nodes : List Expr} {reports : Diagnostics}
    {op : Operation} (h : Sourced m nodes reports op) :
    op.checks m reports = (op.id :: op.foldedAccesses).map Check.uses := by
  cases hsymbol : op.symbol? with
  | none => cases op <;> first | rfl | cases hsymbol
  | some symbol =>
      obtain ⟨name, brackets, rest, -, hlookup, hrefer, hsub⟩ := h symbol hsymbol
      refine checks_of_referred (referred_of_refer hrefer) (checkSymbol_of_stable hm hlookup) ?_
      intro c hcontext hc
      obtain ⟨d, hd, hcode, hposition⟩ := reported_of_refer hrefer hcontext hc
      exact missingIndexReported_of_mem (hsub hd) hcode hposition

/-! ## Graphs -/

namespace BoundProgram

variable {p : BoundProgram}

/-- All that a graph is checked for is that it accounts for no node twice. -/
theorem checks_lower (hm : m.Stable) :
    (p.lower m).allDeclarations.flatMap (·.checks m)
        ++ (p.lower m).operations.flatMap (·.checks m (p.lower m).diagnostics) =
      (p.lower m).accounted.map Check.uses := by
  have hdeclarations : (p.lower m).allDeclarations.flatMap (·.checks m) = [] := by
    rw [List.flatMap_eq_nil_iff]
    intro o ho
    obtain ⟨d, -, hlowers⟩ := exists_lowersTo p.forall₂_lowersTo ho
    exact checks_of_lowersTo hlowers
  rw [hdeclarations, List.nil_append, OperationGraph.accounted, List.map_flatMap]
  refine List.flatMap_congr ?_
  intro op hop
  exact checks_of_sourced hm (sourced_operations hop)

/-- A graph of a unit without reused ids has no fault. -/
theorem verify_lower_of_stable (h : p.reusedIds = []) (hm : m.Stable) :
    (p.lower m).verify m = none := by
  rw [OperationGraph.verify, checks_lower hm]
  exact firstFault_uses (nodup_accounted h)

theorem build_of_stable (h : p.reusedIds = []) (hm : m.Stable) (options : BuildOptions) :
    p.build m options = .ok (p.lower m) := by
  rw [build, verify_lower_of_stable h hm]
  exact ite_self _

theorem compile_of_build {g : OperationGraph} (h : p.build p.bind.model .checked = .ok g) :
    p.compile =
      .ok ⟨p.bind, g, p.bind.diagnostics ++ g.diagnostics ++ g.lint .default⟩ := by
  unfold compile
  dsimp only
  rw [h]
  rfl

/-- **Every graph passes its check.**  A unit without reused ids has a graph
that passes and is built in every mode, under any model that finds its symbols
again.  The model of a unit is of that kind, so the pipeline fails on no unit
without reused ids. -/
theorem verify_lower :
    (∀ (p : BoundProgram) (m : SymbolModel), p.reusedIds = [] → m.Stable →
      (p.lower m).verify m = none ∧ ∀ options, p.build m options = .ok (p.lower m)) ∧
    (∀ p : BoundProgram, p.bind.model.Stable) ∧
    ∀ p : BoundProgram, p.reusedIds = [] →
      (p.lower p.bind.model).verify p.bind.model = none ∧
        (∀ options, p.build p.bind.model options = .ok (p.lower p.bind.model)) ∧
        ∃ c, p.compile = .ok c ∧ c.binding = p.bind ∧ c.graph = p.lower p.bind.model := by
  have hstable (p : BoundProgram) : p.bind.model.Stable := p.bind.stable_model
  refine ⟨?_, hstable, ?_⟩
  · intro p m h hm
    exact ⟨verify_lower_of_stable h hm, build_of_stable h hm⟩
  · intro p h
    refine ⟨verify_lower_of_stable h (hstable p), build_of_stable h (hstable p), ?_⟩
    exact ⟨_, compile_of_build (build_of_stable h (hstable p) .checked), rfl, rfl⟩

/-- The unit with nested loops: its references are indexed in every way, and
one of them misses an index. -/
theorem verify_lower_of_nested :
    let p := (Scenario.nested.run 0).1.program
    p.reusedIds = [] ∧ p.bind.model.Stable ∧
      (p.lower p.bind.model).verify p.bind.model = none ∧ ∃ c, p.compile = .ok c := by
  have h : (Scenario.nested.run 0).1.program.reusedIds = [] := by decide
  have hstable := verify_lower.2.1 (Scenario.nested.run 0).1.program
  obtain ⟨-, -, c, hc, -, -⟩ := verify_lower.2.2 _ h
  exact ⟨h, hstable, (verify_lower.1 _ _ h hstable).1, c, hc⟩

end BoundProgram

end InfraGraph
