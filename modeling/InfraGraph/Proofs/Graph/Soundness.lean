import InfraGraph.Proofs.Graph.Verification

/-!
# What the check of a graph finds

The check stops at the first fault, and at a reference whose context is not
that of its symbol it does not look at the brackets in the context.  So it is
not plain that a graph that passes has nothing wrong with it, nor that the
fault it gives is the first there is: a bracket that was passed over might be
what a later node collides with.

Here everything that is wrong is listed, for any graph and any model.  Nothing
is passed over: at every operation all conditions are looked at, and all nodes
of the operations before it count as used.  The check gives the first entry of
that list, and the list is empty exactly if the graph is sound.

## Main definitions

* `OperationGraph.Sound` — what a graph has to satisfy under a model.
* `OperationGraph.violations` — all that is wrong with a graph, declarations
  first and then operations, each before its children.

## Main results

* `firstFault_checks`, `firstFault_flatMap_checks` — one operation, and a run
  over operations: nothing is hidden by what the check passes over.
* `violations_eq_nil_iff` — nothing is wrong exactly if the graph is sound.
* `verify_exact` — the check gives the first violation of a graph.
-/

namespace InfraGraph

/-! ## Sound graphs -/

/-- A graph that fits a model. -/
structure OperationGraph.Sound (g : OperationGraph) (m : SymbolModel) : Prop where
  /-- A declaration, nested or not, holds the symbol that the model has for
  it. -/
  declared : ∀ d ∈ g.allDeclarations, (m.declaredSymbol d.id).map (·.id) = some d.symbol.id
  /-- The symbol of a reference is found again where the reference stands. -/
  found : ∀ op ∈ g.operations, ∀ symbol, op.symbol? = some symbol →
    (m.lookup symbol.name op.id).map (·.id) = some symbol.id
  /-- No node is accounted for twice, be it as an operation or as a bracket in a
  context. -/
  distinct : g.accounted.Nodup
  /-- A reference to a resource, a module or a variable has a context exactly if
  loops replicate the symbol. -/
  hasContext : ∀ o symbol referent context,
    .access o symbol referent context ∈ g.operations →
      (context.isSome = true ↔ m.loopsOf symbol ≠ [])
  /-- A context has one level for every loop of the symbol, in order. -/
  levels : ∀ o symbol referent context,
    .access o symbol referent (some context) ∈ g.operations →
      context.levels.map (·.target) = (m.loopsOf symbol).map (·.id)
  /-- An index that is missing was reported where the reference stands. -/
  reported : ∀ op ∈ g.operations, ∀ context, op.context? = some context →
    context.isUnresolved = true →
      ∃ d ∈ g.diagnostics, d.code = some .missingLoopIndex ∧ d.position? = some op.span

/-! ## All that is wrong -/

/-- The faults of some nodes when the nodes `used` are accounted for already:
one for every node that was there before. -/
def duplicates (used nodes : List SyntaxId) : List Violation :=
  (repeatsAfter (fun node => node) used nodes).map .duplicateSyntax

section

variable (m : SymbolModel) (reports : Diagnostics)

/-- What is wrong with the symbol of a declaration. -/
def DeclarationOperation.violations (d : DeclarationOperation) : List Violation :=
  if (m.declaredSymbol d.id).map (·.id) = some d.symbol.id then []
  else [.danglingSymbol d.id d.symbol.name]

namespace Operation

/-- What is wrong with the symbol of an operation, if it has one. -/
def symbolViolations (op : Operation) : List Violation :=
  match op.symbol? with
  | none => []
  | some symbol =>
    if (m.lookup symbol.name op.id).map (·.id) = some symbol.id then []
    else [.danglingSymbol op.id symbol.name]

/-- What is wrong with the levels of a reference, or with its having none. -/
def levelViolations : Operation → List Violation
  | .access o symbol _ none =>
    if m.loopsOf symbol = [] then [] else [.missingIndexContext o.id symbol.name]
  | .access o symbol _ (some context) =>
    if m.loopsOf symbol = [] then [.unexpectedIndexContext o.id symbol.name]
    else if context.levels.map (·.target) = (m.loopsOf symbol).map (·.id) then []
    else
      [.levelMismatch o.id symbol.name (m.loopsOf symbol).length context.levels.length]
  | _ => []

/-- What is wrong with the reports on the index of a reference. -/
def reportViolations : Operation → List Violation
  | .access o symbol _ (some context) =>
    if context.isUnresolved = true ∧ ¬∃ d ∈ reports,
        d.code = some .missingLoopIndex ∧ d.position? = some o.span then
      [.unreportedUnresolvedIndex o.id symbol.name]
    else []
  | _ => []

/-- All that is wrong at an operation, when the nodes `used` are accounted for
already. -/
def violations (used : List SyntaxId) (op : Operation) : List Violation :=
  duplicates used [op.id] ++ op.symbolViolations m ++ op.levelViolations m ++
    duplicates (used ++ [op.id]) op.foldedAccesses ++ op.reportViolations reports

/-- All that is wrong at some operations, one after the other. -/
def violationsAll (used : List SyntaxId) : List Operation → List Violation
  | [] => []
  | op :: rest =>
    op.violations m reports used ++ violationsAll (used ++ op.id :: op.foldedAccesses) rest

end Operation

/-- All that is wrong with a graph: first with its declarations, then with its
operations, each before its children. -/
def OperationGraph.violations (g : OperationGraph) : List Violation :=
  g.allDeclarations.flatMap (·.violations m) ++
    Operation.violationsAll m g.diagnostics [] (g.roots.flatMap Operation.preorder)

end

/-! ## Checks in order -/

/-- Which nodes were used before matters, and not in which order. -/
theorem firstFault_congr {seen seen' : List SyntaxId} (h : ∀ node, node ∈ seen ↔ node ∈ seen')
    (checks : List Check) : firstFault seen checks = firstFault seen' checks := by
  induction checks generalizing seen seen' with
  | nil => rfl
  | cons check checks ih =>
      cases check with
      | fault v => rfl
      | uses node =>
          rw [firstFault, firstFault]
          refine if_congr (h node) rfl (ih fun other => ?_)
          rw [List.mem_cons, List.mem_cons, h other]

/-- The first of some faults comes before anything behind them. -/
theorem firstFault_faults (seen : List SyntaxId) (vs : List Violation) (checks : List Check) :
    firstFault seen (vs.map .fault ++ checks) = vs.head?.or (firstFault seen checks) := by
  cases vs <;> rfl

/-- So does the first of some nodes that is used for the second time. -/
theorem firstFault_uses_append (seen nodes : List SyntaxId) (checks : List Check) :
    firstFault seen (nodes.map .uses ++ checks) =
      (duplicates seen nodes).head?.or (firstFault (seen ++ nodes) checks) := by
  induction nodes generalizing seen with
  | nil => rw [List.append_nil]; rfl
  | cons node nodes ih =>
      rw [List.map_cons, List.cons_append, firstFault, duplicates, repeatsAfter]
      by_cases hseen : node ∈ seen
      · rw [if_pos hseen, if_pos hseen]
        rfl
      · rw [if_neg hseen, if_neg hseen, ih, duplicates]
        refine congrArg _ (firstFault_congr (fun other => ?_) checks)
        simp [or_left_comm]

section

variable {m : SymbolModel} {reports : Diagnostics}

theorem missingIndexReported_iff {span : Span} :
    missingIndexReported reports span = true ↔
      ∃ d ∈ reports, d.code = some .missingLoopIndex ∧ d.position? = some span := by
  simp [missingIndexReported, Diagnostics.withCode]

theorem checkSymbol_eq (op : Operation) (symbol : Symbol) (h : op.symbol? = some symbol) :
    checkSymbol m op.id symbol = (op.symbolViolations m).map .fault := by
  rw [checkSymbol, Operation.symbolViolations, h]
  dsimp only
  split <;> rfl

/-- What is checked at a context: its levels, and only if these are right, its
brackets and the report on it. -/
theorem checkContext_eq (o : Origin) (symbol : Symbol) (referent : Referent)
    (context : Option ReferenceContext) :
    let op := Operation.access o symbol referent context
    checkContext m reports o symbol context =
      if op.levelViolations m = [] then
        op.foldedAccesses.map .uses ++ (op.reportViolations reports).map .fault
      else (op.levelViolations m).map .fault := by
  cases context with
  | none =>
      by_cases hloops : m.loopsOf symbol = [] <;>
        simp [checkContext, Operation.levelViolations, Operation.reportViolations,
          Operation.foldedAccesses, Operation.context?, hloops]
  | some context =>
      by_cases hloops : m.loopsOf symbol = []
      · simp [checkContext, Operation.levelViolations, hloops]
      · by_cases hlevels : context.levels.map (·.target) = (m.loopsOf symbol).map (·.id)
        · have hreport := @missingIndexReported_iff reports o.span
          have hmissing : (context.isUnresolved && !missingIndexReported reports o.span) = true ↔
              context.isUnresolved = true ∧
                ¬∃ d ∈ reports, d.code = some .missingLoopIndex ∧ d.position? = some o.span := by
            rw [Bool.and_eq_true, Bool.not_eq_true', ← hreport, Bool.not_eq_true]
          simp only [checkContext, Operation.levelViolations, levelsMatch, hlevels, hloops,
            List.isEmpty_iff, beq_self_eq_true, if_false, if_true, Operation.foldedAccesses,
            Operation.context?, Option.map_some, Option.getD_some, Operation.reportViolations,
            hmissing]
          refine congrArg _ ?_
          split <;> rfl
        · simp [checkContext, Operation.levelViolations, levelsMatch, hloops, hlevels]

/-- What is checked at an operation: its node, its symbol, its levels, and only
if these are right, its brackets and the report on it. -/
theorem checks_eq (op : Operation) :
    op.checks m reports = .uses op.id :: ((op.symbolViolations m).map .fault ++
      (if op.levelViolations m = [] then
        op.foldedAccesses.map .uses ++ (op.reportViolations reports).map .fault
      else (op.levelViolations m).map .fault)) := by
  cases op with
  | access o symbol referent context =>
      refine congrArg (Check.uses o.id :: ·) ?_
      exact congrArg₂ (· ++ ·) (checkSymbol_eq (.access o symbol referent context) symbol rfl)
        (checkContext_eq o symbol referent context)
  | parameter o symbol =>
      refine congrArg (Check.uses o.id :: ·) ?_
      exact (checkSymbol_eq (.parameter o symbol) symbol rfl).trans (List.append_nil _).symm
  | loopVariable o symbol loop role =>
      refine congrArg (Check.uses o.id :: ·) ?_
      exact (checkSymbol_eq (.loopVariable o symbol loop role) symbol rfl).trans
        (List.append_nil _).symm
  | _ => rfl

/-- **One operation**: the check gives the first of all its violations.  What
it passes over at a reference lies behind a violation that it does not. -/
theorem firstFault_checks (seen : List SyntaxId) (op : Operation) (rest : List Check) :
    firstFault seen (op.checks m reports ++ rest) =
      (op.violations m reports seen).head?.or
        (firstFault (seen ++ op.id :: op.foldedAccesses) rest) := by
  have huses := firstFault_uses_append seen [op.id]
  rw [checks_eq, Operation.violations]
  simp only [List.map_cons, List.map_nil, List.singleton_append] at huses
  rw [List.cons_append, huses, List.append_assoc, firstFault_faults]
  simp only [List.head?_append, Option.or_assoc]
  refine congrArg _ (congrArg _ ?_)
  by_cases hlevels : op.levelViolations m = []
  · rw [if_pos hlevels, hlevels, List.append_assoc, firstFault_uses_append, firstFault_faults,
      List.append_assoc]
    rfl
  · rw [if_neg hlevels, firstFault_faults]
    obtain ⟨v, vs, hvs⟩ := List.exists_cons_of_ne_nil hlevels
    rw [hvs]
    rfl

/-- **A run over operations**: the check gives the first of all their
violations. -/
theorem firstFault_flatMap_checks (seen : List SyntaxId) (ops : List Operation) :
    firstFault seen (ops.flatMap (·.checks m reports)) =
      (Operation.violationsAll m reports seen ops).head? := by
  induction ops generalizing seen with
  | nil => rfl
  | cons op ops ih =>
      rw [List.flatMap_cons, firstFault_checks, ih, Operation.violationsAll, List.head?_append]

theorem DeclarationOperation.checks_eq (d : DeclarationOperation) :
    d.checks m = (d.violations m).map .fault := by
  rw [checks, violations]
  split <;> rfl

/-! ## Nothing wrong -/

theorem duplicates_eq_nil_iff {used nodes : List SyntaxId} :
    duplicates used nodes = [] ↔ nodes.Nodup ∧ ∀ node ∈ nodes, node ∉ used := by
  rw [duplicates, List.map_eq_nil_iff, repeatsAfter_eq_nil_iff, List.map_id']

/-- Nodes are accounted for once if the first of them are, and then the others. -/
theorem duplicates_append_eq_nil_iff {used nodes others : List SyntaxId} :
    duplicates used (nodes ++ others) = [] ↔
      duplicates used nodes = [] ∧ duplicates (used ++ nodes) others = [] := by
  simp only [duplicates_eq_nil_iff, List.nodup_append', List.mem_append, List.disjoint_left]
  grind

theorem DeclarationOperation.violations_eq_nil_iff {d : DeclarationOperation} :
    d.violations m = [] ↔ (m.declaredSymbol d.id).map (·.id) = some d.symbol.id := by
  rw [violations]
  split <;> simp [*]

namespace Operation

theorem symbolViolations_eq_nil_iff {op : Operation} :
    op.symbolViolations m = [] ↔ ∀ symbol, op.symbol? = some symbol →
      (m.lookup symbol.name op.id).map (·.id) = some symbol.id := by
  rw [symbolViolations]
  cases op.symbol? with
  | none => simp
  | some symbol => simp

theorem levelViolations_access_eq_nil_iff {o : Origin} {symbol : Symbol} {referent : Referent}
    {context : Option ReferenceContext} :
    (access o symbol referent context).levelViolations m = [] ↔
      (context.isSome = true ↔ m.loopsOf symbol ≠ []) ∧
      ∀ c, context = some c → c.levels.map (·.target) = (m.loopsOf symbol).map (·.id) := by
  cases context with
  | none => simp [levelViolations]
  | some context =>
      by_cases hloops : m.loopsOf symbol = [] <;> simp [levelViolations, hloops]

/-- The levels of a reference are right if it has a context exactly when loops
replicate its symbol, and then one level for every loop. -/
theorem levelViolations_eq_nil_iff {op : Operation} :
    op.levelViolations m = [] ↔
      (∀ o symbol referent context, op = .access o symbol referent context →
        (context.isSome = true ↔ m.loopsOf symbol ≠ [])) ∧
      ∀ o symbol referent context, op = .access o symbol referent (some context) →
        context.levels.map (·.target) = (m.loopsOf symbol).map (·.id) := by
  cases op with
  | access o symbol referent context =>
      rw [levelViolations_access_eq_nil_iff]
      constructor
      · rintro ⟨hcontext, hlevels⟩
        refine ⟨?_, ?_⟩
        · rintro _ _ _ _ ⟨⟩
          exact hcontext
        · rintro _ _ _ c ⟨⟩
          exact hlevels c rfl
      · rintro ⟨hcontext, hlevels⟩
        refine ⟨hcontext o symbol referent context rfl, ?_⟩
        rintro c rfl
        exact hlevels o symbol referent c rfl
  | _ => simp [levelViolations]

theorem reportViolations_eq_nil_iff {op : Operation} :
    op.reportViolations reports = [] ↔ ∀ context, op.context? = some context →
      context.isUnresolved = true →
        ∃ d ∈ reports, d.code = some .missingLoopIndex ∧ d.position? = some op.span := by
  cases op with
  | access o symbol referent context =>
      cases context with
      | none => simp [reportViolations, context?]
      | some context => simp [reportViolations, context?, span, origin]
  | _ => simp [reportViolations, context?]

/-- Nothing is wrong with some operations exactly if nothing is wrong with any
of them and no node is accounted for twice. -/
theorem violationsAll_eq_nil_iff {used : List SyntaxId} {ops : List Operation} :
    violationsAll m reports used ops = [] ↔
      (∀ op ∈ ops, op.symbolViolations m = [] ∧ op.levelViolations m = [] ∧
        op.reportViolations reports = []) ∧
      duplicates used (ops.flatMap fun op => op.id :: op.foldedAccesses) = [] := by
  induction ops generalizing used with
  | nil => simp [violationsAll, duplicates, repeatsAfter]
  | cons op ops ih =>
      have hone : op.id :: op.foldedAccesses = [op.id] ++ op.foldedAccesses := rfl
      rw [violationsAll, List.append_eq_nil_iff, ih, List.flatMap_cons,
        duplicates_append_eq_nil_iff, hone, duplicates_append_eq_nil_iff, violations,
        List.forall_mem_cons]
      simp only [List.append_eq_nil_iff]
      tauto

end Operation

namespace OperationGraph

/-- **Nothing is wrong with a graph exactly if it is sound.** -/
theorem violations_eq_nil_iff {g : OperationGraph} : g.violations m = [] ↔ g.Sound m := by
  rw [violations, ← operations_eq, List.append_eq_nil_iff, List.flatMap_eq_nil_iff,
    Operation.violationsAll_eq_nil_iff, duplicates_eq_nil_iff]
  simp only [DeclarationOperation.violations_eq_nil_iff, Operation.symbolViolations_eq_nil_iff,
    Operation.levelViolations_eq_nil_iff, Operation.reportViolations_eq_nil_iff]
  constructor
  · rintro ⟨hdeclared, hops, hdistinct, -⟩
    refine ⟨hdeclared, fun op hop => (hops op hop).1, hdistinct, ?_, ?_, ?_⟩
    · intro o symbol referent context hop
      exact (hops _ hop).2.1.1 o symbol referent context rfl
    · intro o symbol referent context hop
      exact (hops _ hop).2.1.2 o symbol referent context rfl
    · exact fun op hop => (hops op hop).2.2
  · intro h
    refine ⟨h.declared, fun op hop => ⟨h.found op hop, ⟨?_, ?_⟩, h.reported op hop⟩,
      h.distinct, fun _ _ => List.not_mem_nil⟩
    · rintro o symbol referent context rfl
      exact h.hasContext o symbol referent context hop
    · rintro o symbol referent context rfl
      exact h.levels o symbol referent context hop

instance (g : OperationGraph) (m : SymbolModel) : Decidable (g.Sound m) :=
  decidable_of_iff _ violations_eq_nil_iff

/-- The check gives the first violation. -/
theorem verify_eq_head? (g : OperationGraph) : g.verify m = (g.violations m).head? := by
  have hdeclarations : g.allDeclarations.flatMap (·.checks m) =
      (g.allDeclarations.flatMap (·.violations m)).map .fault := by
    rw [List.map_flatMap]
    exact List.flatMap_congr fun d _ => d.checks_eq
  rw [verify, hdeclarations, firstFault_faults, firstFault_flatMap_checks, operations_eq,
    violations, List.head?_append]

end OperationGraph

end

/-- **The check of a graph is exact.**  For every graph and every model, nothing
is found exactly if the graph is sound; and what is found otherwise is the
first of all violations, those of the declarations before those of the
operations and those of an operation before those of its children. -/
theorem OperationGraph.verify_exact (g : OperationGraph) (m : SymbolModel) :
    (g.verify m = none ↔ g.Sound m) ∧ g.verify m = (g.violations m).head? := by
  refine ⟨?_, g.verify_eq_head?⟩
  rw [g.verify_eq_head?, List.head?_eq_none_iff, violations_eq_nil_iff]

-- The graph of a unit is sound; with its declarations twice over, every node is
-- accounted for once more, and the first of them is that of the copy loop.
example :
    let p := (Scenario.small.run 0).1.program
    let g := p.lower p.bind.model
    let twice : OperationGraph := { g with declarations := g.declarations ++ g.declarations }
    g.Sound p.bind.model ∧ (twice.violations p.bind.model).length = 8 ∧
      (twice.violations p.bind.model).head? = some (.duplicateSyntax ⟨4⟩) := by
  decide

end InfraGraph
