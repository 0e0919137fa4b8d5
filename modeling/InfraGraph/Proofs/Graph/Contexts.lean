import InfraGraph.Proofs.Graph.Declarations
import InfraGraph.Proofs.Symbol.Scopes
import InfraGraph.Scenario

/-!
# Which references have a context

A symbol has the loops that replicate it, and a reference to it has a context
that says which instance is meant.  The two go together for everything that a
name can mean, with one exception.  A parameter nested in a looped declaration
is replicated by the loops of that declaration, as everything nested in it is,
but a reference to a parameter never has a context: the brackets behind it stay
where they are, and none is missed.

## Main results

* `hasContext_iff` — which references have a context.
* `not_hasContext_iff_isLooped` — a reference to a looped symbol without one.
-/

namespace InfraGraph

/-- A reference has a context if its symbol is looped and no parameter. -/
theorem Referred.isSome_context_iff {m : SymbolModel} {site : Origin} {symbol : Symbol}
    {brackets rest : List Bracket} {op : Operation} (h : Referred m site symbol brackets op rest)
    (hvariable : symbol.kind.isLoopVariable = true → m.loopsOf symbol = []) :
    op.context?.isSome = true ↔ m.loopsOf symbol ≠ [] ∧ symbol.kind ≠ .parameter := by
  cases h with
  | parameter hkind => simp [Operation.context?, hkind]
  | loopVariable hkind =>
      have hloops : m.loopsOf symbol = [] := hvariable (by rw [hkind]; rfl)
      simp [Operation.context?, hloops]
  | @access referent context _ hreferent hcorrelate =>
      have hkind : symbol.kind ≠ .parameter := by
        intro hkind
        rw [hkind] at hreferent
        cases hreferent
      rw [Operation.context?, and_iff_left hkind]
      constructor
      · intro hcontext hloops
        rw [hloops, correlate_nil] at hcorrelate
        obtain rfl := (Prod.mk.inj hcorrelate).1
        cases hcontext
      · intro hloops
        rw [correlate_of_ne_nil hloops] at hcorrelate
        obtain rfl := (Prod.mk.inj hcorrelate).1
        rfl

namespace BoundProgram

variable {p : BoundProgram}

/-- No loop replicates the variable of a loop. -/
theorem loops_eq_nil_of_loopVariable {s : Symbol} (hs : s ∈ p.bind.symbols)
    (hkind : s.kind.isLoopVariable = true) : s.loops = [] := by
  rcases mem_entities.1 (List.mem_of_getElem? (mem_symbols.1 hs)) with ⟨d, -, heq⟩ | ⟨n, -, hv⟩
  · rw [heq, PlacedDeclaration.isLoopVariable_entity] at hkind
    cases hkind
  · obtain ⟨-, _, _, -, -, heq⟩ := Expr.mem_ownVariables.1 hv
    rw [heq]
    rfl

/-- **A reference has a context** if and only if its symbol is looped, unless
the symbol is a parameter: then it has none. -/
theorem hasContext_iff {op : Operation} (hop : op ∈ (p.lower p.bind.model).operations)
    {symbol : Symbol} (hsymbol : op.symbol? = some symbol) :
    op.context?.isSome = true ↔ symbol.isLooped = true ∧ symbol.kind ≠ .parameter := by
  obtain ⟨name, brackets, rest, -, hlookup, hrefer, -⟩ := sourced_operations hop symbol hsymbol
  have hloops : symbol.isLooped = true ↔ p.bind.model.loopsOf symbol ≠ [] := by
    rw [Symbol.isLooped, Bool.not_eq_true', List.isEmpty_eq_false_iff]
    rfl
  rw [hloops]
  exact (referred_of_refer hrefer).isSome_context_iff
    (loops_eq_nil_of_loopVariable (Binding.mem_symbols_of_lookup hlookup))

open Assembly in
/-- A looped resource with a parameter nested in it, and a list of references to
the two; the one to the resource has an index. -/
def tiered : BoundProgram :=
  let unit : Assembly BoundProgram := do
    let accounts ← declare "accounts" (.parameter .any) none
    let source ← reference "accounts"
    let body ← object []
    let value ← loop "a" none source body
    let storage ← Scenario.resource "storage" Scenario.storageType value
    let tier ← declare "tier" (.parameter .string) none
    let tiers ← reference "storage::tier"
    let all ← reference "storage"
    let zero ← int 0
    let first ← element all zero
    let both ← node (.array · [tiers, first])
    let list ← Scenario.bindVariable "list" both
    return .ofDeclarations [accounts, { storage with children := [tier] }, list]
  (unit.run 0).1

/-- The references of that list. -/
theorem tiered_references :
    (∃ op ∈ (tiered.lower tiered.bind.model).operations, ∃ symbol, op.symbol? = some symbol ∧
      symbol.kind = .parameter ∧ symbol.isLooped = true ∧ op.context? = none) ∧
    ∃ op ∈ (tiered.lower tiered.bind.model).operations, ∃ symbol, op.symbol? = some symbol ∧
      symbol.kind ≠ .parameter ∧ symbol.isLooped = true := by
  have hlength : ((tiered.lower tiered.bind.model).roots.flatMap Operation.preorder).length = 7 :=
    by decide
  rw [OperationGraph.operations_eq]
  exact ⟨⟨_, List.getElem_mem (hlength ▸ by decide : 4 < _), _, rfl, rfl, rfl, rfl⟩,
    ⟨_, List.getElem_mem (hlength ▸ by decide : 5 < _), _, rfl, by decide, rfl⟩⟩

theorem hasContext_iff_of_tiered :
    ∃ op ∈ (tiered.lower tiered.bind.model).operations, op.context?.isSome = true := by
  obtain ⟨-, op, hop, symbol, hsymbol, hkind, hlooped⟩ := tiered_references
  exact ⟨op, hop, (hasContext_iff hop hsymbol).2 ⟨hlooped, hkind⟩⟩

/-- The reference to the parameter has no context, although the loop of the
resource replicates the parameter. -/
theorem not_hasContext_iff_isLooped : ¬∀ p : BoundProgram, p.reusedIds = [] →
    ∀ op ∈ (p.lower p.bind.model).operations, ∀ symbol, op.symbol? = some symbol →
      (op.context?.isSome = true ↔ symbol.isLooped = true) := by
  intro hall
  obtain ⟨⟨op, hop, symbol, hsymbol, -, hlooped, hnone⟩, -⟩ := tiered_references
  have hcontext := (hall tiered (by decide) op hop symbol hsymbol).2 hlooped
  rw [hnone] at hcontext
  cases hcontext

end BoundProgram

end InfraGraph
