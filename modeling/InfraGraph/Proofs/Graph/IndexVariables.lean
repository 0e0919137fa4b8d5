import InfraGraph.Proofs.Graph.Containment

/-!
# Index variables of substituted loops

An implicit index names its loop by id, and gives the index variable of the
loop besides if there is one.  The id says which loop is meant wherever the
reference stands.  The variable is the name that the loop itself has for its
index, and whether the name means that index at the reference is a question of
scope: correlation passes over the loops between the two, and one of these may
introduce a variable of the same name.

## Main results

* `introduced?_eq_none_iff` — the names that a loop leaves as they are.
* `lookup_indexVariable` — what the name of a substituted index means at the
  reference.
* `not_lookup_indexVariable` — a name that means the index of another loop.
-/

namespace InfraGraph

/-! ## Names that a loop introduces -/

/-- A loop leaves a name as it is if neither of its variables has it. -/
theorem LoopDescriptor.introduced?_eq_none_iff {l : LoopDescriptor} {name : String} :
    l.introduced? name = none ↔ l.item ≠ name ∧ l.index ≠ some name := by
  rw [introduced?]
  by_cases hindex : l.index = some name
  · rw [if_pos hindex]
    exact iff_of_false (Option.some_ne_none _) fun hnone => hnone.2 hindex
  · rw [if_neg hindex]
    by_cases hitem : l.item = name <;> simp [hitem, hindex]

/-- Whatever a loop introduces is a variable of it. -/
theorem LoopDescriptor.kind_of_introduced? {l : LoopDescriptor} {name : String} {v : Entity}
    (h : l.introduced? name = some v) : ∃ role, v.kind = .loopVariable l.id role := by
  rw [introduced?] at h
  split at h
  case isTrue =>
    obtain rfl := Option.some.inj h
    exact ⟨.index, rfl⟩
  case isFalse =>
    split at h
    case isTrue =>
      obtain rfl := Option.some.inj h
      exact ⟨.item, rfl⟩
    case isFalse => cases h

namespace BoundProgram

variable {p : BoundProgram}

/-- A name that a loop has for its index means, inside the loop, what the
innermost of the loops from there on introduces under it. -/
theorem meaningInside_of_index (outer inner : List LoopDescriptor) {s : LoopDescriptor}
    {name : String} (hs : s.index = some name) :
    p.meaningInside (outer ++ s :: inner) name =
      (s :: inner).reverse.findSome? (·.introduced? name) := by
  have hown : s.introduced? name = some (.ofLoop ⟨s.id.node, s.span⟩ .index name) := if_pos hs
  rw [meaningInside, List.reverse_append, List.findSome?_append, List.reverse_cons,
    List.findSome?_append, List.findSome?_singleton, hown]
  cases inner.reverse.findSome? (·.introduced? name) <;> rfl

/-- There is such a variable, and it is the index of the loop itself exactly if
no loop inside it introduces the name. -/
theorem exists_innermost {inner : List LoopDescriptor} {s : LoopDescriptor} {name : String}
    (hs : s.index = some name) (hne : ∀ l ∈ inner, l.id ≠ s.id) :
    ∃ v, (s :: inner).reverse.findSome? (·.introduced? name) = some v ∧
      (v.kind = .loopVariable s.id .index ↔
        ∀ l ∈ inner, l.item ≠ name ∧ l.index ≠ some name) := by
  have hown : s.introduced? name = some (.ofLoop ⟨s.id.node, s.span⟩ .index name) := if_pos hs
  simp only [← LoopDescriptor.introduced?_eq_none_iff]
  rw [List.reverse_cons, List.findSome?_append, List.findSome?_singleton, hown]
  cases hinner : inner.reverse.findSome? (·.introduced? name) with
  | none =>
      refine ⟨_, rfl, iff_of_true rfl fun l hl => ?_⟩
      exact List.findSome?_eq_none_iff.1 hinner l (List.mem_reverse.2 hl)
  | some v =>
      obtain ⟨l, hl, hintroduced⟩ := List.exists_of_findSome?_eq_some hinner
      have hl := List.mem_reverse.1 hl
      obtain ⟨role, hkind⟩ := l.kind_of_introduced? hintroduced
      refine ⟨v, rfl, iff_of_false (fun hindex => ?_) (fun hall => ?_)⟩
      · exact hne l hl (SymbolKind.loopVariable.inj (hkind.symm.trans hindex)).1
      · rw [hall l hl] at hintroduced
        cases hintroduced

/-- **What the name of a substituted index means at the reference.**  An
implicit index that gives a variable gives the index variable of its loop,
which is around the reference.  Looked up at the reference, the name leads to
what the innermost of this loop and the loops inside it introduces under the
name.  So it leads to the index that is meant exactly if no loop between the two
has a variable of that name. -/
theorem lookup_indexVariable (h : p.reusedIds = []) {op : Operation}
    (hop : op ∈ (p.lower p.bind.model).operations) {context : ReferenceContext}
    (hcontext : op.context? = some context) {k : Nat} {target loop : LoopId} {name : String}
    (hlevel : context.levels[k]? = some ⟨target, .implicit loop (some name)⟩) :
    ∃ outer s inner symbol, p.bind.model.enclosingLoops op.id = outer ++ s :: inner ∧
      s.id = loop ∧ s.index = some name ∧ p.bind.model.lookup name op.id = some symbol ∧
      (s :: inner).reverse.findSome? (·.introduced? name) = some symbol.toEntity ∧
      (symbol.kind = .loopVariable loop .index ↔
        ∀ l ∈ inner, l.item ≠ name ∧ l.index ≠ some name) := by
  obtain ⟨t, s, hsubstitutes, heq⟩ := exists_substitutes h hop hcontext hlevel rfl
  obtain ⟨rfl, hindex⟩ := IndexOutcome.implicit.inj (congrArg IndexLevel.outcome heq)
  have hindex := hindex.symm
  obtain ⟨_, site, _, hc, -⟩ := exists_correlated h hop hcontext
  obtain ⟨outer, inner, -, hsplit, -⟩ := hc.split h hsubstitutes
  have hsite : p.bind.enclosingLoops op.id = outer ++ s :: inner := hc.site_eq.trans hsplit
  -- Loops of one chain are different loops.
  have hne : ∀ l ∈ inner, l.id ≠ s.id := by
    have hnodup := hc.site_chain.nodup h
    rw [hsplit, List.map_append, List.map_cons, List.nodup_append, List.nodup_cons] at hnodup
    intro l hl hid
    exact hnodup.2.1.1 (List.mem_map.2 ⟨l, hl, hid⟩)
  have hbound : p.bind.enclosingLoops op.id ⊆ p.boundLoops := by
    obtain ⟨-, name', -, -, -, hnode, -⟩ := correlated_of_context hop hcontext
    obtain ⟨d, hd, value, hvalue, hn⟩ := exists_value hnode
    exact (enclosingLoops_of_mem_value h hd hvalue hn).2
  have hmeans := map_lookup h hbound name
  obtain ⟨v, hv, hkind⟩ := exists_innermost hindex hne
  rw [hsite, meaningInside_of_index outer inner hindex, hv] at hmeans
  obtain ⟨symbol, hsymbol, rfl⟩ := Option.map_eq_some_iff.1 hmeans
  exact ⟨outer, s, inner, symbol, hsite, rfl, hindex, hsymbol, hv, hkind⟩

/-! ## A captured name -/

open Assembly in
/-- A unit with a reference inside two loops that call their indices alike:
`storage` is replicated `for a in accounts`, and the reference to it stands in
`for (a, i) in accounts` and, inside of that, in `for (z, i) in zones`. -/
def captured : BoundProgram :=
  let unit : Assembly BoundProgram := do
    let accounts ← declare "accounts" (.parameter .any) none
    let zones ← declare "zones" (.parameter .any) none
    let source ← reference "accounts"
    let body ← object []
    let value ← loop "a" none source body
    let storage ← Scenario.resource "storage" Scenario.storageType value
    let all ← reference "storage"
    let source ← reference "zones"
    let value ← loop "z" (some "i") source all
    let source ← reference "accounts"
    let value ← loop "a" (some "i") source value
    let all ← Scenario.bindVariable "all" value
    return .ofDeclarations [accounts, zones, storage, all]
  (unit.run 0).1

/-- The reference takes the index of the outer loop, under the name `i`. -/
theorem captured_level :
    ∃ op ∈ (captured.lower captured.bind.model).operations, op.id = ⟨6⟩ ∧
      ∃ context, op.context? = some context ∧
        context.levels[0]? = some ⟨⟨⟨4⟩⟩, .implicit ⟨⟨10⟩⟩ (some "i")⟩ := by
  have hlength :
      ((captured.lower captured.bind.model).roots.flatMap Operation.preorder).length = 8 := by
    decide
  refine ⟨((captured.lower captured.bind.model).roots.flatMap Operation.preorder)[7], ?_, rfl,
    _, rfl, rfl⟩
  rw [OperationGraph.operations_eq]
  exact List.getElem_mem _

/-- The index that the name means there is that of the inner loop. -/
theorem not_lookup_indexVariable : ¬∀ p : BoundProgram, p.reusedIds = [] →
    ∀ op ∈ (p.lower p.bind.model).operations, ∀ (context : ReferenceContext) (k : Nat)
      (target loop : LoopId) (name : String), op.context? = some context →
        context.levels[k]? = some ⟨target, .implicit loop (some name)⟩ →
          ∃ symbol, p.bind.model.lookup name op.id = some symbol ∧
            symbol.kind = .loopVariable loop .index := by
  intro hall
  obtain ⟨op, hop, hid, context, hcontext, hlevel⟩ := captured_level
  obtain ⟨symbol, hsymbol, hkind⟩ := hall captured (by decide) op hop context 0 _ _ _ hcontext hlevel
  have hmeans : (captured.bind.lookup "i" ⟨6⟩).map (·.kind) =
      some (.loopVariable ⟨⟨8⟩⟩ .index) := by decide
  have hsymbol : captured.bind.lookup "i" op.id = some symbol := hsymbol
  rw [← hid, hsymbol, Option.map_some, hkind] at hmeans
  exact absurd hmeans (by decide)

/-- What is left of it there: the loop over the zones introduces the name inside
the loop that is meant, so the name leads elsewhere. -/
theorem lookup_indexVariable_of_captured :
    captured.reusedIds = [] ∧ ∃ op ∈ (captured.lower captured.bind.model).operations,
      ∃ outer s inner symbol, captured.bind.model.enclosingLoops op.id = outer ++ s :: inner ∧
        s.id = ⟨⟨10⟩⟩ ∧ inner.map (·.item) = ["z"] ∧
        captured.bind.model.lookup "i" op.id = some symbol ∧
        symbol.kind ≠ .loopVariable ⟨⟨10⟩⟩ .index := by
  have hids : captured.reusedIds = [] := by decide
  obtain ⟨op, hop, hid, context, hcontext, hlevel⟩ := captured_level
  obtain ⟨outer, s, inner, symbol, hsplit, hs, -, hsymbol, -, hkind⟩ :=
    lookup_indexVariable hids hop hcontext hlevel
  have hsplit' : captured.bind.enclosingLoops ⟨6⟩ = outer ++ s :: inner := hid ▸ hsplit
  -- The outer of the two loops is the one that is meant.
  obtain ⟨a, b, hloops, hb, hitem, hindex⟩ : ∃ a b,
      captured.bind.enclosingLoops ⟨6⟩ = [a, b] ∧ b.id = ⟨⟨8⟩⟩ ∧ b.item = "z" ∧
        b.index = some "i" := ⟨_, _, rfl, rfl, rfl, rfl⟩
  have hinner : inner = [b] := by
    rw [hloops] at hsplit'
    match outer, hsplit' with
    | [], hsplit' => exact (List.cons.inj hsplit').2.symm
    | [_], hsplit' =>
        obtain rfl := (List.cons.inj (List.cons.inj hsplit').2).1
        exact absurd (hb.symm.trans hs) (by decide)
    | _ :: _ :: _, hsplit' => simp at hsplit'
  refine ⟨hids, op, hop, outer, s, inner, symbol, hsplit, hs, ?_, hsymbol, fun hmeant => ?_⟩
  · rw [hinner, List.map_singleton, hitem]
  · exact ((hkind.1 hmeant) b (hinner ▸ List.mem_singleton.2 rfl)).2 hindex

end BoundProgram

end InfraGraph
