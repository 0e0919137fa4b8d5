import InfraGraph.Proofs.Graph.Substitution
import InfraGraph.Proofs.Symbol.LexicalScope

/-!
# Loops around the references that use them

A graph names copy loops by their ids: in references to loop variables, and in
the implicit indices of other references.  Nothing about an id says where its
loop stands.  An index that named a loop somewhere else would be put into the
emitted template all the same, as a variable that nothing binds there.

What a loop is around is a matter of the tree, and `Encloses` says so without a
word on binding: a `for` node is around what stands in its body, and the own
loop of a resource or module is around the values of all declarations nested in
it.

## Main results

* `encloses_of_mem_enclosingLoops` — the loops that binding records around a
  node are around it.
* `encloses_of_substitutes` — the implicit indices of a reference name loops
  around it, each inside those before it.
* `indices_enclosed` — no loop index escapes its loop.
-/

namespace InfraGraph

namespace BoundProgram

/-- A copy loop of the unit is around a node: the node stands in the body of
its `for` node, or in the value of a declaration that is nested in the one that
the loop replicates. -/
inductive Encloses (p : BoundProgram) (l : LoopDescriptor) (node : SyntaxId) : Prop
  | body {d value o item index source body n} : d ∈ p.nestedDeclarations →
      d.declaration.value = some value → Expr.loop o item index source body ∈ value.preorder →
      l = ⟨⟨o.id⟩, item, index, source, o.span⟩ → n ∈ body.preorder → n.id = node →
      Encloses p l node
  | nested {d value n a} : d ∈ p.nestedDeclarations → d.declaration.value = some value →
      n ∈ value.preorder → n.id = node → a ∈ d.around → a.ownLoop? = some l →
      Encloses p l node

variable {p : BoundProgram}

/-- A node stands in the value of a declaration. -/
theorem exists_value {n : Expr} (hn : n ∈ p.expressions) :
    ∃ d ∈ p.nestedDeclarations, ∃ value, d.declaration.value = some value ∧
      n ∈ value.preorder := by
  rw [expressions, ← map_declaration_nestedDeclarations, List.flatMap_map, List.mem_flatMap] at hn
  obtain ⟨d, hd, hn⟩ := hn
  exact ⟨d, hd, Declaration.mem_valueNodes.1 hn⟩

section

variable (h : p.reusedIds = [])

include h

/-- The loops recorded around a node are around it. -/
theorem encloses_of_mem_enclosingLoops {n : Expr} (hn : n ∈ p.expressions) {l : LoopDescriptor}
    (hl : l ∈ p.bind.enclosingLoops n.id) : p.Encloses l n.id := by
  obtain ⟨d, hd, value, hvalue, hmem⟩ := exists_value hn
  rw [(enclosingLoops_of_mem_value h hd hvalue hmem).1, List.mem_append] at hl
  rcases hl with hl | hl
  · obtain ⟨a, ha, hown⟩ := List.mem_filterMap.1 hl
    exact .nested hd hvalue hmem rfl ha hown
  · obtain ⟨e, he, hover⟩ := List.mem_filterMap.1 hl
    cases e with
    | loop o item index source body =>
        rw [Expr.loopOver?] at hover
        split at hover
        case isFalse => cases hover
        case isTrue hany =>
          obtain ⟨n', hn', hid⟩ := List.any_eq_true.1 hany
          exact .body hd hvalue he (Option.some.inj hover).symm hn' (eq_of_beq hid)
    | _ => cases hover

/-- A reference to a loop variable stands in the body of the loop it names. -/
theorem encloses_of_loopVariable {o : Origin} {symbol : Symbol} {loop : LoopId} {role : LoopRole}
    (hop : .loopVariable o symbol loop role ∈ (p.lower p.bind.model).operations) :
    ∃ l, l.id = loop ∧ p.Encloses l o.id := by
  obtain ⟨name, brackets, rest, hnode, hlookup, hrefer, -⟩ := sourced_operations hop symbol rfl
  have hkind : symbol.kind = .loopVariable loop role := by
    cases referred_of_refer hrefer
    assumption
  have hlookup : p.bind.lookup name o.id = some symbol := hlookup
  rcases Binding.lookup_cases hlookup with ⟨outer, l, inner, hchain, hvariable, -⟩ |
    ⟨hdeclaration, -⟩
  · obtain ⟨-, -, role', hkind'⟩ := Binding.kind_of_variableOf? hvariable
    refine ⟨l, (SymbolKind.loopVariable.inj (hkind'.symm.trans hkind)).1, ?_⟩
    refine encloses_of_mem_enclosingLoops h hnode ?_
    show l ∈ p.bind.enclosingLoops o.id
    rw [hchain]
    exact List.mem_append_right _ List.mem_cons_self
  · obtain ⟨-, -, hnot⟩ := Binding.kind_of_declarationNamed? hdeclaration
    rw [hkind] at hnot
    cases hnot

/-- An implicit index names a loop around the reference.  It is the loop of its
level, and the loops of the levels before it are further out. -/
theorem encloses_of_substitutes {op : Operation} (hop : op ∈ (p.lower p.bind.model).operations)
    {k : Nat} {t s : LoopDescriptor} (hk : Substitutes p.bind.model op k t s) :
    p.Encloses s op.id ∧ p.bind.model.sameLoop s t = true ∧
      ∀ (i : Nat) (t' s' : LoopDescriptor), i < k → Substitutes p.bind.model op i t' s' →
        s'.id ≠ s.id ∧ p.Encloses s' s.id.node := by
  obtain ⟨symbol, context, hsymbol, hcontext, -, -, hfound⟩ := id hk
  obtain ⟨target, site, scopes, hc, -⟩ := exists_correlated h hop hcontext
  obtain ⟨outer, inner, n, hsplit, hn, hloop, henclosing, hsame, hinnermost⟩ := hc.split h hk
  obtain ⟨_, name, _, _, -, hnode, -, -⟩ := correlated_of_context hop hcontext
  have hsite : s ∈ p.bind.enclosingLoops (Expr.reference op.origin name).id :=
    List.mem_of_find?_eq_some hfound
  have hid : s.id.node = n.id := by
    rw [LoopDescriptor.id_of_ofExpr? hloop]
  refine ⟨encloses_of_mem_enclosingLoops h hnode hsite, hsame, ?_⟩
  intro i t' s' hik hi
  obtain ⟨-, hs'⟩ := (hc.substitutes_iff i t' s').1 hi
  -- The loops taken for the levels before are among those around the loop of this one.
  have hmem : s' ∈ outer := by
    refine hinnermost.subset (List.mem_of_getElem? (i := i) ?_)
    rw [List.getElem?_take_of_lt hik, hs']
  constructor
  · have hnodup := hc.site_chain.nodup h
    rw [hsplit, List.map_append, List.map_cons, List.nodup_append] at hnodup
    exact hnodup.2.2 _ (List.mem_map_of_mem hmem) _ List.mem_cons_self
  · rw [hid]
    refine encloses_of_mem_enclosingLoops h (mem_expressions_of_located hn) ?_
    rwa [enclosingLoops_eq h hn]

/-- **No loop index escapes its loop.**  A reference to a loop variable stands
in the body of the loop it names.  The loops that the implicit indices of a
reference name are around the reference too, one inside the other from the
outermost level inwards; each is the same loop as the loop of its level, and
gives its own index variable. -/
theorem indices_enclosed :
    (∀ o symbol loop role,
      .loopVariable o symbol loop role ∈ (p.lower p.bind.model).operations →
        ∃ l, l.id = loop ∧ p.Encloses l o.id) ∧
    ∀ op ∈ (p.lower p.bind.model).operations,
      (∀ (context : ReferenceContext) (k : Nat) (level : IndexLevel Operation),
        op.context? = some context → context.levels[k]? = some level →
          level.outcome.kind = .implicit →
            ∃ t s, Substitutes p.bind.model op k t s ∧
              level = ⟨t.id, .implicit s.id s.index⟩) ∧
      ∀ (k : Nat) (t s : LoopDescriptor), Substitutes p.bind.model op k t s →
        p.Encloses s op.id ∧ p.bind.model.sameLoop s t = true ∧
          ∀ (i : Nat) (t' s' : LoopDescriptor), i < k →
            Substitutes p.bind.model op i t' s' →
              s'.id ≠ s.id ∧ p.Encloses s' s.id.node := by
  refine ⟨fun _ _ _ _ hop => encloses_of_loopVariable h hop, fun op hop => ⟨?_, ?_⟩⟩
  · intro context k level hcontext hlevel hkind
    exact exists_substitutes h hop hcontext hlevel hkind
  · intro k t s hk
    exact encloses_of_substitutes h hop hk

end

/-- The two loops that a reference takes of the three around it: both are
around it, and the one for the account is around the one for the container. -/
theorem indices_enclosed_of_crossed :
    crossed.reusedIds = [] ∧ ∃ op ∈ (crossed.lower crossed.bind.model).operations,
      ∃ account container : LoopDescriptor, account.item = "b" ∧ container.item = "c" ∧
        crossed.Encloses container op.id ∧ crossed.Encloses account container.id.node := by
  have hids : crossed.reusedIds = [] := by decide
  obtain ⟨op, hop, hfirst, hsecond⟩ := crossed_substitutes
  obtain ⟨hencloses, -, hbefore⟩ := ((indices_enclosed hids).2 op hop).2 1 _ _ hsecond
  exact ⟨hids, op, hop, _, _, rfl, rfl, hencloses, (hbefore 0 _ _ Nat.zero_lt_one hfirst).2⟩

end BoundProgram

end InfraGraph
