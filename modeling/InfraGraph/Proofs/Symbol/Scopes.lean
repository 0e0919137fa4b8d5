import InfraGraph.Proofs.Symbol.Entities

/-!
# Nodes inside copy loops

`Expr.scopes` lists the ids of nodes with the loops around them, in the order
of a walk.  Here the same walk keeps the nodes themselves, `Expr.located`, so
that a loop around a node can be traced back to the `for` node it stands for.

That is always possible, and the `for` node stands inside the loops before it
and no others.  `BoundProgram.Chain` says so of a list of loops; all lists of
loops that a unit knows, around nodes and around symbols, are chains.

## Main results

* `scopes_eq_map_located` — the walk with nodes and the walk with ids.
* `enclosingLoops_eq` — a bound unit knows the loops around every node.
* `chain_located`, `chain_loops` — where loops come from.
* `Chain.nodup` — no loop stands inside itself.
-/

namespace InfraGraph

/-! ## The walk -/

namespace Expr

/-- The children of a node with the loops around them, when `outer` are around
the node.  Only the body of a loop stands inside the loop. -/
def childrenIn (outer : List LoopDescriptor) : Expr → List (Expr × List LoopDescriptor)
  | .loop o item index source body =>
    [(source, outer), (body, outer ++ [⟨⟨o.id⟩, item, index, source, o.span⟩])]
  | e => e.children.map (·, outer)

theorem map_fst_childrenIn (outer : List LoopDescriptor) (e : Expr) :
    (e.childrenIn outer).map Prod.fst = e.children := by
  cases e <;> simp [childrenIn, children, Function.comp_def]

theorem mem_children_of_mem_childrenIn {outer : List LoopDescriptor} {e : Expr}
    {c : Expr × List LoopDescriptor} (h : c ∈ e.childrenIn outer) : c.1 ∈ e.children := by
  rw [← map_fst_childrenIn outer e]
  exact List.mem_map_of_mem h

/-- The loops around a child are those around the node, and one more in the
body of a loop. -/
theorem childrenIn_cases {outer : List LoopDescriptor} {e : Expr}
    {c : Expr × List LoopDescriptor} (h : c ∈ e.childrenIn outer) :
    c.2 = outer ∨ ∃ l, LoopDescriptor.ofExpr? e = some l ∧ c.2 = outer ++ [l] := by
  cases e with
  | loop o item index source body =>
      simp only [childrenIn, List.mem_cons, List.not_mem_nil, or_false] at h
      rcases h with rfl | rfl
      · exact .inl rfl
      · exact .inr ⟨_, rfl, rfl⟩
  | _ =>
      obtain ⟨_, _, rfl⟩ := List.mem_map.1 h
      exact .inl rfl

/-- The nodes of an expression, each with the copy loops around it, when
`outer` are around the expression. -/
def located (outer : List LoopDescriptor) (e : Expr) : List (Expr × List LoopDescriptor) :=
  (e, outer) :: (e.childrenIn outer).attach.flatMap fun c => located c.1.2 c.1.1
termination_by sizeOf e
decreasing_by exact sizeOf_lt_of_mem_children (mem_children_of_mem_childrenIn c.2)

theorem located_eq (outer : List LoopDescriptor) (e : Expr) :
    e.located outer = (e, outer) :: (e.childrenIn outer).flatMap fun c => c.1.located c.2 := by
  rw [located, List.flatMap_subtype (g := fun c => c.1.located c.2) fun _ _ => rfl]
  simp

theorem mem_located_self (outer : List LoopDescriptor) (e : Expr) :
    (e, outer) ∈ e.located outer := by
  rw [located_eq]
  exact List.mem_cons_self

theorem located_subset_of_mem_childrenIn {outer : List LoopDescriptor} {e : Expr}
    {c : Expr × List LoopDescriptor} (h : c ∈ e.childrenIn outer) :
    c.1.located c.2 ⊆ e.located outer := by
  intro n hn
  rw [located_eq]
  exact List.mem_cons_of_mem _ (List.mem_flatMap.2 ⟨c, h, hn⟩)

theorem map_fst_located (outer : List LoopDescriptor) (e : Expr) :
    (e.located outer).map Prod.fst = e.preorder := by
  induction e using Expr.induction generalizing outer with
  | step e ih =>
      rw [located_eq, preorder_eq, List.map_cons, List.map_flatMap, ← map_fst_childrenIn outer,
        List.flatMap_map]
      refine congrArg (e :: ·) (List.flatMap_congr fun c hc => ?_)
      exact ih c.1 (mem_children_of_mem_childrenIn hc) c.2

theorem scopesAll_eq (outer : List LoopDescriptor) (es : List Expr) :
    scopesAll outer es = es.flatMap (scopes outer) := by
  induction es with
  | nil => rfl
  | cons e es ih => rw [scopesAll, ih, List.flatMap_cons]

theorem scopesEntries_eq (outer : List LoopDescriptor) (entries : List (String × Expr)) :
    scopesEntries outer entries = (entries.map Prod.snd).flatMap (scopes outer) := by
  induction entries with
  | nil => rfl
  | cons entry entries ih =>
      obtain ⟨key, e⟩ := entry
      rw [scopesEntries, ih, List.map_cons, List.flatMap_cons]

theorem scopes_eq (outer : List LoopDescriptor) (e : Expr) :
    e.scopes outer = (e.id, outer) :: (e.childrenIn outer).flatMap fun c => c.1.scopes c.2 := by
  cases e <;> simp [scopes, childrenIn, children, scopesAll_eq, scopesEntries_eq, id, origin,
    List.flatMap_map]

/-- The walk with nodes is the walk with ids. -/
theorem scopes_eq_map_located (outer : List LoopDescriptor) (e : Expr) :
    e.scopes outer = (e.located outer).map fun n => (n.1.id, n.2) := by
  induction e using Expr.induction generalizing outer with
  | step e ih =>
      rw [scopes_eq, located_eq, List.map_cons, List.map_flatMap]
      refine congrArg ((e.id, outer) :: ·) (List.flatMap_congr fun c hc => ?_)
      exact ih c.1 (mem_children_of_mem_childrenIn hc) c.2

end Expr

/-! ## Chains of loops -/

/-- The descriptor of a `for` node has its id. -/
theorem LoopDescriptor.id_of_ofExpr? {n : Expr} {l : LoopDescriptor} (h : ofExpr? n = some l) :
    l.id = ⟨n.id⟩ := by
  cases n <;> cases h
  rfl

/-- The nodes of a declaration's value with the copy loops around them. -/
def PlacedDeclaration.located (d : PlacedDeclaration) : List (Expr × List LoopDescriptor) :=
  (d.declaration.value.map (Expr.located d.outer)).getD []

theorem PlacedDeclaration.mem_located {d : PlacedDeclaration} {n : Expr × List LoopDescriptor} :
    n ∈ d.located ↔ ∃ value, d.declaration.value = some value ∧ n ∈ value.located d.outer := by
  rw [located]
  cases d.declaration.value <;> simp

theorem PlacedDeclaration.map_fst_located (d : PlacedDeclaration) :
    d.located.map Prod.fst = d.declaration.valueNodes := by
  rw [located, Declaration.valueNodes]
  cases d.declaration.value with
  | none => rfl
  | some value => exact Expr.map_fst_located d.outer value

namespace BoundProgram

/-- The expression nodes of a unit with the copy loops around them. -/
def located (p : BoundProgram) : List (Expr × List LoopDescriptor) :=
  p.placements.flatMap PlacedDeclaration.located

/-- Loops of a unit one inside the other: the `for` node of each stands inside
the loops before it and no others. -/
inductive Chain (p : BoundProgram) : List LoopDescriptor → Prop
  | nil : Chain p []
  | snoc {outer n l} : Chain p outer → (n, outer) ∈ p.located →
      LoopDescriptor.ofExpr? n = some l → Chain p (outer ++ [l])

variable {p : BoundProgram}

theorem map_fst_located (p : BoundProgram) : p.located.map Prod.fst = p.expressions := by
  rw [located, expressions, ← map_declaration_placements, List.map_flatMap, List.flatMap_map]
  exact List.flatMap_congr fun d _ => d.map_fst_located

theorem scopes_bind (p : BoundProgram) :
    p.bind.scopes =
      (p.located.map fun n => (n.1.id, n.2)).filter fun entry => !entry.2.isEmpty := by
  have hscopes : p.bind.scopes =
      (p.placements.flatMap (·.scopes)).filter fun entry => !entry.2.isEmpty := rfl
  rw [hscopes, located, List.map_flatMap]
  refine congrArg (List.filter _) (List.flatMap_congr fun d _ => ?_)
  rw [PlacedDeclaration.located, PlacedDeclaration.scopes]
  cases d.declaration.value with
  | none => rfl
  | some value => exact Expr.scopes_eq_map_located d.outer value

theorem mem_expressions_of_located {n : Expr} {chain : List LoopDescriptor}
    (h : (n, chain) ∈ p.located) : n ∈ p.expressions := by
  rw [← map_fst_located]
  exact List.mem_map_of_mem h

theorem exists_located {n : Expr} (h : n ∈ p.expressions) : ∃ chain, (n, chain) ∈ p.located := by
  rw [← map_fst_located, List.mem_map] at h
  obtain ⟨⟨_, chain⟩, hmem, rfl⟩ := h
  exact ⟨chain, hmem⟩

/-- A node stands inside one list of loops. -/
theorem eq_of_located (h : p.reusedIds = []) {n n' : Expr} {chain chain' : List LoopDescriptor}
    (hn : (n, chain) ∈ p.located) (hn' : (n', chain') ∈ p.located) (hid : n.id = n'.id) :
    n = n' ∧ chain = chain' := by
  have hnodup : (p.located.map fun x => x.1.id).Nodup := by
    have hids := nodup_expressionIds h
    rwa [← map_fst_located, List.map_map] at hids
  exact Prod.mk.inj (List.inj_on_of_nodup_map hnodup hn hn' hid)

/-- **A bound unit knows the loops around every node.** -/
theorem enclosingLoops_eq (h : p.reusedIds = []) {n : Expr} {chain : List LoopDescriptor}
    (hn : (n, chain) ∈ p.located) : p.bind.enclosingLoops n.id = chain := by
  have hentry : ∀ entry ∈ p.bind.scopes, entry.1 = n.id → entry.2 = chain := by
    intro entry hmem hid
    rw [scopes_bind, List.mem_filter, List.mem_map] at hmem
    obtain ⟨⟨⟨n', chain'⟩, hn', rfl⟩, -⟩ := hmem
    exact (eq_of_located h hn' hn hid).2
  rw [Binding.enclosingLoops, lookupLast?]
  cases hfound : findLast? (fun entry => entry.1 == n.id) p.bind.scopes with
  | some entry =>
      obtain ⟨hmem, htest⟩ := mem_of_findLast? hfound
      exact hentry entry hmem (eq_of_beq htest)
  | none =>
      -- Only nodes with loops around them are on record.
      by_contra hne
      have hmem : (n.id, chain) ∈ p.bind.scopes := by
        rw [scopes_bind, List.mem_filter]
        refine ⟨List.mem_map.2 ⟨(n, chain), hn, rfl⟩, ?_⟩
        have hchain : chain ≠ [] := fun heq => hne heq.symm
        simp [hchain]
      have hsome : (findLast? (fun entry => entry.1 == n.id) p.bind.scopes).isSome := by
        rw [findLast?_isSome_iff]
        exact ⟨_, hmem, beq_self_eq_true n.id⟩
      rw [hfound] at hsome
      cases hsome

/-! ## Where chains come from -/

/-- A loop in the middle of a chain stands inside those before it. -/
theorem Chain.split {outer inner : List LoopDescriptor} {l : LoopDescriptor}
    (h : p.Chain (outer ++ l :: inner)) :
    p.Chain outer ∧ ∃ n, (n, outer) ∈ p.located ∧ LoopDescriptor.ofExpr? n = some l := by
  generalize hchain : outer ++ l :: inner = chain at h
  induction h generalizing inner with
  | nil => simp at hchain
  | @snoc outer' n l' hprev hn hl ih =>
      rcases List.eq_nil_or_concat inner with rfl | ⟨inner, last, rfl⟩
      · obtain ⟨rfl, hlast⟩ := List.append_inj' hchain rfl
        obtain rfl := List.head_eq_of_cons_eq hlast
        exact ⟨hprev, n, hn, hl⟩
      · rw [List.concat_eq_append, ← List.cons_append, ← List.append_assoc] at hchain
        exact ih (List.append_inj' hchain rfl).1

/-- The outer loops of a chain are a chain. -/
theorem Chain.of_append {outer inner : List LoopDescriptor} {l : LoopDescriptor}
    (h : p.Chain (outer ++ l :: inner)) : p.Chain (outer ++ [l]) := by
  obtain ⟨houter, n, hn, hl⟩ := h.split
  exact houter.snoc hn hl

theorem Chain.exists_located {chain : List LoopDescriptor} (h : p.Chain chain)
    {l : LoopDescriptor} (hl : l ∈ chain) :
    ∃ n outer, (n, outer) ∈ p.located ∧ LoopDescriptor.ofExpr? n = some l := by
  obtain ⟨outer, inner, rfl⟩ := List.append_of_mem hl
  obtain ⟨-, n, hn, hloop⟩ := h.split
  exact ⟨n, outer, hn, hloop⟩

/-- The loops around the nodes of an expression are chains, if those around
the expression are one. -/
theorem chain_of_located_subset {e : Expr} {outer : List LoopDescriptor} (houter : p.Chain outer)
    (hsub : e.located outer ⊆ p.located) : ∀ n ∈ e.located outer, p.Chain n.2 := by
  induction e using Expr.induction generalizing outer with
  | step e ih =>
      intro n hn
      rw [Expr.located_eq, List.mem_cons, List.mem_flatMap] at hn
      rcases hn with rfl | ⟨c, hc, hn⟩
      · exact houter
      · refine ih c.1 (Expr.mem_children_of_mem_childrenIn hc) ?_
          (List.Subset.trans (Expr.located_subset_of_mem_childrenIn hc) hsub) n hn
        rcases Expr.childrenIn_cases hc with heq | ⟨l, hl, heq⟩
        · rwa [heq]
        · rw [heq]
          exact houter.snoc (hsub (Expr.mem_located_self outer e)) hl

theorem located_subset {d : PlacedDeclaration} (hd : d ∈ p.placements) : d.located ⊆ p.located :=
  fun _ hn => List.mem_flatMap.2 ⟨d, hd, hn⟩

theorem located_value_subset {d : PlacedDeclaration} (hd : d ∈ p.placements) {value : Expr}
    (hvalue : d.declaration.value = some value) : value.located d.outer ⊆ p.located :=
  fun _ hn => located_subset hd (PlacedDeclaration.mem_located.2 ⟨value, hvalue, hn⟩)

/-- The loop of a declaration stands inside those around the declaration. -/
theorem Chain.loops {d : PlacedDeclaration} (hd : d ∈ p.placements) (h : p.Chain d.outer) :
    p.Chain d.loops := by
  rw [PlacedDeclaration.loops]
  cases hown : d.declaration.ownLoop? with
  | none =>
      rw [Option.toList_none, List.append_nil]
      exact h
  | some l =>
      rw [Declaration.ownLoop?] at hown
      split at hown
      case isFalse => cases hown
      case isTrue =>
        obtain ⟨value, hvalue, hl⟩ := Option.bind_eq_some_iff.1 hown
        exact h.snoc (located_value_subset hd hvalue (Expr.mem_located_self d.outer value)) hl

theorem chain_outer_of_subset {d : Declaration} {parent : Option String}
    {outer : List LoopDescriptor} (houter : p.Chain outer)
    (hsub : d.placements parent outer ⊆ p.placements) :
    ∀ placed ∈ d.placements parent outer, p.Chain placed.outer := by
  induction d using Declaration.induction generalizing parent outer with
  | step d ih =>
      intro placed hplaced
      rw [Declaration.placements_eq] at hsub hplaced
      have hself := hsub List.mem_cons_self
      rcases List.mem_cons.1 hplaced with rfl | hplaced
      · exact houter
      · obtain ⟨c, hc, hplaced⟩ := List.mem_flatMap.1 hplaced
        refine ih c hc (houter.loops hself) ?_ placed hplaced
        intro placed' hplaced'
        exact hsub (List.mem_cons_of_mem _ (List.mem_flatMap.2 ⟨c, hc, hplaced'⟩))

theorem chain_outer {d : PlacedDeclaration} (hd : d ∈ p.placements) : p.Chain d.outer := by
  have hmem := hd
  rw [placements_eq_flatMap, List.mem_flatMap] at hmem
  obtain ⟨root, hroot, hmem⟩ := hmem
  refine chain_outer_of_subset .nil ?_ d hmem
  intro placed hplaced
  rw [placements_eq_flatMap]
  exact List.mem_flatMap.2 ⟨root, hroot, hplaced⟩

/-- **The loops around a node are a chain.** -/
theorem chain_located {n : Expr} {chain : List LoopDescriptor} (h : (n, chain) ∈ p.located) :
    p.Chain chain := by
  obtain ⟨d, hd, hn⟩ := List.mem_flatMap.1 h
  obtain ⟨value, hvalue, hn⟩ := PlacedDeclaration.mem_located.1 hn
  exact chain_of_located_subset (chain_outer hd) (located_value_subset hd hvalue) _ hn

/-- **So are the loops of a symbol.** -/
theorem chain_loops {s : Symbol} (hs : s ∈ p.bind.symbols) : p.Chain s.loops := by
  have hentity := List.mem_of_getElem? (mem_symbols.1 hs)
  rcases mem_entities.1 hentity with ⟨d, hd, heq⟩ | ⟨n, -, hv⟩
  · rw [heq]
    exact (chain_outer hd).loops hd
  · obtain ⟨-, role, name, -, -, heq⟩ := Expr.mem_ownVariables.1 hv
    rw [heq]
    exact .nil

/-! ## Loops of a unit -/

section

variable (h : p.reusedIds = [])

include h

/-- A loop is known by its id, and stands inside one list of loops. -/
theorem eq_of_loopId_eq {n n' : Expr} {outer outer' : List LoopDescriptor}
    {l l' : LoopDescriptor} (hn : (n, outer) ∈ p.located) (hn' : (n', outer') ∈ p.located)
    (hl : LoopDescriptor.ofExpr? n = some l) (hl' : LoopDescriptor.ofExpr? n' = some l')
    (hid : l.id = l'.id) : l = l' ∧ outer = outer' := by
  rw [LoopDescriptor.id_of_ofExpr? hl, LoopDescriptor.id_of_ofExpr? hl'] at hid
  obtain ⟨rfl, rfl⟩ := eq_of_located h hn hn' (LoopId.mk.inj hid)
  exact ⟨Option.some.inj (hl.symm.trans hl'), rfl⟩

/-- Also if it is met in the middle of chains. -/
theorem Chain.eq_of_id_eq {outer outer' inner inner' : List LoopDescriptor}
    {l l' : LoopDescriptor} (hchain : p.Chain (outer ++ l :: inner))
    (hchain' : p.Chain (outer' ++ l' :: inner')) (hid : l.id = l'.id) :
    l = l' ∧ outer = outer' := by
  obtain ⟨-, n, hn, hl⟩ := hchain.split
  obtain ⟨-, n', hn', hl'⟩ := hchain'.split
  exact eq_of_loopId_eq h hn hn' hl hl' hid

/-- No loop stands inside itself. -/
theorem Chain.nodup {chain : List LoopDescriptor} (hchain : p.Chain chain) :
    (chain.map (·.id)).Nodup := by
  induction hchain with
  | nil => exact List.nodup_nil
  | @snoc outer n l hprev hn hl ih =>
      rw [List.map_append, List.map_singleton, List.nodup_append]
      refine ⟨ih, List.nodup_singleton _, ?_⟩
      intro id hid id' hid' heq
      obtain rfl := List.mem_singleton.1 hid'
      obtain ⟨l', hl', rfl⟩ := List.mem_map.1 hid
      obtain ⟨before, after, rfl⟩ := List.append_of_mem hl'
      have hlast := (hprev.snoc hn hl)
      have houter := (Chain.eq_of_id_eq h hprev hlast heq).2
      have hlength := congrArg List.length houter
      simp at hlength

/-- To look for a loop in a chain is to find it. -/
theorem Chain.find? {chain : List LoopDescriptor} (hchain : p.Chain chain) {l : LoopDescriptor}
    (hl : l ∈ chain) : chain.find? (·.id == l.id) = some l :=
  (find?_eq_some_iff_of_nodup (hchain.nodup h)).2 ⟨hl, rfl⟩

/-- A loop has a variable of a name exactly if it names one so. -/
theorem variableOf?_isSome_iff {n : Expr} (hn : n ∈ p.expressions) {l : LoopDescriptor}
    (hl : LoopDescriptor.ofExpr? n = some l) {name : String} :
    (p.bind.variableOf? name l).isSome ↔ ∃ role, l.variable? role = some name := by
  constructor
  · intro hsome
    obtain ⟨s, hs⟩ := Option.isSome_iff_exists.1 hsome
    obtain ⟨hmem, rfl, role, hkind⟩ := Binding.kind_of_variableOf? hs
    obtain ⟨n', hn', hid, l', hl', hname⟩ := exists_loop hmem hkind
    rw [LoopDescriptor.id_of_ofExpr? hl] at hid
    obtain rfl := eq_of_id_eq h hn hn' (LoopId.mk.inj hid)
    obtain rfl := Option.some.inj (hl.symm.trans hl')
    exact ⟨role, hname⟩
  · rintro ⟨role, hname⟩
    have hentity : Entity.ofLoop n.origin role name ∈ p.entities :=
      mem_entities.2 (.inr ⟨n, hn, Expr.mem_ownVariables.2 ⟨l, role, name, hl, hname, rfl⟩⟩)
    obtain ⟨s, hs, heq⟩ := exists_symbol hentity
    rw [Binding.variableOf?, findLast?_isSome_iff]
    refine ⟨s, hs, Binding.isVariableOf_iff.2 ?_⟩
    rw [heq, LoopDescriptor.id_of_ofExpr? hl]
    exact ⟨rfl, role, rfl⟩

end

end BoundProgram

end InfraGraph
