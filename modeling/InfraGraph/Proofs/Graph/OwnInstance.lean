import InfraGraph.Proofs.Graph.Reports
import InfraGraph.Proofs.Symbol.LoopChains

/-!
# References from inside an instance

A looped resource or module is one declaration and many instances.  What stands
in the body of its loop, or in a declaration nested in it, stands in one of
these instances, and from there a reference to the resource or module means
that instance.

That is not said anywhere in lowering; it comes about.  The loops of a symbol
are put together from the declarations around it, and the loops around a node
are put together on the way down to it.  From inside an instance the second
list begins with the first, loop by loop the same, and so correlation finds the
whole target in the site.  Which loops it takes is another matter: a further
loop around the reference may be the same loop as one of the declaration, and
then it is nearer.

## Main results

* `implicitScopes_of_prefixed` — a target that the site begins with is found
  there, loop by loop.
* `prefix_of_mem_instanceBodies` — the loops around what stands in an instance.
* `ownInstance_implicit` — what references from inside an instance mean.
-/

namespace InfraGraph

/-! ## Targets that the site begins with -/

section

variable {same : LoopDescriptor → LoopDescriptor → Bool} {target : List LoopDescriptor}
  (hrefl : ∀ t ∈ target, same t t = true)

include hrefl

theorem matchedLength_of_prefixed {site : List LoopDescriptor} (h : target <+: site) :
    matchedLength same target site = target.length := by
  have hembeds : EmbedsIn same target site :=
    List.sublistForall₂_iff.2 ⟨target, List.forall₂_same.2 hrefl, h.sublist⟩
  refine Nat.le_antisymm (matchedLength_le target site) ?_
  rw [← embedsIn_take_iff (Nat.le_refl _), List.take_length]
  exact hembeds

/-- Loops that are passed because none of them fits do not count. -/
theorem firstMatches_of_passed {passed : List LoopDescriptor}
    (hpassed : ∀ t ∈ target, ∀ v ∈ passed, same v t = false) :
    firstMatches same target (passed ++ target) = some target := by
  induction target generalizing passed with
  | nil => rfl
  | cons t target ih =>
      obtain ⟨ht, hrefl⟩ := List.forall_mem_cons.1 hrefl
      have hfrom : siteFrom same t (passed ++ t :: target) = t :: target := by
        rw [siteFrom, List.dropWhile_append_of_pos]
        · exact siteFrom_cons_of_same ht
        · intro v hv
          rw [hpassed t List.mem_cons_self v hv]
          rfl
      have htarget : firstMatches same target ([] ++ target) = some target :=
        ih hrefl fun _ _ v hv => absurd hv List.not_mem_nil
      rw [firstMatches_cons, hfrom]
      show (firstMatches same target ([] ++ target)).map (t :: ·) = some (t :: target)
      rw [htarget, Option.map_some]

/-- A target that the site begins with is found there, loop by loop, unless a
loop further in fits as well. -/
theorem implicitScopes_of_prefixed {extra : List LoopDescriptor}
    (hextra : ∀ t ∈ target, ∀ v ∈ extra, same v t = false) :
    implicitScopes same target (target ++ extra) = target := by
  have hlength : matchedLength same target (target ++ extra) = target.length :=
    matchedLength_of_prefixed hrefl (List.prefix_append _ _)
  have hmatches : firstMatches same target.reverse (extra.reverse ++ target.reverse) =
      some target.reverse := by
    refine firstMatches_of_passed (fun t ht => hrefl t (List.mem_reverse.1 ht)) ?_
    intro t ht v hv
    exact hextra t (List.mem_reverse.1 ht) v (List.mem_reverse.1 hv)
  rw [implicitScopes, hlength, List.take_length, List.reverse_append, hmatches,
    Option.getD_some, List.reverse_reverse]

end

theorem assignLevels_self {α : Type} (target : List LoopDescriptor)
    (brackets : List (ExplicitIndex α)) :
    (assignLevels target target brackets).1 = target.map fun t => ⟨t.id, .ofScope t⟩ := by
  induction target with
  | nil => rfl
  | cons t target ih =>
      rw [List.map_cons, ← ih]
      rfl

/-- With fewer brackets than loops, a target that the site begins with is
indexed by the site alone, and all brackets are left. -/
theorem correlate_of_prefixed {α : Type} {same : LoopDescriptor → LoopDescriptor → Bool}
    {target : List LoopDescriptor} (hrefl : ∀ t ∈ target, same t t = true)
    {brackets : List (ExplicitIndex α)} (hfew : brackets.length < target.length)
    (extra : List LoopDescriptor) :
    ∃ context, correlate same target (target ++ extra) brackets = (some context, brackets) ∧
      context.levels.map (·.target) = target.map (·.id) ∧
      (∀ level ∈ context.levels, level.outcome.kind = .implicit) ∧
      ((∀ t ∈ target, ∀ l ∈ extra, same l t = false) →
        context.levels = target.map fun t => ⟨t.id, .implicit t.id t.index⟩) := by
  have hne : target ≠ [] := List.ne_nil_of_length_pos (by omega)
  have hscopes : scopesFor same target (target ++ extra) brackets =
      implicitScopes same target (target ++ extra) := if_neg (Nat.not_le.2 hfew)
  have hlength : (implicitScopes same target (target ++ extra)).length = target.length := by
    rw [length_implicitScopes, matchedLength_of_prefixed hrefl (List.prefix_append _ _)]
  rw [correlate_of_ne_nil hne, hscopes]
  refine ⟨_, Prod.ext rfl ?_, assignLevels_targets target _ brackets, ?_, ?_⟩
  · rw [assignLevels_rest (Nat.le_of_eq hlength), hlength, Nat.sub_self, List.drop_zero]
  · intro level hlevel
    have hkind := List.mem_map_of_mem (f := fun l : IndexLevel α => l.outcome.kind) hlevel
    rw [assignLevels_kinds (Nat.le_of_eq hlength), hlength, Nat.sub_self, Nat.zero_min,
      Nat.zero_sub, List.replicate_zero, List.nil_append, List.replicate_zero,
      List.append_nil] at hkind
    exact List.eq_of_mem_replicate hkind
  · intro hextra
    rw [implicitScopes_of_prefixed hrefl hextra]
    exact assignLevels_self target brackets

/-- A reference with fewer brackets than loops, from inside all of them, takes
every index from the loops around it and reports nothing. -/
theorem refer_of_prefixed {m : SymbolModel} {site : Origin} {symbol : Symbol} {referent : Referent}
    (hreferent : symbol.kind.referent? = some referent)
    (hrefl : ∀ t ∈ m.loopsOf symbol, m.sameLoop t t = true) {extra : List LoopDescriptor}
    (hsite : m.enclosingLoops site.id = m.loopsOf symbol ++ extra) {brackets : List Bracket}
    (hfew : brackets.length < (m.loopsOf symbol).length) (name : String) :
    ∃ context : ReferenceContext,
      (refer m site name symbol brackets).value =
        some (.access site symbol referent (some context), brackets) ∧
      (refer m site name symbol brackets).reports = [] ∧
      context.levels.map (·.target) = (m.loopsOf symbol).map (·.id) ∧
      (∀ level ∈ context.levels, level.outcome.kind = .implicit) ∧
      ((∀ t ∈ m.loopsOf symbol, ∀ l ∈ extra, m.sameLoop l t = false) →
        context.levels = (m.loopsOf symbol).map fun t => ⟨t.id, .implicit t.id t.index⟩) := by
  obtain ⟨context, hcorrelate, htargets, hkinds, hlevels⟩ := correlate_of_prefixed hrefl hfew extra
  have hvalue : (refer m site name symbol brackets).value =
      some (.access site symbol referent (some context), brackets) := by
    have hsome : (refer m site name symbol brackets).value ≠ none := by
      rw [Ne, refer_eq_none_iff]
      intro hkind
      rw [hkind] at hreferent
      cases hreferent
    obtain ⟨⟨op, rest⟩, hrefer⟩ := Option.ne_none_iff_exists'.1 hsome
    rw [hrefer]
    cases referred_of_refer hrefer with
    | parameter hkind | loopVariable hkind =>
        rw [hkind] at hreferent
        cases hreferent
    | access hreferent' hcorrelate' =>
        obtain rfl := Option.some.inj (hreferent.symm.trans hreferent')
        rw [hsite, hcorrelate] at hcorrelate'
        obtain ⟨rfl, rfl⟩ := Prod.mk.inj hcorrelate'
        rfl
  have hnone : context.firstUnresolved? = none := by
    rw [IndexContext.firstUnresolved?, List.find?_eq_none]
    intro level hlevel
    rw [hkinds level hlevel]
    decide
  refine ⟨context, hvalue, ?_, htargets, hkinds, hlevels⟩
  rw [refer_reports hvalue, Operation.context?, Option.bind_some, hnone]
  rfl

/-! ## Inside an instance -/

/-- The loops around the nodes of an expression begin with those around the
expression. -/
theorem Expr.prefix_of_mem_located {outer : List LoopDescriptor} {e : Expr}
    {n : Expr × List LoopDescriptor} (hn : n ∈ e.located outer) : outer <+: n.2 := by
  induction e using Expr.induction generalizing outer with
  | step e ih =>
      rw [located_eq, List.mem_cons, List.mem_flatMap] at hn
      rcases hn with rfl | ⟨c, hc, hn⟩
      · exact List.prefix_refl _
      · have hchain := ih c.1 (mem_children_of_mem_childrenIn hc) hn
        rcases childrenIn_cases hc with heq | ⟨l, -, heq⟩
        · rwa [heq] at hchain
        · rw [heq] at hchain
          exact (List.prefix_append _ _).trans hchain

theorem Expr.bracketed_instanceBody_subset (e : Expr) :
    e.instanceBody.bracketed [] ⊆ e.bracketed [] := by
  cases e with
  | loop o item index source body =>
      intro r hr
      rw [bracketed_plain rfl]
      exact List.mem_flatMap.2 ⟨body, List.mem_cons_of_mem _ List.mem_cons_self, hr⟩
  | _ => exact List.Subset.refl _

namespace Declaration

/-- The expressions that stand in the instances of a resource or module: the
body of its loop, or its value if it has no loop, and the values of the
declarations nested in it. -/
def instanceBodies (d : Declaration) : List Expr :=
  (d.value.map Expr.instanceBody).toList ++ (d.children.flatMap flatten).filterMap (·.value)

/-- The loops around a nested declaration begin with those around the
declaration. -/
theorem prefix_of_mem_placements {d : Declaration} {parent : Option String}
    {outer : List LoopDescriptor} {placed : PlacedDeclaration}
    (h : placed ∈ d.placements parent outer) : outer <+: placed.outer := by
  induction d using Declaration.induction generalizing parent outer with
  | step d ih =>
      rw [placements_eq, List.mem_cons, List.mem_flatMap] at h
      rcases h with rfl | ⟨c, hc, h⟩
      · exact List.prefix_refl _
      · exact (List.prefix_append _ _).trans (ih c hc h)

end Declaration

namespace BoundProgram

variable {p : BoundProgram}

/-- Nested declarations have their places inside the loops of the
declaration. -/
theorem exists_placed_of_nested {d : PlacedDeclaration} (hd : d ∈ p.placements)
    {e : Declaration} (he : e ∈ d.declaration.children.flatMap Declaration.flatten) :
    ∃ inner ∈ p.placements, inner.declaration = e ∧ d.loops <+: inner.outer := by
  obtain ⟨c, hc, he⟩ := List.mem_flatMap.1 he
  rw [← Declaration.map_declaration_placements (some d.name) d.loops] at he
  obtain ⟨inner, hinner, rfl⟩ := List.mem_map.1 he
  have hmem := placements_children_subset hd (List.mem_flatMap.2 ⟨c, hc, hinner⟩)
  exact ⟨inner, hmem, rfl, Declaration.prefix_of_mem_placements hinner⟩

/-- What stands in the instances of a resource or module stands inside all its
loops. -/
theorem located_of_mem_instanceBodies {d : PlacedDeclaration} (hd : d ∈ p.placements)
    (hkind : d.declaration.kind.isReplicable = true) {body : Expr}
    (hbody : body ∈ d.declaration.instanceBodies) :
    ∃ outer, d.loops <+: outer ∧ body.located outer ⊆ p.located := by
  rcases List.mem_append.1 hbody with hbody | hbody
  · obtain ⟨value, hvalue, rfl⟩ := Option.map_eq_some_iff.1 (Option.mem_toList.1 hbody)
    exact ⟨d.loops, List.prefix_refl _, located_instanceBody_subset hd hkind hvalue⟩
  · obtain ⟨e, he, hvalue⟩ := List.mem_filterMap.1 hbody
    obtain ⟨inner, hinner, rfl, hprefix⟩ := exists_placed_of_nested hd he
    exact ⟨inner.outer, hprefix, located_value_subset hinner hvalue⟩

/-- A reference from inside an instance is a reference of the unit. -/
theorem bracketed_subset_of_mem_instanceBodies {d : Declaration} (hd : d ∈ p.allDeclarations)
    {body : Expr} (hbody : body ∈ d.instanceBodies) :
    body.bracketed [] ⊆ p.bracketedReferences := by
  intro r hr
  rcases List.mem_append.1 hbody with hbody | hbody
  · obtain ⟨value, hvalue, rfl⟩ := Option.map_eq_some_iff.1 (Option.mem_toList.1 hbody)
    exact mem_bracketedReferences hd hvalue (value.bracketed_instanceBody_subset hr)
  · obtain ⟨e, he, hvalue⟩ := List.mem_filterMap.1 hbody
    obtain ⟨placed, hplaced, rfl⟩ := mem_allDeclarations.1 hd
    obtain ⟨inner, hinner, rfl, -⟩ := exists_placed_of_nested hplaced he
    exact mem_bracketedReferences (mem_allDeclarations.2 ⟨inner, hinner, rfl⟩) hvalue hr

section

variable (h : p.reusedIds = [])

include h

/-- **The loops around a reference from inside an instance** begin with those
of the declaration. -/
theorem prefix_of_mem_instanceBodies {d : Declaration} (hd : d ∈ p.allDeclarations)
    (hkind : d.kind.isReplicable = true) {s : Symbol} (hs : p.bind.declaredSymbol d.id = some s)
    {body : Expr} (hbody : body ∈ d.instanceBodies) {r : BracketedReference}
    (hr : r ∈ body.bracketed []) :
    s.loops <+: p.bind.enclosingLoops r.site.id ∧ p.Chain (p.bind.enclosingLoops r.site.id) := by
  obtain ⟨s', placed, hs', hplaced, rfl, hentity⟩ := exists_declaredSymbol h hd
  obtain rfl := Option.some.inj (hs.symm.trans hs')
  have hloops : s.loops = placed.loops := by
    rw [hentity]
    rfl
  obtain ⟨outer, houter, hlocated⟩ := located_of_mem_instanceBodies hplaced hkind hbody
  have hnode := List.mem_map_of_mem (f := BracketedReference.node) hr
  rw [Expr.map_node_bracketed] at hnode
  have hnode := List.mem_of_mem_filter hnode
  rw [← Expr.map_fst_located outer, List.mem_map] at hnode
  obtain ⟨⟨n, chain⟩, hmem, rfl⟩ := hnode
  have henclosing : p.bind.enclosingLoops r.site.id = chain :=
    enclosingLoops_eq h (hlocated hmem)
  rw [henclosing, hloops]
  exact ⟨houter.trans (Expr.prefix_of_mem_located hmem), chain_located (hlocated hmem)⟩

/-- A resource or module is referred to by an access, with a context if it has
loops. -/
theorem referent_of_isReplicable {d : Declaration} (hd : d ∈ p.allDeclarations)
    (hkind : d.kind.isReplicable = true) {s : Symbol}
    (hs : p.bind.declaredSymbol d.id = some s) : ∃ referent, s.kind.referent? = some referent := by
  obtain ⟨s', placed, hs', -, rfl, hentity⟩ := exists_declaredSymbol h hd
  obtain rfl := Option.some.inj (hs.symm.trans hs')
  have hentityKind : s.kind = (placed.kindAndType p.targetScope).1 := by
    rw [hentity]
    rfl
  rw [hentityKind, PlacedDeclaration.kindAndType]
  cases hdeclared : placed.declaration.kind with
  | resource | module => exact ⟨_, rfl⟩
  | _ =>
      rw [hdeclared] at hkind
      cases hkind

/-- The reference `r` from inside an instance of `s`: whatever brackets are
lowered for it, `refer` leaves them alone. -/
theorem refer_of_mem_instanceBodies {d : Declaration} (hd : d ∈ p.allDeclarations)
    (hkind : d.kind.isReplicable = true) {s : Symbol} (hs : p.bind.declaredSymbol d.id = some s)
    {body : Expr} (hbody : body ∈ d.instanceBodies) {r : BracketedReference}
    (hr : r ∈ body.bracketed []) (hfew : r.brackets.length < s.loops.length)
    {brackets : List Bracket} (hlowered : r.lowered p.bind.model = some brackets) :
    ∃ referent, ∃ context : ReferenceContext,
      (refer p.bind.model r.site r.name s brackets).value =
        some (.access r.site s referent (some context), brackets) ∧
      (refer p.bind.model r.site r.name s brackets).reports = [] ∧
      context.levels.map (·.target) = s.loops.map (·.id) ∧
      (∀ level ∈ context.levels, level.outcome.kind = .implicit) ∧
      ((∀ l ∈ p.bind.enclosingLoops r.site.id, l ∉ s.loops → ∀ t ∈ s.loops,
          p.bind.model.sameLoop l t = false) →
        context.levels = s.loops.map fun t => ⟨t.id, .implicit t.id t.index⟩) := by
  obtain ⟨referent, hreferent⟩ := referent_of_isReplicable h hd hkind hs
  obtain ⟨⟨extra, hsite⟩, hchain⟩ := prefix_of_mem_instanceBodies h hd hkind hs hbody hr
  have hrefl : ∀ t ∈ s.loops, p.bind.model.sameLoop t t = true :=
    fun t _ => Scoping.sameLoop_of_id_eq rfl
  have hlength : brackets.length < s.loops.length := by
    have hmap := congrArg List.length (allPresent_eq_some_iff.1 hlowered)
    rw [List.length_map, List.length_map] at hmap
    omega
  obtain ⟨context, hvalue, hreports, htargets, hkinds, hlevels⟩ :=
    refer_of_prefixed (m := p.bind.model) hreferent hrefl hsite.symm hlength r.name
  refine ⟨referent, context, hvalue, hreports, htargets, hkinds, fun hothers => hlevels ?_⟩
  -- No loop stands inside itself, so the further loops are none of the symbol.
  have hnodup := hchain.nodup h
  rw [← hsite, List.map_append, List.nodup_append] at hnodup
  intro t ht l hl
  refine hothers l ?_ (fun hmem => ?_) t ht
  · rw [← hsite]
    exact List.mem_append_right _ hl
  · exact hnodup.2.2 _ (List.mem_map_of_mem hmem) _ (List.mem_map_of_mem hl) rfl

/-- **References from inside an instance mean that instance.**  Let a reference
to a resource or module stand in the body of its own loop, or anywhere in its
value if it has none, or in the value of a declaration nested in it; and let it
have fewer brackets than the resource or module has loops.  Then nothing is
reported on it.  If it has an operation, every loop of the resource or module
is indexed by a loop around the reference, and all brackets are accesses around
the operation.  Each loop is indexed by itself, unless a further loop around
the reference is the same loop as one of them. -/
theorem ownInstance_implicit :
    (p.lower p.bind.model).diagnostics.Perm
      (p.bracketedReferences.flatMap (·.reports p.bind.model)) ∧
    ∀ d ∈ p.allDeclarations, d.kind.isReplicable = true →
      ∀ s, p.bind.model.declaredSymbol d.id = some s →
      ∀ body ∈ d.instanceBodies, ∀ r ∈ body.bracketed [],
        p.bind.model.lookup r.name r.site.id = some s →
        r.brackets.length < s.loops.length →
          r ∈ p.bracketedReferences ∧ r.reports p.bind.model = [] ∧
          ∀ op ∈ (p.lower p.bind.model).operations, op.id = r.site.id → op.symbol? = some s ∧
            ∃ context brackets, op.context? = some context ∧
              context.levels.map (·.target) = s.loops.map (·.id) ∧
              (∀ level ∈ context.levels, level.outcome.kind = .implicit) ∧
              List.Forall₂ (fun b b' => b'.access = b.access ∧
                (b.index.lower p.bind.model).value = some b'.index) r.brackets brackets ∧
              op.withBrackets brackets ∈ (p.lower p.bind.model).operations ∧
              ((∀ l ∈ p.bind.enclosingLoops r.site.id, l ∉ s.loops → ∀ t ∈ s.loops,
                  p.bind.model.sameLoop l t = false) →
                context.levels = s.loops.map fun t => ⟨t.id, .implicit t.id t.index⟩) := by
  refine ⟨perm_diagnostics h, ?_⟩
  intro d hd hkind s hs body hbody r hr hlookup hfew
  have hmem := bracketed_subset_of_mem_instanceBodies hd hbody hr
  refine ⟨hmem, ?_, fun op hop hid => ?_⟩
  · rw [BracketedReference.reports, hlookup]
    dsimp only
    cases hlowered : r.lowered p.bind.model with
    | none => rfl
    | some brackets =>
        obtain ⟨_, _, -, hreports, -⟩ :=
          refer_of_mem_instanceBodies h hd hkind hs hbody hr hfew hlowered
        exact hreports
  · obtain ⟨s', brackets, rest, hlookup', hlowered, hrefer, hwith⟩ := exists_refer h hmem hop hid
    obtain rfl := Option.some.inj (hlookup.symm.trans hlookup')
    obtain ⟨referent, context, hvalue, -, htargets, hkinds, hlevels⟩ :=
      refer_of_mem_instanceBodies h hd hkind hs hbody hr hfew hlowered
    obtain ⟨rfl, rfl⟩ := Prod.mk.inj (Option.some.inj (hrefer.symm.trans hvalue))
    refine ⟨rfl, context, rest, rfl, htargets, hkinds, ?_, hwith, hlevels⟩
    have hbrackets := allPresent_eq_some_iff.1 hlowered
    rw [← List.forall₂_eq_eq_eq, List.forall₂_map_left_iff, List.forall₂_map_right_iff]
      at hbrackets
    refine hbrackets.imp fun b b' hb => ?_
    obtain ⟨index, hindex, rfl⟩ := Option.map_eq_some_iff.1 hb
    exact ⟨rfl, hindex⟩

end

open Assembly in
/-- A looped storage account with a looped container nested in it, which refers
to itself with one index. -/
def selfReferring : BoundProgram :=
  let unit : Assembly BoundProgram := do
    let accounts ← declare "accounts" (.parameter .any) none
    let source ← reference "accounts"
    let body ← object []
    let value ← loop "a" none source body
    let storage ← Scenario.resource "storage" Scenario.storageType value
    let account ← reference "a"
    let source ← property account "containers"
    let all ← reference "storage::blob"
    let zero ← int 0
    let first ← element all zero
    let value ← loop "c" none source first
    let blob ← Scenario.resource "blob" Scenario.storageType value
    return .ofDeclarations [accounts, { storage with children := [blob] }]
  (unit.run 0).1

/-- The reference to the container from inside it, with its bracket. -/
def selfReference : BracketedReference :=
  ⟨.numbered 7, "storage::blob", [⟨.numbered 9, .literal (.numbered 8) (.int 0)⟩]⟩

/-- The container that the reference means is its own, and the index is that of
an access of this container. -/
theorem ownInstance_implicit_of_selfReferring :
    selfReferring.reusedIds = [] ∧
    selfReference.reports selfReferring.bind.model = [] ∧
    ∃ op ∈ (selfReferring.lower selfReferring.bind.model).operations,
      ∃ context bracket, op.context? = some context ∧
        context.levels = [⟨⟨⟨3⟩⟩, .implicit ⟨⟨3⟩⟩ none⟩, ⟨⟨⟨10⟩⟩, .implicit ⟨⟨10⟩⟩ none⟩] ∧
        op.withBrackets [bracket] ∈
          (selfReferring.lower selfReferring.bind.model).operations := by
  have h : selfReferring.reusedIds = [] := by decide
  have hlength : ((selfReferring.lower selfReferring.bind.model).roots.flatMap
      Operation.preorder).length = 9 := by decide
  obtain ⟨op, hop, hid⟩ : ∃ op ∈ (selfReferring.lower selfReferring.bind.model).operations,
      op.id = ⟨7⟩ := by
    rw [OperationGraph.operations, Operation.drain_eq]
    exact ⟨_, List.getElem_mem (hlength ▸ by decide : 7 < _), rfl⟩
  have hr : selfReference ∈ (Expr.element (.numbered 9) (.reference (.numbered 7) "storage::blob")
      (.literal (.numbered 8) (.int 0))).bracketed [] := by
    rw [Expr.bracketed_element, Expr.bracketed_reference]
    exact List.mem_append_left _ (List.mem_singleton.2 rfl)
  have hd : selfReferring.allDeclarations[2]? = some _ := rfl
  obtain ⟨-, hreports, hops⟩ := (ownInstance_implicit h).2 _ (List.mem_of_getElem? hd) rfl _ rfl _
    List.mem_cons_self selfReference hr rfl (by decide)
  obtain ⟨-, context, brackets, hcontext, -, -, hbrackets, hwith, hlevels⟩ := hops op hop hid
  refine ⟨h, hreports, op, hop, context, ?_⟩
  cases hbrackets with
  | @cons _ bracket _ _ _ hrest =>
      cases hrest
      exact ⟨bracket, hcontext, hlevels fun l hl hnot => absurd hl hnot, hwith⟩

end BoundProgram

end InfraGraph
