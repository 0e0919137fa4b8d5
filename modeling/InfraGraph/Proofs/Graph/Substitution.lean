import InfraGraph.Proofs.Graph.Declarations
import InfraGraph.Proofs.Symbol.SameLoop
import InfraGraph.Scenario

/-!
# Which instance implicit indices mean

An implicit index takes the iteration of a loop around the reference in the
place of a loop of the symbol.  The loops of a symbol may depend on one
another, as the inner one of `for a in accounts` and `for c in a.containers`
does, and then so do the loops that take their places: what the source of the
one means by an outer loop, the source of the other means by a loop around it
that is the same loop.

That need not be the loop taken for the outer level.  Each level takes the
innermost loop that leaves room for the levels inside it, and if the same loop
stands around a reference twice, the source may be about the outer of the two.
The index then names the instance of another iteration.

## Main results

* `Correlated.findLast?_eq` — which loop a level takes.
* `source_of_substitutes` — what the sources of substituted loops mean.
* `not_coherent` — a reference with levels of different instances.
-/

namespace InfraGraph

/-- Level `k` of a reference takes the iteration of the loop `site` around it
in the place of the loop `target` of its symbol. -/
def Substitutes (m : SymbolModel) (op : Operation) (k : Nat) (target site : LoopDescriptor) :
    Prop :=
  ∃ symbol context, op.symbol? = some symbol ∧ op.context? = some context ∧
    (m.loopsOf symbol)[k]? = some target ∧
    context.levels[k]? = some ⟨target.id, .implicit site.id site.index⟩ ∧
    m.enclosingLoop? op.id site.id = some site

namespace BoundProgram

/-- What is known of the loops of a reference: the loops `target` of its
symbol, the loops `site` around it, and the loops `scopes` that were taken
from these. -/
structure Correlated (p : BoundProgram) (op : Operation)
    (target site scopes : List LoopDescriptor) : Prop where
  target_chain : p.Chain target
  site_chain : p.Chain site
  site_eq : p.bind.enclosingLoops op.id = site
  length_le : scopes.length ≤ target.length
  innermost : Innermost p.bind.model.sameLoop (target.take scopes.length) site scopes
  substitutes_iff : ∀ k t s, Substitutes p.bind.model op k t s ↔
    target[k]? = some t ∧ scopes[k]? = some s

variable {p : BoundProgram}

theorem innermost_scopesFor {same : LoopDescriptor → LoopDescriptor → Bool}
    (target site : List LoopDescriptor) (brackets : List Bracket) :
    Innermost same (target.take (scopesFor same target site brackets).length) site
      (scopesFor same target site brackets) := by
  by_cases hfull : target.length ≤ brackets.length
  · have hscopes : scopesFor same target site brackets = [] := if_pos hfull
    rw [hscopes]
    exact .nil
  · have hscopes : scopesFor same target site brackets = implicitScopes same target site :=
      if_neg hfull
    rw [hscopes, length_implicitScopes]
    exact innermost_implicitScopes target site

/-- If the implicit levels of a context are those for which a loop was taken,
these are the loops that are substituted. -/
theorem substitutes_iff {m : SymbolModel} {op : Operation} {symbol : Symbol}
    {context : ReferenceContext} {scopes : List LoopDescriptor}
    (hsymbol : op.symbol? = some symbol) (hcontext : op.context? = some context)
    (hlevel : ∀ (k : Nat) (level : IndexLevel Operation),
      (context.levels[k]? = some level ∧ level.outcome.kind = .implicit) ↔
        ∃ t s : LoopDescriptor, (m.loopsOf symbol)[k]? = some t ∧ scopes[k]? = some s ∧
          level = ⟨t.id, .ofScope s⟩)
    (hfind : ∀ s ∈ scopes, m.enclosingLoop? op.id s.id = some s) (k : Nat)
    (t s : LoopDescriptor) :
    Substitutes m op k t s ↔ (m.loopsOf symbol)[k]? = some t ∧ scopes[k]? = some s := by
  constructor
  · rintro ⟨symbol', context', hsymbol', hcontext', htarget, hat, hfound⟩
    obtain rfl := Option.some.inj (hsymbol.symm.trans hsymbol')
    obtain rfl := Option.some.inj (hcontext.symm.trans hcontext')
    obtain ⟨t', s', -, hs', heq⟩ := (hlevel k _).1 ⟨hat, rfl⟩
    have hid : s.id = s'.id := by
      have houtcome := congrArg IndexLevel.outcome heq
      exact (IndexOutcome.implicit.inj houtcome).1
    rw [hid, hfind s' (List.mem_of_getElem? hs')] at hfound
    obtain rfl := Option.some.inj hfound
    exact ⟨htarget, hs'⟩
  · rintro ⟨ht, hs⟩
    have hat := ((hlevel k _).2 ⟨t, s, ht, hs, rfl⟩).1
    exact ⟨symbol, context, hsymbol, hcontext, ht, hat, hfind s (List.mem_of_getElem? hs)⟩

section

variable (h : p.reusedIds = [])

include h

/-- Every indexed reference is correlated, and its implicit levels are those
for which a loop was taken. -/
theorem exists_correlated {op : Operation} (hop : op ∈ (p.lower p.bind.model).operations)
    {context : ReferenceContext} (hcontext : op.context? = some context) :
    ∃ target site scopes : List LoopDescriptor, p.Correlated op target site scopes ∧
      ∀ (k : Nat) (level : IndexLevel Operation), context.levels[k]? = some level →
        level.outcome.kind = .implicit →
          ∃ t s : LoopDescriptor, target[k]? = some t ∧ scopes[k]? = some s ∧
            level = ⟨t.id, .implicit s.id s.index⟩ := by
  obtain ⟨symbol, name, brackets, rest, hsymbol, hnode, hlookup, hcorrelate⟩ :=
    correlated_of_context hop hcontext
  obtain ⟨site, hsite⟩ := exists_located hnode
  have hloops : p.bind.model.enclosingLoops op.id = site := enclosingLoops_eq h hsite
  have hloopsOf : p.bind.model.loopsOf symbol = symbol.loops := rfl
  have hchain : p.Chain site := chain_located hsite
  rw [hloops, hloopsOf] at hcorrelate
  have hinnermost := @innermost_scopesFor p.bind.model.sameLoop symbol.loops site brackets
  have hle := @length_scopesFor_le _ p.bind.model.sameLoop symbol.loops site brackets
  have hlevel := fun k level => @implicit_level_iff _ _ _ _ _ _ _ hcorrelate k level
  generalize scopesFor p.bind.model.sameLoop symbol.loops site brackets = scopes
    at hinnermost hle hlevel
  have hfind : ∀ s ∈ scopes, p.bind.model.enclosingLoop? op.id s.id = some s := by
    intro s hs
    rw [Scoping.enclosingLoop?, hloops]
    exact hchain.find? h (hinnermost.subset hs)
  have hsubstitutes := substitutes_iff hsymbol hcontext hlevel hfind
  have htarget : p.Chain symbol.loops := chain_loops (Binding.mem_symbols_of_lookup hlookup)
  exact ⟨symbol.loops, site, scopes, ⟨htarget, hchain, hloops, hle, hinnermost, hsubstitutes⟩,
    fun k level hmem hkind => (hlevel k level).1 ⟨hmem, hkind⟩⟩

namespace Correlated

variable {op : Operation} {target site scopes : List LoopDescriptor}

/-- A loop that was taken from the site stands where the site says, and the
levels before it were taken from the loops around it. -/
theorem split (hc : p.Correlated op target site scopes) {k : Nat} {t s : LoopDescriptor}
    (hk : Substitutes p.bind.model op k t s) :
    ∃ outer inner n, site = outer ++ s :: inner ∧ (n, outer) ∈ p.located ∧
      LoopDescriptor.ofExpr? n = some s ∧ p.bind.model.enclosingLoops s.id.node = outer ∧
      p.bind.model.sameLoop s t = true ∧
      Innermost p.bind.model.sameLoop (target.take k) outer (scopes.take k) := by
  obtain ⟨ht, hs⟩ := (hc.substitutes_iff k t s).1 hk
  have hlt := (List.getElem?_eq_some_iff.1 hs).1
  have ht' : (target.take scopes.length)[k]? = some t := by
    rw [List.getElem?_take_of_lt hlt, ht]
  obtain ⟨outer, inner, hsplit, hsame, hinnermost⟩ := hc.innermost.split ht' hs
  obtain ⟨-, n, hn, hloop⟩ := (hsplit ▸ hc.site_chain).split
  have hid : s.id.node = n.id := by
    rw [LoopDescriptor.id_of_ofExpr? hloop]
  rw [List.take_take, Nat.min_eq_left (Nat.le_of_lt hlt)] at hinnermost
  refine ⟨outer, inner, n, hsplit, hn, hloop, ?_, hsame, hinnermost⟩
  rw [hid]
  exact enclosingLoops_eq h hn

omit h in
/-- Levels are implicit from the outside. -/
theorem exists_of_lt (hc : p.Correlated op target site scopes) {i j : Nat}
    {t s : LoopDescriptor} (hij : i < j) (hj : Substitutes p.bind.model op j t s) :
    ∃ t' s', Substitutes p.bind.model op (i + 1) t' s' := by
  obtain ⟨-, hs⟩ := (hc.substitutes_iff j t s).1 hj
  have hlt := (List.getElem?_eq_some_iff.1 hs).1
  have hle := hc.length_le
  exact ⟨target[i + 1], scopes[i + 1], (hc.substitutes_iff _ _ _).2
    ⟨List.getElem?_eq_getElem (by omega), List.getElem?_eq_getElem (by omega)⟩⟩

/-- **Each level takes the innermost loop that leaves room** for the level
inside it. -/
theorem findLast?_eq (hc : p.Correlated op target site scopes) {i : Nat}
    {t s t' s' : LoopDescriptor} (hi : Substitutes p.bind.model op i t s)
    (hnext : Substitutes p.bind.model op (i + 1) t' s') :
    findLast? (p.bind.model.sameLoop · t) (p.bind.model.enclosingLoops s'.id.node) = some s := by
  obtain ⟨outer, -, -, -, -, -, henclosing, -, hinnermost⟩ := hc.split h hnext
  obtain ⟨ht, hs⟩ := (hc.substitutes_iff i t s).1 hi
  rw [List.take_add_one, List.take_add_one, ht, hs] at hinnermost
  obtain ⟨before, after, rfl, hsame, hafter⟩ := hinnermost.last
  rw [henclosing]
  exact findLast?_append_cons before hsame hafter

end Correlated

/-- **What the sources of substituted loops mean.**  If a loop of the symbol
depends on one further out, then the loop substituted for it depends, in the
same place and role, on a loop around it that is the same as the one further
out.  It depends on the loop substituted for that one exactly if the loop it
depends on is the innermost of its kind that leaves room for the levels
between. -/
theorem source_of_substitutes {op : Operation} (hop : op ∈ (p.lower p.bind.model).operations)
    {i j : Nat} {tᵢ sᵢ tⱼ sⱼ : LoopDescriptor} (hij : i < j)
    (hi : Substitutes p.bind.model op i tᵢ sᵢ) (hj : Substitutes p.bind.model op j tⱼ sⱼ)
    {k : Nat} {x : Expr} {v : Symbol} {role : LoopRole} (hx : tⱼ.source.references[k]? = some x)
    (hv : p.bind.model.resolve x = some v) (hkind : v.kind = .loopVariable tᵢ.id role) :
    ∃ y w u t s, sⱼ.source.references[k]? = some y ∧ p.bind.model.resolve y = some w ∧
      w.kind = .loopVariable u.id role ∧ u ∈ p.bind.model.enclosingLoops sⱼ.id.node ∧
      p.bind.model.sameLoop u tᵢ = true ∧ Substitutes p.bind.model op (i + 1) t s ∧
      (w.kind = .loopVariable sᵢ.id role ↔
        findLast? (p.bind.model.sameLoop · tᵢ) (p.bind.model.enclosingLoops s.id.node) =
          some u) := by
  obtain ⟨symbol, context, hsymbol, hcontext, -⟩ := id hi
  obtain ⟨target, site, scopes, hc, -⟩ := exists_correlated h hop hcontext
  obtain ⟨t, s, hnext⟩ := hc.exists_of_lt hij hj
  obtain ⟨outer, inner, n, hsplit, hn, hloop, henclosing, hsame, -⟩ := hc.split h hj
  obtain ⟨htⱼ, -⟩ := (hc.substitutes_iff j tⱼ sⱼ).1 hj
  obtain ⟨htᵢ, hscopeᵢ⟩ := (hc.substitutes_iff i tᵢ sᵢ).1 hi
  -- The loop of the symbol stands inside those before it, as does the one taken for it.
  have htarget : p.Chain (target.take j ++ tⱼ :: target.drop (j + 1)) := by
    obtain ⟨hlt, heq⟩ := List.getElem?_eq_some_iff.1 htⱼ
    rw [← heq, ← List.drop_eq_getElem_cons hlt, List.take_append_drop]
    exact hc.target_chain
  obtain ⟨-, n', hn', hloop'⟩ := htarget.split
  have hmem : tᵢ ∈ target.take j := by
    refine List.mem_of_getElem? (i := i) ?_
    rw [List.getElem?_take_of_lt hij, htᵢ]
  obtain ⟨y, w, u, hy, hw, hwkind, hu, husame⟩ :=
    outer_of_sameLoop h hn hloop hn' hloop' hsame hx hv hkind hmem
  refine ⟨y, w, u, t, s, hy, hw, hwkind, ?_, husame, hnext, ?_⟩
  · rwa [henclosing]
  · rw [hc.findLast?_eq h hi hnext]
    constructor
    · intro hwkind'
      have hid : sᵢ.id = u.id := (SymbolKind.loopVariable.inj (hwkind'.symm.trans hwkind)).1
      have hsᵢ : sᵢ ∈ site := hc.innermost.subset (List.mem_of_getElem? hscopeᵢ)
      have husite : u ∈ site := by
        rw [hsplit]
        exact List.mem_append_left _ hu
      exact congrArg some (List.inj_on_of_nodup_map (hc.site_chain.nodup h) hsᵢ husite hid)
    · intro heq
      rw [hwkind, Option.some.inj heq]

/-- Every implicit level has its two loops. -/
theorem exists_substitutes {op : Operation} (hop : op ∈ (p.lower p.bind.model).operations)
    {context : ReferenceContext} (hcontext : op.context? = some context) {k : Nat}
    {level : IndexLevel Operation} (hlevel : context.levels[k]? = some level)
    (hkind : level.outcome.kind = .implicit) :
    ∃ t s, Substitutes p.bind.model op k t s ∧ level = ⟨t.id, .implicit s.id s.index⟩ := by
  obtain ⟨target, site, scopes, hc, hlevels⟩ := exists_correlated h hop hcontext
  obtain ⟨t, s, ht, hs, heq⟩ := hlevels k level hlevel hkind
  exact ⟨t, s, (hc.substitutes_iff k t s).2 ⟨ht, hs⟩, heq⟩

end

/-- **What implicit indices mean.**  Every implicit level of a reference takes
one loop around the reference for one loop of the symbol.  If a loop of the
symbol depends on one further out, then the loop taken for it depends, in the
same place and role, on a loop around it that is the same as the one further
out; and that is the loop taken for the one further out exactly if it is the
innermost that leaves room for the levels inside. -/
theorem implicit_levels (p : BoundProgram) (h : p.reusedIds = []) :
    let m := p.bind.model
    ∀ op ∈ (p.lower m).operations,
      (∀ (context : ReferenceContext) (k : Nat) (level : IndexLevel Operation),
        op.context? = some context → context.levels[k]? = some level →
          level.outcome.kind = .implicit →
            ∃ t s, Substitutes m op k t s ∧ level = ⟨t.id, .implicit s.id s.index⟩) ∧
      ∀ (i j : Nat) (tᵢ sᵢ tⱼ sⱼ : LoopDescriptor), i < j →
        Substitutes m op i tᵢ sᵢ → Substitutes m op j tⱼ sⱼ →
          ∀ (k : Nat) (x : Expr) (v : Symbol) (role : LoopRole),
            tⱼ.source.references[k]? = some x → m.resolve x = some v →
              v.kind = .loopVariable tᵢ.id role →
                ∃ y w u t s, sⱼ.source.references[k]? = some y ∧ m.resolve y = some w ∧
                  w.kind = .loopVariable u.id role ∧ u ∈ m.enclosingLoops sⱼ.id.node ∧
                  m.sameLoop u tᵢ = true ∧ Substitutes m op (i + 1) t s ∧
                  (w.kind = .loopVariable sᵢ.id role ↔
                    findLast? (m.sameLoop · tᵢ) (m.enclosingLoops s.id.node) = some u) := by
  intro m op hop
  constructor
  · intro context k level hcontext hlevel hkind
    exact exists_substitutes h hop hcontext hlevel hkind
  · intro i j tᵢ sᵢ tⱼ sⱼ hij hi hj k x v role hx hv hkind
    exact source_of_substitutes h hop hij hi hj hx hv hkind

/-! ## Levels of different instances -/

/-- Whether the implicit indices of every reference name one instance: what a
loop of the symbol takes from one further out, the loop substituted for it
takes from the loop substituted for that one. -/
def Coherent (p : BoundProgram) : Prop :=
  ∀ op ∈ (p.lower p.bind.model).operations, ∀ (i j : Nat) (tᵢ sᵢ tⱼ sⱼ : LoopDescriptor), i < j →
    Substitutes p.bind.model op i tᵢ sᵢ → Substitutes p.bind.model op j tⱼ sⱼ →
      ∀ (k : Nat) (x : Expr) (v : Symbol) (role : LoopRole),
        tⱼ.source.references[k]? = some x → p.bind.model.resolve x = some v →
          v.kind = .loopVariable tᵢ.id role → ∃ y w role', sⱼ.source.references[k]? = some y ∧
            p.bind.model.resolve y = some w ∧ w.kind = .loopVariable sᵢ.id role'

open Assembly in
/-- A unit that loops twice over the same accounts around a reference to the
containers of an account: `storage` is replicated `for a in accounts` and
`storage::blob` inside it `for c in a.containers`; the reference stands in
`for a in accounts`, `for b in accounts` and `for c in a.containers`. -/
def crossed : BoundProgram :=
  let unit : Assembly BoundProgram := do
    let accounts ← declare "accounts" (.parameter .any) none
    let source ← reference "accounts"
    let body ← object []
    let value ← loop "a" none source body
    let parent ← Scenario.resource "storage" Scenario.storageType value
    let account ← reference "a"
    let source ← property account "containers"
    let body ← object []
    let value ← loop "c" none source body
    let child ← Scenario.resource "blob" Scenario.storageType value
    let blob ← reference "storage::blob"
    let account ← reference "a"
    let source ← property account "containers"
    let value ← loop "c" none source blob
    let source ← reference "accounts"
    let value ← loop "b" none source value
    let source ← reference "accounts"
    let value ← loop "a" none source value
    let all ← Scenario.bindVariable "all" value
    return .ofDeclarations [accounts, { parent with children := [child] }, all]
  (unit.run 0).1

/-- The loops of that unit: those of the two resources, then `a`, `b` and `c`
around the reference. -/
def crossedLoops : Vector LoopDescriptor 5 :=
  ⟨(crossed.expressions.filterMap LoopDescriptor.ofExpr?).toArray, by decide⟩

/-- The reference has `b` for the account and `c` for the container. -/
theorem crossed_substitutes :
    ∃ op ∈ (crossed.lower crossed.bind.model).operations,
      Substitutes crossed.bind.model op 0 crossedLoops[0] crossedLoops[3] ∧
        Substitutes crossed.bind.model op 1 crossedLoops[1] crossedLoops[4] := by
  have hlength : ((crossed.lower crossed.bind.model).roots.flatMap Operation.preorder).length = 15 :=
    by decide
  refine ⟨((crossed.lower crossed.bind.model).roots.flatMap Operation.preorder)[14], ?_,
    ⟨_, _, rfl, rfl, rfl, rfl, rfl⟩, ⟨_, _, rfl, rfl, rfl, rfl, rfl⟩⟩
  rw [OperationGraph.operations_eq]
  exact List.getElem_mem _

/-- The container is one of `a`, not of `b`. -/
theorem not_coherent : ¬∀ p : BoundProgram, p.reusedIds = [] → p.Coherent := by
  intro hall
  obtain ⟨op, hop, hfirst, hsecond⟩ := crossed_substitutes
  obtain ⟨y, w, role, hy, hw, hkind⟩ := hall crossed (by decide) op hop 0 1 _ _ _ _ (by decide)
    hfirst hsecond 0 _ _ .item rfl rfl rfl
  have hmeans : (crossedLoops[4].source.references[0]?.bind crossed.bind.model.resolve).map
      (fun w => w.kind) = some (.loopVariable crossedLoops[2].id .item) := by decide
  rw [hy, Option.bind_some, hw, Option.map_some, hkind] at hmeans
  have hloop : crossedLoops[3].id = crossedLoops[2].id :=
    (SymbolKind.loopVariable.inj (Option.some.inj hmeans)).1
  exact absurd hloop (by decide)

/-- What is left of it there: the container is one of a loop over the accounts,
around the loop of the container. -/
theorem implicit_levels_of_crossed :
    crossed.reusedIds = [] ∧ ∃ op ∈ (crossed.lower crossed.bind.model).operations,
      ∃ y w u, crossedLoops[4].source.references[0]? = some y ∧
        crossed.bind.model.resolve y = some w ∧ w.kind = .loopVariable u.id .item ∧
        u ∈ crossed.bind.model.enclosingLoops crossedLoops[4].id.node ∧
        crossed.bind.model.sameLoop u crossedLoops[0] = true := by
  have hids : crossed.reusedIds = [] := by decide
  obtain ⟨op, hop, hfirst, hsecond⟩ := crossed_substitutes
  obtain ⟨y, w, u, -, -, hy, hw, hkind, hu, hsame, -⟩ :=
    (implicit_levels crossed hids op hop).2 0 1 _ _ _ _ (by decide) hfirst hsecond 0 _ _ .item
      rfl rfl rfl
  exact ⟨hids, op, hop, y, w, u, hy, hw, hkind, hu, hsame⟩

end BoundProgram

end InfraGraph
