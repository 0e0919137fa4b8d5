import InfraGraph.Proofs.Relabeling.Lowering
import InfraGraph.Proofs.Symbol.LexicalScope

/-!
# Binding with other labels

Two units may have nodes in common, if labels are left aside: one of them came
from the other by editing, by putting declarations elsewhere or by numbering
its nodes anew.  Each is bound on its own, and the tables that binding fills
differ all over.  What they say of a common node need not.

`BoundProgram.Corresponds` is what must be known for that: names mean the same
at the common references, seen in the tree.  The loops that both units have
around a common node are then the same to both, because what their sources
refer to stands inside common loops again.

## Main results

* `Corresponds.lookup_relabel` — common references mean the same symbol.
* `Corresponds.sameLoop_relabel` — common loops are the same or not alike.
* `Corresponds.lower_relabel` — common declarations become the same.
-/

namespace InfraGraph

/-! ## Nodes with other labels -/

section

variable (ρ : Relabeling)

namespace Expr

theorem childrenIn_relabel (outer : List LoopDescriptor) (e : Expr) :
    (e.relabel ρ).childrenIn (outer.map (LoopDescriptor.relabel ρ)) =
      (e.childrenIn outer).map (Prod.map (relabel ρ) (List.map (LoopDescriptor.relabel ρ))) := by
  have hchildren : (e.relabel ρ).children = e.children.map (relabel ρ) := children_mapOrigin _ e
  cases e with
  | loop o item index source body =>
      show [_, _] = [_, _]
      rw [Prod.map, Prod.map, List.map_append]
      rfl
  | _ =>
      show ((relabel ρ _).children.map _) = (List.map _ (children _)).map _
      rw [hchildren, List.map_map, List.map_map]
      rfl

theorem located_relabel (outer : List LoopDescriptor) (e : Expr) :
    (e.relabel ρ).located (outer.map (LoopDescriptor.relabel ρ)) =
      (e.located outer).map (Prod.map (relabel ρ) (List.map (LoopDescriptor.relabel ρ))) := by
  induction e using Expr.induction generalizing outer with
  | step e ih =>
      rw [located_eq, located_eq, childrenIn_relabel, List.map_cons, List.flatMap_map,
        List.map_flatMap]
      refine congrArg (_ :: ·) (List.flatMap_congr fun c hc => ?_)
      exact ih c.1 (mem_children_of_mem_childrenIn hc) c.2

end Expr

/-- A placed declaration with new labels. -/
def PlacedDeclaration.relabel (d : PlacedDeclaration) : PlacedDeclaration :=
  ⟨d.declaration.relabel ρ, d.name, d.outer.map (LoopDescriptor.relabel ρ)⟩

theorem Declaration.ownLoop?_relabel (d : Declaration) :
    (d.relabel ρ).ownLoop? = d.ownLoop?.map (LoopDescriptor.relabel ρ) := by
  rw [relabel_eq, ownLoop?, ownLoop?]
  cases d.kind.isReplicable with
  | false => rfl
  | true =>
      cases d.value with
      | none => rfl
      | some value => exact LoopDescriptor.ofExpr?_relabel ρ value

theorem Declaration.condition?_relabel (d : Declaration) :
    (d.relabel ρ).condition? = d.condition?.map (Expr.relabel ρ) := by
  rw [relabel_eq, condition?, condition?]
  cases d.kind.isReplicable with
  | false => rfl
  | true =>
      cases d.value with
      | none => rfl
      | some value =>
          cases value with
          | loop o item index source body => cases body <;> rfl
          | _ => rfl

namespace PlacedDeclaration

theorem loops_relabel (d : PlacedDeclaration) :
    (d.relabel ρ).loops = d.loops.map (LoopDescriptor.relabel ρ) := by
  rw [loops, relabel, Declaration.ownLoop?_relabel, loops, List.map_append]
  cases d.declaration.ownLoop? <;> rfl

theorem entity_relabel (target : DeploymentScope) (d : PlacedDeclaration) :
    (d.relabel ρ).entity target = (d.entity target).relabel ρ := by
  have hkind : (d.relabel ρ).declaration.kind = d.declaration.kind := by
    rw [relabel, Declaration.relabel_eq]
  have hkindAndType : (d.relabel ρ).kindAndType target = d.kindAndType target := by
    rw [kindAndType, kindAndType, hkind]
  have hcondition : (d.relabel ρ).declaration.condition? = _ := d.declaration.condition?_relabel ρ
  have horigin : (d.relabel ρ).declaration.origin = ρ.origin d.declaration.origin := by
    rw [relabel, Declaration.relabel_eq]
  have hloops : ((d.kindAndType target).1).relabel ρ = (d.kindAndType target).1 := by
    rw [kindAndType]
    cases d.declaration.kind <;> rfl
  rw [entity, hkindAndType, loops_relabel, hcondition, horigin, List.length_map]
  show Entity.mk .. = ⟨d.name, (d.kindAndType target).1.relabel ρ, _, _, _, _⟩
  rw [hloops]
  rfl

theorem located_relabel (d : PlacedDeclaration) :
    (d.relabel ρ).located =
      d.located.map (Prod.map (Expr.relabel ρ) (List.map (LoopDescriptor.relabel ρ))) := by
  have hvalue : (d.relabel ρ).declaration.value = d.declaration.value.map (Expr.relabel ρ) := by
    rw [relabel, Declaration.relabel_eq]
  rw [located, located, hvalue]
  cases d.declaration.value with
  | none => rfl
  | some value => exact value.located_relabel ρ d.outer

end PlacedDeclaration

end

/-! ## Nodes that two units share -/

namespace BoundProgram

/-- A node that stands inside the same loops in both units. -/
structure SharedNode (ρ : Relabeling) (p p' : BoundProgram) (n : Expr)
    (chain : List LoopDescriptor) : Prop where
  left : (n, chain) ∈ p.located
  right : (n.relabel ρ, chain.map (LoopDescriptor.relabel ρ)) ∈ p'.located

/-- A loop that stands inside the same loops in both units, and has the same
source there. -/
def SharedLoop (ρ : Relabeling) (p p' : BoundProgram) (l : LoopDescriptor) : Prop :=
  ∃ outer, p.Chain (outer ++ [l]) ∧ p'.Chain ((outer ++ [l]).map (LoopDescriptor.relabel ρ))

section

variable {ρ : Relabeling} {p p' : BoundProgram}

theorem sharedLoop_of_chain {chain : List LoopDescriptor} (h : p.Chain chain)
    (h' : p'.Chain (chain.map (LoopDescriptor.relabel ρ))) {l : LoopDescriptor} (hl : l ∈ chain) :
    SharedLoop ρ p p' l := by
  obtain ⟨outer, inner, rfl⟩ := List.append_of_mem hl
  rw [List.map_append, List.map_cons] at h'
  have h' := h'.of_append
  refine ⟨outer, h.of_append, ?_⟩
  rwa [List.map_append, List.map_singleton]

theorem SharedNode.loop {n : Expr} {chain : List LoopDescriptor} (h : SharedNode ρ p p' n chain)
    {l : LoopDescriptor} (hl : l ∈ chain) : SharedLoop ρ p p' l :=
  sharedLoop_of_chain (chain_located h.left) (chain_located h.right) hl

theorem SharedLoop.mem_copyLoops {l : LoopDescriptor} (h : SharedLoop ρ p p' l) :
    l ∈ p.copyLoops ∧ l.relabel ρ ∈ p'.copyLoops := by
  obtain ⟨outer, hchain, hchain'⟩ := h
  have hl : l ∈ outer ++ [l] := List.mem_append_right _ List.mem_cons_self
  exact ⟨hchain.subset_copyLoops hl, hchain'.subset_copyLoops (List.mem_map_of_mem hl)⟩

/-- What the source of a shared loop refers to is shared. -/
theorem SharedLoop.exists_sharedNode {l : LoopDescriptor} (h : SharedLoop ρ p p' l) {x : Expr}
    (hx : x ∈ l.source.references) : ∃ chain, SharedNode ρ p p' x chain := by
  obtain ⟨outer, hchain, hchain'⟩ := h
  obtain ⟨-, n, hn, hl⟩ := hchain.split
  rw [List.map_append, List.map_singleton] at hchain'
  obtain ⟨-, n', hn', hl'⟩ := hchain'.split
  rw [← Expr.map_fst_locatedReferences outer, List.mem_map] at hx
  obtain ⟨⟨x, chain⟩, hmem, rfl⟩ := hx
  have hsource : (x, chain) ∈ l.source.located outer := (List.mem_filter.1 hmem).1
  refine ⟨chain, located_subset_of_mem_located hn (Expr.located_source_subset hl outer hsource),
    located_subset_of_mem_located hn' (Expr.located_source_subset hl' _ ?_)⟩
  show _ ∈ (l.source.relabel ρ).located _
  rw [Expr.located_relabel]
  exact List.mem_map_of_mem hsource

end

/-! ## Units that correspond -/

/-- Two units in which names mean the same at the nodes they share, and what
they have in common has numbers that correspond. -/
structure Corresponds (ρ : Relabeling) (p p' : BoundProgram) : Prop where
  unique : p.reusedIds = []
  unique' : p'.reusedIds = []
  node_injective : ∀ n ∈ p.expressions, ∀ n' ∈ p.expressions,
    ρ.node n.id = ρ.node n'.id → n.id = n'.id
  entity_injective : ∀ s ∈ p.bind.symbols, ∀ t ∈ p.bind.symbols,
    s.toEntity.relabel ρ = t.toEntity.relabel ρ → s = t
  number : ∀ s ∈ p.bind.symbols, ∀ t ∈ p'.bind.symbols,
    t.toEntity = s.toEntity.relabel ρ → t.id = ρ.symbol s.id
  meaning : ∀ n chain name, SharedNode ρ p p' n chain → n.referenceName? = some name →
    p'.meaningInside (chain.map (LoopDescriptor.relabel ρ)) name =
      (p.meaningInside chain name).map (Entity.relabel ρ)

namespace Corresponds

variable {ρ : Relabeling} {p p' : BoundProgram} (h : Corresponds ρ p p')

include h

/-- A symbol for the same thing is the relabeled symbol. -/
theorem eq_relabel {s t : Symbol} (hs : s ∈ p.bind.symbols) (ht : t ∈ p'.bind.symbols)
    (hentity : t.toEntity = s.toEntity.relabel ρ) : t = s.relabel ρ := by
  have hid := h.number s hs t ht hentity
  obtain ⟨v, i⟩ := t
  obtain rfl : v = s.toEntity.relabel ρ := hentity
  obtain rfl : i = ρ.symbol s.id := hid
  rfl

/-- Symbols of different numbers keep different numbers, if they are there. -/
theorem symbol_injective {s t : Symbol} (hs : s ∈ p.bind.symbols) (ht : t ∈ p.bind.symbols)
    (hs' : s.relabel ρ ∈ p'.bind.symbols) (ht' : t.relabel ρ ∈ p'.bind.symbols)
    (hid : ρ.symbol s.id = ρ.symbol t.id) : s.id = t.id := by
  have heq : s.relabel ρ = t.relabel ρ := eq_of_symbolId_eq hs' ht' hid
  rw [h.entity_injective s hs t ht (congrArg Symbol.toEntity heq)]

theorem loopId_injective {a b : LoopDescriptor} (ha : a ∈ p.copyLoops) (hb : b ∈ p.copyLoops)
    (hid : ρ.loopId a.id = ρ.loopId b.id) : a.id = b.id := by
  obtain ⟨n, _, hn, hla⟩ := mem_copyLoops.1 ha
  obtain ⟨n', _, hn', hlb⟩ := mem_copyLoops.1 hb
  have hida := LoopDescriptor.id_of_ofExpr? hla
  have hidb := LoopDescriptor.id_of_ofExpr? hlb
  rw [hida, hidb] at hid
  rw [hida, hidb, h.node_injective n (mem_expressions_of_located hn) n'
    (mem_expressions_of_located hn') (LoopId.mk.inj hid)]

/-! ### References -/

section

variable {n : Expr} {chain : List LoopDescriptor} (hn : SharedNode ρ p p' n chain)

include hn

theorem enclosingLoops_relabel :
    p'.bind.enclosingLoops (ρ.node n.id) =
      (p.bind.enclosingLoops n.id).map (LoopDescriptor.relabel ρ) := by
  rw [← Expr.id_relabel, enclosingLoops_eq h.unique' hn.right, enclosingLoops_eq h.unique hn.left]

/-- **Shared references mean the same symbol.** -/
theorem lookup_relabel {name : String} (hname : n.referenceName? = some name) :
    p'.bind.lookup name (ρ.node n.id) = (p.bind.lookup name n.id).map (Symbol.relabel ρ) := by
  have hchain : p.bind.enclosingLoops n.id = chain := enclosingLoops_eq h.unique hn.left
  have hchain' := h.enclosingLoops_relabel hn
  have hbound : p.bind.enclosingLoops n.id ⊆ p.boundLoops := fun l hl =>
    (boundLoops_perm p).mem_iff.2 (enclosingLoops_subset_copyLoops p n.id hl)
  have hbound' : p'.bind.enclosingLoops (ρ.node n.id) ⊆ p'.boundLoops := fun l hl =>
    (boundLoops_perm p').mem_iff.2 (enclosingLoops_subset_copyLoops p' _ hl)
  have hentities : (p'.bind.lookup name (ρ.node n.id)).map (·.toEntity) =
      ((p.bind.lookup name n.id).map (·.toEntity)).map (Entity.relabel ρ) := by
    rw [map_lookup h.unique hbound, map_lookup h.unique' hbound', hchain', hchain]
    exact h.meaning n chain name hn hname
  cases hs : p.bind.lookup name n.id with
  | none =>
      rw [hs] at hentities
      exact Option.map_eq_none_iff.1 hentities
  | some s =>
      rw [hs] at hentities
      obtain ⟨t, ht, hentity⟩ := Option.map_eq_some_iff.1 hentities
      rw [ht, Option.map_some]
      exact congrArg some (h.eq_relabel (Binding.mem_symbols_of_lookup hs)
        (Binding.mem_symbols_of_lookup ht) hentity)

theorem resolve_relabel :
    p'.bind.scoping.resolve (n.relabel ρ) = (p.bind.scoping.resolve n).map (Symbol.relabel ρ) := by
  rw [Scoping.resolve, Scoping.resolve, Expr.referenceName?_relabel, Expr.id_relabel]
  cases hname : n.referenceName? with
  | none => rfl
  | some name => exact h.lookup_relabel hn hname

/-- The loop whose variable a shared reference means is around it in both
units. -/
theorem enclosingLoop?_relabel {v : Symbol} (hv : p.bind.scoping.resolve n = some v)
    {loop : LoopId} {role : LoopRole} (hkind : v.kind = .loopVariable loop role) :
    ∃ u, SharedLoop ρ p p' u ∧ p.bind.scoping.enclosingLoop? n.id loop = some u ∧
      p'.bind.scoping.enclosingLoop? (n.relabel ρ).id (ρ.loopId loop) = some (u.relabel ρ) := by
  obtain ⟨_, outer, u, inner, -, hchain, rfl, -⟩ :=
    loopVariable_of_resolve h.unique hn.left hv hkind
  have hu : u ∈ chain := by
    rw [hchain]
    exact List.mem_append_right _ List.mem_cons_self
  exact ⟨u, hn.loop hu, enclosingLoop?_eq h.unique hn.left hu,
    enclosingLoop?_eq h.unique' hn.right (List.mem_map_of_mem hu)⟩

end

/-! ### Comparisons -/

/-- Shared references bind alike in both units. -/
theorem bindAlike_relabel {x y : Expr} {chain chain' : List LoopDescriptor}
    (hx : SharedNode ρ p p' x chain) (hy : SharedNode ρ p p' y chain')
    {same same' : LoopDescriptor → LoopDescriptor → Option Bool}
    (hsame : ∀ a b, SharedLoop ρ p p' a → SharedLoop ρ p p' b →
      same' (a.relabel ρ) (b.relabel ρ) = same a b) :
    p'.bind.scoping.bindAlike same' (x.relabel ρ) (y.relabel ρ) =
      p.bind.scoping.bindAlike same x y := by
  have hxmeans := h.resolve_relabel hx
  have hymeans := h.resolve_relabel hy
  rw [Scoping.bindAlike, Scoping.bindAlike, hxmeans, hymeans]
  cases hv : p.bind.scoping.resolve x with
  | none => cases p.bind.scoping.resolve y <;> rfl
  | some v =>
      cases hw : p.bind.scoping.resolve y with
      | none => rfl
      | some w =>
          rw [hv] at hxmeans
          rw [hw] at hymeans
          have hids : ρ.symbol v.id = ρ.symbol w.id ↔ v.id = w.id :=
            ⟨h.symbol_injective (Binding.mem_symbols_of_resolve hv)
              (Binding.mem_symbols_of_resolve hw) (Binding.mem_symbols_of_resolve hxmeans)
              (Binding.mem_symbols_of_resolve hymeans), congrArg ρ.symbol⟩
          have hvkind : (v.relabel ρ).kind = v.kind.relabel ρ := rfl
          have hwkind : (w.relabel ρ).kind = w.kind.relabel ρ := rfl
          have hvid : (v.relabel ρ).id = ρ.symbol v.id := rfl
          have hwid : (w.relabel ρ).id = ρ.symbol w.id := rfl
          simp only [Option.map_some, hvid, hwid, hids, hvkind, hwkind]
          cases hvk : v.kind with
          | loopVariable loop role =>
              cases hwk : w.kind with
              | loopVariable loop' role' =>
                  obtain ⟨a, ha, hfound, hfound'⟩ := h.enclosingLoop?_relabel hx hv hvk
                  obtain ⟨b, hb, hfoundb, hfoundb'⟩ := h.enclosingLoop?_relabel hy hw hwk
                  simp only [SymbolKind.relabel, hfound, hfound', hfoundb, hfoundb', hsame a b ha hb]
              | _ => rfl
          | _ => cases w.kind <;> rfl

theorem sameLoopWithin_relabel (steps : Nat) {a b : LoopDescriptor}
    (ha : SharedLoop ρ p p' a) (hb : SharedLoop ρ p p' b) :
    p'.bind.scoping.sameLoopWithin steps (a.relabel ρ) (b.relabel ρ) =
      p.bind.scoping.sameLoopWithin steps a b := by
  induction steps generalizing a b with
  | zero => rfl
  | succ steps ih =>
      have hids : (a.relabel ρ).id = (b.relabel ρ).id ↔ a.id = b.id :=
        ⟨h.loopId_injective ha.mem_copyLoops.1 hb.mem_copyLoops.1, congrArg ρ.loopId⟩
      have hshape : (a.relabel ρ).source.sameShape (b.relabel ρ).source =
          a.source.sameShape b.source := Expr.sameShape_relabel ρ a.source b.source
      have hpairs : (a.relabel ρ).source.references.zip (b.relabel ρ).source.references =
          (a.source.references.zip b.source.references).map
            (Prod.map (Expr.relabel ρ) (Expr.relabel ρ)) := by
        show (a.source.relabel ρ).references.zip (b.source.relabel ρ).references = _
        rw [Expr.references_relabel, Expr.references_relabel, List.zip_map]
      rw [Scoping.sameLoopWithin, Scoping.sameLoopWithin]
      simp only [hids, hshape, hpairs]
      rw [allAnswers_map, allAnswers_congr]
      rintro ⟨x, y⟩ hxy
      obtain ⟨hxa, hyb⟩ := List.of_mem_zip hxy
      obtain ⟨_, hx⟩ := ha.exists_sharedNode hxa
      obtain ⟨_, hy⟩ := hb.exists_sharedNode hyb
      exact h.bindAlike_relabel hx hy fun _ _ => ih

/-- **Shared loops are the same loop in both units or in none.** -/
theorem sameLoop_relabel {a b : LoopDescriptor} (ha : SharedLoop ρ p p' a)
    (hb : SharedLoop ρ p p' b) :
    p'.bind.model.sameLoop (a.relabel ρ) (b.relabel ρ) = p.bind.model.sameLoop a b := by
  obtain ⟨hap, hap'⟩ := ha.mem_copyLoops
  obtain ⟨hbp, hbp'⟩ := hb.mem_copyLoops
  -- As many steps as settle the comparison in both units.
  obtain ⟨steps, hsteps, hsteps'⟩ :
      ∃ steps, p.rank a < steps ∧ p'.rank (a.relabel ρ) < steps :=
    ⟨p.rank a + p'.rank (a.relabel ρ) + 1, by omega, by omega⟩
  have hwithin := h.sameLoopWithin_relabel steps ha hb
  rw [sameLoopWithin_eq h.unique hap hbp hsteps,
    sameLoopWithin_eq h.unique' hap' hbp' hsteps'] at hwithin
  exact Option.some.inj hwithin

/-! ### Lowering -/

/-- The models of both units give the same answers at a shared reference. -/
theorem relabelsAt {o : Origin} {name : String} {chain : List LoopDescriptor}
    (hn : SharedNode ρ p p' (.reference o name) chain) :
    p.bind.model.RelabelsAt ρ p'.bind.model name o.id := by
  have hlookup : p'.bind.lookup name (ρ.node o.id) =
      (p.bind.lookup name o.id).map (Symbol.relabel ρ) := h.lookup_relabel hn rfl
  have hloops : p.bind.enclosingLoops o.id = chain := enclosingLoops_eq h.unique hn.left
  refine ⟨hlookup, h.enclosingLoops_relabel hn, fun s _ => rfl, ?_, ?_⟩
  · intro s hs t ht l hl
    have hl : l ∈ chain := hloops ▸ hl
    have hs : p.bind.lookup name o.id = some s := hs
    rw [hs] at hlookup
    have hchain := chain_loops (Binding.mem_symbols_of_lookup hs)
    have hchain' := chain_loops (Binding.mem_symbols_of_lookup hlookup)
    exact h.sameLoop_relabel (hn.loop hl) (sharedLoop_of_chain hchain hchain' ht)
  · intro s hs t ht t' ht'
    have hchain := chain_loops (Binding.mem_symbols_of_lookup hs)
    exact h.loopId_injective (hchain.subset_copyLoops ht) (hchain.subset_copyLoops ht')

/-- The models of both units give the same answers about a declaration that
introduces the same. -/
theorem declaredSymbol_relabel {d d' : PlacedDeclaration} (hd : d ∈ p.placements)
    (hd' : d' ∈ p'.placements)
    (hentity : d'.entity p'.targetScope = (d.entity p.targetScope).relabel ρ) :
    p'.bind.declaredSymbol (ρ.node d.declaration.id) =
      (p.bind.declaredSymbol d.declaration.id).map (Symbol.relabel ρ) := by
  have hid : ρ.node d.declaration.id = d'.declaration.id :=
    (congrArg (·.origin.id) hentity).symm
  obtain ⟨s, hs, hdeclared, hsentity⟩ := exists_symbol_of_placed h.unique hd
  obtain ⟨t, ht, hdeclared', htentity⟩ := exists_symbol_of_placed h.unique' hd'
  rw [hid, hdeclared, hdeclared', Option.map_some]
  refine congrArg some (h.eq_relabel hs ht ?_)
  rw [htentity, hentity, hsentity]

/-- The models of both units give the same answers in a value that stands in
the same place in both. -/
theorem relabels_of_located {d d' : PlacedDeclaration} (hd : d ∈ p.placements)
    (hd' : d' ∈ p'.placements) (hlocated : d'.located = (d.relabel ρ).located) :
    p.bind.model.Relabels ρ p'.bind.model d.declaration.valueNodes := by
  intro o name hmem
  obtain ⟨⟨n, chain⟩, hn, heq⟩ := List.mem_map.1 (d.map_fst_located ▸ hmem)
  obtain rfl : n = .reference o name := heq
  have hn' := List.mem_map_of_mem
    (f := Prod.map (Expr.relabel ρ) (List.map (LoopDescriptor.relabel ρ))) hn
  rw [← d.located_relabel, ← hlocated] at hn'
  exact h.relabelsAt ⟨located_subset hd hn, located_subset hd' hn'⟩

/-- **Declarations that have their places in both units** become the same
operations with the same reports. -/
theorem lower_relabel (hscope : p'.targetScope = p.targetScope) {d : Declaration}
    (hplaced : ∀ c ∈ d.flatten, ∃ placed ∈ p.placements,
      placed.declaration = c ∧ placed.relabel ρ ∈ p'.placements) :
    (d.relabel ρ).lower p'.bind.model =
      (d.lower p.bind.model).relabel ρ (Option.map (DeclarationOperation.relabel ρ)) := by
  refine Declaration.lower_relabel ?_ ?_
  · intro c hc
    obtain ⟨placed, hd, rfl, hd'⟩ := hplaced c hc
    refine h.declaredSymbol_relabel hd hd' ?_
    rw [hscope, placed.entity_relabel]
  · intro c hc
    obtain ⟨placed, hd, rfl, hd'⟩ := hplaced c hc
    exact h.relabels_of_located hd hd' rfl

end Corresponds

end BoundProgram

end InfraGraph
