import InfraGraph.Proofs.Symbol.Lookup
import InfraGraph.Proofs.Symbol.Registry
import InfraGraph.Proofs.Tree.Nodes

/-!
# What a unit introduces

The symbols of a unit are its entities in the order of declaring.  An entity
is a declaration, and then no loop variable, or a variable of a copy loop in
the value of a declaration.

## Main results

* `map_declaration_placements` — every declaration has its place.
* `mem_loopVariables` — the loop variables of an expression, loop by loop.
* `mem_symbols` — the symbols of a unit.
* `exists_symbol_of_placed` — the symbol of a declaration is its own.
-/

namespace InfraGraph

/-! ## Declarations and their places -/

namespace Declaration

theorem placementsAll_eq (parent : Option String) (outer : List LoopDescriptor)
    (ds : List Declaration) :
    placementsAll parent outer ds = ds.flatMap (placements parent outer) := by
  induction ds with
  | nil => rfl
  | cons d ds ih => rw [placementsAll, ih, List.flatMap_cons]

theorem placements_eq (parent : Option String) (outer : List LoopDescriptor) (d : Declaration) :
    d.placements parent outer =
      ⟨d, qualifiedName parent d.name, outer⟩ ::
        d.children.flatMap
          (placements (some (qualifiedName parent d.name)) (outer ++ d.ownLoop?.toList)) := by
  obtain ⟨origin, name, kind, value, children⟩ := d
  rw [placements, placementsAll_eq]

theorem map_declaration_placements (parent : Option String) (outer : List LoopDescriptor)
    (d : Declaration) :
    (d.placements parent outer).map PlacedDeclaration.declaration = d.flatten := by
  induction d using Declaration.induction generalizing parent outer with
  | step d ih =>
      rw [placements_eq, flatten_eq, List.map_cons, List.map_flatMap]
      exact congrArg (d :: ·) (List.flatMap_congr fun c hc => ih c hc _ _)

end Declaration

theorem BoundProgram.placements_eq_flatMap (p : BoundProgram) :
    p.placements = p.declarations.flatMap (Declaration.placements none []) :=
  Declaration.placementsAll_eq _ _ _

/-- Every declaration has its place. -/
theorem BoundProgram.map_declaration_placements (p : BoundProgram) :
    p.placements.map PlacedDeclaration.declaration = p.allDeclarations := by
  rw [placements_eq_flatMap, List.map_flatMap]
  exact List.flatMap_congr fun d _ => Declaration.map_declaration_placements _ _ d

/-! ## Loop variables -/

/-- The variables that a node binds itself. -/
def Expr.ownVariables : Expr → List Entity
  | .loop o item index _ _ =>
    Entity.ofLoop o .item item :: (index.map (Entity.ofLoop o .index)).toList
  | _ => []

namespace Expr

theorem loopVariablesAll_eq (es : List Expr) :
    loopVariablesAll es = es.flatMap loopVariables := by
  induction es with
  | nil => rfl
  | cons e es ih => rw [loopVariablesAll, ih, List.flatMap_cons]

theorem loopVariablesEntries_eq (entries : List (String × Expr)) :
    loopVariablesEntries entries = (entries.map Prod.snd).flatMap loopVariables := by
  induction entries with
  | nil => rfl
  | cons entry entries ih =>
      obtain ⟨key, e⟩ := entry
      rw [loopVariablesEntries, ih, List.map_cons, List.flatMap_cons]

/-- Only a loop binds variables itself. -/
theorem loopVariables_of_not_loop {e : Expr} (h : e.isLoop = false) :
    e.loopVariables = e.children.flatMap loopVariables := by
  cases e with
  | loop => cases h
  | _ => simp [loopVariables, loopVariablesAll_eq, loopVariablesEntries_eq, children]

/-- A loop variable is bound by one of the nodes. -/
theorem mem_loopVariables {e : Expr} {v : Entity} :
    v ∈ e.loopVariables ↔ ∃ n ∈ e.preorder, v ∈ n.ownVariables := by
  induction e using Expr.induction with
  | step e ih =>
      have hnodes : (∃ n ∈ e.preorder, v ∈ n.ownVariables) ↔
          v ∈ e.ownVariables ∨ ∃ c ∈ e.children, v ∈ c.loopVariables := by
        rw [preorder_eq]
        simp only [List.mem_cons, List.mem_flatMap, or_and_right, exists_or, exists_eq_left]
        refine or_congr_right ?_
        constructor
        · rintro ⟨n, ⟨c, hc, hn⟩, hv⟩
          exact ⟨c, hc, (ih c hc).2 ⟨n, hn, hv⟩⟩
        · rintro ⟨c, hc, hv⟩
          obtain ⟨n, hn, hv⟩ := (ih c hc).1 hv
          exact ⟨n, ⟨c, hc, hn⟩, hv⟩
      rw [hnodes]
      cases e <;> simp [loopVariables, loopVariablesAll_eq, loopVariablesEntries_eq, ownVariables,
        children, or_assoc, or_left_comm]

end Expr

/-- The name of the variable that a loop binds in some role. -/
def LoopDescriptor.variable? (l : LoopDescriptor) : LoopRole → Option String
  | .item => some l.item
  | .index => l.index

/-- A node binds variables exactly if it is a loop that names them. -/
theorem Expr.mem_ownVariables {n : Expr} {v : Entity} :
    v ∈ n.ownVariables ↔ ∃ l role name, LoopDescriptor.ofExpr? n = some l ∧
      l.variable? role = some name ∧ v = Entity.ofLoop n.origin role name := by
  cases n with
  | loop o item index source body =>
      constructor
      · intro h
        rcases List.mem_cons.1 h with rfl | h
        · exact ⟨_, .item, item, rfl, rfl, rfl⟩
        · obtain ⟨name, hname, rfl⟩ := Option.map_eq_some_iff.1 (Option.mem_toList.1 h)
          exact ⟨_, .index, name, rfl, hname, rfl⟩
      · rintro ⟨l, role, name, hl, hname, rfl⟩
        obtain rfl := Option.some.inj hl
        cases role with
        | item =>
            obtain rfl := Option.some.inj hname
            exact List.mem_cons_self
        | index =>
            refine List.mem_cons_of_mem _ (Option.mem_toList.2 ?_)
            exact Option.map_eq_some_iff.2 ⟨name, hname, rfl⟩
  | _ =>
      constructor
      · intro h
        cases h
      · rintro ⟨l, -, -, hl, -⟩
        cases hl

/-! ## Symbols -/

namespace PlacedDeclaration

theorem isLoopVariable_entity (target : DeploymentScope) (d : PlacedDeclaration) :
    (d.entity target).kind.isLoopVariable = false := by
  have hkind : (d.entity target).kind = (d.kindAndType target).1 := rfl
  rw [hkind, kindAndType]
  cases d.declaration.kind <;> rfl

end PlacedDeclaration

/-- What a declaration and its value introduce. -/
theorem PlacedDeclaration.mem_entities {target : DeploymentScope} {d : PlacedDeclaration}
    {v : Entity} :
    v ∈ d.entities target ↔
      v = d.entity target ∨ ∃ n ∈ d.declaration.valueNodes, v ∈ n.ownVariables := by
  rw [entities, List.mem_cons, Declaration.valueNodes]
  cases d.declaration.value with
  | none => simp
  | some value => exact or_congr_right Expr.mem_loopVariables

namespace BoundProgram

variable {p : BoundProgram}

theorem mem_allDeclarations {d : Declaration} :
    d ∈ p.allDeclarations ↔ ∃ placed ∈ p.placements, placed.declaration = d := by
  rw [← map_declaration_placements, List.mem_map]

/-- What a unit introduces: its declarations and the variables of its loops. -/
theorem mem_entities {v : Entity} :
    v ∈ p.entities ↔ (∃ d ∈ p.placements, v = d.entity p.targetScope) ∨
      ∃ n ∈ p.expressions, v ∈ n.ownVariables := by
  simp only [entities, expressions, List.mem_flatMap, mem_allDeclarations,
    PlacedDeclaration.mem_entities]
  constructor
  · rintro ⟨d, hd, rfl | ⟨n, hn, hv⟩⟩
    · exact .inl ⟨d, hd, rfl⟩
    · exact .inr ⟨n, ⟨d.declaration, ⟨d, hd, rfl⟩, hn⟩, hv⟩
  · rintro (⟨d, hd, rfl⟩ | ⟨n, ⟨_, ⟨d, hd, rfl⟩, hn⟩, hv⟩)
    · exact ⟨d, hd, .inl rfl⟩
    · exact ⟨d, hd, .inr ⟨n, hn, hv⟩⟩

/-- A symbol is an entity with its place as its number. -/
theorem mem_symbols {s : Symbol} :
    s ∈ p.bind.symbols ↔ p.entities[s.id.index]? = some s.toEntity := by
  rw [symbols_bind, List.mem_mapIdx]
  constructor
  · rintro ⟨i, hi, rfl⟩
    exact List.getElem?_eq_getElem hi
  · intro h
    obtain ⟨hi, hentity⟩ := List.getElem?_eq_some_iff.1 h
    exact ⟨s.id.index, hi, by rw [hentity]⟩

theorem exists_symbol {v : Entity} (h : v ∈ p.entities) :
    ∃ s ∈ p.bind.symbols, s.toEntity = v := by
  obtain ⟨i, hi⟩ := List.mem_iff_getElem?.1 h
  exact ⟨⟨v, ⟨i⟩⟩, mem_symbols.2 hi, rfl⟩

/-- Symbols are known by their numbers. -/
theorem eq_of_symbolId_eq {s t : Symbol} (hs : s ∈ p.bind.symbols) (ht : t ∈ p.bind.symbols)
    (hid : s.id = t.id) : s = t := by
  rw [mem_symbols] at hs ht
  rw [hid, ht] at hs
  obtain ⟨e, id⟩ := s
  obtain ⟨e', id'⟩ := t
  obtain rfl : id = id' := hid
  obtain rfl : e' = e := Option.some.inj hs
  rfl

/-- A symbol that is no loop variable is a declaration. -/
theorem exists_placed {s : Symbol} (hs : s ∈ p.bind.symbols)
    (hkind : s.kind.isLoopVariable = false) :
    ∃ d ∈ p.placements, s.toEntity = d.entity p.targetScope := by
  have hentity := List.mem_of_getElem? (mem_symbols.1 hs)
  rcases mem_entities.1 hentity with h | ⟨n, -, hv⟩
  · exact h
  · obtain ⟨-, role, name, -, -, heq⟩ := Expr.mem_ownVariables.1 hv
    rw [heq] at hkind
    cases hkind

/-- A symbol that is a loop variable is bound by the loop it names. -/
theorem exists_loop {s : Symbol} (hs : s ∈ p.bind.symbols) {loop : LoopId} {role : LoopRole}
    (hkind : s.kind = .loopVariable loop role) :
    ∃ n ∈ p.expressions, loop = ⟨n.id⟩ ∧ ∃ l, LoopDescriptor.ofExpr? n = some l ∧
      l.variable? role = some s.name := by
  have hentity := List.mem_of_getElem? (mem_symbols.1 hs)
  rcases mem_entities.1 hentity with ⟨d, -, heq⟩ | ⟨n, hn, hv⟩
  · have hnot := d.isLoopVariable_entity p.targetScope
    rw [← heq, hkind] at hnot
    cases hnot
  · obtain ⟨l, role', name, hl, hname, heq⟩ := Expr.mem_ownVariables.1 hv
    rw [heq] at hkind ⊢
    obtain ⟨rfl, rfl⟩ := SymbolKind.loopVariable.inj hkind
    exact ⟨n, hn, rfl, l, hl, hname⟩

/-- A declaration is known by its id. -/
theorem declaration_eq_of_id_eq (h : p.reusedIds = []) {d d' : Declaration}
    (hd : d ∈ p.allDeclarations) (hd' : d' ∈ p.allDeclarations) (hid : d.id = d'.id) : d = d' :=
  List.inj_on_of_nodup_map (nodup_declarationIds h) hd hd' hid

/-- A declaration has one place. -/
theorem placed_eq_of_id_eq (h : p.reusedIds = []) {d d' : PlacedDeclaration}
    (hd : d ∈ p.placements) (hd' : d' ∈ p.placements)
    (hid : d.declaration.id = d'.declaration.id) : d = d' := by
  have hnodup := nodup_declarationIds h
  rw [← map_declaration_placements, List.map_map] at hnodup
  exact List.inj_on_of_nodup_map hnodup hd hd' hid

/-- **The symbol of a declaration is its own**: the declaration has one, and
it is what the declaration introduces in its place. -/
theorem exists_symbol_of_placed (h : p.reusedIds = []) {d : PlacedDeclaration}
    (hd : d ∈ p.placements) :
    ∃ s ∈ p.bind.symbols, p.bind.declaredSymbol d.declaration.id = some s ∧
      s.toEntity = d.entity p.targetScope := by
  obtain ⟨s, hs, hentity⟩ := exists_symbol (mem_entities.2 (.inl ⟨d, hd, rfl⟩))
  have hkind : s.kind.isLoopVariable = false := by
    rw [hentity]
    exact d.isLoopVariable_entity _
  have hfound : (p.bind.declaredSymbol d.declaration.id).isSome := by
    rw [Binding.declaredSymbol, findLast?_isSome_iff]
    refine ⟨s, hs, ?_⟩
    have hid : s.declaration = d.declaration.id := by
      rw [Symbol.declaration, hentity]
      rfl
    simp [hkind, hid]
  obtain ⟨t, ht⟩ := Option.isSome_iff_exists.1 hfound
  obtain ⟨htmem, htest⟩ := mem_of_findLast? ht
  simp only [Bool.and_eq_true, Bool.not_eq_true', beq_iff_eq] at htest
  obtain ⟨other, hother, htentity⟩ := exists_placed htmem htest.1
  have hid : t.declaration = other.declaration.id := by
    rw [Symbol.declaration, htentity]
    rfl
  obtain rfl := placed_eq_of_id_eq h hother hd (hid.symm.trans htest.2)
  exact ⟨t, htmem, ht, htentity⟩

theorem exists_declaredSymbol (h : p.reusedIds = []) {d : Declaration}
    (hd : d ∈ p.allDeclarations) :
    ∃ s placed, p.bind.declaredSymbol d.id = some s ∧ placed ∈ p.placements ∧
      placed.declaration = d ∧ s.toEntity = placed.entity p.targetScope := by
  obtain ⟨placed, hplaced, rfl⟩ := mem_allDeclarations.1 hd
  obtain ⟨s, -, hs, hentity⟩ := exists_symbol_of_placed h hplaced
  exact ⟨s, placed, hs, hplaced, rfl, hentity⟩

theorem isSome_declaredSymbol (h : p.reusedIds = []) {d : Declaration}
    (hd : d ∈ p.allDeclarations) : (p.bind.model.declaredSymbol d.id).isSome := by
  obtain ⟨s, -, hs, -⟩ := exists_declaredSymbol h hd
  exact Option.isSome_iff_exists.2 ⟨s, hs⟩

end BoundProgram

end InfraGraph
