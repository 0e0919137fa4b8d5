import InfraGraph.Proofs.Graph.Reports
import InfraGraph.Proofs.Relabeling.Renumbering

/-!
# Edits stay local

The value of a variable, a parameter or an output may be put in the place of
another.  The two values may have other loops in them, and other faults, so the
tables that binding fills differ, and symbols that are declared later have
other numbers.

Nothing else differs.  Such a declaration is not replicated by the loops in its
value, so all declarations introduce what they introduced before, and a loop
inside a value binds names inside that value alone.  Names mean what they meant
everywhere else.

## Main definitions

* `BoundProgram.withValue` — a unit with another value for a declaration.
* `Symbol.isVariableIn` — the variables of the loops in a value.

## Main results

* `meaningInside_withValue` — names mean the same with another value.
* `map_toEntity_outside` — what a unit introduces outside a value.
* `lower_withValue` — the graph with another value.
-/

namespace InfraGraph

theorem filter_not_mem_middle {α : Type} [DecidableEq α] {before middle after : List α} {a : α}
    (h : (before ++ (a :: middle ++ after)).Nodup) :
    (before ++ (a :: middle ++ after)).filter (fun b => decide (b ∉ middle)) =
      before ++ a :: after := by
  rw [List.nodup_append, List.nodup_append, List.nodup_cons] at h
  obtain ⟨-, ⟨⟨hself, -⟩, -, hafter⟩, hbefore⟩ := h
  have hkept {l : List α} (hl : ∀ b ∈ l, b ∉ middle) :
      l.filter (fun b => decide (b ∉ middle)) = l :=
    List.filter_eq_self.2 fun b hb => decide_eq_true (hl b hb)
  have hmiddle : middle.filter (fun b => decide (b ∉ middle)) = [] :=
    List.filter_eq_nil_iff.2 fun b hb => by simp [hb]
  have hhead : decide (a ∉ middle) = true := decide_eq_true hself
  rw [List.filter_append, List.filter_append, List.filter_cons, if_pos hhead, hmiddle, hkept,
    hkept]
  · rfl
  · exact fun b hb hmem => hafter b (List.mem_cons_of_mem _ hmem) b hb rfl
  · exact fun b hb hmem =>
      hbefore b hb b (List.mem_append_left _ (List.mem_cons_of_mem _ hmem)) rfl

/-! ## Another value -/

namespace Declaration

mutual

/-- A declaration with another value for the declaration of an id. -/
def withValue (node : SyntaxId) (v : Option Expr) : Declaration → Declaration
  | ⟨origin, name, kind, value, children⟩ =>
    ⟨origin, name, kind, if origin.id = node then v else value, withValueAll node v children⟩

/-- `withValue` over several declarations. -/
def withValueAll (node : SyntaxId) (v : Option Expr) : List Declaration → List Declaration
  | [] => []
  | d :: rest => withValue node v d :: withValueAll node v rest

end

end Declaration

/-- A unit with another value for the declaration of an id. -/
def BoundProgram.withValue (p : BoundProgram) (node : SyntaxId) (v : Option Expr) :
    BoundProgram :=
  ⟨p.targetScope, Declaration.withValueAll node v p.declarations⟩

namespace DeclarationOperation

mutual

/-- The operation of a declaration with another value for the declaration of an
id. -/
def withValue (node : SyntaxId) (v : Option Operation) :
    DeclarationOperation → DeclarationOperation
  | ⟨origin, symbol, value, children⟩ =>
    ⟨origin, symbol, if origin.id = node then v else value, withValueAll node v children⟩

/-- `withValue` over the operations of several declarations. -/
def withValueAll (node : SyntaxId) (v : Option Operation) :
    List DeclarationOperation → List DeclarationOperation
  | [] => []
  | d :: rest => withValue node v d :: withValueAll node v rest

end

section

variable (node : SyntaxId) (v : Option Operation)

theorem withValueAll_eq (ds : List DeclarationOperation) :
    withValueAll node v ds = ds.map (withValue node v) := by
  induction ds with
  | nil => rfl
  | cons d ds ih => rw [withValueAll, ih, List.map_cons]

theorem withValue_eq (d : DeclarationOperation) :
    d.withValue node v =
      ⟨d.origin, d.symbol, if d.origin.id = node then v else d.value,
        d.children.map (withValue node v)⟩ := by
  obtain ⟨origin, symbol, value, children⟩ := d
  rw [withValue, withValueAll_eq]

end

end DeclarationOperation

/-- A placed declaration with another value for the declaration of an id. -/
def PlacedDeclaration.withValue (node : SyntaxId) (v : Option Expr) (d : PlacedDeclaration) :
    PlacedDeclaration :=
  ⟨d.declaration.withValue node v, d.name, d.outer⟩

section

variable (node : SyntaxId) (v : Option Expr)

namespace Declaration

theorem withValueAll_eq (ds : List Declaration) :
    withValueAll node v ds = ds.map (withValue node v) := by
  induction ds with
  | nil => rfl
  | cons d ds ih => rw [withValueAll, ih, List.map_cons]

theorem withValue_eq (d : Declaration) :
    d.withValue node v =
      ⟨d.origin, d.name, d.kind, if d.id = node then v else d.value,
        d.children.map (withValue node v)⟩ := by
  obtain ⟨origin, name, kind, value, children⟩ := d
  rw [withValue, withValueAll_eq]
  rfl

@[simp] theorem id_withValue (d : Declaration) : (d.withValue node v).id = d.id := by
  rw [withValue_eq]
  rfl

variable {node v}

theorem value_withValue_of_eq {d : Declaration} (h : d.id = node) :
    (d.withValue node v).value = v := by
  rw [withValue_eq, if_pos h]

theorem value_withValue_of_ne {d : Declaration} (h : d.id ≠ node) :
    (d.withValue node v).value = d.value := by
  rw [withValue_eq, if_neg h]

theorem flatten_withValue (d : Declaration) :
    (d.withValue node v).flatten = d.flatten.map (withValue node v) := by
  induction d using Declaration.induction with
  | step d ih =>
      have hchildren : (d.withValue node v).children = d.children.map (withValue node v) := by
        rw [withValue_eq]
      rw [flatten_eq, flatten_eq d, hchildren, List.map_cons, List.flatMap_map, List.map_flatMap]
      exact congrArg (_ :: ·) (List.flatMap_congr ih)

section

variable {d : Declaration} (h : d.id = node → d.kind.isReplicable = false)

include h

/-- Only the values of resources and modules replicate them. -/
theorem ownLoop?_withValue : (d.withValue node v).ownLoop? = d.ownLoop? := by
  by_cases hid : d.id = node
  · rw [withValue_eq, ownLoop?, ownLoop?, h hid]
    rfl
  · rw [withValue_eq, ownLoop?, ownLoop?, if_neg hid]

theorem condition?_withValue : (d.withValue node v).condition? = d.condition? := by
  by_cases hid : d.id = node
  · rw [withValue_eq, condition?, condition?, h hid]
    rfl
  · rw [withValue_eq, condition?, condition?, if_neg hid]

end

theorem placements_withValue {d : Declaration}
    (h : ∀ c ∈ d.flatten, c.id = node → c.kind.isReplicable = false) (parent : Option String)
    (outer : List LoopDescriptor) :
    (d.withValue node v).placements parent outer =
      (d.placements parent outer).map (PlacedDeclaration.withValue node v) := by
  induction d using Declaration.induction generalizing parent outer with
  | step d ih =>
      rw [flatten_eq, List.forall_mem_cons] at h
      have hown := ownLoop?_withValue (v := v) h.1
      have hname : (d.withValue node v).name = d.name := by rw [withValue_eq]
      have hchildren : (d.withValue node v).children = d.children.map (withValue node v) := by
        rw [withValue_eq]
      rw [placements_eq, placements_eq _ _ d, hown, hname, hchildren, List.map_cons,
        List.flatMap_map, List.map_flatMap]
      refine congrArg (_ :: ·) (List.flatMap_congr fun c hc => ih c hc ?_ _ _)
      exact fun c' hc' => h.2 c' (List.mem_flatMap.2 ⟨c, hc, hc'⟩)

end Declaration

namespace PlacedDeclaration

variable {node v} {d : PlacedDeclaration}

/-- With another value the same is introduced, but for what loops in the value
bind. -/
theorem entity_withValue (h : d.declaration.id = node → d.declaration.kind.isReplicable = false)
    (target : DeploymentScope) : (d.withValue node v).entity target = d.entity target := by
  have hown := Declaration.ownLoop?_withValue (v := v) h
  have hcondition := Declaration.condition?_withValue (v := v) h
  have hkind : (d.declaration.withValue node v).kind = d.declaration.kind := by
    rw [Declaration.withValue_eq]
  have horigin : (d.declaration.withValue node v).origin = d.declaration.origin := by
    rw [Declaration.withValue_eq]
  have hkindAndType : (d.withValue node v).kindAndType target = d.kindAndType target := by
    rw [kindAndType, kindAndType, withValue, hkind]
  have hloops : (d.withValue node v).loops = d.loops := by
    rw [loops, loops, withValue, hown]
  rw [entity, entity, hkindAndType, hloops, withValue, hcondition, horigin]

theorem entities_withValue_of_ne (h : d.declaration.id ≠ node) (target : DeploymentScope) :
    (d.withValue node v).entities target = d.entities target := by
  have hvalue : (d.withValue node v).declaration.value = d.declaration.value :=
    Declaration.value_withValue_of_ne h
  rw [entities, entities, hvalue, entity_withValue fun hid => absurd hid h]

theorem located_withValue_of_ne (h : d.declaration.id ≠ node) :
    (d.withValue node v).located = d.located := by
  have hvalue : (d.withValue node v).declaration.value = d.declaration.value :=
    Declaration.value_withValue_of_ne h
  rw [located, located, hvalue]
  rfl

end PlacedDeclaration

end

/-! ## A unit with another value -/

/-- Whether a symbol is a variable of a loop in a value. -/
def Symbol.isVariableIn (value : Option Expr) (s : Symbol) : Bool :=
  s.kind.isLoopVariable && value.any fun e => e.preorder.any (·.id == s.declaration)

namespace BoundProgram

variable {p : BoundProgram}

section

variable {node : SyntaxId} {v : Option Expr}

theorem allDeclarations_withValue :
    (p.withValue node v).allDeclarations = p.allDeclarations.map (Declaration.withValue node v) := by
  rw [allDeclarations, allDeclarations, withValue, Declaration.withValueAll_eq, List.flatMap_map,
    List.map_flatMap]
  exact List.flatMap_congr fun d _ => d.flatten_withValue

variable (hkind : ∀ c ∈ p.allDeclarations, c.id = node → c.kind.isReplicable = false)

include hkind

theorem placements_withValue :
    (p.withValue node v).placements = p.placements.map (PlacedDeclaration.withValue node v) := by
  rw [placements_eq_flatMap, placements_eq_flatMap, withValue, Declaration.withValueAll_eq,
    List.flatMap_map, List.map_flatMap]
  refine List.flatMap_congr fun d hd => Declaration.placements_withValue (fun c hc => ?_) _ _
  exact hkind c (flatten_subset_allDeclarations hd hc)

theorem entity_withValue {d : PlacedDeclaration} (hd : d ∈ p.placements) :
    (d.withValue node v).entity p.targetScope = d.entity p.targetScope :=
  PlacedDeclaration.entity_withValue (hkind _ (mem_allDeclarations.2 ⟨d, hd, rfl⟩)) _

/-- **Names mean the same with another value.** -/
theorem meaningInside_withValue (loops : List LoopDescriptor) (name : String) :
    (p.withValue node v).meaningInside loops name = p.meaningInside loops name := by
  rw [meaningInside_eq, meaningInside_eq, placements_withValue hkind, List.find?_map,
    Option.map_map]
  refine congrArg (Option.or _) (Option.map_congr fun d hd => ?_)
  exact entity_withValue hkind (List.mem_of_find?_eq_some hd)

end

/-! ### Symbols -/

/-- The symbols of a unit that are no variables of the loops in a value. -/
def symbolsOutside (p : BoundProgram) (value : Option Expr) : List Symbol :=
  p.bind.symbols.filter fun s => !s.isVariableIn value

theorem mem_symbols_of_outside {value : Option Expr} {s : Symbol}
    (hs : s ∈ p.symbolsOutside value) : s ∈ p.bind.symbols :=
  List.mem_of_mem_filter hs

theorem isVariableIn_iff (h : p.reusedIds = []) {d : Declaration} (hd : d ∈ p.allDeclarations)
    {s : Symbol} (hs : s ∈ p.bind.symbols) :
    s.isVariableIn d.value = true ↔ s.toEntity ∈ (d.value.map Expr.loopVariables).getD [] := by
  cases hvalue : d.value with
  | none => simp [Symbol.isVariableIn]
  | some value =>
      rw [Option.map_some, Option.getD_some, Expr.mem_loopVariables, Symbol.isVariableIn,
        Option.any_some, Bool.and_eq_true, List.any_eq_true]
      constructor
      · rintro ⟨hloop, n, hn, hid⟩
        have hentity := List.mem_of_getElem? (mem_symbols.1 hs)
        rcases mem_entities.1 hentity with ⟨placed, -, heq⟩ | ⟨n', hn', hv⟩
        · rw [heq, placed.isLoopVariable_entity] at hloop
          cases hloop
        · obtain ⟨_, _, _, -, -, heq⟩ := Expr.mem_ownVariables.1 hv
          have hid' : s.declaration = n'.id := by
            rw [Symbol.declaration, heq]
            rfl
          obtain rfl := eq_of_id_eq h (mem_expressions hd hvalue hn) hn' ((eq_of_beq hid).trans hid')
          exact ⟨n, hn, hv⟩
      · rintro ⟨n, hn, hv⟩
        obtain ⟨_, _, _, -, -, heq⟩ := Expr.mem_ownVariables.1 hv
        refine ⟨by rw [heq]; rfl, n, hn, ?_⟩
        rw [Symbol.declaration, heq]
        exact beq_self_eq_true _

/-- What a unit introduces outside a value: what the declarations before and
after it introduce, and the declaration of the value itself. -/
theorem map_toEntity_outside (h : p.reusedIds = []) {before after : List PlacedDeclaration}
    {d : PlacedDeclaration} (hplacements : p.placements = before ++ d :: after) :
    (p.symbolsOutside d.declaration.value).map (·.toEntity) =
      before.flatMap (·.entities p.targetScope) ++ d.entity p.targetScope ::
        after.flatMap (·.entities p.targetScope) := by
  classical
  have hd : d.declaration ∈ p.allDeclarations := by
    refine mem_allDeclarations.2 ⟨d, ?_, rfl⟩
    rw [hplacements]
    exact List.mem_append_right _ List.mem_cons_self
  generalize hbound : (d.declaration.value.map Expr.loopVariables).getD [] = bound
  have houtside : p.symbolsOutside d.declaration.value =
      p.bind.symbols.filter ((fun v => decide (v ∉ bound)) ∘ (·.toEntity)) := by
    refine List.filter_congr fun s hs => ?_
    have hiff := isVariableIn_iff h hd hs
    rw [hbound] at hiff
    rw [Function.comp, decide_not, Bool.not_inj_iff, Bool.eq_iff_iff, hiff, decide_eq_true_iff]
  have hentities : p.entities = before.flatMap (·.entities p.targetScope) ++
      ((d.entity p.targetScope :: bound) ++ after.flatMap (·.entities p.targetScope)) := by
    rw [entities, hplacements, List.flatMap_append, List.flatMap_cons, ← hbound]
    rfl
  have hnodup := nodup_entities h
  rw [hentities] at hnodup
  rw [houtside, ← List.filter_map, map_toEntity_symbols, hentities,
    filter_not_mem_middle hnodup]

/-! ### The graph -/

section

variable {d : Declaration} {v : Option Expr} (h : p.reusedIds = []) (hd : d ∈ p.allDeclarations)
  (hkind : d.kind.isReplicable = false)

include h hd hkind

omit hkind in
/-- The other declarations stand before and after a declaration. -/
theorem exists_split : ∃ before placed after, p.placements = before ++ placed :: after ∧
    placed.declaration = d ∧ ∀ c ∈ before ++ after, c.declaration.id ≠ d.id := by
  obtain ⟨placed, hplaced, rfl⟩ := mem_allDeclarations.1 hd
  obtain ⟨before, after, hplacements⟩ := List.append_of_mem hplaced
  have hnodup := nodup_declarationIds h
  rw [← map_declaration_placements, List.map_map, hplacements,
    (List.perm_middle.map _).nodup_iff, List.map_cons, List.nodup_cons] at hnodup
  refine ⟨before, placed, after, hplacements, rfl, fun c hc hid => hnodup.1 ?_⟩
  exact List.mem_map.2 ⟨c, hc, hid⟩

theorem isReplicable_of_id_eq (c : Declaration) (hc : c ∈ p.allDeclarations) (hid : c.id = d.id) :
    c.kind.isReplicable = false := by
  rw [declaration_eq_of_id_eq h hc hd hid]
  exact hkind

variable (h' : (p.withValue d.id v).reusedIds = [])

include h'

/-- Outside the value the symbols are the same in the same order, but for
numbers. -/
theorem symbolsOutside_withValue {f : SymbolId → SymbolId}
    (hf : Renumbers f p (p.withValue d.id v)) :
    (p.withValue d.id v).symbolsOutside v =
      (p.symbolsOutside d.value).map (Symbol.relabel (.renumbering f)) := by
  obtain ⟨before, placed, after, hplacements, rfl, hothers⟩ := exists_split h hd
  have hkinds := isReplicable_of_id_eq h hd hkind
  have hsame {l : List PlacedDeclaration} (hl : l ⊆ before ++ after) :
      (l.map (PlacedDeclaration.withValue placed.declaration.id v)).flatMap
        (·.entities p.targetScope) = l.flatMap (·.entities p.targetScope) := by
    rw [List.flatMap_map]
    exact List.flatMap_congr fun c hc =>
      PlacedDeclaration.entities_withValue_of_ne (hothers c (hl hc)) _
  have hplacements' := placements_withValue (v := v) hkinds
  rw [hplacements, List.map_append, List.map_cons] at hplacements'
  have hentities := map_toEntity_outside h' hplacements'
  have hvalue : (placed.withValue placed.declaration.id v).declaration.value = v :=
    Declaration.value_withValue_of_eq rfl
  have hentity := entity_withValue (v := v) hkinds
    (hplacements ▸ List.mem_append_right before List.mem_cons_self)
  have hscope : (p.withValue placed.declaration.id v).targetScope = p.targetScope := rfl
  rw [hvalue, hscope, hentity, hsame (List.subset_append_left _ _),
    hsame (List.subset_append_right _ _), ← map_toEntity_outside h hplacements] at hentities
  -- The symbols of the other unit are known by what they stand for.
  have hnumbered : (p.withValue placed.declaration.id v).symbolsOutside v =
      (((p.withValue placed.declaration.id v).symbolsOutside v).map (·.toEntity)).map
        (p.withValue placed.declaration.id v).symbolOf := by
    rw [List.map_map]
    exact (map_eq_self fun s hs => symbolOf_toEntity h' (mem_symbols_of_outside hs)).symm
  rw [hnumbered, hentities, List.map_map]
  refine List.map_congr_left fun s hs => ?_
  have hs' := List.mem_map_of_mem (f := (·.toEntity)) hs
  rw [← hentities, List.mem_map] at hs'
  obtain ⟨t, ht, hentity⟩ := hs'
  have hmem := List.mem_of_getElem? (mem_symbols.1 (mem_symbols_of_outside ht))
  exact (hf.relabel_symbol h (mem_symbols_of_outside hs) (hentity ▸ hmem)).symm

end

section

variable {d : Declaration} {v : Option Expr} {f : SymbolId → SymbolId}
  (hcorresponds : Corresponds (.renumbering f) p (p.withValue d.id v))
  (hd : d ∈ p.allDeclarations) (hkind : d.kind.isReplicable = false)

include hcorresponds hd hkind

/-- The values of other declarations become the same operations with the same
reports, but for numbers. -/
theorem lowerValue_withValue {c : Declaration} (hc : c ∈ p.allDeclarations) (hne : c.id ≠ d.id) :
    lowerValue (p.withValue d.id v).bind.model c.value =
      (lowerValue p.bind.model c.value).relabel (.renumbering f)
        (Option.map (Operation.relabel (.renumbering f))) := by
  obtain ⟨placed, hplaced, rfl⟩ := mem_allDeclarations.1 hc
  have hplaced' : placed.withValue d.id v ∈ (p.withValue d.id v).placements := by
    rw [placements_withValue (isReplicable_of_id_eq hcorresponds.unique hd hkind)]
    exact List.mem_map_of_mem hplaced
  exact hcorresponds.lowerValue_renumbering hplaced hplaced'
    (PlacedDeclaration.located_withValue_of_ne hne)

theorem declaredSymbol_withValue {c : Declaration} (hc : c ∈ p.allDeclarations) :
    ∃ s, p.bind.model.declaredSymbol c.id = some s ∧
      (p.withValue d.id v).bind.model.declaredSymbol (c.withValue d.id v).id =
        some (s.relabel (.renumbering f)) := by
  have hkinds := isReplicable_of_id_eq hcorresponds.unique hd hkind
  obtain ⟨placed, hplaced, rfl⟩ := mem_allDeclarations.1 hc
  have hplaced' : placed.withValue d.id v ∈ (p.withValue d.id v).placements := by
    rw [placements_withValue hkinds]
    exact List.mem_map_of_mem hplaced
  have hentity := entity_withValue (v := v) hkinds hplaced
  have hdeclared := hcorresponds.declaredSymbol_relabel hplaced hplaced'
    (hentity.trans (Entity.relabel_renumbering _ _).symm)
  obtain ⟨s, -, hs, -⟩ := exists_symbol_of_placed hcorresponds.unique hplaced
  rw [hs] at hdeclared
  refine ⟨s, hs, ?_⟩
  rw [Declaration.id_withValue]
  exact hdeclared

/-- A declaration becomes the same operation, but for numbers and the value. -/
theorem value_lower_withValue {c : Declaration} (hc : c.flatten ⊆ p.allDeclarations) :
    ((c.withValue d.id v).lower (p.withValue d.id v).bind.model).value =
      (c.lower p.bind.model).value.map fun o => (o.relabel (.renumbering f)).withValue d.id
        (lowerValue (p.withValue d.id v).bind.model v).value := by
  induction c using Declaration.induction with
  | step c ih =>
      have hself : c ∈ p.allDeclarations := hc c.mem_flatten_self
      obtain ⟨s, hs, hs'⟩ := declaredSymbol_withValue hcorresponds hd hkind hself
      have hchildren : (Declaration.lowerAll (p.withValue d.id v).bind.model
            (c.withValue d.id v).children).value =
          (Declaration.lowerAll p.bind.model c.children).value.map fun o =>
            (o.relabel (.renumbering f)).withValue d.id
              (lowerValue (p.withValue d.id v).bind.model v).value := by
        rw [Declaration.withValue_eq, Declaration.lowerAll_value, Declaration.lowerAll_value,
          List.filterMap_map, List.map_filterMap]
        exact List.filterMap_congr fun c' hc' => ih c' hc' fun x hx =>
          hc (Declaration.flatten_subset_of_mem_children hc' hx)
      have hvalue : (lowerValue (p.withValue d.id v).bind.model (c.withValue d.id v).value).value =
          if c.id = d.id then (lowerValue (p.withValue d.id v).bind.model v).value
          else (lowerValue p.bind.model c.value).value.map
            (Operation.relabel (.renumbering f)) := by
        by_cases hid : c.id = d.id
        · rw [if_pos hid, Declaration.value_withValue_of_eq hid]
        · rw [if_neg hid, Declaration.value_withValue_of_ne hid,
            lowerValue_withValue hcorresponds hd hkind hself hid]
          rfl
      have horigin : (c.withValue d.id v).origin = c.origin := by rw [Declaration.withValue_eq]
      rw [Declaration.lower_of_some hs', Declaration.lower_of_some hs, Option.map_some, hchildren,
        hvalue, horigin, DeclarationOperation.relabel_eq, DeclarationOperation.withValue_eq,
        List.map_map]
      rfl

/-- Other values are reported on as before. -/
theorem diagnostics_withValue : ∃ before after,
    (p.lower p.bind.model).diagnostics =
      before ++ (lowerValue p.bind.model d.value).reports ++ after ∧
    ((p.withValue d.id v).lower (p.withValue d.id v).bind.model).diagnostics =
      before ++ (lowerValue (p.withValue d.id v).bind.model v).reports ++ after := by
  obtain ⟨before, placed, after, hplacements, hdeclaration, hothers⟩ :=
    exists_split hcorresponds.unique hd
  refine ⟨before.flatMap fun c => (lowerValue p.bind.model c.declaration.value).reports,
    after.flatMap fun c => (lowerValue p.bind.model c.declaration.value).reports, ?_, ?_⟩
  · rw [diagnostics_lower hcorresponds.unique, ← map_declaration_placements, hplacements,
      List.flatMap_map, List.flatMap_append, List.flatMap_cons, hdeclaration, List.append_assoc]
  · have hreports {l : List PlacedDeclaration} (hl : l ⊆ before ++ after) :
        (l.flatMap fun c => (lowerValue (p.withValue d.id v).bind.model
          (c.declaration.withValue d.id v).value).reports) =
        l.flatMap fun c => (lowerValue p.bind.model c.declaration.value).reports := by
      refine List.flatMap_congr fun c hc => ?_
      have hplaced : c ∈ p.placements := by
        rw [hplacements]
        exact List.perm_middle.mem_iff.2 (List.mem_cons_of_mem _ (hl hc))
      have hid := hothers c (hl hc)
      rw [Declaration.value_withValue_of_ne hid, lowerValue_withValue hcorresponds hd hkind
        (mem_allDeclarations.2 ⟨c, hplaced, rfl⟩) hid, Lowered.reports_renumbering]
    have hself : (placed.declaration.withValue d.id v).value = v :=
      Declaration.value_withValue_of_eq (congrArg Declaration.id hdeclaration)
    rw [diagnostics_lower hcorresponds.unique', allDeclarations_withValue,
      ← map_declaration_placements, hplacements, List.map_map, List.flatMap_map,
      List.flatMap_append, List.flatMap_cons, List.append_assoc,
      ← hreports (List.subset_append_left _ _), ← hreports (List.subset_append_right _ _)]
    simp only [Function.comp, hself]

end

/-- **Edits stay local.**  Let the value of a variable, a parameter or an
output be put in the place of another.  Outside the two values the same symbols
are declared in the same order; a renumbering leads from the ones to the
others.  The graph is the same but for these numbers and for what the value
becomes, the declarations nested in the edited one included.  The same is
reported before and after what is reported on the value. -/
theorem lower_withValue (h : p.reusedIds = []) {d : Declaration} (hd : d ∈ p.allDeclarations)
    (hkind : d.kind.isReplicable = false) {v : Option Expr}
    (h' : (p.withValue d.id v).reusedIds = []) :
    ∃ f : SymbolId → SymbolId, Function.Bijective f ∧
      (p.withValue d.id v).symbolsOutside v =
        (p.symbolsOutside d.value).map (Symbol.relabel (.renumbering f)) ∧
      ((p.withValue d.id v).lower (p.withValue d.id v).bind.model).declarations =
        (p.lower p.bind.model).declarations.map (fun o =>
          (o.relabel (.renumbering f)).withValue d.id
            (lowerValue (p.withValue d.id v).bind.model v).value) ∧
      ∃ before after,
        (p.lower p.bind.model).diagnostics =
          before ++ (lowerValue p.bind.model d.value).reports ++ after ∧
        ((p.withValue d.id v).lower (p.withValue d.id v).bind.model).diagnostics =
          before ++ (lowerValue (p.withValue d.id v).bind.model v).reports ++ after := by
  obtain ⟨f, hf⟩ := exists_renumbers h h'
  have hcorresponds := corresponds_of_meaningInside hf h h'
    (meaningInside_withValue (isReplicable_of_id_eq h hd hkind))
  refine ⟨f, hf.bijective, symbolsOutside_withValue h hd hkind h' hf, ?_,
    diagnostics_withValue hcorresponds hd hkind⟩
  show (Declaration.lowerAll _ (Declaration.withValueAll d.id v p.declarations)).value =
    (Declaration.lowerAll _ p.declarations).value.map _
  rw [Declaration.withValueAll_eq, Declaration.lowerAll_value, Declaration.lowerAll_value,
    List.filterMap_map, List.map_filterMap]
  exact List.filterMap_congr fun c hc =>
    value_lower_withValue hcorresponds hd hkind (flatten_subset_allDeclarations hc)

/-- The first of the twins with a reference to nothing for its value. -/
def brokenTwins : BoundProgram :=
  twins.withValue ⟨7⟩ (some (.reference (.numbered 90) "missing"))

/-- The two variables of the loops in the old value are gone, so the other twin
has smaller numbers, and the reference is all that is reported. -/
theorem lower_withValue_of_twins :
    ∃ d ∈ twins.allDeclarations, d.id = ⟨7⟩ ∧ d.kind.isReplicable = false ∧
      twins.reusedIds = [] ∧ brokenTwins.reusedIds = [] ∧
      ∃ f : SymbolId → SymbolId, Function.Bijective f ∧
        [f ⟨0⟩, f ⟨1⟩, f ⟨4⟩, f ⟨5⟩, f ⟨6⟩] = [⟨0⟩, ⟨1⟩, ⟨2⟩, ⟨3⟩, ⟨4⟩] ∧
        (brokenTwins.lower brokenTwins.bind.model).declarations =
          (twins.lower twins.bind.model).declarations.map (fun o =>
            (o.relabel (.renumbering f)).withValue ⟨7⟩ none) ∧
        (twins.lower twins.bind.model).diagnostics = [] ∧
        (brokenTwins.lower brokenTwins.bind.model).diagnostics.map (·.code) =
          [some .unknownSymbol] := by
  have h : twins.reusedIds = [] := by decide
  have h' : brokenTwins.reusedIds = [] := by decide
  have hbroken : (lowerValue brokenTwins.bind.model
      (some (.reference (.numbered 90) "missing"))).value = none := by
    rw [← Option.isNone_iff_eq_none]
    decide
  obtain ⟨d, hd, hid, hkind, hnames⟩ : ∃ d ∈ twins.allDeclarations, d.id = ⟨7⟩ ∧
      d.kind.isReplicable = false ∧
      (twins.symbolsOutside d.value).map (·.id) = [⟨0⟩, ⟨1⟩, ⟨4⟩, ⟨5⟩, ⟨6⟩] :=
    ⟨_, List.mem_of_getElem? (i := 1) rfl, rfl, rfl, by decide⟩
  have hedited : twins.withValue d.id (some (.reference (.numbered 90) "missing")) =
      brokenTwins := by rw [hid, brokenTwins]
  obtain ⟨f, hbijective, hsymbols, hdeclarations, -⟩ := lower_withValue h hd hkind (hedited ▸ h')
  rw [hedited] at hsymbols hdeclarations
  rw [hbroken, hid] at hdeclarations
  refine ⟨d, hd, hid, hkind, h, h', f, hbijective, ?_, hdeclarations, ?_, ?_⟩
  · have hnumbers := congrArg (List.map (·.id)) hsymbols
    have hafter : (brokenTwins.symbolsOutside (some (.reference (.numbered 90) "missing"))).map
        (·.id) = [⟨0⟩, ⟨1⟩, ⟨2⟩, ⟨3⟩, ⟨4⟩] := by decide
    have hmapped := congrArg (List.map f) hnames
    rw [hafter, List.map_map] at hnumbers
    rw [List.map_map] at hmapped
    exact (hnumbers.trans hmapped).symm
  · decide
  · decide

end BoundProgram

end InfraGraph
