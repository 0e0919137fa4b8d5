import InfraGraph.Proofs.Graph.Reports
import InfraGraph.Proofs.Graph.Uses
import InfraGraph.Proofs.Relabeling.Renumbering

/-!
# The order of declarations

A unit is declared in some order, and the order is seen all over: symbols are
numbered by it, and of two declarations of one name the first is meant.  Units
in which every full name is declared once do not depend on it.  Declared in
another order, such a unit introduces the same under other numbers, and names
mean the same inside the same loops, so every declaration becomes the operation
that it was before, but for numbers.

## Main results

* `meaningInside_of_perm` — names mean the same in any order.
* `lower_reordered` — declarations in another order.
-/

namespace InfraGraph

/-- In a list without repeated keys a search does not depend on the order. -/
theorem find?_eq_of_perm {α κ : Type} [BEq κ] [LawfulBEq κ] {key : α → κ} {l l' : List α}
    (hnodup : (l.map key).Nodup) (hperm : l'.Perm l) (k : κ) :
    l'.find? (key · == k) = l.find? (key · == k) := by
  have hnodup' : (l'.map key).Nodup := (hperm.map key).nodup_iff.2 hnodup
  refine Option.ext fun a => ?_
  rw [find?_eq_some_iff_of_nodup hnodup', find?_eq_some_iff_of_nodup hnodup, hperm.mem_iff]

theorem map_some_filterMap {α β : Type} {f : α → Option β} {l : List α}
    (h : ∀ a ∈ l, (f a).isSome) : (l.filterMap f).map some = l.map f := by
  induction l with
  | nil => rfl
  | cons a l ih =>
      obtain ⟨ha, hl⟩ := List.forall_mem_cons.1 h
      obtain ⟨b, hb⟩ := Option.isSome_iff_exists.1 ha
      rw [List.filterMap_cons_some hb, List.map_cons, List.map_cons, ih hl, hb]

namespace BoundProgram

variable {p p' : BoundProgram}

/-! ## A unit in another order -/

section

variable (hscope : p'.targetScope = p.targetScope) (hperm : p'.declarations.Perm p.declarations)

include hperm

theorem perm_allDeclarations : p'.allDeclarations.Perm p.allDeclarations :=
  hperm.flatMap_right _

theorem perm_placements : p'.placements.Perm p.placements := by
  rw [placements_eq_flatMap, placements_eq_flatMap]
  exact hperm.flatMap_right _

theorem reusedIds_of_perm (h : p.reusedIds = []) : p'.reusedIds = [] := by
  rw [reusedIds_eq_nil_iff] at h ⊢
  have horigins : p'.origins.Perm p.origins := (perm_allDeclarations hperm).flatMap_right _
  exact (horigins.map _).nodup_iff.2 h

include hscope

theorem perm_entities : p'.entities.Perm p.entities := by
  rw [entities, entities, hscope]
  exact (perm_placements hperm).flatMap_right _

/-- Names mean the same in any order, if each is declared once. -/
theorem meaningInside_of_perm (hnames : (p.nestedDeclarations.map (·.fullName)).Nodup)
    (loops : List LoopDescriptor) (name : String) :
    p'.meaningInside loops name = p.meaningInside loops name := by
  have hplaced : (p.placements.map (·.name)).Nodup := by
    rw [placements_eq_map_nested, List.map_map]
    exact hnames
  rw [meaningInside_eq, meaningInside_eq, hscope,
    find?_eq_of_perm hplaced (perm_placements hperm)]

end

/-! ## Its graph -/

section

variable {f : SymbolId → SymbolId} (hcorresponds : Corresponds (.renumbering f) p p')
  (hscope : p'.targetScope = p.targetScope) (hperm : p'.declarations.Perm p.declarations)

include hcorresponds hperm

/-- A value becomes the same operation, but for numbers. -/
theorem lowerValue_of_perm {d : Declaration} (hd : d ∈ p.allDeclarations) :
    lowerValue p'.bind.model d.value =
      (lowerValue p.bind.model d.value).relabel (.renumbering f)
        (Option.map (Operation.relabel (.renumbering f))) := by
  obtain ⟨placed, hplaced, rfl⟩ := mem_allDeclarations.1 hd
  exact hcorresponds.lowerValue_renumbering hplaced ((perm_placements hperm).mem_iff.2 hplaced) rfl

include hscope

/-- So does a declaration. -/
theorem declaration_of_perm {d : Declaration} (hd : d ∈ p.declarations) :
    d.lower p'.bind.model =
      (d.lower p.bind.model).relabel (.renumbering f)
        (Option.map (DeclarationOperation.relabel (.renumbering f))) := by
  have hlower := hcorresponds.lower_relabel hscope (d := d) fun c hc => by
    obtain ⟨placed, hplaced, hdeclaration⟩ :=
      mem_allDeclarations.1 (flatten_subset_allDeclarations hd hc)
    refine ⟨placed, hplaced, hdeclaration, ?_⟩
    rw [placed.relabel_renumbering]
    exact (perm_placements hperm).mem_iff.2 hplaced
  rwa [Declaration.relabel_renumbering] at hlower

/-- The same is reported in another order. -/
theorem perm_diagnostics_of_perm :
    (p'.lower p'.bind.model).diagnostics.Perm (p.lower p.bind.model).diagnostics := by
  show (Declaration.lowerAll p'.bind.model p'.declarations).reports.Perm
    (Declaration.lowerAll p.bind.model p.declarations).reports
  rw [Declaration.lowerAll_reports, Declaration.lowerAll_reports]
  refine (hperm.flatMap_right _).trans (List.Perm.of_eq (List.flatMap_congr fun d hd => ?_))
  rw [declaration_of_perm hcorresponds hscope hperm hd, Lowered.reports_renumbering]

/-- The same is referred to, under other numbers. -/
theorem perm_referenced :
    (p'.lower p'.bind.model).referenced.Perm ((p.lower p.bind.model).referenced.map f) := by
  have hresolved : (p'.lower p'.bind.model).resolved.Perm
      ((p.lower p.bind.model).resolved.map f) := by
    show (Declaration.lowerAll p'.bind.model p'.declarations).resolved.Perm
      ((Declaration.lowerAll p.bind.model p.declarations).resolved.map f)
    rw [Declaration.lowerAll_resolved, Declaration.lowerAll_resolved, List.map_flatMap]
    refine (hperm.flatMap_right _).trans (List.Perm.of_eq (List.flatMap_congr fun d hd => ?_))
    rw [declaration_of_perm hcorresponds hscope hperm hd]
    rfl
  have hroots : (p'.lower p'.bind.model).roots.Perm
      ((p.lower p.bind.model).roots.map (Operation.relabel (.renumbering f))) := by
    rw [roots_lower hcorresponds.unique, roots_lower hcorresponds.unique', List.map_filterMap]
    refine ((perm_allDeclarations hperm).filterMap _).trans
      (List.Perm.of_eq (List.filterMap_congr fun d hd => ?_))
    rw [lowerValue_of_perm hcorresponds hperm hd]
    rfl
  rw [OperationGraph.referenced, OperationGraph.referenced, List.map_append]
  refine List.Perm.append ?_ hresolved
  refine ((hroots.flatMap_right _).filterMap _).trans (List.Perm.of_eq ?_)
  rw [List.flatMap_map, List.map_filterMap, List.filterMap_flatMap, List.filterMap_flatMap]
  refine List.flatMap_congr fun op _ => ?_
  rw [Operation.preorder_relabel, List.filterMap_map]
  refine List.filterMap_congr fun x _ => ?_
  rw [Function.comp, Operation.symbol?_relabel, Option.map_map, Option.map_map]
  rfl

end

/-- **The order of declarations does not matter.**  In a unit that declares
every full name once, let the declarations of the top level be put in another
order.  The same is introduced under other numbers.  Every declaration becomes
the operation that it became before, but for these numbers, and these
operations stand in the order of their declarations.  The same is reported, as
often as before, and the same symbols are referred to. -/
theorem lower_reordered (h : p.reusedIds = [])
    (hnames : (p.nestedDeclarations.map (·.fullName)).Nodup)
    (hscope : p'.targetScope = p.targetScope) (hperm : p'.declarations.Perm p.declarations) :
    ∃ f : SymbolId → SymbolId, Function.Bijective f ∧
      p'.bind.symbols.Perm (p.bind.symbols.map (Symbol.relabel (.renumbering f))) ∧
      (p.lower p.bind.model).declarations.map some =
        p.declarations.map (fun d => (d.lower p.bind.model).value) ∧
      (p'.lower p'.bind.model).declarations.map some =
        p'.declarations.map (fun d => (d.lower p.bind.model).value.map
          (DeclarationOperation.relabel (.renumbering f))) ∧
      (p'.lower p'.bind.model).diagnostics.Perm (p.lower p.bind.model).diagnostics ∧
      ∀ id : SymbolId, (f id).index ∈ (p'.lower p'.bind.model).referencedSymbols ↔
        id.index ∈ (p.lower p.bind.model).referencedSymbols := by
  have h' : p'.reusedIds = [] := reusedIds_of_perm hperm h
  have hentities : p'.entities.Perm p.entities := perm_entities hscope hperm
  obtain ⟨f, hf⟩ := exists_renumbers h h'
  have hcorresponds : Corresponds (.renumbering f) p p' :=
    corresponds_of_meaningInside hf h h' (meaningInside_of_perm hscope hperm hnames)
  have hsome (d : Declaration) (hd : d ∈ p.declarations) :
      (d.lower p.bind.model).value.isSome := by
    obtain ⟨s, hs⟩ := Option.isSome_iff_exists.1
      (isSome_declaredSymbol h (flatten_subset_allDeclarations hd d.mem_flatten_self))
    rw [Declaration.lower_of_some hs]
    rfl
  refine ⟨f, hf.bijective, perm_symbols hf h h' hentities, ?_, ?_,
    perm_diagnostics_of_perm hcorresponds hscope hperm, fun id => ?_⟩
  · show (Declaration.lowerAll p.bind.model p.declarations).value.map some = _
    rw [Declaration.lowerAll_value, map_some_filterMap hsome]
  · have hlower (d : Declaration) (hd : d ∈ p'.declarations) : (d.lower p'.bind.model).value =
        (d.lower p.bind.model).value.map
          (DeclarationOperation.relabel (.renumbering f)) := by
      rw [declaration_of_perm hcorresponds hscope hperm (hperm.mem_iff.1 hd)]
      rfl
    show (Declaration.lowerAll p'.bind.model p'.declarations).value.map some = _
    rw [Declaration.lowerAll_value, map_some_filterMap fun d hd => ?_, List.map_congr_left hlower]
    rw [hlower d hd, Option.isSome_map]
    exact hsome d (hperm.mem_iff.1 hd)
  · rw [OperationGraph.mem_referencedSymbols, OperationGraph.mem_referencedSymbols,
      (perm_referenced hcorresponds hscope hperm).mem_iff,
      List.mem_map_of_injective hf.bijective.injective]

/-- The twins declared the other way round: the first symbol becomes the last,
and the references to it are found again. -/
theorem lower_reordered_of_twins :
    let p' : BoundProgram := ⟨twins.targetScope, twins.declarations.reverse⟩
    twins.reusedIds = [] ∧ (twins.nestedDeclarations.map (·.fullName)).Nodup ∧
      p'.declarations.Perm twins.declarations ∧
      ∃ f : SymbolId → SymbolId, Function.Bijective f ∧ f ⟨0⟩ = ⟨6⟩ ∧
        (p'.lower p'.bind.model).declarations.map some =
          twins.declarations.reverse.map (fun d => (d.lower twins.bind.model).value.map
            (DeclarationOperation.relabel (.renumbering f))) ∧
        (p'.lower p'.bind.model).diagnostics.Perm (twins.lower twins.bind.model).diagnostics ∧
        6 ∈ (p'.lower p'.bind.model).referencedSymbols := by
  intro p'
  have h : twins.reusedIds = [] := by decide
  have hnames : (twins.nestedDeclarations.map (·.fullName)).Nodup := by decide
  have hscope : p'.targetScope = twins.targetScope := rfl
  have hperm : p'.declarations.Perm twins.declarations := List.reverse_perm _
  obtain ⟨f, hbijective, hsymbols, -, hdeclarations, hdiagnostics, hreferenced⟩ :=
    lower_reordered h hnames hscope hperm
  obtain ⟨s, hs, hsid, hsentity⟩ : ∃ s ∈ twins.bind.symbols, s.id = ⟨0⟩ ∧
      p'.entities[6]? = some s.toEntity := ⟨_, List.mem_of_getElem? (i := 0) rfl, rfl, rfl⟩
  have hnumber : f ⟨0⟩ = ⟨6⟩ := by
    have h' : p'.reusedIds = [] := reusedIds_of_perm hperm h
    have hnumbered := symbolOf_toEntity h' (hsymbols.mem_iff.2 (List.mem_map_of_mem hs))
    have hentity : (s.relabel (.renumbering f)).toEntity = s.toEntity :=
      Entity.relabel_renumbering f s.toEntity
    rw [hentity, symbolOf_of_getElem? h' hsentity] at hnumbered
    rw [← hsid]
    exact (congrArg Symbol.id hnumbered).symm
  have hresolved : (⟨0⟩ : SymbolId) ∈ (twins.lower twins.bind.model).resolved := by decide
  have hzero := (OperationGraph.mem_referencedSymbols _ _).2 (List.mem_append_right _ hresolved)
  refine ⟨h, hnames, hperm, f, hbijective, hnumber, hdeclarations, hdiagnostics, ?_⟩
  have hsix := (hreferenced ⟨0⟩).2 hzero
  rwa [hnumber] at hsix

end BoundProgram

end InfraGraph
