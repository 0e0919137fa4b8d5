import Mathlib.Data.Set.Finite.Basic
import Mathlib.Logic.Equiv.Fintype
import InfraGraph.Proofs.Relabeling.Binding

/-!
# Other numbers for the symbols

A symbol has its place in the order of declaring for its number, so an edit at
one place renumbers the symbols behind it.  What two units both introduce has a
number in each of them.  Numbers that lead from the ones to the others are part
of a permutation of all numbers: the symbols that only one of the units has do
not stand in the way.

Two units in which names mean the same inside the same loops correspond under
such a renumbering.  All that is left to know of an edit is what it does to the
meaning of names.

## Main results

* `symbols_eq_map` — a symbol is known by what it stands for.
* `exists_renumbers` — there is a renumbering between any two units.
* `corresponds_of_located` — units in which the names of the one mean the same.
* `perm_symbols` — units that introduce the same in another order.
* `lowerValue_renumbering` — a value that both units have in the same place.
-/

namespace InfraGraph

theorem PlacedDeclaration.relabel_renumbering (f : SymbolId → SymbolId) (d : PlacedDeclaration) :
    d.relabel (.renumbering f) = d := by
  rw [relabel, Declaration.relabel_renumbering, map_relabel_renumbering]

/-- Reports hold no numbers of symbols. -/
theorem Lowered.reports_renumbering {α β : Type} (f : SymbolId → SymbolId) (g : α → β)
    (x : Lowered α) : (x.relabel (.renumbering f) g).reports = x.reports :=
  map_eq_self fun d _ => d.relabel_renumbering f

theorem Lowered.relabel_same {α : Type} {f : α → α} (hf : ∀ a, f a = a) (x : Lowered α) :
    x.relabel .same f = x := by
  obtain ⟨value, reports, resolved⟩ := x
  have hreports : reports.map (Diagnostic.relabel .same) = reports :=
    map_eq_self fun d _ => d.relabel_renumbering id
  have hresolved : resolved.map Relabeling.same.symbol = resolved := List.map_id resolved
  rw [relabel, hf, hreports, hresolved]

namespace BoundProgram

/-! ## Numbers by what they stand for -/

open Classical in
/-- What a unit introduces, with the number it has there. -/
noncomputable def symbolOf (p : BoundProgram) (v : Entity) : Symbol :=
  ⟨v, ⟨p.entities.idxOf v⟩⟩

/-- A renumbering between two units: what both of them introduce gets the
number that it has in the other one. -/
structure Renumbers (f : SymbolId → SymbolId) (p p' : BoundProgram) : Prop where
  bijective : Function.Bijective f
  number : ∀ v ∈ p.entities, v ∈ p'.entities → f (p.symbolOf v).id = (p'.symbolOf v).id

variable {p p' : BoundProgram}

theorem symbolOf_of_getElem? (h : p.reusedIds = []) {v : Entity} {i : Nat}
    (hi : p.entities[i]? = some v) : p.symbolOf v = ⟨v, ⟨i⟩⟩ := by
  classical
  obtain ⟨hlt, rfl⟩ := List.getElem?_eq_some_iff.1 hi
  rw [symbolOf, (nodup_entities h).idxOf_getElem i hlt]

theorem symbolOf_toEntity (h : p.reusedIds = []) {s : Symbol} (hs : s ∈ p.bind.symbols) :
    p.symbolOf s.toEntity = s :=
  symbolOf_of_getElem? h (mem_symbols.1 hs)

/-- The symbols of a unit are what it introduces with the numbers it has
there. -/
theorem symbols_eq_map (h : p.reusedIds = []) :
    p.bind.symbols = p.entities.map p.symbolOf := by
  rw [← map_toEntity_symbols, List.map_map]
  exact (map_eq_self fun s hs => symbolOf_toEntity h hs).symm

theorem eq_of_symbolOf_id_eq (h : p.reusedIds = []) {v w : Entity} (hv : v ∈ p.entities)
    (hw : w ∈ p.entities) (hid : (p.symbolOf v).id = (p.symbolOf w).id) : v = w := by
  have hsymbol {u : Entity} (hu : u ∈ p.entities) : p.symbolOf u ∈ p.bind.symbols := by
    rw [symbols_eq_map h]
    exact List.mem_map_of_mem hu
  exact congrArg Symbol.toEntity (eq_of_symbolId_eq (hsymbol hv) (hsymbol hw) hid)

/-- **Any two units** have a renumbering between them. -/
theorem exists_renumbers (h : p.reusedIds = []) (h' : p'.reusedIds = []) :
    ∃ f, Renumbers f p p' := by
  -- What both units introduce is finite, so its numbers are part of a permutation.
  have hfinite : Finite {v // v ∈ p.entities ∧ v ∈ p'.entities} :=
    (List.finite_toSet p.entities).subset fun v hv => hv.1
  obtain ⟨f, hf⟩ := Equiv.Perm.exists_extending_pair
    (fun v : {v // v ∈ p.entities ∧ v ∈ p'.entities} => (p.symbolOf v).id)
    (fun v => (p'.symbolOf v).id)
    (fun v w hid => Subtype.ext (eq_of_symbolOf_id_eq h v.2.1 w.2.1 hid))
    (fun v w hid => Subtype.ext (eq_of_symbolOf_id_eq h' v.2.2 w.2.2 hid))
  exact ⟨f, f.bijective, fun v hv hv' => hf ⟨v, hv, hv'⟩⟩

/-- **A renumbered symbol** is the symbol of the other unit for the same. -/
theorem Renumbers.relabel_symbol {f : SymbolId → SymbolId} (hf : Renumbers f p p')
    (h : p.reusedIds = []) {s : Symbol} (hs : s ∈ p.bind.symbols)
    (hs' : s.toEntity ∈ p'.entities) :
    s.relabel (.renumbering f) = p'.symbolOf s.toEntity := by
  have hid := hf.number s.toEntity (List.mem_of_getElem? (mem_symbols.1 hs)) hs'
  rw [symbolOf_toEntity h hs] at hid
  rw [Symbol.relabel, Entity.relabel_renumbering]
  exact congrArg (Symbol.mk s.toEntity) hid

/-! ## Units in which names mean the same -/

/-- What a name means, by the places of declarations. -/
theorem meaningInside_eq (p : BoundProgram) (loops : List LoopDescriptor) (name : String) :
    p.meaningInside loops name = (loops.reverse.findSome? (·.introduced? name)).or
      ((p.placements.find? (·.name == name)).map (·.entity p.targetScope)) := by
  rw [meaningInside, placements_eq_map_nested, List.find?_map, Option.map_map]
  rfl

section

variable {f : SymbolId → SymbolId} (hf : Renumbers f p p') (h : p.reusedIds = [])
  (h' : p'.reusedIds = [])

include hf h h'

/-- **Two units in which the names of the one mean the same** correspond. -/
theorem corresponds_of_located
    (hmeaning : ∀ n chain name, (n, chain) ∈ p.located → n.referenceName? = some name →
      p'.meaningInside chain name = p.meaningInside chain name) :
    Corresponds (.renumbering f) p p' where
  unique := h
  unique' := h'
  node_injective _ _ _ _ hid := hid
  entity_injective s hs t ht hst := by
    rw [Entity.relabel_renumbering, Entity.relabel_renumbering] at hst
    exact eq_of_toEntity_eq h hs ht hst
  number s hs t ht hst := by
    rw [Entity.relabel_renumbering] at hst
    have hs' : s.toEntity ∈ p'.entities := hst ▸ List.mem_of_getElem? (mem_symbols.1 ht)
    have hrelabel := hf.relabel_symbol h hs hs'
    rw [← hst, symbolOf_toEntity h' ht] at hrelabel
    exact (congrArg Symbol.id hrelabel).symm
  meaning n chain name hn hname := by
    rw [map_relabel_renumbering, funext (Entity.relabel_renumbering _), Option.map_id',
      hmeaning n chain name hn.left hname]

/-- Two units in which all names mean the same correspond. -/
theorem corresponds_of_meaningInside
    (hmeaning : ∀ loops name, p'.meaningInside loops name = p.meaningInside loops name) :
    Corresponds (.renumbering f) p p' :=
  corresponds_of_located hf h h' fun _ chain name _ _ => hmeaning chain name

/-- **Units that introduce the same** in another order have the same symbols
under other numbers. -/
theorem perm_symbols (hperm : p'.entities.Perm p.entities) :
    p'.bind.symbols.Perm (p.bind.symbols.map (Symbol.relabel (.renumbering f))) := by
  have hrelabel : p.bind.symbols.map (Symbol.relabel (.renumbering f)) =
      p.entities.map p'.symbolOf := by
    rw [← map_toEntity_symbols, List.map_map]
    refine List.map_congr_left fun s hs => hf.relabel_symbol h hs (hperm.mem_iff.2 ?_)
    exact List.mem_of_getElem? (mem_symbols.1 hs)
  rw [symbols_eq_map h', hrelabel]
  exact hperm.map _

end

/-- **A value that stands in the same place** in both units becomes the same
operation with the same reports, but for numbers. -/
theorem Corresponds.lowerValue_renumbering {f : SymbolId → SymbolId}
    (h : Corresponds (.renumbering f) p p') {d d' : PlacedDeclaration} (hd : d ∈ p.placements)
    (hd' : d' ∈ p'.placements) (hlocated : d'.located = d.located) :
    lowerValue p'.bind.model d.declaration.value =
      (lowerValue p.bind.model d.declaration.value).relabel (.renumbering f)
        (Option.map (Operation.relabel (.renumbering f))) := by
  have hsame : d'.located = (d.relabel (.renumbering f)).located := by
    rw [hlocated, d.relabel_renumbering]
  have hvalue := d.declaration.lowerValue_relabel (h.relabels_of_located hd hd' hsame)
  rwa [funext (Expr.relabel_renumbering f), Option.map_id'] at hvalue

end BoundProgram

end InfraGraph
