import Mathlib.Data.List.Basic
import Mathlib.Data.List.Induction
import InfraGraph.Symbol.Binding

/-!
# Declaring in order

While a unit is bound, a name that was declared before is found in two steps:
the table of names gives the number of a symbol, and the list of symbols gives
the symbol of that number.  Loop variables are numbered in between and are in no
table.  So that the symbol found is the first declaration of the name, numbers
and places have to stay aligned (`Registry.Aligned`).  Every declaration keeps
them so, whatever its name and whatever is in its value; the ids of the nodes
play no part.

## Main definitions

* `repeats` — the items of a list that have the key of an earlier item.

## Main results

* `aligned_declare` — declaring one declaration.
* `aligned_register` — declaring a unit.
* `symbols_bind`, `diagnostics_bind` — what binding makes of a unit.
-/

namespace InfraGraph

/-! ## Repeated keys -/

/-- The items of a list that have the key of an earlier item, in order, each with
the first item of that key. -/
def repeats {α κ : Type} [BEq κ] (key : α → κ) (l : List α) : List (α × α) :=
  l.zipIdx.filterMap fun (a, i) => ((l.take i).find? (key · == key a)).map (a, ·)

section

variable {α κ : Type} [BEq κ] (key : α → κ)

theorem repeats_concat (l : List α) (a : α) :
    repeats key (l ++ [a]) =
      repeats key l ++ ((l.find? (key · == key a)).map (a, ·)).toList := by
  have hbefore : l.zipIdx.filterMap (fun (b, i) =>
      (((l ++ [a]).take i).find? (key · == key b)).map (b, ·)) = repeats key l := by
    refine List.filterMap_congr fun (b, i) hb => ?_
    have hi : i ≤ l.length := Nat.le_of_lt (List.snd_lt_of_mem_zipIdx hb)
    dsimp only
    rw [List.take_append_of_le_length hi]
  rw [repeats, List.zipIdx_append, List.filterMap_append, hbefore, List.zipIdx_singleton]
  cases h : l.find? (key · == key a) <;> simp [h]

theorem repeats_map {β : Type} (f : β → α) (l : List β) :
    repeats key (l.map f) = (repeats (key ∘ f) l).map (Prod.map f f) := by
  induction l using List.reverseRecOn with
  | nil => rfl
  | append_singleton l b ih =>
      rw [List.map_append, List.map_singleton, repeats_concat, repeats_concat, ih, List.map_append,
        List.find?_map]
      cases h : l.find? ((key · == key (f b)) ∘ f) <;> simp_all [Function.comp_def]

end

/-- Remembering the keys that were seen finds one item more if its key is among
them or belongs to an item before it. -/
theorem repeatsAfter_concat {α κ : Type} [DecidableEq κ] (key : α → κ) (seen : List κ)
    (l : List α) (a : α) :
    repeatsAfter key seen (l ++ [a]) =
      repeatsAfter key seen l ++ if key a ∈ seen ∨ ∃ b ∈ l, key b = key a then [a] else [] := by
  induction l generalizing seen with
  | nil => by_cases h : key a ∈ seen <;> simp [repeatsAfter, h]
  | cons b l ih =>
      rw [List.cons_append, repeatsAfter, repeatsAfter, ih, ih]
      by_cases hb : key b ∈ seen
      · have hseen : (key a ∈ seen ∨ ∃ c ∈ b :: l, key c = key a) ↔
            (key a ∈ seen ∨ ∃ c ∈ l, key c = key a) := by
          rw [List.exists_mem_cons_iff]
          constructor
          · rintro (h | h | h)
            · exact .inl h
            · exact .inl (h ▸ hb)
            · exact .inr h
          · rintro (h | h)
            · exact .inl h
            · exact .inr (.inr h)
        simp only [if_pos hb, hseen, List.cons_append]
      · have hseen : (key a ∈ seen ∨ ∃ c ∈ b :: l, key c = key a) ↔
            (key a ∈ key b :: seen ∨ ∃ c ∈ l, key c = key a) := by
          rw [List.exists_mem_cons_iff, List.mem_cons, eq_comm, or_left_comm, or_assoc]
        simp only [if_neg hb, hseen]

theorem repeatsAfter_eq {α κ : Type} [DecidableEq κ] (key : α → κ) (l : List α) :
    repeatsAfter key [] l = (repeats key l).map Prod.fst := by
  induction l using List.reverseRecOn with
  | nil => rfl
  | append_singleton l a ih =>
      rw [repeatsAfter_concat, repeats_concat, ih, List.map_append]
      cases hfirst : l.find? (key · == key a) with
      | none =>
          have hnone : ¬(key a ∈ [] ∨ ∃ b ∈ l, key b = key a) := by
            simpa using hfirst
          rw [if_neg hnone]
          rfl
      | some b =>
          have hkey := List.find?_some hfirst
          have hsome : key a ∈ [] ∨ ∃ b ∈ l, key b = key a :=
            .inr ⟨b, List.mem_of_find?_eq_some hfirst, eq_of_beq hkey⟩
          rw [if_pos hsome]
          rfl

/-! ## Numbers and places -/

namespace Registry

/-- A registry fits the declarations that were gone through: the symbols are what
they introduce in order, and a name leads by its number to what the first
declaration of that name introduces. -/
structure Aligned (target : DeploymentScope) (r : Registry) (ds : List PlacedDeclaration) :
    Prop where
  symbols : r.symbols = (ds.flatMap (·.entities target)).mapIdx fun i e => ⟨e, ⟨i⟩⟩
  unknown : ∀ name, ds.find? (·.name == name) = none → r.globals.lookup name = none
  known : ∀ name first, ds.find? (·.name == name) = some first → ∃ id symbol,
    r.globals.lookup name = some id ∧ r.symbols[id.index]? = some symbol ∧
      symbol.toEntity = first.entity target

theorem aligned_nil (target : DeploymentScope) (diagnostics : Diagnostics) :
    Aligned target ⟨[], [], diagnostics⟩ [] where
  symbols := rfl
  unknown _ _ := rfl
  known _ _ h := by cases h

/-- What is introduced next gets the next places; nothing else changes. -/
theorem foldl_add (r : Registry) (es : List Entity) :
    es.foldl add r =
      { r with symbols := r.symbols ++ es.mapIdx fun i e => ⟨e, ⟨i + r.symbols.length⟩⟩ } := by
  induction es generalizing r with
  | nil => simp
  | cons e es ih =>
      rw [List.foldl_cons, ih, List.mapIdx_cons]
      simp [add, next, Nat.add_comm, Nat.add_left_comm]

variable {target : DeploymentScope} {r : Registry} {ds : List PlacedDeclaration}

theorem declare_eq (r : Registry) (d : PlacedDeclaration) :
    r.declare target d =
      { r.giveName d with
        symbols := r.symbols ++
          (d.entities target).mapIdx fun i e => ⟨e, ⟨i + r.symbols.length⟩⟩ } :=
  foldl_add _ _

/-- The next place goes to the declaration itself. -/
theorem getElem?_declare_next (r : Registry) (d : PlacedDeclaration) :
    (r.declare target d).symbols[r.next.index]? = some ⟨d.entity target, r.next⟩ := by
  rw [declare_eq, PlacedDeclaration.entities, List.mapIdx_cons]
  simp [next]

/-- Symbols keep their places. -/
theorem getElem?_declare (d : PlacedDeclaration) {i : Nat} {symbol : Symbol}
    (h : r.symbols[i]? = some symbol) : (r.declare target d).symbols[i]? = some symbol := by
  obtain ⟨hi, -⟩ := List.getElem?_eq_some_iff.1 h
  rw [declare_eq, List.getElem?_append_left hi, h]

/-- A name that is known stays with its number. -/
theorem lookup_declare_of_some (d : PlacedDeclaration) {name : String} {id : SymbolId}
    (h : r.globals.lookup name = some id) :
    (r.declare target d).globals.lookup name = some id := by
  rw [declare_eq, giveName]
  dsimp only
  split
  · exact h
  · next hnone =>
      have hne : name ≠ d.name := by
        rintro rfl
        exact absurd (hnone.symm.trans h) (by simp)
      rw [List.lookup_cons, beq_false_of_ne hne]
      exact h

/-- A name that is not known gets the next number, if it is that of the
declaration. -/
theorem lookup_declare_of_none (d : PlacedDeclaration) {name : String}
    (h : r.globals.lookup name = none) :
    (r.declare target d).globals.lookup name = if d.name = name then some r.next else none := by
  rw [declare_eq, giveName]
  dsimp only
  by_cases hname : d.name = name
  · subst hname
    simp [h]
  · rw [if_neg hname]
    split
    · exact h
    · rw [List.lookup_cons, beq_false_of_ne (Ne.symm hname)]
      exact h

/-- **One declaration keeps numbers and places aligned.** -/
theorem aligned_declare (h : r.Aligned target ds) (d : PlacedDeclaration) :
    (r.declare target d).Aligned target (ds ++ [d]) where
  symbols := by
    rw [declare_eq, h.symbols, List.flatMap_append, List.flatMap_singleton,
      List.mapIdx_append, List.length_mapIdx]
  unknown name hnone := by
    rw [List.find?_append, Option.or_eq_none_iff] at hnone
    have hne : d.name ≠ name := by
      simpa using hnone.2
    rw [lookup_declare_of_none d (h.unknown name hnone.1), if_neg hne]
  known name first hfirst := by
    rw [List.find?_append] at hfirst
    cases hbefore : ds.find? (·.name == name) with
    | some earlier =>
        rw [hbefore] at hfirst
        obtain rfl := Option.some.inj hfirst
        obtain ⟨id, symbol, hid, hsymbol, hentity⟩ := h.known name earlier hbefore
        exact ⟨id, symbol, lookup_declare_of_some d hid, getElem?_declare d hsymbol, hentity⟩
    | none =>
        rw [hbefore, Option.none_or] at hfirst
        obtain rfl := List.mem_singleton.1 (List.mem_of_find?_eq_some hfirst)
        have hname := List.find?_some hfirst
        have hname : first.name = name := eq_of_beq hname
        refine ⟨r.next, ⟨first.entity target, r.next⟩, ?_, getElem?_declare_next r first, rfl⟩
        rw [lookup_declare_of_none first (h.unknown name hbefore), if_pos hname]

/-- A declaration is reported if an earlier one has its name, with the span of
the first such. -/
theorem diagnostics_declare (h : r.Aligned target ds) (d : PlacedDeclaration) :
    (r.declare target d).diagnostics = r.diagnostics ++
      (ds.find? (·.name == d.name)).toList.map fun first =>
        reportRedeclared d first.declaration.span := by
  rw [declare_eq, giveName]
  dsimp only
  cases hfirst : ds.find? (·.name == d.name) with
  | none =>
      rw [h.unknown d.name hfirst]
      exact (List.append_nil _).symm
  | some first =>
      obtain ⟨id, symbol, hid, hsymbol, hentity⟩ := h.known d.name first hfirst
      have hspan : symbol.span = first.declaration.span :=
        congrArg (fun e => e.origin.span) hentity
      rw [hid]
      simp [hsymbol, hspan]

/-- **So does going through many**, and what is reported are the declarations
that have the name of an earlier one. -/
theorem aligned_foldl (target : DeploymentScope) (diagnostics : Diagnostics)
    (ds : List PlacedDeclaration) :
    let r := ds.foldl (declare target) ⟨[], [], diagnostics⟩
    r.Aligned target ds ∧ r.diagnostics = diagnostics ++
      (repeats PlacedDeclaration.name ds).map fun (d, first) =>
        reportRedeclared d first.declaration.span := by
  induction ds using List.reverseRecOn with
  | nil => exact ⟨aligned_nil target diagnostics, (List.append_nil _).symm⟩
  | append_singleton ds d ih =>
      obtain ⟨haligned, hdiagnostics⟩ := ih
      intro r
      have hr : r = (ds.foldl (declare target) ⟨[], [], diagnostics⟩).declare target d :=
        List.foldl_concat ..
      refine ⟨hr ▸ aligned_declare haligned d, ?_⟩
      rw [hr, diagnostics_declare haligned, hdiagnostics, repeats_concat, List.map_append,
        List.append_assoc]
      cases ds.find? (·.name == d.name) <;> rfl

end Registry

/-! ## Bound units -/

namespace BoundProgram

variable (p : BoundProgram)

/-- The symbols of a unit are what it introduces, numbered in order. -/
theorem symbols_bind : p.bind.symbols = p.entities.mapIdx fun i e => ⟨e, ⟨i⟩⟩ :=
  (Registry.aligned_foldl p.targetScope _ p.placements).1.symbols

/-- Binding reports the nodes that have the id of an earlier node, and then the
declarations that have the name of an earlier one. -/
theorem diagnostics_bind :
    p.bind.diagnostics = p.reusedIds.map reportReusedId ++
      (repeats PlacedDeclaration.name p.placements).map fun (d, first) =>
        reportRedeclared d first.declaration.span :=
  (Registry.aligned_foldl p.targetScope _ p.placements).2

end BoundProgram

end InfraGraph
