import Mathlib.Data.List.Flatten
import Mathlib.Data.List.Nodup
import InfraGraph.Tree.Program

/-!
# Nodes and their ids

Which nodes are among the nodes of a tree, and how a node is known.
`Expr.preorder` and `Declaration.flatten` list a node before the nodes of its
children; what is said here does not depend on the order.

`reusedIds` walks over the nodes of a unit and remembers what it has seen.  It
finds nothing exactly if all nodes, declarations and expressions alike, have
different ids.  That is the form in which later files use it: a node is known
by its id.

## Main results

* `Declaration.induction` — from the nested declarations to the declaration.
* `reusedIds_eq_nil_iff` — no id is reused exactly if all ids are different.
* `nodup_expressionIds`, `nodup_declarationIds` — what it means for the two
  kinds of nodes.
* `eq_of_id_eq` — a node is known by its id.
-/

namespace InfraGraph

/-- An item with a key of its own is what a search for this key finds. -/
theorem find?_eq_some_iff_of_nodup {α κ : Type} [BEq κ] [LawfulBEq κ] {key : α → κ} {l : List α}
    (h : (l.map key).Nodup) {k : κ} {a : α} :
    l.find? (key · == k) = some a ↔ a ∈ l ∧ key a = k := by
  constructor
  · intro hfound
    have hkey := List.find?_some hfound
    exact ⟨List.mem_of_find?_eq_some hfound, eq_of_beq hkey⟩
  · rintro ⟨ha, rfl⟩
    have hsome : (l.find? (key · == key a)).isSome := by
      rw [List.find?_isSome]
      exact ⟨a, ha, beq_self_eq_true _⟩
    obtain ⟨b, hb⟩ := Option.isSome_iff_exists.1 hsome
    have hkey := List.find?_some hb
    rw [hb, List.inj_on_of_nodup_map h (List.mem_of_find?_eq_some hb) ha (eq_of_beq hkey)]

/-! ## Nodes among nodes -/

theorem Expr.preorder_subset_of_mem_children {c e : Expr} (h : c ∈ e.children) :
    c.preorder ⊆ e.preorder := by
  intro n hn
  rw [preorder_eq e]
  exact List.mem_cons_of_mem _ (List.mem_flatMap.2 ⟨c, h, hn⟩)

namespace Declaration

theorem sizeOf_lt_of_mem_children {c d : Declaration} (h : c ∈ d.children) :
    sizeOf c < sizeOf d := by
  obtain ⟨origin, name, kind, value, children⟩ := d
  have := List.sizeOf_lt_of_mem h
  simp only [mk.sizeOf_spec] at this ⊢
  omega

/-- Induction from the nested declarations to the declaration. -/
theorem induction {motive : Declaration → Prop}
    (step : ∀ d, (∀ c ∈ d.children, motive c) → motive d) (d : Declaration) : motive d :=
  step d fun c _ => induction step c
termination_by sizeOf d
decreasing_by exact sizeOf_lt_of_mem_children ‹_›

theorem mem_valueNodes {d : Declaration} {n : Expr} :
    n ∈ d.valueNodes ↔ ∃ value, d.value = some value ∧ n ∈ value.preorder := by
  rw [valueNodes]
  cases d.value <;> simp

theorem mem_flatten_self (d : Declaration) : d ∈ d.flatten := by
  rw [flatten_eq]
  exact List.mem_cons_self

theorem flatten_subset_of_mem_children {c d : Declaration} (h : c ∈ d.children) :
    c.flatten ⊆ d.flatten := by
  intro d' hd'
  rw [flatten_eq d]
  exact List.mem_cons_of_mem _ (List.mem_flatMap.2 ⟨c, h, hd'⟩)

end Declaration

theorem BoundProgram.flatten_subset_allDeclarations {p : BoundProgram} {d : Declaration}
    (h : d ∈ p.declarations) : d.flatten ⊆ p.allDeclarations :=
  fun _ hd' => List.mem_flatMap.2 ⟨d, h, hd'⟩

/-! ## Units without reused ids -/

theorem repeatsAfter_eq_nil_iff {α κ : Type} [DecidableEq κ] (key : α → κ) (seen : List κ)
    (l : List α) :
    repeatsAfter key seen l = [] ↔ (l.map key).Nodup ∧ ∀ a ∈ l, key a ∉ seen := by
  induction l generalizing seen with
  | nil => simp [repeatsAfter]
  | cons a l ih =>
      rw [repeatsAfter]
      by_cases ha : key a ∈ seen
      · simp [ha]
      · rw [if_neg ha, ih, List.map_cons, List.nodup_cons, List.mem_map]
        simp only [List.mem_cons, not_or]
        constructor
        · rintro ⟨hnodup, hl⟩
          refine ⟨⟨?_, hnodup⟩, ?_⟩
          · rintro ⟨b, hb, hkey⟩
            exact (hl b hb).1 hkey
          · rintro b (rfl | hb)
            · exact ha
            · exact (hl b hb).2
        · rintro ⟨⟨hnot, hnodup⟩, hl⟩
          refine ⟨hnodup, fun b hb => ⟨?_, hl b (.inr hb)⟩⟩
          intro hkey
          exact hnot ⟨b, hb, hkey⟩

namespace BoundProgram

variable {p : BoundProgram}

/-- No id is reused exactly if all nodes have different ids. -/
theorem reusedIds_eq_nil_iff : p.reusedIds = [] ↔ (p.origins.map Origin.id).Nodup := by
  rw [reusedIds, repeatsAfter_eq_nil_iff]
  simp

/-- The nodes of the values are among the nodes of the unit. -/
theorem expressionIds_sublist :
    (p.expressions.map Expr.id).Sublist (p.origins.map Origin.id) := by
  have hids : p.expressions.map Expr.id = (p.expressions.map Expr.origin).map Origin.id := by
    rw [List.map_map]
    rfl
  rw [hids, expressions, origins, List.map_flatMap]
  refine (List.Sublist.flatMap_right _ ?_).map _
  intro d _
  exact List.sublist_cons_self _ _

/-- So are the declarations. -/
theorem declarationIds_sublist :
    (p.allDeclarations.map Declaration.id).Sublist (p.origins.map Origin.id) := by
  have hids : p.allDeclarations.map Declaration.id =
      (p.allDeclarations.flatMap fun d => [d.origin]).map Origin.id := by
    rw [List.map_flatMap]
    simp only [List.map_cons, List.map_nil, ← List.map_eq_flatMap]
    rfl
  rw [hids, origins]
  refine (List.Sublist.flatMap_right _ ?_).map _
  intro d _
  exact List.singleton_sublist.2 (List.mem_cons_self)

theorem nodup_expressionIds (h : p.reusedIds = []) : (p.expressions.map Expr.id).Nodup :=
  expressionIds_sublist.nodup (reusedIds_eq_nil_iff.1 h)

theorem nodup_declarationIds (h : p.reusedIds = []) :
    (p.allDeclarations.map Declaration.id).Nodup :=
  declarationIds_sublist.nodup (reusedIds_eq_nil_iff.1 h)

/-- A node is known by its id. -/
theorem eq_of_id_eq (h : p.reusedIds = []) {a b : Expr} (ha : a ∈ p.expressions)
    (hb : b ∈ p.expressions) (hid : a.id = b.id) : a = b :=
  List.inj_on_of_nodup_map (nodup_expressionIds h) ha hb hid

end BoundProgram

end InfraGraph
