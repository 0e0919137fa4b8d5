import InfraGraph.Proofs.Tree.Nodes

/-!
# Erasing origins

A tree with other origins in the place of its own, and the tree without any,
which is what a comparison of shapes compares.

## Main results

* `sameShape_iff_erase_eq` — trees of one shape are trees that are equal once
  their origins are erased.
* `preorder_mapOrigin`, `mapOrigin_mapOrigin` — what becomes of the nodes, and of
  origins that are replaced again.
-/

namespace InfraGraph

theorem map_eq_self {α : Type} {f : α → α} {l : List α} (h : ∀ a ∈ l, f a = a) : l.map f = l :=
  (List.map_congr_left h).trans (List.map_id' l)

namespace Expr

mutual

/-- A tree with the origins of its nodes replaced. -/
def mapOrigin (f : Origin → Origin) : Expr → Expr
  | .literal o value => .literal (f o) value
  | .interpolation o segments parts => .interpolation (f o) segments (mapOriginAll f parts)
  | .object o entries => .object (f o) (mapOriginEntries f entries)
  | .array o items => .array (f o) (mapOriginAll f items)
  | .reference o name => .reference (f o) name
  | .property o base name => .property (f o) (mapOrigin f base) name
  | .element o base index => .element (f o) (mapOrigin f base) (mapOrigin f index)
  | .ternary o condition ifTrue ifFalse =>
    .ternary (f o) (mapOrigin f condition) (mapOrigin f ifTrue) (mapOrigin f ifFalse)
  | .guarded o condition body => .guarded (f o) (mapOrigin f condition) (mapOrigin f body)
  | .call o name arguments => .call (f o) name (mapOriginAll f arguments)
  | .binary o operator left right =>
    .binary (f o) operator (mapOrigin f left) (mapOrigin f right)
  | .unary o operator operand => .unary (f o) operator (mapOrigin f operand)
  | .loop o item index source body =>
    .loop (f o) item index (mapOrigin f source) (mapOrigin f body)

/-- `mapOrigin` item by item. -/
def mapOriginAll (f : Origin → Origin) : List Expr → List Expr
  | [] => []
  | e :: rest => mapOrigin f e :: mapOriginAll f rest

/-- `mapOrigin` entry by entry. -/
def mapOriginEntries (f : Origin → Origin) : List (String × Expr) → List (String × Expr)
  | [] => []
  | (key, e) :: rest => (key, mapOrigin f e) :: mapOriginEntries f rest

end

theorem mapOriginAll_eq (f : Origin → Origin) (es : List Expr) :
    mapOriginAll f es = es.map (mapOrigin f) := by
  induction es with
  | nil => rfl
  | cons e es ih => rw [mapOriginAll, ih, List.map_cons]

theorem mapOriginEntries_eq (f : Origin → Origin) (entries : List (String × Expr)) :
    mapOriginEntries f entries = entries.map fun entry => (entry.1, entry.2.mapOrigin f) := by
  induction entries with
  | nil => rfl
  | cons entry entries ih =>
      obtain ⟨key, e⟩ := entry
      rw [mapOriginEntries, ih, List.map_cons]

/-- A tree without ids and spans. -/
def erase (e : Expr) : Expr :=
  e.mapOrigin fun _ => default

/-! ## Shapes -/

mutual

/-- **Trees of one shape** are equal once their origins are erased, and no other
trees are. -/
theorem sameShape_iff_erase_eq : ∀ a b : Expr, a.sameShape b = true ↔ a.erase = b.erase
  | .literal .., b => by cases b <;> simp [sameShape, erase, mapOrigin]
  | .interpolation _ _ parts, b => by
    cases b <;> simp [sameShape, erase, mapOrigin, sameShapes_iff_erase_eq parts]
  | .object _ entries, b => by
    cases b <;> simp [sameShape, erase, mapOrigin, sameEntries_iff_erase_eq entries]
  | .array _ items, b => by
    cases b <;> simp [sameShape, erase, mapOrigin, sameShapes_iff_erase_eq items]
  | .reference .., b => by cases b <;> simp [sameShape, erase, mapOrigin]
  | .property _ base _, b => by
    cases b <;> simp [sameShape, erase, mapOrigin, sameShape_iff_erase_eq base, and_comm]
  | .element _ base index, b => by
    cases b <;>
      simp [sameShape, erase, mapOrigin, sameShape_iff_erase_eq base, sameShape_iff_erase_eq index]
  | .ternary _ condition ifTrue ifFalse, b => by
    cases b <;>
      simp [sameShape, erase, mapOrigin, sameShape_iff_erase_eq condition,
        sameShape_iff_erase_eq ifTrue, sameShape_iff_erase_eq ifFalse, and_assoc]
  | .guarded _ condition body, b => by
    cases b <;>
      simp [sameShape, erase, mapOrigin, sameShape_iff_erase_eq condition,
        sameShape_iff_erase_eq body]
  | .call _ _ arguments, b => by
    cases b <;> simp [sameShape, erase, mapOrigin, sameShapes_iff_erase_eq arguments]
  | .binary _ _ left right, b => by
    cases b <;>
      simp [sameShape, erase, mapOrigin, sameShape_iff_erase_eq left,
        sameShape_iff_erase_eq right, and_assoc]
  | .unary _ _ operand, b => by
    cases b <;> simp [sameShape, erase, mapOrigin, sameShape_iff_erase_eq operand]
  | .loop _ _ _ source body, b => by
    cases b <;>
      simp [sameShape, erase, mapOrigin, sameShape_iff_erase_eq source,
        sameShape_iff_erase_eq body, and_assoc]

theorem sameShapes_iff_erase_eq : ∀ as bs : List Expr, sameShapes as bs = true ↔
    mapOriginAll (fun _ => default) as = mapOriginAll (fun _ => default) bs
  | [], bs => by cases bs <;> simp [sameShapes, mapOriginAll]
  | a :: as, bs => by
    cases bs with
    | nil => simp [sameShapes, mapOriginAll]
    | cons b bs =>
        simp [sameShapes, mapOriginAll, sameShape_iff_erase_eq a, sameShapes_iff_erase_eq as,
          erase]

theorem sameEntries_iff_erase_eq : ∀ es fs : List (String × Expr), sameEntries es fs = true ↔
    mapOriginEntries (fun _ => default) es = mapOriginEntries (fun _ => default) fs
  | [], fs => by cases fs <;> simp [sameEntries, mapOriginEntries]
  | (_, a) :: es, fs => by
    cases fs with
    | nil => simp [sameEntries, mapOriginEntries]
    | cons entry fs =>
        simp [sameEntries, mapOriginEntries, sameShape_iff_erase_eq a,
          sameEntries_iff_erase_eq es, erase, and_assoc]

end

/-! ## Other origins -/

section

variable (f : Origin → Origin)

theorem origin_mapOrigin (e : Expr) : (e.mapOrigin f).origin = f e.origin := by
  cases e <;> rfl

theorem children_mapOrigin (e : Expr) : (e.mapOrigin f).children = e.children.map (mapOrigin f) := by
  cases e <;> simp [mapOrigin, children, mapOriginAll_eq, mapOriginEntries_eq, Function.comp_def]

theorem referenceName?_mapOrigin (e : Expr) : (e.mapOrigin f).referenceName? = e.referenceName? := by
  cases e <;> rfl

theorem preorder_mapOrigin (e : Expr) : (e.mapOrigin f).preorder = e.preorder.map (mapOrigin f) := by
  induction e using Expr.induction with
  | step e ih =>
      rw [preorder_eq, preorder_eq e, children_mapOrigin, List.map_cons, List.flatMap_map,
        List.map_flatMap]
      exact congrArg (_ :: ·) (List.flatMap_congr ih)

theorem references_mapOrigin (e : Expr) :
    (e.mapOrigin f).references = e.references.map (mapOrigin f) := by
  rw [references, references, preorder_mapOrigin, List.filter_map]
  refine congrArg (List.map _) (List.filter_congr fun n _ => ?_)
  rw [Function.comp, referenceName?_mapOrigin]

/-- Origins that are replaced again do not show. -/
theorem mapOrigin_mapOrigin (g : Origin → Origin) (e : Expr) :
    (e.mapOrigin f).mapOrigin g = e.mapOrigin fun o => g (f o) := by
  induction e using Expr.induction with
  | step e ih =>
      cases e with
      | object o entries =>
          simp only [mapOrigin, mapOriginEntries_eq, List.map_map]
          refine congrArg _ (List.map_congr_left fun entry hentry => ?_)
          exact congrArg (entry.1, ·) (ih entry.2 (List.mem_map_of_mem hentry))
      | _ => simp_all [mapOrigin, mapOriginAll_eq, children]

theorem mapOrigin_eq_self {f : Origin → Origin} (hf : ∀ o, f o = o) (e : Expr) :
    e.mapOrigin f = e := by
  induction e using Expr.induction with
  | step e ih =>
      cases e with
      | object o entries =>
          rw [mapOrigin, mapOriginEntries_eq, hf]
          refine congrArg _ (map_eq_self fun entry hentry => ?_)
          exact congrArg (entry.1, ·) (ih entry.2 (List.mem_map_of_mem hentry))
      | _ => simp_all [mapOrigin, mapOriginAll_eq, children, map_eq_self]

end

end Expr

end InfraGraph
