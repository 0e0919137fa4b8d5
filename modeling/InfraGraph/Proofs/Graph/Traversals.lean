import Mathlib.Data.List.Basic
import Mathlib.Data.List.Flatten
import InfraGraph.Graph.Outline
import InfraGraph.Proofs.Symbol.Lookup

/-!
# Traversals agree

The operations of a graph are found in four ways that have no code in common:
with a stack, by counting, by a visitor, and for the outline.  The measure for
all of them is `Operation.preorder`, a node and then what is below its children.

The outline is a text, so it is first taken apart into lines that know what they
are about, `OperationGraph.outlineLines`.  Its layout alone gives the tree back:
a line hangs under the last line above it that is less deep, and that is the one
it should hang under (`OutlineLine.IsPlaced`).  What carries the induction is
that a block of lines is deeper than the line it hangs under, so the next block
beside it finds the same line above (`Opens.append`).

## Main results

* `Operation.length_preorder` — as many nodes as counted.
* `Operation.accept_eq_foldl` — a visitor that goes on to the children handles the
  nodes in source order.
* `DeclarationOperation.addOutline_eq` — the text of a declaration, line by line.
* `DeclarationOperation.wellPlaced` — every line of a declaration hangs where it
  should.
* `OperationGraph.traversals_agree` — the four ways, put together.
-/

namespace InfraGraph

/-! ## Counting -/

namespace Operation

/-- The nodes of several trees, if those of each are as many as counted. -/
theorem length_flatMap_preorder {ops : List Operation}
    (h : ∀ op ∈ ops, op.preorder.length = op.nodeCount) :
    (ops.flatMap preorder).length = nodeCountAll ops := by
  induction ops with
  | nil => rfl
  | cons op rest ih =>
      rw [List.flatMap_cons, List.length_append, nodeCountAll, h op List.mem_cons_self,
        ih fun op hop => h op (List.mem_cons_of_mem _ hop)]

theorem length_preorder (op : Operation) : op.preorder.length = op.nodeCount := by
  induction op using Operation.induction with
  | step op ih =>
      rw [preorder_eq, nodeCount_eq, List.length_cons, length_flatMap_preorder ih]

end Operation

theorem OperationGraph.length_operations (g : OperationGraph) :
    g.operations.length = g.operationCount := by
  rw [operations_eq]
  exact Operation.length_flatMap_preorder fun op _ => op.length_preorder

/-! ## Visiting -/

section

variable {σ : Type} {step : σ → Operation → σ} {v : OperationVisitor σ}

/-- A visitor that goes on to the children of each node handles all nodes, in
source order. -/
theorem Operation.accept_eq_foldl (h : v.Follows step) (op : Operation) (s : σ) :
    op.accept v s = op.preorder.foldl step s := by
  induction op using Operation.induction generalizing s with
  | step op ih =>
      rw [h op s, acceptAll_eq, preorder_eq, List.foldl_cons, List.foldl_flatMap]
      exact List.foldl_ext _ _ _ fun s c hc => ih c hc s

theorem OperationGraph.accept_eq_foldl (h : v.Follows step) (g : OperationGraph) (s : σ) :
    g.accept v s = g.operations.foldl step s := by
  rw [accept, Operation.acceptAll_eq, operations_eq, List.foldl_flatMap]
  exact List.foldl_ext _ _ _ fun s op _ => op.accept_eq_foldl h s

end

/-- The visitor that records every node and then goes on to its children. -/
def OperationVisitor.recorder : OperationVisitor (List Operation) :=
  .ofStep fun found op => found ++ [op]

theorem OperationGraph.accept_recorder (g : OperationGraph) :
    g.accept .recorder [] = g.operations := by
  rw [OperationVisitor.recorder, accept_eq_foldl (OperationVisitor.follows_ofStep _),
    ← List.flatMap_eq_foldl]
  exact List.flatMap_singleton' g.operations

/-! ## The lines of an outline -/

/-- What a line of an outline is about. -/
inductive OutlineItem where
  | declaration (d : DeclarationOperation)
  | operation (op : Operation)
  /-- That a declaration has no operation. -/
  | nothing

namespace OutlineItem

/-- What the line says. -/
def describe : OutlineItem → String
  | .declaration d => d.describe
  | .operation op => op.describe
  | .nothing => "<none>"

/-- The operation a line is about. -/
def operation? : OutlineItem → Option Operation
  | .operation op => some op
  | _ => none

/-- Whether the second item hangs directly under the first. -/
def Holds : OutlineItem → OutlineItem → Prop
  | .declaration d, .declaration c => c ∈ d.children
  | .declaration d, .operation op => d.value = some op
  | .declaration d, .nothing => d.value = none
  | .operation op, .operation c => c ∈ op.children
  | _, _ => False

end OutlineItem

/-- A line of an outline. -/
structure OutlineLine where
  depth : Nat
  item : OutlineItem

/-- A line as it is written: two blanks for each step, what it says, a newline. -/
def OutlineLine.text (line : OutlineLine) : String :=
  Text.repeated line.depth "  " ++ line.item.describe ++ "\n"

/-- The text of several lines. -/
def outlineText (lines : List OutlineLine) : String :=
  String.join (lines.map OutlineLine.text)

/-- The lines of an operation. -/
def Operation.outlineLines (depth : Nat) (op : Operation) : List OutlineLine :=
  ⟨depth, .operation op⟩ :: op.children.attach.flatMap fun c => outlineLines (depth + 1) c.1
termination_by op.nodeCount
decreasing_by exact nodeCount_lt_of_mem_children c.2

theorem Operation.outlineLines_eq (depth : Nat) (op : Operation) :
    op.outlineLines depth =
      ⟨depth, .operation op⟩ :: op.children.flatMap (outlineLines (depth + 1)) := by
  rw [outlineLines]
  simp

namespace DeclarationOperation

/-- The lines of what a declaration may have as its value. -/
def valueLines (depth : Nat) : Option Operation → List OutlineLine
  | some value => value.outlineLines depth
  | none => [⟨depth, .nothing⟩]

/-- The lines of a declaration: its own, those of its value, and those of the
declarations nested in it. -/
def outlineLines (depth : Nat) (d : DeclarationOperation) : List OutlineLine :=
  ⟨depth, .declaration d⟩ ::
    (valueLines (depth + 1) d.value ++
      d.children.attach.flatMap fun c => outlineLines (depth + 1) c.1)
termination_by sizeOf d
decreasing_by exact sizeOf_lt_of_mem_children c.2

theorem outlineLines_eq (depth : Nat) (d : DeclarationOperation) :
    d.outlineLines depth =
      ⟨depth, .declaration d⟩ ::
        (valueLines (depth + 1) d.value ++ d.children.flatMap (outlineLines (depth + 1))) := by
  rw [outlineLines]
  simp

end DeclarationOperation

/-- The lines of the outline of a graph. -/
def OperationGraph.outlineLines (g : OperationGraph) : List OutlineLine :=
  g.declarations.flatMap (DeclarationOperation.outlineLines 0)

/-! ## What is written -/

theorem outlineText_cons (line : OutlineLine) (lines : List OutlineLine) :
    outlineText (line :: lines) = line.text ++ outlineText lines :=
  String.join_cons

theorem outlineText_append (xs ys : List OutlineLine) :
    outlineText (xs ++ ys) = outlineText xs ++ outlineText ys := by
  rw [outlineText, List.map_append, String.join_append]
  rfl

theorem addLine_eq (out : String) (depth : Nat) (item : OutlineItem) :
    addLine out depth item.describe = out ++ OutlineLine.text ⟨depth, item⟩ := by
  simp only [addLine, OutlineLine.text, String.append_assoc]

/-- Things that each add their lines to a text add all of them in order. -/
theorem foldl_outlineText {α : Type} {add : String → α → String} {f : α → List OutlineLine}
    {l : List α} (h : ∀ a ∈ l, ∀ out, add out a = out ++ outlineText (f a)) (out : String) :
    l.foldl add out = out ++ outlineText (l.flatMap f) := by
  induction l generalizing out with
  | nil => exact String.append_empty.symm
  | cons a l ih =>
      rw [List.foldl_cons, h a List.mem_cons_self, ih fun b hb => h b (List.mem_cons_of_mem _ hb),
        List.flatMap_cons, outlineText_append, String.append_assoc]

theorem Operation.addOutline_eq (op : Operation) (out : String) (depth : Nat) :
    op.addOutline out depth = out ++ outlineText (op.outlineLines depth) := by
  induction op using Operation.induction generalizing out depth with
  | step op ih =>
      have hadd : op.addOutline out depth =
          op.children.foldl (fun out c => c.addOutline out (depth + 1))
            (addLine out depth op.describe) :=
        visit_eq _ out depth op
      rw [hadd, outlineLines_eq, outlineText_cons, ← String.append_assoc,
        foldl_outlineText fun c hc out => ih c hc out (depth + 1)]
      exact congrArg (· ++ _) (addLine_eq out depth (.operation op))

namespace DeclarationOperation

theorem addOutlines_eq_foldl (ds : List DeclarationOperation) (out : String) (depth : Nat) :
    addOutlines out depth ds = ds.foldl (fun out d => d.addOutline out depth) out := by
  induction ds generalizing out with
  | nil => rfl
  | cons d ds ih => exact ih _

theorem addValue_eq (value : Option Operation) (out : String) (depth : Nat) :
    addValue out depth value = out ++ outlineText (valueLines depth value) := by
  cases value with
  | none => exact (addLine_eq out depth .nothing).trans (by simp [outlineText, valueLines])
  | some value => exact value.addOutline_eq out depth

/-- A declaration is written line by line. -/
theorem addOutline_eq (d : DeclarationOperation) (out : String) (depth : Nat) :
    d.addOutline out depth = out ++ outlineText (d.outlineLines depth) := by
  induction d using DeclarationOperation.induction generalizing out depth with
  | step d ih =>
      obtain ⟨origin, symbol, value, children⟩ := d
      have hself := addLine_eq out depth (.declaration ⟨origin, symbol, value, children⟩)
      rw [addOutline, addOutlines_eq_foldl, addValue_eq, outlineLines_eq, outlineText_cons,
        outlineText_append, ← String.append_assoc, ← String.append_assoc, ← hself,
        foldl_outlineText fun c hc out => ih c hc out (depth + 1)]
      rfl

end DeclarationOperation

theorem OperationGraph.outline_eq (g : OperationGraph) :
    g.outline = outlineText g.outlineLines := by
  rw [outline, DeclarationOperation.addOutlines_eq_foldl,
    foldl_outlineText fun d _ out => d.addOutline_eq out 0, String.empty_append]
  rfl

/-! ## Which operations are written -/

/-- The operations that lines are about. -/
def outlineOperations (lines : List OutlineLine) : List Operation :=
  lines.filterMap (·.item.operation?)

theorem outlineOperations_append (xs ys : List OutlineLine) :
    outlineOperations (xs ++ ys) = outlineOperations xs ++ outlineOperations ys :=
  List.filterMap_append

theorem outlineOperations_flatMap {α : Type} (f : α → List OutlineLine) (l : List α) :
    outlineOperations (l.flatMap f) = l.flatMap fun a => outlineOperations (f a) :=
  List.filterMap_flatMap

theorem Operation.outlineOperations_outlineLines (op : Operation) (depth : Nat) :
    outlineOperations (op.outlineLines depth) = op.preorder := by
  induction op using Operation.induction generalizing depth with
  | step op ih =>
      have hself : outlineOperations [⟨depth, .operation op⟩] = [op] := rfl
      rw [outlineLines_eq, ← List.singleton_append, outlineOperations_append, hself,
        outlineOperations_flatMap, preorder_eq]
      exact congrArg (op :: ·) (List.flatMap_congr fun c hc => ih c hc (depth + 1))

namespace DeclarationOperation

/-- The operations of the value of a declaration. -/
def operations (d : DeclarationOperation) : List Operation :=
  d.value.toList.flatMap Operation.preorder

theorem outlineOperations_valueLines (d : DeclarationOperation) (depth : Nat) :
    outlineOperations (valueLines depth d.value) = d.operations := by
  rw [operations]
  cases d.value with
  | none => rfl
  | some value => simp [valueLines, Operation.outlineOperations_outlineLines]

theorem outlineOperations_outlineLines (d : DeclarationOperation) (depth : Nat) :
    outlineOperations (d.outlineLines depth) = d.flatten.flatMap operations := by
  induction d using DeclarationOperation.induction generalizing depth with
  | step d ih =>
      have hself : outlineOperations [⟨depth, .declaration d⟩] = [] := rfl
      rw [outlineLines_eq, ← List.singleton_append, outlineOperations_append, hself,
        List.nil_append, outlineOperations_append, outlineOperations_valueLines,
        outlineOperations_flatMap, flatten_eq, List.flatMap_cons, List.flatMap_assoc]
      exact congrArg (d.operations ++ ·) (List.flatMap_congr fun c hc => ih c hc (depth + 1))

end DeclarationOperation

namespace OperationGraph

/-- The operations are those of one declaration after the other. -/
theorem operations_eq_flatMap (g : OperationGraph) :
    g.operations = g.allDeclarations.flatMap DeclarationOperation.operations := by
  rw [operations_eq, roots, List.filterMap_eq_flatMap_toList, List.flatMap_assoc]
  rfl

theorem outlineOperations_outlineLines (g : OperationGraph) :
    outlineOperations g.outlineLines = g.operations := by
  rw [outlineLines, outlineOperations_flatMap, operations_eq_flatMap, allDeclarations,
    List.flatMap_assoc]
  exact List.flatMap_congr fun d _ => d.outlineOperations_outlineLines 0

end OperationGraph

/-! ## Where lines hang -/

/-- The line that a line of some depth hangs under: the last one above it that is
less deep. -/
def holder? (above : List OutlineLine) (depth : Nat) : Option OutlineLine :=
  findLast? (fun line => line.depth < depth) above

/-- Whether a line below `above` is one step deeper than the line it hangs under,
and should hang there; or hangs under nothing, and declares something on the top
level. -/
def OutlineLine.IsPlaced (g : OperationGraph) (above : List OutlineLine) (line : OutlineLine) :
    Prop :=
  match holder? above line.depth with
  | some holder => line.depth = holder.depth + 1 ∧ holder.item.Holds line.item
  | none => line.depth = 0 ∧ ∃ d ∈ g.declarations, line.item = .declaration d

/-- Whether all lines below `above` are placed. -/
def WellPlaced (g : OperationGraph) (above : List OutlineLine) : List OutlineLine → Prop
  | [] => True
  | line :: rest => line.IsPlaced g above ∧ WellPlaced g (above ++ [line]) rest

/-- Whether a line one step deeper than `holder` hangs under it. -/
def Opens (above : List OutlineLine) (holder : OutlineLine) : Prop :=
  holder? above (holder.depth + 1) = some holder

theorem opens_concat (above : List OutlineLine) (line : OutlineLine) :
    Opens (above ++ [line]) line :=
  findLast?_append_cons above (by simp) (by simp)

/-- What hangs under a line leaves it open for more. -/
theorem Opens.append {above lines : List OutlineLine} {holder : OutlineLine}
    (h : Opens above holder) (hdeep : ∀ line ∈ lines, holder.depth < line.depth) :
    Opens (above ++ lines) holder := by
  have hnone : lines.reverse.find? (fun line => line.depth < holder.depth + 1) = none := by
    rw [List.find?_eq_none]
    intro line hline hless
    exact absurd (of_decide_eq_true hless) (Nat.not_lt.2 (hdeep line (List.mem_reverse.1 hline)))
  rw [Opens, holder?, findLast?_eq_find?] at h ⊢
  rw [List.reverse_append, List.find?_append, hnone]
  exact h

section

variable {g : OperationGraph}

theorem Opens.isPlaced {above : List OutlineLine} {holder : OutlineLine} {item : OutlineItem}
    (h : Opens above holder) (hheld : holder.item.Holds item) :
    OutlineLine.IsPlaced g above ⟨holder.depth + 1, item⟩ := by
  rw [OutlineLine.IsPlaced, h]
  exact ⟨rfl, hheld⟩

/-- A line on the left margin hangs under nothing. -/
theorem isPlaced_zero (above : List OutlineLine) {d : DeclarationOperation}
    (hd : d ∈ g.declarations) : OutlineLine.IsPlaced g above ⟨0, .declaration d⟩ := by
  have hnone : holder? above 0 = none := by
    rw [holder?, findLast?_eq_find?, List.find?_eq_none]
    simp
  rw [OutlineLine.IsPlaced, hnone]
  exact ⟨rfl, d, hd, rfl⟩

theorem wellPlaced_append {above xs ys : List OutlineLine} :
    WellPlaced g above (xs ++ ys) ↔ WellPlaced g above xs ∧ WellPlaced g (above ++ xs) ys := by
  induction xs generalizing above with
  | nil => simp [WellPlaced]
  | cons x xs ih => simp [WellPlaced, ih, and_assoc]

/-- Blocks of lines that hang under one line. -/
theorem wellPlaced_flatMap {α : Type} {f : α → List OutlineLine} {items : List α}
    {above : List OutlineLine} {holder : OutlineLine} (h : Opens above holder)
    (hdeep : ∀ a ∈ items, ∀ line ∈ f a, holder.depth < line.depth)
    (hplaced : ∀ a ∈ items, ∀ above, Opens above holder → WellPlaced g above (f a)) :
    WellPlaced g above (items.flatMap f) := by
  induction items generalizing above with
  | nil => trivial
  | cons a items ih =>
      rw [List.flatMap_cons, wellPlaced_append]
      refine ⟨hplaced a List.mem_cons_self above h, ?_⟩
      exact ih (h.append (hdeep a List.mem_cons_self))
        (fun b hb => hdeep b (List.mem_cons_of_mem _ hb))
        (fun b hb => hplaced b (List.mem_cons_of_mem _ hb))

namespace Operation

theorem le_depth_of_mem_outlineLines {op : Operation} {depth : Nat} {line : OutlineLine}
    (h : line ∈ op.outlineLines depth) : depth ≤ line.depth := by
  induction op using Operation.induction generalizing depth with
  | step op ih =>
      rw [outlineLines_eq] at h
      rcases List.mem_cons.1 h with rfl | h
      · exact Nat.le_refl _
      · obtain ⟨c, hc, h⟩ := List.mem_flatMap.1 h
        exact Nat.le_of_succ_le (ih c hc h)

theorem wellPlaced {op : Operation} {depth : Nat} {above : List OutlineLine}
    (h : OutlineLine.IsPlaced g above ⟨depth, .operation op⟩) :
    WellPlaced g above (op.outlineLines depth) := by
  induction op using Operation.induction generalizing depth above with
  | step op ih =>
      rw [outlineLines_eq]
      refine ⟨h, wellPlaced_flatMap (opens_concat above _) ?_ ?_⟩
      · exact fun c _ line hline => le_depth_of_mem_outlineLines hline
      · exact fun c hc above hopens => ih c hc (hopens.isPlaced hc)

end Operation

namespace DeclarationOperation

theorem le_depth_of_mem_valueLines {value : Option Operation} {depth : Nat} {line : OutlineLine}
    (h : line ∈ valueLines depth value) : depth ≤ line.depth := by
  cases value with
  | none =>
      obtain rfl := List.mem_singleton.1 h
      exact Nat.le_refl _
  | some value => exact Operation.le_depth_of_mem_outlineLines h

theorem le_depth_of_mem_outlineLines {d : DeclarationOperation} {depth : Nat} {line : OutlineLine}
    (h : line ∈ d.outlineLines depth) : depth ≤ line.depth := by
  induction d using DeclarationOperation.induction generalizing depth with
  | step d ih =>
      rw [outlineLines_eq] at h
      rcases List.mem_cons.1 h with rfl | h
      · exact Nat.le_refl _
      · rcases List.mem_append.1 h with h | h
        · exact Nat.le_of_succ_le (le_depth_of_mem_valueLines h)
        · obtain ⟨c, hc, h⟩ := List.mem_flatMap.1 h
          exact Nat.le_of_succ_le (ih c hc h)

theorem wellPlaced_valueLines {d : DeclarationOperation} {depth : Nat} {above : List OutlineLine}
    (h : Opens above ⟨depth, .declaration d⟩) :
    WellPlaced g above (valueLines (depth + 1) d.value) := by
  cases hvalue : d.value with
  | none => exact ⟨h.isPlaced hvalue, trivial⟩
  | some value => exact Operation.wellPlaced (h.isPlaced hvalue)

/-- If the first line of a declaration is placed, so are all. -/
theorem wellPlaced {d : DeclarationOperation} {depth : Nat} {above : List OutlineLine}
    (h : OutlineLine.IsPlaced g above ⟨depth, .declaration d⟩) :
    WellPlaced g above (d.outlineLines depth) := by
  induction d using DeclarationOperation.induction generalizing depth above with
  | step d ih =>
      have hopens := opens_concat above ⟨depth, .declaration d⟩
      rw [outlineLines_eq]
      refine ⟨h, wellPlaced_append.2 ⟨wellPlaced_valueLines hopens, ?_⟩⟩
      refine wellPlaced_flatMap (hopens.append fun line => le_depth_of_mem_valueLines) ?_ ?_
      · exact fun c _ line hline => le_depth_of_mem_outlineLines hline
      · exact fun c hc above hopens => ih c hc (hopens.isPlaced hc)

end DeclarationOperation

end

namespace OperationGraph

/-- The lines of a graph are placed, as those of each declaration are. -/
theorem wellPlaced (g : OperationGraph) : WellPlaced g [] g.outlineLines := by
  -- On the left margin a line is placed whatever is above it.
  have hall (above : List OutlineLine) {ds : List DeclarationOperation}
      (hds : ds ⊆ g.declarations) :
      WellPlaced g above (ds.flatMap (DeclarationOperation.outlineLines 0)) := by
    induction ds generalizing above with
    | nil => trivial
    | cons d ds ih =>
        rw [List.flatMap_cons, wellPlaced_append]
        refine ⟨DeclarationOperation.wellPlaced (isPlaced_zero above ?_), ih _ ?_⟩
        · exact hds List.mem_cons_self
        · exact fun c hc => hds (List.mem_cons_of_mem d hc)
  exact hall [] (List.Subset.refl _)

/-- **All traversals of a graph agree.**  The operations found with the stack are
those of one declaration after the other, each tree in preorder; they are as many
as counted; a visitor that records the nodes is handed the same ones in the same
order; and the outline has one line for each of them in this order, which hangs
under the line of its parent, one step deeper. -/
theorem traversals_agree (g : OperationGraph) :
    g.operations =
        g.allDeclarations.flatMap (fun d => d.value.toList.flatMap Operation.preorder) ∧
      (∀ op : Operation, op.preorder = op :: op.children.flatMap Operation.preorder) ∧
      g.operations.length = g.operationCount ∧
      g.accept .recorder [] = g.operations ∧
      g.outline = String.join (g.outlineLines.map OutlineLine.text) ∧
      g.outlineLines.filterMap (·.item.operation?) = g.operations ∧
      ∀ above line below, g.outlineLines = above ++ line :: below → line.IsPlaced g above := by
  refine ⟨g.operations_eq_flatMap, Operation.preorder_eq, g.length_operations, g.accept_recorder,
    g.outline_eq, g.outlineOperations_outlineLines, ?_⟩
  intro above line below hsplit
  have hplaced := g.wellPlaced
  rw [hsplit, wellPlaced_append, List.nil_append] at hplaced
  exact hplaced.2.1

end OperationGraph

end InfraGraph
