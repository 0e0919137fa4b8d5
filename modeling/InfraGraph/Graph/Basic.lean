import InfraGraph.Diagnostic.Basic
import InfraGraph.Graph.Visitor

/-!
# Operation graphs

The lowered form of a unit: its declarations, each with the operation its value became, and what was
reported on the way. A declaration has no operation if its value could not be represented, or if it
has none.

## Main definitions

* `OperationGraph.operations` — every operation in source order, found with an explicit stack.
* `OperationGraph.operationCount` — their number, counted tree by tree.
* `Operation.visit` — a walk over a tree that knows how deep in it each node is.
* `OperationGraph.accept` — hands every tree to a visitor.
* `OperationGraph.referencedSymbols` — the symbols that some reference of the unit means.

## Main results

* `Operation.drain_eq` — emptying a stack gives the nodes of its trees in source order.
* `Operation.visit_eq` — a walk handles each node and then its children, one level deeper.
* `DeclarationOperation.induction` — to prove something of all declarations, prove it of one from
  those nested in it.
-/

namespace InfraGraph

namespace Operation

/-- Empties a stack of trees: a node is taken from its top, and its children take its place. -/
def drain (stack : List Operation) : List Operation :=
  match stack with
  | [] => []
  | op :: rest => op :: drain (op.children ++ rest)
termination_by nodeCountAll stack
decreasing_by
  simp only [nodeCountAll, nodeCountAll_append, nodeCount_eq op]
  omega

theorem drain_eq (stack : List Operation) : drain stack = stack.flatMap preorder := by
  fun_induction drain stack with
  | case1 => rfl
  | case2 op rest ih => simp [ih, preorder_eq op]

/-! ## Walking a tree -/

section

variable {σ : Type} (step : σ → Nat → Operation → σ)

mutual

/-- Walks over a tree whose root is at some depth: every node is handled with its depth before its
children. -/
def visit (s : σ) (depth : Nat) : Operation → σ
  | op@(.literal ..) => step s depth op
  | op@(.interpolation _ _ parts) => visitAll (step s depth op) (depth + 1) parts
  | op@(.object _ entries) => visitEntries (step s depth op) (depth + 1) entries
  | op@(.array _ items) => visitAll (step s depth op) (depth + 1) items
  | op@(.access _ _ _ none) => step s depth op
  | op@(.access _ _ _ (some ⟨levels⟩)) => visitLevels (step s depth op) (depth + 1) levels
  | op@(.parameter ..) => step s depth op
  | op@(.loopVariable ..) => step s depth op
  | op@(.property _ base _) => visit (step s depth op) (depth + 1) base
  | op@(.element _ base index) =>
    visit (visit (step s depth op) (depth + 1) base) (depth + 1) index
  | op@(.ternary _ condition ifTrue ifFalse) =>
    visit (visit (visit (step s depth op) (depth + 1) condition) (depth + 1) ifTrue) (depth + 1)
      ifFalse
  | op@(.guarded _ condition body) =>
    visit (visit (step s depth op) (depth + 1) condition) (depth + 1) body
  | op@(.call _ _ arguments) => visitAll (step s depth op) (depth + 1) arguments
  | op@(.binary _ _ left right) =>
    visit (visit (step s depth op) (depth + 1) left) (depth + 1) right
  | op@(.unary _ _ operand) => visit (step s depth op) (depth + 1) operand
  | op@(.loop _ _ _ source body) =>
    visit (visit (step s depth op) (depth + 1) source) (depth + 1) body

/-- Walks over several trees. -/
def visitAll (s : σ) (depth : Nat) : List Operation → σ
  | [] => s
  | op :: rest => visitAll (visit s depth op) depth rest

/-- Walks over the values of an object. -/
def visitEntries (s : σ) (depth : Nat) : List (String × Operation) → σ
  | [] => s
  | (_, op) :: rest => visitEntries (visit s depth op) depth rest

/-- Walks over the indices in brackets. -/
def visitLevels (s : σ) (depth : Nat) : List (IndexLevel Operation) → σ
  | [] => s
  | ⟨_, .explicit _ index⟩ :: rest => visitLevels (visit s depth index) depth rest
  | ⟨_, .implicit _ _⟩ :: rest => visitLevels s depth rest
  | ⟨_, .unresolved⟩ :: rest => visitLevels s depth rest

end

theorem visitAll_eq (s : σ) (depth : Nat) (ops : List Operation) :
    visitAll step s depth ops = ops.foldl (fun s op => visit step s depth op) s := by
  induction ops generalizing s with
  | nil => rfl
  | cons op rest ih => simp [visitAll, ih]

theorem visitEntries_eq (s : σ) (depth : Nat) (entries : List (String × Operation)) :
    visitEntries step s depth entries
      = (entries.map Prod.snd).foldl (fun s op => visit step s depth op) s := by
  induction entries generalizing s with
  | nil => rfl
  | cons entry rest ih => simp [visitEntries, ih]

theorem visitLevels_eq (s : σ) (depth : Nat) (levels : List (IndexLevel Operation)) :
    visitLevels step s depth levels
      = (levelIndices levels).foldl (fun s op => visit step s depth op) s := by
  induction levels generalizing s with
  | nil => rfl
  | cons level rest ih =>
    obtain ⟨t, outcome⟩ := level
    cases outcome <;>
      simp [visitLevels, levelIndices_explicit, levelIndices_implicit, levelIndices_unresolved, ih]

theorem visit_eq (s : σ) (depth : Nat) (op : Operation) :
    visit step s depth op
      = op.children.foldl (fun s c => visit step s (depth + 1) c) (step s depth op) := by
  cases op with
  | access o symbol referent context =>
    cases context with
    | none => rfl
    | some context =>
      obtain ⟨levels⟩ := context
      simp [visit, children, visitLevels_eq, levelIndices]
  | _ => simp [visit, children, visitAll_eq, visitEntries_eq]

end

end Operation

/-! ## Declarations -/

/-- A declaration and what its value became. -/
structure DeclarationOperation where
  origin : Origin
  symbol : Symbol
  value : Option Operation
  children : List DeclarationOperation

namespace DeclarationOperation

/-- The id of the declaration's node. -/
def id (d : DeclarationOperation) : SyntaxId :=
  d.origin.id

/-- The span of the declaration's node. -/
def span (d : DeclarationOperation) : Span :=
  d.origin.span

mutual

/-- A declaration before those nested in it. -/
def flatten : DeclarationOperation → List DeclarationOperation
  | ⟨origin, symbol, value, children⟩ => ⟨origin, symbol, value, children⟩ :: flattenAll children

/-- `flatten` over several declarations. -/
def flattenAll : List DeclarationOperation → List DeclarationOperation
  | [] => []
  | d :: rest => flatten d ++ flattenAll rest

end

theorem flattenAll_eq (ds : List DeclarationOperation) : flattenAll ds = ds.flatMap flatten := by
  induction ds with
  | nil => rfl
  | cons d rest ih => simp [flattenAll, ih]

theorem flatten_eq (d : DeclarationOperation) :
    d.flatten = d :: d.children.flatMap flatten := by
  cases d
  simp [flatten, flattenAll_eq]

theorem sizeOf_lt_of_mem_children {c d : DeclarationOperation} (h : c ∈ d.children) :
    sizeOf c < sizeOf d := by
  obtain ⟨origin, symbol, value, children⟩ := d
  have := List.sizeOf_lt_of_mem h
  simp only [mk.sizeOf_spec] at this ⊢
  omega

/-- Induction from the nested declarations to the declaration. -/
theorem induction {motive : DeclarationOperation → Prop}
    (step : ∀ d, (∀ c ∈ d.children, motive c) → motive d) (d : DeclarationOperation) : motive d :=
  step d fun c _ => induction step c
termination_by sizeOf d
decreasing_by exact sizeOf_lt_of_mem_children ‹_›

end DeclarationOperation

/-! ## Ascending lists of numbers -/

/-- Puts a number in its place among ascending ones, unless it is there already. -/
def insertAscending (n : Nat) : List Nat → List Nat
  | [] => [n]
  | m :: rest =>
    if n < m then n :: m :: rest
    else if n = m then m :: rest
    else m :: insertAscending n rest

/-- The numbers of a list in ascending order, each once. -/
def ascending (ns : List Nat) : List Nat :=
  ns.foldr insertAscending []

theorem mem_insertAscending {n m : Nat} {ns : List Nat} :
    m ∈ insertAscending n ns ↔ m = n ∨ m ∈ ns := by
  induction ns with
  | nil => simp [insertAscending]
  | cons k rest ih =>
    simp only [insertAscending]
    split
    · simp
    · split
      · next h => simp [h]
      · simp only [List.mem_cons, ih]
        constructor
        · rintro (h | h | h) <;> simp [h]
        · rintro (h | h | h) <;> simp [h]

theorem mem_ascending {m : Nat} {ns : List Nat} : m ∈ ascending ns ↔ m ∈ ns := by
  induction ns with
  | nil => simp [ascending]
  | cons n rest ih =>
    simp only [ascending, List.foldr_cons] at ih ⊢
    simp [mem_insertAscending, ih]

/-! ## Graphs -/

/-- The lowered form of a unit. -/
structure OperationGraph where
  /-- The declarations on the top level, in source order. -/
  declarations : List DeclarationOperation
  diagnostics : Diagnostics
  /-- The symbols that references were resolved to, also where no operation came of it. -/
  resolved : List SymbolId

namespace OperationGraph

/-- Every declaration, nested ones included, in source order. -/
def allDeclarations (g : OperationGraph) : List DeclarationOperation :=
  g.declarations.flatMap DeclarationOperation.flatten

/-- The operation of every declaration that has one. -/
def roots (g : OperationGraph) : List Operation :=
  g.allDeclarations.filterMap (·.value)

/-- Every operation in source order. -/
def operations (g : OperationGraph) : List Operation :=
  Operation.drain g.roots

/-- The operations are the nodes below the roots. -/
theorem operations_eq (g : OperationGraph) : g.operations = g.roots.flatMap Operation.preorder :=
  Operation.drain_eq g.roots

/-- How many operations there are. -/
def operationCount (g : OperationGraph) : Nat :=
  Operation.nodeCountAll g.roots

/-- Hands the operation of every declaration to a visitor. -/
def accept {σ : Type} (v : OperationVisitor σ) (g : OperationGraph) : σ → σ :=
  Operation.acceptAll v g.roots

/-- Walks over the operations of every declaration. -/
def visit {σ : Type} (step : σ → Operation → σ) (s : σ) (g : OperationGraph) : σ :=
  g.accept (.ofStep step) s

/-- The operation of a syntax node; the first one if there are several. -/
def find? (g : OperationGraph) (node : SyntaxId) : Option Operation :=
  g.operations.find? (·.id == node)

/-- The numbers of the symbols that some reference of the unit means, in ascending order. A
reference counts even if no operation came of it. -/
def referencedSymbols (g : OperationGraph) : List Nat :=
  ascending
    ((g.operations.filterMap fun op => op.symbol?.map fun s => s.id.index)
      ++ g.resolved.map (·.index))

/-- The ids of the syntax nodes the graph accounts for, in ascending order: those of its operations
and of the brackets folded into references. -/
def coveredSyntax (g : OperationGraph) : List Nat :=
  ascending
    (g.operations.flatMap fun op =>
      op.id.val.toNat :: op.foldedAccesses.map (·.val.toNat))

end OperationGraph

/-- The ids of a unit's expression nodes, in ascending order. -/
def BoundProgram.expressionIds (p : BoundProgram) : List Nat :=
  ascending (p.expressions.map (·.id.val.toNat))

end InfraGraph
