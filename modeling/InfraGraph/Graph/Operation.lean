import InfraGraph.Loop.Correlation
import InfraGraph.Symbol.Basic

/-!
# Operations

What expressions become: the same trees with every reference resolved. A reference to something that
copy loops may replicate carries the context that says which instance it means. The indices in that
context are operations too, and count as the children of the reference.

## Main definitions

* `Operation.children`, `Operation.preorder` — the nodes in source order, a node before its
  children.
* `Operation.symbol?`, `Operation.context?` — what a reference refers to, and how it is indexed.
* `Operation.nodeCount` — how many nodes a tree has, counted on its own.

## Main results

* `Operation.preorder_eq` — a node, then the nodes of its children one after the other.
* `Operation.nodeCount_eq` — one more than the children have.
* `Operation.induction` — to prove something of all operations, prove it of a node from its
  children.
-/

namespace InfraGraph

/-- What a reference that may be indexed refers to. -/
inductive Referent where
  | resource (metadata : ResourceMetadata)
  | module (metadata : ModuleMetadata)
  | variable
deriving DecidableEq, Repr

/-- A node of the graph. -/
inductive Operation where
  | literal (origin : Origin) (value : LiteralValue)
  | interpolation (origin : Origin) (segments : List String) (parts : List Operation)
  | object (origin : Origin) (entries : List (String × Operation))
  | array (origin : Origin) (items : List Operation)
  /-- A reference to a resource, a module or a variable. -/
  | access (origin : Origin) (symbol : Symbol) (referent : Referent)
      (context : Option (IndexContext Operation))
  | parameter (origin : Origin) (symbol : Symbol)
  | loopVariable (origin : Origin) (symbol : Symbol) (loop : LoopId) (role : LoopRole)
  | property (origin : Origin) (base : Operation) (name : String)
  | element (origin : Origin) (base index : Operation)
  | ternary (origin : Origin) (condition ifTrue ifFalse : Operation)
  /-- A value under a condition. -/
  | guarded (origin : Origin) (condition body : Operation)
  | call (origin : Origin) (name : String) (arguments : List Operation)
  | binary (origin : Origin) (operator : BinaryOperator) (left right : Operation)
  | unary (origin : Origin) (operator : UnaryOperator) (operand : Operation)
  | loop (origin : Origin) (item : String) (index : Option String) (source body : Operation)

/-- The context of a reference. -/
abbrev ReferenceContext :=
  IndexContext Operation

namespace Operation

/-- The node an operation stands for. -/
def origin : Operation → Origin
  | .literal o _ => o
  | .interpolation o _ _ => o
  | .object o _ => o
  | .array o _ => o
  | .access o _ _ _ => o
  | .parameter o _ => o
  | .loopVariable o _ _ _ => o
  | .property o _ _ => o
  | .element o _ _ => o
  | .ternary o _ _ _ => o
  | .guarded o _ _ => o
  | .call o _ _ => o
  | .binary o _ _ _ => o
  | .unary o _ _ => o
  | .loop o _ _ _ _ => o

/-- The id of the node. -/
def id (op : Operation) : SyntaxId :=
  op.origin.id

/-- The span of the node. -/
def span (op : Operation) : Span :=
  op.origin.span

/-- The direct children in source order; of a reference, the indices in brackets. -/
def children : Operation → List Operation
  | .literal .. => []
  | .interpolation _ _ parts => parts
  | .object _ entries => entries.map Prod.snd
  | .array _ items => items
  | .access _ _ _ none => []
  | .access _ _ _ (some context) => context.explicitIndices
  | .parameter .. => []
  | .loopVariable .. => []
  | .property _ base _ => [base]
  | .element _ base index => [base, index]
  | .ternary _ condition ifTrue ifFalse => [condition, ifTrue, ifFalse]
  | .guarded _ condition body => [condition, body]
  | .call _ _ arguments => arguments
  | .binary _ _ left right => [left, right]
  | .unary _ _ operand => [operand]
  | .loop _ _ _ source body => [source, body]

/-- The symbol a reference refers to. -/
def symbol? : Operation → Option Symbol
  | .access _ symbol _ _ => some symbol
  | .parameter _ symbol => some symbol
  | .loopVariable _ symbol _ _ => some symbol
  | _ => none

/-- How a reference is indexed. -/
def context? : Operation → Option ReferenceContext
  | .access _ _ _ context => context
  | _ => none

/-- The brackets that were folded into a reference. -/
def foldedAccesses (op : Operation) : List SyntaxId :=
  (op.context?.map fun context => context.explicitAccesses).getD []

/-- The first value of an object under a key; nothing for other operations. -/
def valueOf? (key : String) : Operation → Option Operation
  | .object _ entries => entries.lookup key
  | _ => none

/-- Whether the operation is an object. -/
def isObject : Operation → Bool
  | .object .. => true
  | _ => false

/-- The kind of an operation in a word. -/
def kindName : Operation → String
  | .literal .. => "literal"
  | .interpolation .. => "interpolation"
  | .object .. => "object"
  | .array .. => "array"
  | .access _ _ (.resource _) _ => "resource"
  | .access _ _ (.module _) _ => "module"
  | .access _ _ .variable _ => "variable"
  | .parameter .. => "parameter"
  | .loopVariable .. => "local"
  | .property .. => "property"
  | .element .. => "index"
  | .ternary .. => "conditional"
  | .guarded .. => "conditional"
  | .call .. => "call"
  | .binary .. => "binary"
  | .unary .. => "unary"
  | .loop .. => "for"

/-! ## Traversal -/

mutual

/-- The nodes of a tree, each before its children. -/
def preorder : Operation → List Operation
  | op@(.literal ..) => [op]
  | op@(.interpolation _ _ parts) => op :: preorderAll parts
  | op@(.object _ entries) => op :: preorderEntries entries
  | op@(.array _ items) => op :: preorderAll items
  | op@(.access _ _ _ none) => [op]
  | op@(.access _ _ _ (some ⟨levels⟩)) => op :: preorderLevels levels
  | op@(.parameter ..) => [op]
  | op@(.loopVariable ..) => [op]
  | op@(.property _ base _) => op :: preorder base
  | op@(.element _ base index) => op :: (preorder base ++ preorder index)
  | op@(.ternary _ condition ifTrue ifFalse) =>
    op :: (preorder condition ++ (preorder ifTrue ++ preorder ifFalse))
  | op@(.guarded _ condition body) => op :: (preorder condition ++ preorder body)
  | op@(.call _ _ arguments) => op :: preorderAll arguments
  | op@(.binary _ _ left right) => op :: (preorder left ++ preorder right)
  | op@(.unary _ _ operand) => op :: preorder operand
  | op@(.loop _ _ _ source body) => op :: (preorder source ++ preorder body)

/-- The nodes of several trees. -/
def preorderAll : List Operation → List Operation
  | [] => []
  | op :: rest => preorder op ++ preorderAll rest

/-- The nodes of the values of an object. -/
def preorderEntries : List (String × Operation) → List Operation
  | [] => []
  | (_, op) :: rest => preorder op ++ preorderEntries rest

/-- The nodes of the indices in brackets. -/
def preorderLevels : List (IndexLevel Operation) → List Operation
  | [] => []
  | ⟨_, .explicit _ index⟩ :: rest => preorder index ++ preorderLevels rest
  | ⟨_, .implicit _ _⟩ :: rest => preorderLevels rest
  | ⟨_, .unresolved⟩ :: rest => preorderLevels rest

end

mutual

/-- How many nodes a tree has. -/
def nodeCount : Operation → Nat
  | .literal .. => 1
  | .interpolation _ _ parts => nodeCountAll parts + 1
  | .object _ entries => nodeCountEntries entries + 1
  | .array _ items => nodeCountAll items + 1
  | .access _ _ _ none => 1
  | .access _ _ _ (some ⟨levels⟩) => nodeCountLevels levels + 1
  | .parameter .. => 1
  | .loopVariable .. => 1
  | .property _ base _ => nodeCount base + 1
  | .element _ base index => nodeCount base + nodeCount index + 1
  | .ternary _ condition ifTrue ifFalse =>
    nodeCount condition + nodeCount ifTrue + nodeCount ifFalse + 1
  | .guarded _ condition body => nodeCount condition + nodeCount body + 1
  | .call _ _ arguments => nodeCountAll arguments + 1
  | .binary _ _ left right => nodeCount left + nodeCount right + 1
  | .unary _ _ operand => nodeCount operand + 1
  | .loop _ _ _ source body => nodeCount source + nodeCount body + 1

/-- How many nodes several trees have. -/
def nodeCountAll : List Operation → Nat
  | [] => 0
  | op :: rest => nodeCount op + nodeCountAll rest

/-- How many nodes the values of an object have. -/
def nodeCountEntries : List (String × Operation) → Nat
  | [] => 0
  | (_, op) :: rest => nodeCount op + nodeCountEntries rest

/-- How many nodes the indices in brackets have. -/
def nodeCountLevels : List (IndexLevel Operation) → Nat
  | [] => 0
  | ⟨_, .explicit _ index⟩ :: rest => nodeCount index + nodeCountLevels rest
  | ⟨_, .implicit _ _⟩ :: rest => nodeCountLevels rest
  | ⟨_, .unresolved⟩ :: rest => nodeCountLevels rest

end

/-- The indices in brackets of some levels. -/
def levelIndices (levels : List (IndexLevel Operation)) : List Operation :=
  (⟨levels⟩ : ReferenceContext).explicitIndices

theorem levelIndices_nil : levelIndices [] = [] :=
  rfl

theorem levelIndices_explicit (t : LoopId) (a : SyntaxId) (index : Operation)
    (rest : List (IndexLevel Operation)) :
    levelIndices (⟨t, .explicit a index⟩ :: rest) = index :: levelIndices rest :=
  rfl

theorem levelIndices_implicit (t l : LoopId) (v : Option String)
    (rest : List (IndexLevel Operation)) :
    levelIndices (⟨t, .implicit l v⟩ :: rest) = levelIndices rest :=
  rfl

theorem levelIndices_unresolved (t : LoopId) (rest : List (IndexLevel Operation)) :
    levelIndices (⟨t, .unresolved⟩ :: rest) = levelIndices rest :=
  rfl

theorem preorderAll_eq (ops : List Operation) : preorderAll ops = ops.flatMap preorder := by
  induction ops with
  | nil => rfl
  | cons op rest ih => simp [preorderAll, ih]

theorem preorderEntries_eq (entries : List (String × Operation)) :
    preorderEntries entries = (entries.map Prod.snd).flatMap preorder := by
  induction entries with
  | nil => rfl
  | cons entry rest ih => simp [preorderEntries, ih]

theorem preorderLevels_eq (levels : List (IndexLevel Operation)) :
    preorderLevels levels = (levelIndices levels).flatMap preorder := by
  induction levels with
  | nil => rfl
  | cons level rest ih =>
    obtain ⟨t, outcome⟩ := level
    cases outcome <;>
      simp [preorderLevels, levelIndices_explicit, levelIndices_implicit, levelIndices_unresolved,
        ih]

theorem preorder_eq (op : Operation) : op.preorder = op :: op.children.flatMap preorder := by
  cases op with
  | access o symbol referent context =>
    cases context with
    | none => rfl
    | some context =>
      obtain ⟨levels⟩ := context
      simp [preorder, children, preorderLevels_eq, levelIndices]
  | _ => simp [preorder, children, preorderAll_eq, preorderEntries_eq]

theorem nodeCountAll_append (xs ys : List Operation) :
    nodeCountAll (xs ++ ys) = nodeCountAll xs + nodeCountAll ys := by
  induction xs with
  | nil => simp only [List.nil_append, nodeCountAll, Nat.zero_add]
  | cons x rest ih => simp only [List.cons_append, nodeCountAll, ih, Nat.add_assoc]

theorem nodeCountEntries_eq (entries : List (String × Operation)) :
    nodeCountEntries entries = nodeCountAll (entries.map Prod.snd) := by
  induction entries with
  | nil => rfl
  | cons entry rest ih =>
    obtain ⟨key, op⟩ := entry
    simp only [nodeCountEntries, nodeCountAll, ih, List.map_cons]

theorem nodeCountLevels_eq (levels : List (IndexLevel Operation)) :
    nodeCountLevels levels = nodeCountAll (levelIndices levels) := by
  induction levels with
  | nil => rfl
  | cons level rest ih =>
    obtain ⟨t, outcome⟩ := level
    cases outcome <;>
      simp [nodeCountLevels, nodeCountAll, levelIndices_explicit, levelIndices_implicit,
        levelIndices_unresolved, ih]

theorem nodeCount_eq (op : Operation) : op.nodeCount = nodeCountAll op.children + 1 := by
  cases op with
  | access o symbol referent context =>
    cases context with
    | none => rfl
    | some context =>
      obtain ⟨levels⟩ := context
      simp [nodeCount, children, nodeCountLevels_eq, levelIndices]
  | object o entries => simp only [nodeCount, children, nodeCountEntries_eq]
  | ternary o condition ifTrue ifFalse =>
    simp only [nodeCount, children, nodeCountAll]
    omega
  | _ => simp [nodeCount, children, nodeCountAll]

theorem nodeCount_le_of_mem {c : Operation} {ops : List Operation} (h : c ∈ ops) :
    c.nodeCount ≤ nodeCountAll ops := by
  induction ops with
  | nil => exact absurd h List.not_mem_nil
  | cons op rest ih =>
    simp only [nodeCountAll]
    rcases List.mem_cons.1 h with rfl | h
    · omega
    · have := ih h
      omega

theorem nodeCount_lt_of_mem_children {c op : Operation} (h : c ∈ op.children) :
    c.nodeCount < op.nodeCount := by
  rw [nodeCount_eq op]
  have := nodeCount_le_of_mem h
  omega

/-- Induction from the children of a node to the node. -/
theorem induction {motive : Operation → Prop}
    (step : ∀ op, (∀ c ∈ op.children, motive c) → motive op) (op : Operation) : motive op :=
  step op fun c _ => induction step c
termination_by op.nodeCount
decreasing_by exact nodeCount_lt_of_mem_children ‹_›

end Operation

end InfraGraph
