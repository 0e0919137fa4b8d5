import InfraGraph.Tree.Identity
import InfraGraph.Tree.Literal

/-!
# Expressions

The expression trees of a bound unit. Every node knows its `Origin`. References are bare names;
what they mean is the business of a symbol model.

## Main definitions

* `Expr.children`, `Expr.preorder` — the nodes of a tree in source order, a node before its
  children.
* `Expr.references` — the reference nodes among them.
* `Expr.sameShape` — equality that does not look at origins.

## Main results

* `Expr.preorder_eq` — a node, then the nodes of its children one after the other.
* `Expr.induction` — to prove something of all expressions, prove it of a node from its children.
-/

namespace InfraGraph

/-- An expression of a bound tree. -/
inductive Expr where
  | literal (origin : Origin) (value : LiteralValue)
  /-- Text with holes: the segments stand around the parts. -/
  | interpolation (origin : Origin) (segments : List String) (parts : List Expr)
  | object (origin : Origin) (entries : List (String × Expr))
  | array (origin : Origin) (items : List Expr)
  | reference (origin : Origin) (name : String)
  | property (origin : Origin) (base : Expr) (name : String)
  | element (origin : Origin) (base index : Expr)
  | ternary (origin : Origin) (condition ifTrue ifFalse : Expr)
  /-- A declaration's value under a condition. -/
  | guarded (origin : Origin) (condition body : Expr)
  | call (origin : Origin) (name : String) (arguments : List Expr)
  | binary (origin : Origin) (operator : BinaryOperator) (left right : Expr)
  | unary (origin : Origin) (operator : UnaryOperator) (operand : Expr)
  /-- A copy loop: the body once for every item of the source. The source stands outside the
  loop. -/
  | loop (origin : Origin) (item : String) (index : Option String) (source body : Expr)
deriving Repr

namespace Expr

/-- The node an expression stands for. -/
def origin : Expr → Origin
  | .literal o _ => o
  | .interpolation o _ _ => o
  | .object o _ => o
  | .array o _ => o
  | .reference o _ => o
  | .property o _ _ => o
  | .element o _ _ => o
  | .ternary o _ _ _ => o
  | .guarded o _ _ => o
  | .call o _ _ => o
  | .binary o _ _ _ => o
  | .unary o _ _ => o
  | .loop o _ _ _ _ => o

/-- The id of the node. -/
def id (e : Expr) : SyntaxId :=
  e.origin.id

/-- The span of the node. -/
def span (e : Expr) : Span :=
  e.origin.span

/-- The direct children in source order. -/
def children : Expr → List Expr
  | .literal .. => []
  | .interpolation _ _ parts => parts
  | .object _ entries => entries.map Prod.snd
  | .array _ items => items
  | .reference .. => []
  | .property _ base _ => [base]
  | .element _ base index => [base, index]
  | .ternary _ condition ifTrue ifFalse => [condition, ifTrue, ifFalse]
  | .guarded _ condition body => [condition, body]
  | .call _ _ arguments => arguments
  | .binary _ _ left right => [left, right]
  | .unary _ _ operand => [operand]
  | .loop _ _ _ source body => [source, body]

/-! ## Traversal -/

mutual

/-- The nodes of a tree, each before its children. -/
def preorder : Expr → List Expr
  | e@(.literal ..) => [e]
  | e@(.interpolation _ _ parts) => e :: preorderAll parts
  | e@(.object _ entries) => e :: preorderEntries entries
  | e@(.array _ items) => e :: preorderAll items
  | e@(.reference ..) => [e]
  | e@(.property _ base _) => e :: preorder base
  | e@(.element _ base index) => e :: (preorder base ++ preorder index)
  | e@(.ternary _ condition ifTrue ifFalse) =>
    e :: (preorder condition ++ (preorder ifTrue ++ preorder ifFalse))
  | e@(.guarded _ condition body) => e :: (preorder condition ++ preorder body)
  | e@(.call _ _ arguments) => e :: preorderAll arguments
  | e@(.binary _ _ left right) => e :: (preorder left ++ preorder right)
  | e@(.unary _ _ operand) => e :: preorder operand
  | e@(.loop _ _ _ source body) => e :: (preorder source ++ preorder body)

/-- The nodes of several trees. -/
def preorderAll : List Expr → List Expr
  | [] => []
  | e :: rest => preorder e ++ preorderAll rest

/-- The nodes of the values of an object. -/
def preorderEntries : List (String × Expr) → List Expr
  | [] => []
  | (_, e) :: rest => preorder e ++ preorderEntries rest

end

theorem preorderAll_eq (es : List Expr) : preorderAll es = es.flatMap preorder := by
  induction es with
  | nil => rfl
  | cons e rest ih => simp [preorderAll, ih]

theorem preorderEntries_eq (entries : List (String × Expr)) :
    preorderEntries entries = (entries.map Prod.snd).flatMap preorder := by
  induction entries with
  | nil => rfl
  | cons entry rest ih => simp [preorderEntries, ih]

theorem preorder_eq (e : Expr) : e.preorder = e :: e.children.flatMap preorder := by
  cases e <;> simp [preorder, children, preorderAll_eq, preorderEntries_eq]

theorem sizeOf_lt_of_mem_children {c e : Expr} (h : c ∈ e.children) : sizeOf c < sizeOf e := by
  cases e with
  | object o entries =>
    simp only [children, List.mem_map] at h
    obtain ⟨⟨k, v⟩, hm, rfl⟩ := h
    have := List.sizeOf_lt_of_mem hm
    simp only [Prod.mk.sizeOf_spec, object.sizeOf_spec] at this ⊢
    omega
  | interpolation o segments parts =>
    have := List.sizeOf_lt_of_mem h
    simp only [children, interpolation.sizeOf_spec] at this ⊢
    omega
  | array o items =>
    have := List.sizeOf_lt_of_mem h
    simp only [children, array.sizeOf_spec] at this ⊢
    omega
  | call o name arguments =>
    have := List.sizeOf_lt_of_mem h
    simp only [children, call.sizeOf_spec] at this ⊢
    omega
  | literal o value => exact absurd h List.not_mem_nil
  | reference o name => exact absurd h List.not_mem_nil
  | property o base name =>
    obtain rfl := List.mem_singleton.1 h
    simp only [property.sizeOf_spec]
    omega
  | unary o operator operand =>
    obtain rfl := List.mem_singleton.1 h
    simp only [unary.sizeOf_spec]
    omega
  | element o base index =>
    simp only [children, List.mem_cons, List.not_mem_nil, or_false] at h
    simp only [element.sizeOf_spec]
    rcases h with rfl | rfl <;> omega
  | ternary o condition ifTrue ifFalse =>
    simp only [children, List.mem_cons, List.not_mem_nil, or_false] at h
    simp only [ternary.sizeOf_spec]
    rcases h with rfl | rfl | rfl <;> omega
  | guarded o condition body =>
    simp only [children, List.mem_cons, List.not_mem_nil, or_false] at h
    simp only [guarded.sizeOf_spec]
    rcases h with rfl | rfl <;> omega
  | binary o operator left right =>
    simp only [children, List.mem_cons, List.not_mem_nil, or_false] at h
    simp only [binary.sizeOf_spec]
    rcases h with rfl | rfl <;> omega
  | loop o item index source body =>
    simp only [children, List.mem_cons, List.not_mem_nil, or_false] at h
    simp only [loop.sizeOf_spec]
    rcases h with rfl | rfl <;> omega

/-- Induction from the children of a node to the node. -/
theorem induction {motive : Expr → Prop}
    (step : ∀ e, (∀ c ∈ e.children, motive c) → motive e) (e : Expr) : motive e :=
  step e fun c _ => induction step c
termination_by sizeOf e
decreasing_by exact sizeOf_lt_of_mem_children ‹_›

/-- How many nodes a tree has. -/
def nodeCount (e : Expr) : Nat :=
  e.preorder.length

/-- The name, if the node is a bare reference. -/
def referenceName? : Expr → Option String
  | .reference _ name => some name
  | _ => none

/-- The reference nodes of a tree in source order. -/
def references (e : Expr) : List Expr :=
  e.preorder.filter fun e => e.referenceName?.isSome

/-! ## Comparison -/

mutual

/-- Whether two trees are equal apart from their origins. -/
def sameShape : Expr → Expr → Bool
  | .literal _ v, .literal _ w => v == w
  | .interpolation _ s ps, .interpolation _ t qs => s == t && sameShapes ps qs
  | .object _ es, .object _ fs => sameEntries es fs
  | .array _ xs, .array _ ys => sameShapes xs ys
  | .reference _ x, .reference _ y => x == y
  | .property _ b x, .property _ c y => x == y && sameShape b c
  | .element _ b i, .element _ c j => sameShape b c && sameShape i j
  | .ternary _ c t f, .ternary _ c' t' f' => sameShape c c' && sameShape t t' && sameShape f f'
  | .guarded _ c b, .guarded _ c' b' => sameShape c c' && sameShape b b'
  | .call _ x xs, .call _ y ys => x == y && sameShapes xs ys
  | .binary _ o l r, .binary _ o' l' r' => o == o' && sameShape l l' && sameShape r r'
  | .unary _ o x, .unary _ o' x' => o == o' && sameShape x x'
  | .loop _ x i s b, .loop _ x' i' s' b' =>
    x == x' && i == i' && sameShape s s' && sameShape b b'
  | _, _ => false

/-- `sameShape` item by item; lists of different lengths differ. -/
def sameShapes : List Expr → List Expr → Bool
  | [], [] => true
  | x :: xs, y :: ys => sameShape x y && sameShapes xs ys
  | _, _ => false

/-- `sameShape` entry by entry, the keys being equal. -/
def sameEntries : List (String × Expr) → List (String × Expr) → Bool
  | [], [] => true
  | (k, x) :: xs, (l, y) :: ys => k == l && sameShape x y && sameEntries xs ys
  | _, _ => false

end

/-- The origins of the nodes of a tree in source order. -/
def origins (e : Expr) : List Origin :=
  e.preorder.map origin

/-- Two trees are equal if they have the same shape and the same origins. -/
instance : BEq Expr where
  beq a b := a.sameShape b && a.origins == b.origins

end Expr

end InfraGraph
