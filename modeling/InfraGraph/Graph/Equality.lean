import InfraGraph.Graph.Basic

/-!
# Equality of graphs

Graphs are compared node by node, with their symbols, contexts and diagnostics. What was referenced
is compared as a set.
-/

namespace InfraGraph

namespace Operation

mutual

/-- Whether two operations are equal. -/
def equals : Operation → Operation → Bool
  | .literal o v, .literal o' v' => o == o' && v == v'
  | .interpolation o s ps, .interpolation o' s' ps' => o == o' && s == s' && equalsAll ps ps'
  | .object o es, .object o' es' => o == o' && equalsEntries es es'
  | .array o xs, .array o' xs' => o == o' && equalsAll xs xs'
  | .access o s r none, .access o' s' r' none => o == o' && s == s' && r == r'
  | .access o s r (some ⟨ls⟩), .access o' s' r' (some ⟨ls'⟩) =>
    o == o' && s == s' && r == r' && equalsLevels ls ls'
  | .parameter o s, .parameter o' s' => o == o' && s == s'
  | .loopVariable o s l r, .loopVariable o' s' l' r' => o == o' && s == s' && l == l' && r == r'
  | .property o b n, .property o' b' n' => o == o' && n == n' && equals b b'
  | .element o b i, .element o' b' i' => o == o' && equals b b' && equals i i'
  | .ternary o c t f, .ternary o' c' t' f' =>
    o == o' && equals c c' && equals t t' && equals f f'
  | .guarded o c b, .guarded o' c' b' => o == o' && equals c c' && equals b b'
  | .call o n xs, .call o' n' xs' => o == o' && n == n' && equalsAll xs xs'
  | .binary o p l r, .binary o' p' l' r' => o == o' && p == p' && equals l l' && equals r r'
  | .unary o p x, .unary o' p' x' => o == o' && p == p' && equals x x'
  | .loop o x i s b, .loop o' x' i' s' b' =>
    o == o' && x == x' && i == i' && equals s s' && equals b b'
  | _, _ => false

/-- Whether two lists of operations are equal. -/
def equalsAll : List Operation → List Operation → Bool
  | [], [] => true
  | x :: xs, y :: ys => equals x y && equalsAll xs ys
  | _, _ => false

/-- Whether two lists of entries are equal. -/
def equalsEntries : List (String × Operation) → List (String × Operation) → Bool
  | [], [] => true
  | (k, x) :: xs, (l, y) :: ys => k == l && equals x y && equalsEntries xs ys
  | _, _ => false

/-- Whether two lists of levels are equal. -/
def equalsLevels : List (IndexLevel Operation) → List (IndexLevel Operation) → Bool
  | [], [] => true
  | ⟨t, .implicit l i⟩ :: xs, ⟨t', .implicit l' i'⟩ :: ys =>
    t == t' && l == l' && i == i' && equalsLevels xs ys
  | ⟨t, .explicit a i⟩ :: xs, ⟨t', .explicit a' i'⟩ :: ys =>
    t == t' && a == a' && equals i i' && equalsLevels xs ys
  | ⟨t, .unresolved⟩ :: xs, ⟨t', .unresolved⟩ :: ys => t == t' && equalsLevels xs ys
  | _, _ => false

end

instance : BEq Operation :=
  ⟨equals⟩

end Operation

namespace DeclarationOperation

mutual

/-- Whether two declarations are equal. -/
def equals : DeclarationOperation → DeclarationOperation → Bool
  | ⟨o, s, v, cs⟩, ⟨o', s', v', cs'⟩ => o == o' && s == s' && v == v' && equalsAll cs cs'

/-- Whether two lists of declarations are equal. -/
def equalsAll : List DeclarationOperation → List DeclarationOperation → Bool
  | [], [] => true
  | x :: xs, y :: ys => equals x y && equalsAll xs ys
  | _, _ => false

end

end DeclarationOperation

instance : BEq OperationGraph where
  beq a b :=
    DeclarationOperation.equalsAll a.declarations b.declarations && a.diagnostics == b.diagnostics
      && a.referencedSymbols == b.referencedSymbols

end InfraGraph
