import InfraGraph.Symbol.Basic

/-!
# Symbol models

What a pass may ask about the names of a unit. A `Scoping` answers where names lead and which copy
loops stand around a node; a `SymbolModel` also says which copy loops are the same loop.

Two loops are the same loop if they are one `for` node, or if their sources have the same shape and
the references in them bind alike, one by one. References bind alike if both mean nothing, if they
mean one symbol, or if they mean the same variable of two loops that are the same loop in turn. That
last question is asked again of other loops, so it need not end; `sameLoopWithin` answers within a
number of steps or not at all.

## Main definitions

* `Scoping`, `SymbolModel` — the questions.
* `Scoping.sameLoopWithin` — whether two loops are the same loop, within some steps.
* `Scoping.toModel` — the model of a scoping, for units with a known number of loops.
-/

namespace InfraGraph

/-- Where the names and nodes of a unit lead. -/
structure Scoping where
  /-- The symbol a name means at a node. -/
  lookup : String → SyntaxId → Option Symbol
  /-- The symbol a declaration introduces. -/
  declaredSymbol : SyntaxId → Option Symbol
  /-- The copy loops that replicate a symbol, outermost first. -/
  loopsOf : Symbol → List LoopDescriptor
  /-- The copy loops around a node, outermost first. -/
  enclosingLoops : SyntaxId → List LoopDescriptor

/-- A scoping that also knows which copy loops are the same loop. -/
structure SymbolModel extends Scoping where
  sameLoop : LoopDescriptor → LoopDescriptor → Bool

/-- Whether a question has the answer yes for every item. The first other answer decides. -/
def allAnswers {α : Type} (question : α → Option Bool) : List α → Option Bool
  | [] => some true
  | a :: rest =>
    match question a with
    | some true => allAnswers question rest
    | answer => answer

namespace Scoping

/-- The symbol a reference node means. -/
def resolve (s : Scoping) (e : Expr) : Option Symbol :=
  e.referenceName?.bind fun name => s.lookup name e.id

/-- The copy loop of that identity around a node. -/
def enclosingLoop? (s : Scoping) (node : SyntaxId) (id : LoopId) : Option LoopDescriptor :=
  (s.enclosingLoops node).find? (·.id == id)

/-- Whether two reference nodes bind alike, given which loops are the same. -/
def bindAlike (s : Scoping) (same : LoopDescriptor → LoopDescriptor → Option Bool) (a b : Expr) :
    Option Bool :=
  match s.resolve a, s.resolve b with
  | none, none => some true
  | some x, some y =>
    if x.id = y.id then some true
    else
      match x.kind, y.kind with
      | .loopVariable loopA roleA, .loopVariable loopB roleB =>
        if roleA = roleB then
          match s.enclosingLoop? a.id loopA, s.enclosingLoop? b.id loopB with
          | some outerA, some outerB => same outerA outerB
          | _, _ => some false
        else some false
      | _, _ => some false
  | _, _ => some false

/-- Whether two loops are the same loop, if that is settled by comparing at most `steps` pairs of
loops one inside the other. -/
def sameLoopWithin (s : Scoping) : Nat → LoopDescriptor → LoopDescriptor → Option Bool
  | 0, _, _ => none
  | steps + 1, a, b =>
    if a.id = b.id then some true
    else if a.source.sameShape b.source then
      allAnswers (fun (x, y) => s.bindAlike (sameLoopWithin s steps) x y)
        (a.source.references.zip b.source.references)
    else some false

/-- The steps that settle every comparison that ends, when `loops` loops can be met: a chain of
comparisons that is longer than there are pairs of loops repeats one and never ends. -/
def stepLimit (loops : Nat) : Nat :=
  (loops + 2) * (loops + 2)

/-- The model of a scoping in which `loops` loops can be met. -/
def toModel (s : Scoping) (loops : Nat) : SymbolModel where
  toScoping := s
  sameLoop a b := (s.sameLoopWithin (stepLimit loops) a b).getD false

end Scoping

end InfraGraph
