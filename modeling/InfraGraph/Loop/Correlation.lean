import InfraGraph.Loop.Descriptor

/-!
# Correlating copy loops

A reference to a looped declaration has to say which instance it means, one index for every loop of
the declaration, its *target* chain. The reference itself stands in a chain of loops, its *site*.

If there are brackets for every loop, they are the indices. Otherwise the outer loops of the target
are taken from the site as far as they are found there, in order, though the site may have loops
around and between them; what is left takes the brackets in order; and what is still left is
unresolved. Of several ways to find loops in the site the innermost loops are taken.

The relation that says which loops are the same is arbitrary, and so is the type of the indices in
brackets.

## Main definitions

* `IndexContext` — how a reference is indexed, level by level.
* `matchedLength`, `implicitScopes` — how far the target is found in the site, and by which loops.
* `correlate` — the context of a reference, and the brackets it does not use.
-/

namespace InfraGraph

/-- How a loop, or all loops of a reference, are indexed. -/
inductive IndexKind where
  /-- By the iteration the reference stands in. -/
  | implicit
  /-- By brackets. -/
  | explicit
  /-- Not at all. -/
  | unresolved
deriving DecidableEq, Repr

/-- The name of a kind. -/
def IndexKind.name : IndexKind → String
  | .implicit => "implicit"
  | .explicit => "explicit"
  | .unresolved => "unresolved"

/-- How one loop of the target is indexed. -/
inductive IndexOutcome (α : Type) where
  /-- By the current iteration of a loop around the reference, whose index variable is given if it
  has one. -/
  | implicit (loop : LoopId) (index : Option String)
  /-- By the index in a bracket. -/
  | explicit (access : SyntaxId) (index : α)
  | unresolved
deriving Repr

/-- The kind of an outcome. -/
def IndexOutcome.kind {α : Type} : IndexOutcome α → IndexKind
  | .implicit .. => .implicit
  | .explicit .. => .explicit
  | .unresolved => .unresolved

/-- One loop of the target with its index. -/
structure IndexLevel (α : Type) where
  target : LoopId
  outcome : IndexOutcome α
deriving Repr

/-- How a reference is indexed: one level for every loop of its target, outermost first. -/
structure IndexContext (α : Type) where
  levels : List (IndexLevel α)
deriving Repr

/-- What takes the place of one index. -/
inductive Substitution (α : Type) where
  /-- The iteration of a loop, by its index variable if it has one. -/
  | loopIndex (loop : LoopId) (index : Option String)
  | expression (index : α)
deriving Repr

/-- An index in a bracket: the node of the bracket and the index. -/
structure ExplicitIndex (α : Type) where
  access : Origin
  index : α
deriving Repr

namespace IndexContext

variable {α : Type}

/-- Unresolved if a level is, else explicit if a level is, else implicit. -/
def kind (c : IndexContext α) : IndexKind :=
  let kinds := c.levels.map fun level => level.outcome.kind
  if kinds.contains .unresolved then .unresolved
  else if kinds.contains .explicit then .explicit
  else .implicit

/-- Whether some level has no index. -/
def isUnresolved (c : IndexContext α) : Bool :=
  c.kind == .unresolved

/-- The first level without an index. -/
def firstUnresolved? (c : IndexContext α) : Option (IndexLevel α) :=
  c.levels.find? fun level => level.outcome.kind == .unresolved

/-- What an outcome is replaced by, if it is an index. -/
def substitution? : IndexOutcome α → Option (Substitution α)
  | .implicit loop index => some (.loopIndex loop index)
  | .explicit _ index => some (.expression index)
  | .unresolved => none

/-- What takes the place of all indices, outermost first, if every level has one. -/
def replacement? (c : IndexContext α) : Option (List (Substitution α)) :=
  c.levels.mapM fun level => substitution? level.outcome

/-- The bracket an outcome uses. -/
def bracket? : IndexOutcome α → Option (SyntaxId × α)
  | .explicit access index => some (access, index)
  | _ => none

/-- The brackets in use, outermost level first. -/
def brackets (c : IndexContext α) : List (SyntaxId × α) :=
  c.levels.filterMap fun level => bracket? level.outcome

/-- The indices in the brackets in use. -/
def explicitIndices (c : IndexContext α) : List α :=
  c.brackets.map Prod.snd

/-- The nodes of the brackets in use. -/
def explicitAccesses (c : IndexContext α) : List SyntaxId :=
  c.brackets.map Prod.fst

/-- The written form of an outcome. -/
def displayOutcome : IndexOutcome α → String
  | .implicit loop _ => loop.display
  | .explicit access _ => access.display
  | .unresolved => "?"

/-- The written form: the kind, and what indexes each level. -/
def display (c : IndexContext α) : String :=
  c.kind.name ++ "["
    ++ ", ".intercalate (c.levels.map fun level => displayOutcome level.outcome) ++ "]"

end IndexContext

/-! ## Finding the target in the site -/

section

variable (same : LoopDescriptor → LoopDescriptor → Bool)

/-- The site from its first loop that is the target loop. -/
def siteFrom (target : LoopDescriptor) (site : List LoopDescriptor) : List LoopDescriptor :=
  site.dropWhile fun s => !same s target

/-- How many leading loops of the target are found in the site, one after the other. -/
def matchedLength : List LoopDescriptor → List LoopDescriptor → Nat
  | [], _ => 0
  | t :: target, site =>
    match siteFrom same t site with
    | [] => 0
    | _ :: inner => matchedLength target inner + 1

/-- The first loops of the site that are the loops of the target, one after the other. -/
def firstMatches : List LoopDescriptor → List LoopDescriptor → Option (List LoopDescriptor)
  | [], _ => some []
  | t :: target, site =>
    match siteFrom same t site with
    | [] => none
    | s :: rest => (firstMatches target rest).map (s :: ·)

/-- The loops of the site that stand for the leading loops of the target, outermost first. Searching
from the inside gives every level the innermost loop that leaves room for the levels inside it. -/
def implicitScopes (target site : List LoopDescriptor) : List LoopDescriptor :=
  let found := target.take (matchedLength same target site)
  ((firstMatches same found.reverse site.reverse).getD []).reverse

/-! ## Correlation -/

/-- Indexes the loops of a target: by loops of the site while there are any, then by brackets, then
not at all. Gives the brackets that are left. -/
def assignLevels {α : Type} : List LoopDescriptor → List LoopDescriptor →
    List (ExplicitIndex α) → List (IndexLevel α) × List (ExplicitIndex α)
  | [], _, brackets => ([], brackets)
  | t :: target, s :: scopes, brackets =>
    let (levels, rest) := assignLevels target scopes brackets
    (⟨t.id, .implicit s.id s.index⟩ :: levels, rest)
  | t :: target, [], b :: brackets =>
    let (levels, rest) := assignLevels target [] brackets
    (⟨t.id, .explicit b.access.id b.index⟩ :: levels, rest)
  | t :: target, [], [] =>
    let (levels, rest) := assignLevels target [] []
    (⟨t.id, .unresolved⟩ :: levels, rest)

/-- The context of a reference to a declaration with the loops `target` from inside the loops `site`
with some brackets behind it, and the brackets that index what the reference gives. A declaration
without loops needs no context. -/
def correlate {α : Type} (target site : List LoopDescriptor) (brackets : List (ExplicitIndex α)) :
    Option (IndexContext α) × List (ExplicitIndex α) :=
  if target.isEmpty then (none, brackets)
  else
    let scopes :=
      if target.length ≤ brackets.length then [] else implicitScopes same target site
    let (levels, rest) := assignLevels target scopes brackets
    (some ⟨levels⟩, rest)

end

end InfraGraph
