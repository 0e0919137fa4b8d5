import InfraGraph.Graph.Basic
import InfraGraph.Symbol.Model

/-!
# Lowering

Lowering turns the expressions of a unit into operations, bottom up. Nothing stops it: what cannot
be represented is reported and left out. A reference to nothing and a reference to an output become
no operation, and neither does a node with a child that became none, except that objects and lists
only lose the entry. All children of a node are lowered whatever becomes of the others, so that one
fault hides no other.

Brackets behind a reference are lowered together with it, because they may say which instance of a
looped declaration is meant. A chain `head[i][j]` is taken apart into a *spine*: the head is
resolved first, then the brackets are lowered from the inside out, and only if all of them became
operations is the head referred to and given those brackets that its loops need.

## Main definitions

* `Lowered` — a result with what was reported and resolved on the way.
* `Expr.spine`, `Spine.close`, `Expr.lower` — expressions.
* `BoundProgram.lower` — units.
-/

namespace InfraGraph

/-! ## Results with reports -/

/-- A result, what was reported on the way to it, and the symbols that references were resolved
to. -/
structure Lowered (α : Type) where
  value : α
  reports : Diagnostics
  resolved : List SymbolId

namespace Lowered

/-- A result without reports. -/
def pure {α : Type} (a : α) : Lowered α :=
  ⟨a, [], []⟩

/-- One step after another. -/
def bind {α β : Type} (x : Lowered α) (f : α → Lowered β) : Lowered β :=
  let y := f x.value
  ⟨y.value, x.reports ++ y.reports, x.resolved ++ y.resolved⟩

instance : Monad Lowered where
  pure := Lowered.pure
  bind := Lowered.bind

/-- A report. -/
def report (d : Diagnostic) : Lowered Unit :=
  ⟨(), [d], []⟩

/-- A reference that was resolved to a symbol. -/
def resolvedTo (s : Symbol) : Lowered Unit :=
  ⟨(), [], [s.id]⟩

end Lowered

/-! ## References -/

/-- An index in brackets that became an operation. -/
abbrev Bracket :=
  ExplicitIndex Operation

/-- Brackets that became no part of a reference, applied to it one after the other. -/
def Operation.withBrackets (op : Operation) (brackets : List Bracket) : Operation :=
  brackets.foldl (fun base b => .element b.access base b.index) op

/-- The report on a name that means nothing. -/
def reportUnknown (site : Origin) (name : String) : Diagnostic :=
  (Diagnostic.error .unknownSymbol ("unknown symbol `" ++ name ++ "`"))
    |>.withLabel site.span "not found in this scope"

/-- The report on a reference to an output. -/
def reportOutput (site : Origin) (symbol : Symbol) : Diagnostic :=
  (Diagnostic.error .outputReference ("output `" ++ symbol.name ++ "` cannot be referenced"))
    |>.withLabel site.span "outputs are only visible to the caller"
    |>.withSecondaryLabel symbol.span "output declared here"

/-- The report on a reference with a level that has no index. It points to the loop of that level
too, and shows the reference as it was written. -/
def reportMissingIndex (site : Origin) (name : String) (symbol : Symbol)
    (target : List LoopDescriptor) (level : IndexLevel Operation) : Diagnostic :=
  let d :=
    (Diagnostic.error .missingLoopIndex
        (symbol.kind.name ++ " `" ++ symbol.name
          ++ "` is replicated by a copy loop and needs an index here"))
      |>.withLabel site.span "index required for this reference"
  let d :=
    match target.find? (·.id == level.target) with
    | some loop =>
      d.withSecondaryLabel loop.span ("loop over `" ++ loop.item ++ "` declared here")
    | none => d
  d.withHelp ("index the reference, for example `" ++ name ++ "[0]`")

/-- What a reference may be followed by: the operation, and the brackets it did not use. -/
abbrev Reference :=
  Operation × List Bracket

section

variable (m : SymbolModel)

/-- A reference to something that copy loops may replicate. -/
def referIndexed (site : Origin) (name : String) (symbol : Symbol) (referent : Referent)
    (brackets : List Bracket) : Lowered (Option Reference) := do
  let target := m.loopsOf symbol
  let (context, rest) :=
    correlate m.sameLoop target (m.enclosingLoops site.id) brackets
  match context.bind (·.firstUnresolved?) with
  | some level => Lowered.report (reportMissingIndex site name symbol target level)
  | none => pure ()
  return some (.access site symbol referent context, rest)

/-- A reference to a symbol with brackets behind it. -/
def refer (site : Origin) (name : String) (symbol : Symbol) (brackets : List Bracket) :
    Lowered (Option Reference) :=
  match symbol.kind with
  | .output => do
    Lowered.report (reportOutput site symbol)
    return none
  | .parameter => return some (.parameter site symbol, brackets)
  | .loopVariable loop role => return some (.loopVariable site symbol loop role, brackets)
  | .variable => referIndexed m site name symbol .variable brackets
  | .resource metadata => referIndexed m site name symbol (.resource metadata) brackets
  | .module metadata => referIndexed m site name symbol (.module metadata) brackets

/-- The symbol a name means at a node. -/
def resolveName (site : Origin) (name : String) : Lowered (Option Symbol) :=
  match m.lookup name site.id with
  | some symbol => do
    Lowered.resolvedTo symbol
    return some symbol
  | none => do
    Lowered.report (reportUnknown site name)
    return none

end

/-! ## Expressions -/

/-- What brackets are applied to. -/
inductive Head where
  | symbol (site : Origin) (name : String) (symbol : Symbol)
  | operation (op : Operation)

/-- A head and the brackets behind it, innermost first; each is there if it could be lowered. -/
structure Spine where
  head : Option Head
  brackets : List (Option Bracket)

/-- An operation, if there is one, with no brackets behind it. -/
def Spine.whole (op : Option Operation) : Spine :=
  ⟨op.map .operation, []⟩

/-- All items of a list, if all are there. -/
def allPresent {α : Type} : List (Option α) → Option (List α)
  | [] => some []
  | none :: _ => none
  | some a :: rest => (allPresent rest).map (a :: ·)

/-- The operation a spine becomes: none unless the head and all brackets are there. -/
def Spine.close (m : SymbolModel) (s : Spine) : Lowered (Option Operation) :=
  match allPresent s.brackets, s.head with
  | some brackets, some (.operation op) => return some (op.withBrackets brackets)
  | some brackets, some (.symbol site name symbol) => do
    let reference ← refer m site name symbol brackets
    return reference.map fun (op, rest) => op.withBrackets rest
  | _, _ => return none

namespace Expr

mutual

/-- The spine of an expression, with all its parts lowered. -/
def spine (m : SymbolModel) : Expr → Lowered Spine
  | .literal o value => return .whole (some (.literal o value))
  | .interpolation o segments parts => do
    let parts ← lowerAll m parts
    return .whole ((allPresent parts).map (.interpolation o segments))
  | .object o entries => do
    let entries ← lowerEntries m entries
    return .whole (some (.object o entries))
  | .array o items => do
    let items ← lowerAll m items
    return .whole (some (.array o (items.filterMap fun item => item)))
  | .reference o name => do
    let symbol ← resolveName m o name
    return ⟨symbol.map (.symbol o name), []⟩
  | .property o base name => do
    let base ← spine m base >>= Spine.close m
    return .whole (base.map (.property o · name))
  | .element o base index => do
    let s ← spine m base
    let index ← spine m index >>= Spine.close m
    return ⟨s.head, s.brackets ++ [index.map (⟨o, ·⟩)]⟩
  | .ternary o condition ifTrue ifFalse => do
    let condition ← spine m condition >>= Spine.close m
    let ifTrue ← spine m ifTrue >>= Spine.close m
    let ifFalse ← spine m ifFalse >>= Spine.close m
    return .whole do return .ternary o (← condition) (← ifTrue) (← ifFalse)
  | .guarded o condition body => do
    let condition ← spine m condition >>= Spine.close m
    let body ← spine m body >>= Spine.close m
    return .whole do return .guarded o (← condition) (← body)
  | .call o name arguments => do
    let arguments ← lowerAll m arguments
    return .whole ((allPresent arguments).map (.call o name))
  | .binary o operator left right => do
    let left ← spine m left >>= Spine.close m
    let right ← spine m right >>= Spine.close m
    return .whole do return .binary o operator (← left) (← right)
  | .unary o operator operand => do
    let operand ← spine m operand >>= Spine.close m
    return .whole (operand.map (.unary o operator))
  | .loop o item index source body => do
    let source ← spine m source >>= Spine.close m
    let body ← spine m body >>= Spine.close m
    return .whole do return .loop o item index (← source) (← body)

/-- What several expressions become. -/
def lowerAll (m : SymbolModel) : List Expr → Lowered (List (Option Operation))
  | [] => return []
  | e :: rest => do
    let op ← spine m e >>= Spine.close m
    let ops ← lowerAll m rest
    return op :: ops

/-- The entries of an object whose values became operations. -/
def lowerEntries (m : SymbolModel) : List (String × Expr) → Lowered (List (String × Operation))
  | [] => return []
  | (key, e) :: rest => do
    let op ← spine m e >>= Spine.close m
    let entries ← lowerEntries m rest
    return (op.map (key, ·)).toList ++ entries

end

/-- The operation an expression becomes. -/
def lower (m : SymbolModel) (e : Expr) : Lowered (Option Operation) :=
  e.spine m >>= Spine.close m

end Expr

/-! ## Declarations and units -/

/-- The report on a declaration without a symbol. -/
def reportUnbound (d : Declaration) : Diagnostic :=
  (Diagnostic.error .unknownSymbol ("declaration `" ++ d.name ++ "` was not bound"))
    |>.withLabel d.span "no symbol for this declaration"

/-- The operation a value becomes, if there is a value. -/
def lowerValue (m : SymbolModel) : Option Expr → Lowered (Option Operation)
  | none => return none
  | some value => value.lower m

namespace Declaration

mutual

/-- What a declaration becomes. One without a symbol is left out with all that is nested in it. -/
def lower (m : SymbolModel) : Declaration → Lowered (Option DeclarationOperation)
  | ⟨origin, name, kind, value, children⟩ =>
    match m.declaredSymbol origin.id with
    | none => do
      Lowered.report (reportUnbound ⟨origin, name, kind, value, children⟩)
      return none
    | some symbol => do
      let value ← lowerValue m value
      let children ← lowerAll m children
      return some ⟨origin, symbol, value, children⟩

/-- What several declarations become. -/
def lowerAll (m : SymbolModel) : List Declaration → Lowered (List DeclarationOperation)
  | [] => return []
  | d :: rest => do
    let d ← lower m d
    let ds ← lowerAll m rest
    return d.toList ++ ds

end

end Declaration

/-- The graph a unit becomes under a symbol model. -/
def BoundProgram.lower (p : BoundProgram) (m : SymbolModel) : OperationGraph :=
  let lowered := Declaration.lowerAll m p.declarations
  { declarations := lowered.value
    diagnostics := lowered.reports
    resolved := lowered.resolved }

end InfraGraph
