import InfraGraph.Graph.Lowering
import InfraGraph.Proofs.Symbol.Scopes
import InfraGraph.Proofs.Tree.Erasure

/-!
# Other labels in the place of those of a unit

A unit labels its nodes with ids and spans, and binding numbers the symbols.
Binding and lowering hand these labels on; they compare ids and numbers, and
ask nothing else of them.  A `Relabeling` puts others in their places, and
`relabel` does so in everything that carries labels: trees, loops, symbols,
operations and reports.

A relabeling need not be injective here.  Where labels are compared, that is
asked for at the place.

New numbers for the symbols alone, a `renumbering`, change nothing but symbols
and what holds them.

## Main definitions

* `Relabeling`, `Relabeling.renumbering` — new labels, and new numbers only.
* `Expr.relabel`, `Operation.relabel` and the rest — what is relabeled.

## Main results

* `sameShape_relabel` — shapes have no labels.
* `Expr.relabel_renumbering` and the rest — what keeps its labels.
-/

namespace InfraGraph

/-- New labels in the place of old ones: ids of nodes, spans, and numbers of
symbols. -/
structure Relabeling where
  node : SyntaxId → SyntaxId
  span : Span → Span
  symbol : SymbolId → SymbolId

namespace Relabeling

/-- The new labels of a node. -/
def origin (ρ : Relabeling) (o : Origin) : Origin :=
  ⟨ρ.node o.id, ρ.span o.span⟩

/-- The new id of a copy loop. -/
def loopId (ρ : Relabeling) (l : LoopId) : LoopId :=
  ⟨ρ.node l.node⟩

/-- New numbers for symbols, while nodes keep their labels. -/
def renumbering (f : SymbolId → SymbolId) : Relabeling :=
  ⟨id, id, f⟩

/-- The labels and numbers there are. -/
def same : Relabeling :=
  renumbering id

end Relabeling

/-! ## Trees and loops -/

/-- An expression with new labels. -/
def Expr.relabel (ρ : Relabeling) (e : Expr) : Expr :=
  e.mapOrigin ρ.origin

/-- A copy loop with new labels. -/
def LoopDescriptor.relabel (ρ : Relabeling) (l : LoopDescriptor) : LoopDescriptor where
  id := ρ.loopId l.id
  item := l.item
  index := l.index
  source := l.source.relabel ρ
  span := ρ.span l.span

namespace Declaration

mutual

/-- A declaration with new labels. -/
def relabel (ρ : Relabeling) : Declaration → Declaration
  | ⟨origin, name, kind, value, children⟩ =>
    ⟨ρ.origin origin, name, kind, value.map (Expr.relabel ρ), relabelAll ρ children⟩

/-- `relabel` over several declarations. -/
def relabelAll (ρ : Relabeling) : List Declaration → List Declaration
  | [] => []
  | d :: rest => relabel ρ d :: relabelAll ρ rest

end

theorem relabelAll_eq (ρ : Relabeling) (ds : List Declaration) :
    relabelAll ρ ds = ds.map (relabel ρ) := by
  induction ds with
  | nil => rfl
  | cons d ds ih => rw [relabelAll, ih, List.map_cons]

theorem relabel_eq (ρ : Relabeling) (d : Declaration) :
    d.relabel ρ = ⟨ρ.origin d.origin, d.name, d.kind, d.value.map (Expr.relabel ρ),
      d.children.map (relabel ρ)⟩ := by
  obtain ⟨origin, name, kind, value, children⟩ := d
  rw [relabel, relabelAll_eq]

end Declaration

/-! ## Symbols -/

/-- The kind of a symbol with the new id of its loop. -/
def SymbolKind.relabel (ρ : Relabeling) : SymbolKind → SymbolKind
  | .loopVariable loop role => .loopVariable (ρ.loopId loop) role
  | kind => kind

/-- An entity with new labels. -/
def Entity.relabel (ρ : Relabeling) (v : Entity) : Entity where
  name := v.name
  kind := v.kind.relabel ρ
  declaredType := v.declaredType
  loops := v.loops.map (LoopDescriptor.relabel ρ)
  condition := v.condition.map (Expr.relabel ρ)
  origin := ρ.origin v.origin

/-- A symbol with new labels and a new number. -/
def Symbol.relabel (ρ : Relabeling) (s : Symbol) : Symbol :=
  ⟨s.toEntity.relabel ρ, ρ.symbol s.id⟩

/-! ## Operations -/

section

variable {α β : Type} (ρ : Relabeling) (f : α → β)

/-- An outcome with new labels, the indices in brackets changed by `f`. -/
def IndexOutcome.relabel : IndexOutcome α → IndexOutcome β
  | .implicit loop index => .implicit (ρ.loopId loop) index
  | .explicit access index => .explicit (ρ.node access) (f index)
  | .unresolved => .unresolved

/-- A level with new labels. -/
def IndexLevel.relabel (level : IndexLevel α) : IndexLevel β :=
  ⟨ρ.loopId level.target, level.outcome.relabel ρ f⟩

/-- A context with new labels. -/
def IndexContext.relabel (c : IndexContext α) : IndexContext β :=
  ⟨c.levels.map (IndexLevel.relabel ρ f)⟩

/-- An index in brackets with new labels. -/
def ExplicitIndex.relabel (b : ExplicitIndex α) : ExplicitIndex β :=
  ⟨ρ.origin b.access, f b.index⟩

end

namespace Operation

section

variable (ρ : Relabeling)

mutual

/-- An operation with new labels. -/
def relabel : Operation → Operation
  | .literal o value => .literal (ρ.origin o) value
  | .interpolation o segments parts => .interpolation (ρ.origin o) segments (relabelAll parts)
  | .object o entries => .object (ρ.origin o) (relabelEntries entries)
  | .array o items => .array (ρ.origin o) (relabelAll items)
  | .access o symbol referent none => .access (ρ.origin o) (symbol.relabel ρ) referent none
  | .access o symbol referent (some ⟨levels⟩) =>
    .access (ρ.origin o) (symbol.relabel ρ) referent (some ⟨relabelLevels levels⟩)
  | .parameter o symbol => .parameter (ρ.origin o) (symbol.relabel ρ)
  | .loopVariable o symbol l role =>
    .loopVariable (ρ.origin o) (symbol.relabel ρ) (ρ.loopId l) role
  | .property o base name => .property (ρ.origin o) (relabel base) name
  | .element o base index => .element (ρ.origin o) (relabel base) (relabel index)
  | .ternary o condition ifTrue ifFalse =>
    .ternary (ρ.origin o) (relabel condition) (relabel ifTrue) (relabel ifFalse)
  | .guarded o condition body => .guarded (ρ.origin o) (relabel condition) (relabel body)
  | .call o name arguments => .call (ρ.origin o) name (relabelAll arguments)
  | .binary o operator left right =>
    .binary (ρ.origin o) operator (relabel left) (relabel right)
  | .unary o operator operand => .unary (ρ.origin o) operator (relabel operand)
  | .loop o item index source body =>
    .loop (ρ.origin o) item index (relabel source) (relabel body)

/-- `relabel` over several operations. -/
def relabelAll : List Operation → List Operation
  | [] => []
  | op :: rest => relabel op :: relabelAll rest

/-- `relabel` over the values of an object. -/
def relabelEntries : List (String × Operation) → List (String × Operation)
  | [] => []
  | (key, op) :: rest => (key, relabel op) :: relabelEntries rest

/-- `relabel` over the levels of a context. -/
def relabelLevels : List (IndexLevel Operation) → List (IndexLevel Operation)
  | [] => []
  | ⟨t, .explicit node index⟩ :: rest =>
    ⟨ρ.loopId t, .explicit (ρ.node node) (relabel index)⟩ :: relabelLevels rest
  | ⟨t, .implicit l index⟩ :: rest =>
    ⟨ρ.loopId t, .implicit (ρ.loopId l) index⟩ :: relabelLevels rest
  | ⟨t, .unresolved⟩ :: rest => ⟨ρ.loopId t, .unresolved⟩ :: relabelLevels rest

end

theorem relabelAll_eq (ops : List Operation) : relabelAll ρ ops = ops.map (relabel ρ) := by
  induction ops with
  | nil => rfl
  | cons op ops ih => rw [relabelAll, ih, List.map_cons]

theorem relabelEntries_eq (entries : List (String × Operation)) :
    relabelEntries ρ entries = entries.map fun entry => (entry.1, entry.2.relabel ρ) := by
  induction entries with
  | nil => rfl
  | cons entry entries ih => rw [relabelEntries, ih, List.map_cons]

theorem relabelLevels_eq (levels : List (IndexLevel Operation)) :
    relabelLevels ρ levels = levels.map (IndexLevel.relabel ρ (relabel ρ)) := by
  induction levels with
  | nil => rfl
  | cons level levels ih =>
      obtain ⟨t, outcome⟩ := level
      rw [List.map_cons, ← ih]
      cases outcome <;> rfl

theorem relabel_interpolation (o : Origin) (segments : List String) (parts : List Operation) :
    (interpolation o segments parts).relabel ρ =
      .interpolation (ρ.origin o) segments (parts.map (relabel ρ)) := by
  rw [relabel, relabelAll_eq]

theorem relabel_object (o : Origin) (entries : List (String × Operation)) :
    (object o entries).relabel ρ =
      .object (ρ.origin o) (entries.map fun entry => (entry.1, entry.2.relabel ρ)) := by
  rw [relabel, relabelEntries_eq]

theorem relabel_array (o : Origin) (items : List Operation) :
    (array o items).relabel ρ = .array (ρ.origin o) (items.map (relabel ρ)) := by
  rw [relabel, relabelAll_eq]

theorem relabel_call (o : Origin) (name : String) (arguments : List Operation) :
    (call o name arguments).relabel ρ = .call (ρ.origin o) name (arguments.map (relabel ρ)) := by
  rw [relabel, relabelAll_eq]

theorem relabel_access (o : Origin) (symbol : Symbol) (referent : Referent)
    (context : Option (IndexContext Operation)) :
    (access o symbol referent context).relabel ρ =
      .access (ρ.origin o) (symbol.relabel ρ) referent
        (context.map (IndexContext.relabel ρ (relabel ρ))) := by
  cases context with
  | none => rw [relabel, Option.map_none]
  | some context =>
      obtain ⟨levels⟩ := context
      rw [relabel, relabelLevels_eq]
      rfl

theorem levelIndices_relabel (levels : List (IndexLevel Operation)) :
    levelIndices (levels.map (IndexLevel.relabel ρ (relabel ρ))) =
      (levelIndices levels).map (relabel ρ) := by
  induction levels with
  | nil => rfl
  | cons level levels ih =>
      obtain ⟨t, outcome⟩ := level
      cases outcome with
      | explicit access index => exact congrArg (index.relabel ρ :: ·) ih
      | implicit => exact ih
      | unresolved => exact ih

theorem children_relabel (op : Operation) :
    (op.relabel ρ).children = op.children.map (relabel ρ) := by
  cases op with
  | interpolation o segments parts => rw [relabel_interpolation, children, children]
  | object o entries =>
      rw [relabel_object, children, children, List.map_map, List.map_map]
      rfl
  | array o items => rw [relabel_array, children, children]
  | call o name arguments => rw [relabel_call, children, children]
  | access o symbol referent context =>
      rw [relabel_access]
      cases context with
      | none => rfl
      | some context => exact levelIndices_relabel ρ context.levels
  | _ => rfl

theorem preorder_relabel (op : Operation) :
    (op.relabel ρ).preorder = op.preorder.map (relabel ρ) := by
  induction op using Operation.induction with
  | step op ih =>
      rw [preorder_eq, preorder_eq op, children_relabel, List.map_cons, List.flatMap_map,
        List.map_flatMap]
      exact congrArg (_ :: ·) (List.flatMap_congr ih)

theorem symbol?_relabel (op : Operation) :
    (op.relabel ρ).symbol? = op.symbol?.map (Symbol.relabel ρ) := by
  cases op with
  | access o symbol referent context =>
      rw [relabel_access]
      rfl
  | _ => rfl

end

end Operation

namespace DeclarationOperation

mutual

/-- The operation of a declaration with new labels. -/
def relabel (ρ : Relabeling) : DeclarationOperation → DeclarationOperation
  | ⟨origin, symbol, value, children⟩ =>
    ⟨ρ.origin origin, symbol.relabel ρ, value.map (Operation.relabel ρ), relabelAll ρ children⟩

/-- `relabel` over the operations of several declarations. -/
def relabelAll (ρ : Relabeling) : List DeclarationOperation → List DeclarationOperation
  | [] => []
  | d :: rest => relabel ρ d :: relabelAll ρ rest

end

theorem relabelAll_eq (ρ : Relabeling) (ds : List DeclarationOperation) :
    relabelAll ρ ds = ds.map (relabel ρ) := by
  induction ds with
  | nil => rfl
  | cons d ds ih => rw [relabelAll, ih, List.map_cons]

theorem relabel_eq (ρ : Relabeling) (d : DeclarationOperation) :
    d.relabel ρ = ⟨ρ.origin d.origin, d.symbol.relabel ρ, d.value.map (Operation.relabel ρ),
      d.children.map (relabel ρ)⟩ := by
  obtain ⟨origin, symbol, value, children⟩ := d
  rw [relabel, relabelAll_eq]

end DeclarationOperation

/-! ## Reports -/

/-- A report whose labels point to the new spans. -/
def Diagnostic.relabel (ρ : Relabeling) (d : Diagnostic) : Diagnostic :=
  { d with labels := d.labels.map fun l => { l with span := ρ.span l.span } }

/-! ## Expressions and loops -/

section

variable (ρ : Relabeling)

namespace Expr

theorem relabel_interpolation (o : Origin) (segments : List String) (parts : List Expr) :
    (interpolation o segments parts).relabel ρ =
      .interpolation (ρ.origin o) segments (parts.map (relabel ρ)) := by
  rw [relabel, mapOrigin, mapOriginAll_eq]
  rfl

theorem relabel_object (o : Origin) (entries : List (String × Expr)) :
    (object o entries).relabel ρ =
      .object (ρ.origin o) (entries.map fun entry => (entry.1, entry.2.relabel ρ)) := by
  rw [relabel, mapOrigin, mapOriginEntries_eq]
  rfl

theorem relabel_array (o : Origin) (items : List Expr) :
    (array o items).relabel ρ = .array (ρ.origin o) (items.map (relabel ρ)) := by
  rw [relabel, mapOrigin, mapOriginAll_eq]
  rfl

theorem relabel_call (o : Origin) (name : String) (arguments : List Expr) :
    (call o name arguments).relabel ρ = .call (ρ.origin o) name (arguments.map (relabel ρ)) := by
  rw [relabel, mapOrigin, mapOriginAll_eq]
  rfl

/-- Shapes have no labels. -/
theorem sameShape_relabel (a b : Expr) : (a.relabel ρ).sameShape (b.relabel ρ) = a.sameShape b := by
  rw [Bool.eq_iff_iff, sameShape_iff_erase_eq, sameShape_iff_erase_eq, erase, erase, relabel,
    relabel, mapOrigin_mapOrigin, mapOrigin_mapOrigin]
  rfl

theorem id_relabel (e : Expr) : (e.relabel ρ).id = ρ.node e.id := by
  rw [Expr.id, relabel, origin_mapOrigin]
  rfl

theorem references_relabel (e : Expr) : (e.relabel ρ).references = e.references.map (relabel ρ) :=
  references_mapOrigin _ e

theorem referenceName?_relabel (e : Expr) : (e.relabel ρ).referenceName? = e.referenceName? :=
  referenceName?_mapOrigin _ e

end Expr

theorem LoopDescriptor.ofExpr?_relabel (e : Expr) :
    ofExpr? (e.relabel ρ) = (ofExpr? e).map (relabel ρ) := by
  cases e <;> rfl

end

/-! ## New numbers only -/

section

variable (f : SymbolId → SymbolId)

open Relabeling

@[simp] theorem origin_renumbering (o : Origin) : (renumbering f).origin o = o := rfl

@[simp] theorem Expr.relabel_renumbering (e : Expr) : e.relabel (renumbering f) = e :=
  mapOrigin_eq_self (origin_renumbering f) e

@[simp] theorem LoopDescriptor.relabel_renumbering (l : LoopDescriptor) :
    l.relabel (renumbering f) = l := by
  rw [relabel, Expr.relabel_renumbering]
  rfl

@[simp] theorem map_relabel_renumbering (ls : List LoopDescriptor) :
    ls.map (LoopDescriptor.relabel (renumbering f)) = ls :=
  map_eq_self fun l _ => l.relabel_renumbering f

@[simp] theorem SymbolKind.relabel_renumbering (k : SymbolKind) : k.relabel (renumbering f) = k := by
  cases k <;> rfl

@[simp] theorem Entity.relabel_renumbering (v : Entity) : v.relabel (renumbering f) = v := by
  obtain ⟨name, kind, type, loops, condition, origin⟩ := v
  rw [relabel, map_relabel_renumbering, SymbolKind.relabel_renumbering,
    funext (Expr.relabel_renumbering f), Option.map_id']
  rfl

@[simp] theorem Diagnostic.relabel_renumbering (d : Diagnostic) :
    d.relabel (renumbering f) = d := by
  have hlabels : (d.labels.map fun l => { l with span := (renumbering f).span l.span }) =
      d.labels := map_eq_self fun l _ => rfl
  rw [relabel, hlabels]

@[simp] theorem Declaration.relabel_renumbering (d : Declaration) :
    d.relabel (renumbering f) = d := by
  induction d using Declaration.induction with
  | step d ih =>
      obtain ⟨origin, name, kind, value, children⟩ := d
      rw [relabel_eq, map_eq_self ih, funext (Expr.relabel_renumbering f), Option.map_id',
        origin_renumbering]

end

/-! ## The same labels -/

section

open Relabeling

@[simp] theorem origin_same (o : Origin) : same.origin o = o := rfl

@[simp] theorem loopId_same (l : LoopId) : same.loopId l = l := rfl

@[simp] theorem Symbol.relabel_same (s : Symbol) : s.relabel same = s := by
  rw [relabel, same, Entity.relabel_renumbering]
  rfl

namespace Operation

theorem map_relabel_same_levels {levels : List (IndexLevel Operation)}
    (h : ∀ op ∈ levelIndices levels, op.relabel same = op) :
    levels.map (IndexLevel.relabel same (relabel same)) = levels := by
  induction levels with
  | nil => rfl
  | cons level levels ih =>
      obtain ⟨t, outcome⟩ := level
      rw [List.map_cons]
      cases outcome with
      | explicit access index =>
          rw [levelIndices_explicit, List.forall_mem_cons] at h
          rw [ih h.2, IndexLevel.relabel, IndexOutcome.relabel, h.1]
          rfl
      | implicit loop index => exact congrArg (_ :: ·) (ih h)
      | unresolved => exact congrArg (_ :: ·) (ih h)

@[simp] theorem relabel_same (op : Operation) : op.relabel same = op := by
  induction op using Operation.induction with
  | step op ih =>
      cases op with
      | interpolation o segments parts =>
          rw [children] at ih
          rw [relabel_interpolation, map_eq_self ih, origin_same]
      | array o items =>
          rw [children] at ih
          rw [relabel_array, map_eq_self ih, origin_same]
      | call o name arguments =>
          rw [children] at ih
          rw [relabel_call, map_eq_self ih, origin_same]
      | object o entries =>
          have hentries : (entries.map fun entry => (entry.1, entry.2.relabel same)) = entries :=
            map_eq_self fun entry hentry =>
              congrArg (entry.1, ·) (ih entry.2 (List.mem_map_of_mem hentry))
          rw [relabel_object, hentries, origin_same]
      | access o symbol referent context =>
          rw [relabel_access, Symbol.relabel_same, origin_same]
          cases context with
          | none => rfl
          | some context =>
              rw [Option.map_some, IndexContext.relabel, map_relabel_same_levels ih]
      | _ => simp_all [relabel, children]

end Operation

@[simp] theorem DeclarationOperation.relabel_same (d : DeclarationOperation) :
    d.relabel same = d := by
  obtain ⟨origin, symbol, value, children⟩ := d
  have hchildren : children.map (relabel same) = children :=
    map_eq_self fun c _ => c.relabel_same
  rw [relabel_eq, Symbol.relabel_same, funext Operation.relabel_same, Option.map_id', hchildren,
    origin_same]

end

end InfraGraph
