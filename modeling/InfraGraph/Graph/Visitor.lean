import InfraGraph.Graph.Operation

/-!
# Visitors

A visitor says for each kind of operation what is to be done at it, with a state that goes from one
node to the next. It need not go on to the children of a node: a handler is given the walk over
them, to take before, after or in the middle of what it does, or not at all.

## Main definitions

* `OperationVisitor` — one handler for each kind of operation.
* `Operation.accept` — hands an operation to the handler for its kind.
* `OperationVisitor.ofStep` — does the same at all nodes, and then walks over their children.
* `OperationVisitor.Follows` — a visitor comes to all nodes in source order.
-/

namespace InfraGraph

/-- What is to be done at operations. A handler has the parts of its operation and, if there can be
children, the walk over them. -/
structure OperationVisitor (σ : Type) where
  literal (origin : Origin) (value : LiteralValue) : σ → σ
  interpolation (origin : Origin) (segments : List String) (parts : List Operation)
    (walk : σ → σ) : σ → σ
  object (origin : Origin) (entries : List (String × Operation)) (walk : σ → σ) : σ → σ
  array (origin : Origin) (items : List Operation) (walk : σ → σ) : σ → σ
  resourceAccess (origin : Origin) (symbol : Symbol) (metadata : ResourceMetadata)
    (context : Option ReferenceContext) (walk : σ → σ) : σ → σ
  moduleAccess (origin : Origin) (symbol : Symbol) (metadata : ModuleMetadata)
    (context : Option ReferenceContext) (walk : σ → σ) : σ → σ
  variableAccess (origin : Origin) (symbol : Symbol) (context : Option ReferenceContext)
    (walk : σ → σ) : σ → σ
  parameterAccess (origin : Origin) (symbol : Symbol) : σ → σ
  loopVariableAccess (origin : Origin) (symbol : Symbol) (loop : LoopId) (role : LoopRole) : σ → σ
  property (origin : Origin) (base : Operation) (name : String) (walk : σ → σ) : σ → σ
  element (origin : Origin) (base index : Operation) (walk : σ → σ) : σ → σ
  /-- Both a choice between two values and a value under a condition, which has no `ifFalse`. -/
  conditional (origin : Origin) (condition ifTrue : Operation) (ifFalse : Option Operation)
    (walk : σ → σ) : σ → σ
  call (origin : Origin) (name : String) (arguments : List Operation) (walk : σ → σ) : σ → σ
  binary (origin : Origin) (operator : BinaryOperator) (left right : Operation)
    (walk : σ → σ) : σ → σ
  unary (origin : Origin) (operator : UnaryOperator) (operand : Operation) (walk : σ → σ) : σ → σ
  loop (origin : Origin) (item : String) (index : Option String) (source body : Operation)
    (walk : σ → σ) : σ → σ

variable {σ : Type}

/-- Hands a reference to the handler for what it refers to. -/
def OperationVisitor.access (v : OperationVisitor σ) (origin : Origin) (symbol : Symbol)
    (referent : Referent) (context : Option ReferenceContext) (walk : σ → σ) : σ → σ :=
  match referent with
  | .resource metadata => v.resourceAccess origin symbol metadata context walk
  | .module metadata => v.moduleAccess origin symbol metadata context walk
  | .variable => v.variableAccess origin symbol context walk

namespace Operation

section

variable (v : OperationVisitor σ)

mutual

/-- Hands an operation to the handler for its kind. -/
def accept : Operation → σ → σ
  | .literal o value => v.literal o value
  | .interpolation o segments parts => v.interpolation o segments parts (acceptAll parts)
  | .object o entries => v.object o entries (acceptEntries entries)
  | .array o items => v.array o items (acceptAll items)
  | .access o symbol referent none => v.access o symbol referent none fun s => s
  | .access o symbol referent (some ⟨levels⟩) =>
    v.access o symbol referent (some ⟨levels⟩) (acceptLevels levels)
  | .parameter o symbol => v.parameterAccess o symbol
  | .loopVariable o symbol binder role => v.loopVariableAccess o symbol binder role
  | .property o base name => v.property o base name (accept base)
  | .element o base index => v.element o base index (accept index ∘ accept base)
  | .ternary o condition ifTrue ifFalse =>
    v.conditional o condition ifTrue (some ifFalse)
      (accept ifFalse ∘ accept ifTrue ∘ accept condition)
  | .guarded o condition body =>
    v.conditional o condition body none (accept body ∘ accept condition)
  | .call o name arguments => v.call o name arguments (acceptAll arguments)
  | .binary o operator left right => v.binary o operator left right (accept right ∘ accept left)
  | .unary o operator operand => v.unary o operator operand (accept operand)
  | .loop o item index source body =>
    v.loop o item index source body (accept body ∘ accept source)

/-- Hands over several operations, one after the other. -/
def acceptAll : List Operation → σ → σ
  | [] => fun s => s
  | op :: rest => acceptAll rest ∘ accept op

/-- Hands over the values of an object. -/
def acceptEntries : List (String × Operation) → σ → σ
  | [] => fun s => s
  | (_, op) :: rest => acceptEntries rest ∘ accept op

/-- Hands over the indices in brackets. -/
def acceptLevels : List (IndexLevel Operation) → σ → σ
  | [] => fun s => s
  | ⟨_, .explicit _ index⟩ :: rest => acceptLevels rest ∘ accept index
  | ⟨_, .implicit _ _⟩ :: rest => acceptLevels rest
  | ⟨_, .unresolved⟩ :: rest => acceptLevels rest

end

theorem acceptAll_eq (ops : List Operation) (s : σ) :
    acceptAll v ops s = ops.foldl (fun s op => op.accept v s) s := by
  induction ops generalizing s with
  | nil => rfl
  | cons op rest ih => simp [acceptAll, ih]

theorem acceptEntries_eq (entries : List (String × Operation)) :
    acceptEntries v entries = acceptAll v (entries.map Prod.snd) := by
  induction entries with
  | nil => rfl
  | cons entry rest ih => simp [acceptEntries, acceptAll, ih]

theorem acceptLevels_eq (levels : List (IndexLevel Operation)) :
    acceptLevels v levels = acceptAll v (levelIndices levels) := by
  induction levels with
  | nil => rfl
  | cons level rest ih =>
    obtain ⟨t, outcome⟩ := level
    cases outcome <;>
      simp [acceptLevels, acceptAll, levelIndices_explicit, levelIndices_implicit,
        levelIndices_unresolved, ih]

theorem accept_object (o : Origin) (entries : List (String × Operation)) :
    accept v (.object o entries) =
      v.object o entries (acceptAll v (children (.object o entries))) := by
  rw [accept, acceptEntries_eq, children]

theorem accept_access (o : Origin) (symbol : Symbol) (referent : Referent)
    (context : Option ReferenceContext) :
    accept v (.access o symbol referent context) =
      v.access o symbol referent context
        (acceptAll v (children (.access o symbol referent context))) := by
  cases context with
  | none => rfl
  | some context =>
    obtain ⟨levels⟩ := context
    rw [accept, acceptLevels_eq]
    rfl

end

/-- A choice between two values, or a value under a condition if there is only one. -/
def conditional (origin : Origin) (condition ifTrue : Operation) : Option Operation → Operation
  | some ifFalse => .ternary origin condition ifTrue ifFalse
  | none => .guarded origin condition ifTrue

end Operation

namespace OperationVisitor

variable (step : σ → Operation → σ)

/-- The visitor that hands every node to `step` and then walks over its children. -/
def ofStep : OperationVisitor σ where
  literal o value s := step s (.literal o value)
  interpolation o segments parts walk s := walk (step s (.interpolation o segments parts))
  object o entries walk s := walk (step s (.object o entries))
  array o items walk s := walk (step s (.array o items))
  resourceAccess o symbol metadata context walk s :=
    walk (step s (.access o symbol (.resource metadata) context))
  moduleAccess o symbol metadata context walk s :=
    walk (step s (.access o symbol (.module metadata) context))
  variableAccess o symbol context walk s := walk (step s (.access o symbol .variable context))
  parameterAccess o symbol s := step s (.parameter o symbol)
  loopVariableAccess o symbol loop role s := step s (.loopVariable o symbol loop role)
  property o base name walk s := walk (step s (.property o base name))
  element o base index walk s := walk (step s (.element o base index))
  conditional o condition ifTrue ifFalse walk s :=
    walk (step s (.conditional o condition ifTrue ifFalse))
  call o name arguments walk s := walk (step s (.call o name arguments))
  binary o operator left right walk s := walk (step s (.binary o operator left right))
  unary o operator operand walk s := walk (step s (.unary o operator operand))
  loop o item index source body walk s := walk (step s (.loop o item index source body))

/-- Whether a visitor hands every node to `step` and then its children over, in source order. -/
def Follows (v : OperationVisitor σ) : Prop :=
  ∀ op s, op.accept v s = Operation.acceptAll v op.children (step s op)

theorem follows_ofStep : (ofStep step).Follows step := by
  intro op s
  cases op with
  | object o entries => rw [Operation.accept_object, ofStep]
  | access o symbol referent context =>
    rw [Operation.accept_access]
    cases referent <;> rfl
  | _ => rfl

end OperationVisitor

end InfraGraph
