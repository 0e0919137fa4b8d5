import InfraGraph.Proofs.Graph.Elision
import InfraGraph.Proofs.Symbol.Lookup
import InfraGraph.Proofs.Tree.Nodes

/-!
# Raising operations

Lowering can be undone.  `Operation.raise` reads the expression back from an
operation: references under the names of their symbols, and the brackets of a
context behind the reference again.  What comes back is the expression less
the entries of objects and lists that have failed, `Expr.prune`, and nothing
else: every node that survives keeps its kind, its texts and its children, in
order.

A context keeps the ids of the brackets it has used, but not their spans, so
`raise` asks for these.

## Main results

* `raise_lower` — to raise what an expression became is to prune it.
-/

namespace InfraGraph

variable {m : SymbolModel}

/-! ## Pruning -/

namespace Expr

mutual

/-- An expression without the failing entries of the objects and lists in it;
every other node keeps its children. -/
def prune (m : SymbolModel) : Expr → Expr
  | .literal o value => .literal o value
  | .interpolation o segments parts => .interpolation o segments (pruneAll m parts)
  | .object o entries => .object o (pruneEntries m entries)
  | .array o items => .array o (pruneItems m items)
  | .reference o name => .reference o name
  | .property o base name => .property o (prune m base) name
  | .element o base index => .element o (prune m base) (prune m index)
  | .ternary o condition ifTrue ifFalse =>
    .ternary o (prune m condition) (prune m ifTrue) (prune m ifFalse)
  | .guarded o condition body => .guarded o (prune m condition) (prune m body)
  | .call o name arguments => .call o name (pruneAll m arguments)
  | .binary o operator left right => .binary o operator (prune m left) (prune m right)
  | .unary o operator operand => .unary o operator (prune m operand)
  | .loop o item index source body => .loop o item index (prune m source) (prune m body)

/-- `prune` over several expressions, none of which is left out. -/
def pruneAll (m : SymbolModel) : List Expr → List Expr
  | [] => []
  | e :: rest => prune m e :: pruneAll m rest

/-- The items of a list that do not fail. -/
def pruneItems (m : SymbolModel) : List Expr → List Expr
  | [] => []
  | e :: rest => if e.fails m then pruneItems m rest else prune m e :: pruneItems m rest

/-- The entries of an object that do not fail. -/
def pruneEntries (m : SymbolModel) : List (String × Expr) → List (String × Expr)
  | [] => []
  | (key, e) :: rest =>
    if e.fails m then pruneEntries m rest else (key, prune m e) :: pruneEntries m rest

end

theorem pruneAll_eq (es : List Expr) : pruneAll m es = es.map (prune m) := by
  induction es with
  | nil => rfl
  | cons e es ih => rw [pruneAll, ih, List.map_cons]

theorem pruneItems_eq (es : List Expr) :
    pruneItems m es = (es.filter fun e => !e.fails m).map (prune m) := by
  induction es with
  | nil => rfl
  | cons e es ih =>
      rw [pruneItems, ih]
      by_cases h : e.fails m = true <;> simp [h]

theorem pruneEntries_eq (entries : List (String × Expr)) :
    pruneEntries m entries =
      (entries.filter fun entry => !entry.2.fails m).map fun entry =>
        (entry.1, entry.2.prune m) := by
  induction entries with
  | nil => rfl
  | cons entry entries ih =>
      rw [pruneEntries, ih]
      by_cases h : entry.2.fails m = true <;> simp [h]

end Expr

/-! ## Raising -/

namespace Operation

section

variable (spans : SyntaxId → Span)

mutual

/-- The expression that an operation stands for; `spans` has the spans of the
brackets folded into it. -/
def raise : Operation → Expr
  | .literal o value => .literal o value
  | .interpolation o segments parts => .interpolation o segments (raiseAll parts)
  | .object o entries => .object o (raiseEntries entries)
  | .array o items => .array o (raiseAll items)
  | .access o symbol _ none => .reference o symbol.name
  | .access o symbol _ (some ⟨levels⟩) => raiseLevels (.reference o symbol.name) levels
  | .parameter o symbol => .reference o symbol.name
  | .loopVariable o symbol _ _ => .reference o symbol.name
  | .property o base name => .property o (raise base) name
  | .element o base index => .element o (raise base) (raise index)
  | .ternary o condition ifTrue ifFalse =>
    .ternary o (raise condition) (raise ifTrue) (raise ifFalse)
  | .guarded o condition body => .guarded o (raise condition) (raise body)
  | .call o name arguments => .call o name (raiseAll arguments)
  | .binary o operator left right => .binary o operator (raise left) (raise right)
  | .unary o operator operand => .unary o operator (raise operand)
  | .loop o item index source body => .loop o item index (raise source) (raise body)

/-- `raise` over several operations. -/
def raiseAll : List Operation → List Expr
  | [] => []
  | op :: rest => raise op :: raiseAll rest

/-- `raise` over the values of an object. -/
def raiseEntries : List (String × Operation) → List (String × Expr)
  | [] => []
  | (key, op) :: rest => (key, raise op) :: raiseEntries rest

/-- An expression with the brackets of some levels behind it. -/
def raiseLevels (base : Expr) : List (IndexLevel Operation) → Expr
  | [] => base
  | ⟨_, .explicit node index⟩ :: rest =>
    raiseLevels (.element ⟨node, spans node⟩ base (raise index)) rest
  | ⟨_, .implicit _ _⟩ :: rest => raiseLevels base rest
  | ⟨_, .unresolved⟩ :: rest => raiseLevels base rest

end

/-- An expression with some brackets behind it. -/
def raiseBrackets (base : Expr) (brackets : List (SyntaxId × Operation)) : Expr :=
  brackets.foldl (fun e b => .element ⟨b.1, spans b.1⟩ e (b.2.raise spans)) base

end

variable {spans : SyntaxId → Span}

theorem raiseAll_eq (ops : List Operation) : raiseAll spans ops = ops.map (raise spans) := by
  induction ops with
  | nil => rfl
  | cons op ops ih => rw [raiseAll, ih, List.map_cons]

theorem raiseEntries_eq (entries : List (String × Operation)) :
    raiseEntries spans entries = entries.map fun entry => (entry.1, entry.2.raise spans) := by
  induction entries with
  | nil => rfl
  | cons entry entries ih =>
      obtain ⟨key, op⟩ := entry
      rw [raiseEntries, ih, List.map_cons]

theorem raiseLevels_eq (base : Expr) (levels : List (IndexLevel Operation)) :
    raiseLevels spans base levels =
      raiseBrackets spans base (⟨levels⟩ : ReferenceContext).brackets := by
  induction levels generalizing base with
  | nil => rfl
  | cons level levels ih =>
      obtain ⟨target, outcome⟩ := level
      cases outcome with
      | implicit => exact ih base
      | explicit access index => exact ih _
      | unresolved => exact ih base

theorem raiseBrackets_append (base : Expr) (used rest : List (SyntaxId × Operation)) :
    raiseBrackets spans base (used ++ rest) =
      raiseBrackets spans (raiseBrackets spans base used) rest :=
  List.foldl_append

theorem raise_withBrackets (op : Operation) {brackets : List Bracket}
    (h : ∀ b ∈ brackets, spans b.access.id = b.access.span) :
    (op.withBrackets brackets).raise spans =
      raiseBrackets spans (op.raise spans) (brackets.map ExplicitIndex.pair) := by
  induction brackets generalizing op with
  | nil => rfl
  | cons b brackets ih =>
      have hspan := h b List.mem_cons_self
      rw [withBrackets_cons, ih _ fun b' hb' => h b' (List.mem_cons_of_mem _ hb'), raise,
        List.map_cons, raiseBrackets, raiseBrackets, List.foldl_cons, ExplicitIndex.pair, hspan]

/-- A reference is raised with the brackets it has used. -/
theorem raise_of_referred {site : Origin} {symbol : Symbol} {brackets rest : List Bracket}
    {op : Operation} (h : Referred m site symbol brackets op rest) :
    op.raise spans = raiseBrackets spans (.reference site symbol.name) op.usedBrackets := by
  cases h with
  | parameter => rfl
  | loopVariable => rfl
  | @access referent context =>
      cases context with
      | none => rfl
      | some context =>
          obtain ⟨levels⟩ := context
          exact raiseLevels_eq _ _

end Operation

/-! ## Raising what was lowered -/

section

variable {spans : SyntaxId → Span}

/-- Whether the operation of an expression is raised to what is left of it. -/
def Expr.Raises (m : SymbolModel) (spans : SyntaxId → Span) (e : Expr) : Prop :=
  ∀ op, (e.lower m).value = some op → op.raise spans = e.prune m

/-- If nothing of a list is left out, all of it is raised. -/
theorem map_raise_of_present {es : List Expr} (h : ∀ e ∈ es, e.Raises m spans)
    {ops : List Operation} (hops : allPresent (es.map fun e => (e.lower m).value) = some ops) :
    ops.map (Operation.raise spans) = es.map (Expr.prune m) := by
  have hmap := allPresent_eq_some_iff.1 hops
  clear hops
  induction es generalizing ops with
  | nil =>
      obtain rfl : ops = [] := List.map_eq_nil_iff.1 hmap.symm
      rfl
  | cons e es ih =>
      cases ops with
      | nil => cases hmap
      | cons op ops =>
          rw [List.map_cons, List.map_cons] at hmap
          obtain ⟨hop, hmap⟩ := List.cons.inj hmap
          rw [List.map_cons, List.map_cons, h e List.mem_cons_self op hop,
            ih (fun e' he' => h e' (List.mem_cons_of_mem _ he')) hmap]

/-- Where some are left out, the others are raised. -/
theorem map_raise_filterMap {es : List Expr} (h : ∀ e ∈ es, e.Raises m spans) :
    (es.filterMap fun e => (e.lower m).value).map (Operation.raise spans) =
      (es.filter fun e => !e.fails m).map (Expr.prune m) := by
  induction es with
  | nil => rfl
  | cons e es ih =>
      have ih := ih fun e' he' => h e' (List.mem_cons_of_mem _ he')
      cases hop : (e.lower m).value with
      | none =>
          have hfails := (lower_eq_none_iff e).1 hop
          rw [List.filterMap_cons, hop, List.filter_cons_of_neg (by simp [hfails]), ih]
      | some op =>
          have hkept := not_fails_of_lower hop
          rw [List.filterMap_cons, hop, List.filter_cons_of_pos (by simp [hkept]),
            List.map_cons, List.map_cons, ih, h e List.mem_cons_self op hop]

theorem map_raise_entries {entries : List (String × Expr)}
    (h : ∀ e ∈ entries.map Prod.snd, e.Raises m spans) :
    ((entries.filterMap fun entry => (entry.2.lower m).value.map (entry.1, ·)).map fun entry =>
        (entry.1, entry.2.raise spans)) =
      (entries.filter fun entry => !entry.2.fails m).map fun entry =>
        (entry.1, entry.2.prune m) := by
  induction entries with
  | nil => rfl
  | cons entry entries ih =>
      have ih := ih fun e he => h e (List.mem_cons_of_mem _ he)
      cases hop : (entry.2.lower m).value with
      | none =>
          have hfails := (lower_eq_none_iff entry.2).1 hop
          rw [List.filterMap_cons, hop, List.filter_cons_of_neg (by simp [hfails])]
          exact ih
      | some op =>
          have hkept := not_fails_of_lower hop
          have hraise := h entry.2 List.mem_cons_self op hop
          rw [List.filterMap_cons, hop, List.filter_cons_of_pos (by simp [hkept]), List.map_cons,
            ← hraise, ← ih]
          rfl

/-- A plain node is raised if its children are. -/
theorem raises_plain {e : Expr} (hplain : e.isPlain = true)
    (h : ∀ c ∈ e.children, c.Raises m spans) : e.Raises m spans := by
  intro op hop
  cases e with
  | reference => cases hplain
  | element => cases hplain
  | literal o value =>
      rw [lower_literal] at hop
      obtain rfl := Option.some.inj hop
      rfl
  | interpolation o segments parts =>
      have h : ∀ c ∈ parts, c.Raises m spans := h
      rw [lower_interpolation] at hop
      obtain ⟨ops, hops, rfl⟩ := Option.map_eq_some_iff.1 hop
      rw [Operation.raise, Operation.raiseAll_eq, Expr.prune, Expr.pruneAll_eq,
        map_raise_of_present h hops]
  | object o entries =>
      have h : ∀ c ∈ entries.map Prod.snd, c.Raises m spans := h
      rw [lower_object] at hop
      obtain rfl := Option.some.inj hop
      rw [Operation.raise, Operation.raiseEntries_eq, Expr.prune, Expr.pruneEntries_eq,
        map_raise_entries h]
  | array o items =>
      have h : ∀ c ∈ items, c.Raises m spans := h
      rw [lower_array] at hop
      obtain rfl := Option.some.inj hop
      rw [Operation.raise, Operation.raiseAll_eq, Expr.prune, Expr.pruneItems_eq,
        map_raise_filterMap h]
  | property o base name =>
      rw [lower_property] at hop
      obtain ⟨b, hb, rfl⟩ := Option.map_eq_some_iff.1 hop
      rw [Operation.raise, Expr.prune, h base (by simp [Expr.children]) b hb]
  | ternary o condition ifTrue ifFalse =>
      rw [lower_ternary] at hop
      obtain ⟨c, hc, hop⟩ := Option.bind_eq_some_iff.1 hop
      obtain ⟨t, ht, hop⟩ := Option.bind_eq_some_iff.1 hop
      obtain ⟨f, hf, hop⟩ := Option.bind_eq_some_iff.1 hop
      obtain rfl := Option.some.inj hop
      rw [Operation.raise, Expr.prune, h condition (by simp [Expr.children]) c hc,
        h ifTrue (by simp [Expr.children]) t ht, h ifFalse (by simp [Expr.children]) f hf]
  | guarded o condition body =>
      rw [lower_guarded] at hop
      obtain ⟨c, hc, hop⟩ := Option.bind_eq_some_iff.1 hop
      obtain ⟨b, hb, hop⟩ := Option.bind_eq_some_iff.1 hop
      obtain rfl := Option.some.inj hop
      rw [Operation.raise, Expr.prune, h condition (by simp [Expr.children]) c hc,
        h body (by simp [Expr.children]) b hb]
  | call o name arguments =>
      have h : ∀ c ∈ arguments, c.Raises m spans := h
      rw [lower_call] at hop
      obtain ⟨ops, hops, rfl⟩ := Option.map_eq_some_iff.1 hop
      rw [Operation.raise, Operation.raiseAll_eq, Expr.prune, Expr.pruneAll_eq,
        map_raise_of_present h hops]
  | binary o operator left right =>
      rw [lower_binary] at hop
      obtain ⟨l, hl, hop⟩ := Option.bind_eq_some_iff.1 hop
      obtain ⟨r, hr, hop⟩ := Option.bind_eq_some_iff.1 hop
      obtain rfl := Option.some.inj hop
      rw [Operation.raise, Expr.prune, h left (by simp [Expr.children]) l hl,
        h right (by simp [Expr.children]) r hr]
  | unary o operator operand =>
      rw [lower_unary] at hop
      obtain ⟨x, hx, rfl⟩ := Option.map_eq_some_iff.1 hop
      rw [Operation.raise, Expr.prune, h operand (by simp [Expr.children]) x hx]
  | loop o item index source body =>
      rw [lower_loop] at hop
      obtain ⟨s, hs, hop⟩ := Option.bind_eq_some_iff.1 hop
      obtain ⟨b, hb, hop⟩ := Option.bind_eq_some_iff.1 hop
      obtain rfl := Option.some.inj hop
      rw [Operation.raise, Expr.prune, h source (by simp [Expr.children]) s hs,
        h body (by simp [Expr.children]) b hb]

/-- The expression that a spine stands for. -/
def Spine.raise (spans : SyntaxId → Span) (s : Spine) : Option Expr :=
  s.head.map fun head =>
    Operation.raiseBrackets spans
      (match head with
        | .symbol site name _ => .reference site name
        | .operation op => op.raise spans)
      (s.brackets.filterMap fun b => b.map ExplicitIndex.pair)

/-- What it takes to raise a spine: its reference is named after its symbol,
and the spans of its brackets are known. -/
structure Spine.Faithful (spans : SyntaxId → Span) (s : Spine) : Prop where
  name : ∀ site name symbol, s.head = some (.symbol site name symbol) → symbol.name = name
  spans : ∀ b, some b ∈ s.brackets → spans b.access.id = b.access.span

/-- To raise what a spine becomes is to raise the spine. -/
theorem Spine.Faithful.raise_closes {s : Spine} {op : Operation} (h : s.Faithful spans)
    (hclose : s.Closes m op) : s.raise spans = some (op.raise spans) := by
  cases hclose with
  | @operation base brackets =>
      have hspans : ∀ b ∈ brackets, spans b.access.id = b.access.span :=
        fun b hb => h.spans b (List.mem_map_of_mem hb)
      rw [Operation.raise_withBrackets base hspans, Spine.raise, Option.map_some,
        filterMap_pair_map_some]
  | @symbol site name symbol brackets base rest hrefer =>
      have hreferred := referred_of_refer hrefer
      have hname : symbol.name = name := h.name site name symbol rfl
      have hspans : ∀ b ∈ rest, spans b.access.id = b.access.span :=
        fun b hb => h.spans b (List.mem_map_of_mem (hreferred.suffix.subset hb))
      rw [Operation.raise_withBrackets base hspans, Operation.raise_of_referred hreferred, hname,
        Spine.raise, Option.map_some, filterMap_pair_map_some, ← hreferred.conserved,
        Operation.raiseBrackets_append]

theorem Spine.faithful_whole (op : Option Operation) : (Spine.whole op).Faithful spans where
  name site name symbol hhead := by cases op <;> simp [Spine.whole] at hhead
  spans b hb := by cases hb

theorem Spine.raise_whole (op : Operation) :
    (Spine.whole (some op)).raise spans = some (op.raise spans) := rfl

/-- The spine of an expression can be raised, and stands for what is left of
the expression. -/
theorem raise_spine (hnames : m.KeepsNames) {e : Expr}
    (hspans : ∀ n ∈ e.preorder, spans n.id = n.span) :
    (e.spine m).value.Faithful spans ∧
      (e.fails m = false → (e.spine m).value.raise spans = some (e.prune m)) := by
  induction e using Expr.induction with
  | step e ih =>
      have ih (c : Expr) (hc : c ∈ e.children) :=
        ih c hc fun n hn => hspans n (Expr.preorder_subset_of_mem_children hc hn)
      have hraises : ∀ c ∈ e.children, c.Raises m spans := by
        intro c hc op hop
        obtain ⟨hfaithful, hraise⟩ := ih c hc
        have hclosed := hfaithful.raise_closes (closes_of_close hop)
        exact Option.some.inj (hclosed.symm.trans (hraise (not_fails_of_lower hop)))
      by_cases hplain : e.isPlain = true
      · rw [spine_plain hplain]
        refine ⟨Spine.faithful_whole _, ?_⟩
        intro hkept
        obtain ⟨op, hop⟩ := lower_of_not_fails hkept
        rw [hop, Spine.raise_whole, raises_plain hplain hraises op hop]
      · cases e with
        | reference o name =>
            rw [spine_reference]
            refine ⟨⟨?_, fun b hb => by cases hb⟩, ?_⟩
            · intro site name' symbol hhead
              obtain ⟨s, hs, heq⟩ := Option.map_eq_some_iff.1 hhead
              cases heq
              exact hnames _ _ _ hs
            · intro hkept
              cases hlookup : m.lookup name o.id with
              | none => simp [Expr.fails_reference, hlookup] at hkept
              | some s => rfl
        | element o base index =>
            rw [spine_element]
            obtain ⟨hfaithful, hraise⟩ := ih base (by simp [Expr.children])
            refine ⟨⟨hfaithful.name, ?_⟩, ?_⟩
            · intro b hb
              rcases List.mem_append.1 hb with hb | hb
              · exact hfaithful.spans b hb
              · obtain ⟨i, -, rfl⟩ := Option.map_eq_some_iff.1 (List.mem_singleton.1 hb).symm
                exact hspans (.element o base index) (by simp [Expr.preorder])
            · intro hkept
              rw [Expr.fails_element, Bool.or_eq_false_iff] at hkept
              obtain ⟨i, hi⟩ := lower_of_not_fails hkept.2
              have hindex : i.raise spans = index.prune m :=
                hraises index (by simp [Expr.children]) i hi
              have ho : spans o.id = o.span :=
                hspans (.element o base index) (by simp [Expr.preorder])
              obtain ⟨head, hhead, hbase⟩ := Option.map_eq_some_iff.1 (hraise hkept.1)
              rw [Spine.raise, hhead, Option.map_some, List.filterMap_append, hi,
                Operation.raiseBrackets_append, hbase, Expr.prune, ← hindex]
              simp [Operation.raiseBrackets, ExplicitIndex.pair, ho]
        | _ => exact absurd rfl hplain

/-- **To raise what an expression became is to prune it**, as long as symbols
have the names they are found under. -/
theorem raise_lower (hnames : m.KeepsNames) {e : Expr} {op : Operation}
    (hspans : ∀ n ∈ e.preorder, spans n.id = n.span) (h : (e.lower m).value = some op) :
    op.raise spans = e.prune m := by
  obtain ⟨hfaithful, hraise⟩ := raise_spine hnames hspans
  have hclosed := hfaithful.raise_closes (closes_of_close h)
  exact Option.some.inj (hclosed.symm.trans (hraise (not_fails_of_lower h)))

end

end InfraGraph
