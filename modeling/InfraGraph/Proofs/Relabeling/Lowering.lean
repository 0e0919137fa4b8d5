import InfraGraph.Proofs.Graph.Congruence
import InfraGraph.Proofs.Relabeling.Basic

/-!
# Lowering with other labels

Lowering hands labels on and looks at none of them, except through the symbol
model.  So a relabeled tree becomes the relabeled operations and reports, if
the two models give relabeled answers.  That is asked for only where lowering
asks the models: at the reference nodes of the tree, about the loops around the
node and those of the symbol found there, and at its declarations.

## Main results

* `correlate_relabel` — correlating relabeled loops.
* `refer_relabel` — references.
* `lower_relabel` — expressions.
* `Declaration.lower_relabel` — declarations.
-/

namespace InfraGraph

/-! ## Correlation -/

section

variable (r : LoopDescriptor → LoopDescriptor) (same : LoopDescriptor → LoopDescriptor → Bool)

theorem siteFrom_map (t : LoopDescriptor) (site : List LoopDescriptor) :
    siteFrom same (r t) (site.map r) = (siteFrom (fun l t => same (r l) (r t)) t site).map r := by
  rw [siteFrom, siteFrom, List.dropWhile_map]
  rfl

theorem matchedLength_map (target site : List LoopDescriptor) :
    matchedLength same (target.map r) (site.map r) =
      matchedLength (fun l t => same (r l) (r t)) target site := by
  induction target generalizing site with
  | nil => rfl
  | cons t target ih =>
      rw [List.map_cons, matchedLength_cons, matchedLength_cons, siteFrom_map]
      cases siteFrom (fun l t => same (r l) (r t)) t site with
      | nil => rfl
      | cons s rest => exact congrArg (· + 1) (ih rest)

theorem firstMatches_map (target site : List LoopDescriptor) :
    firstMatches same (target.map r) (site.map r) =
      (firstMatches (fun l t => same (r l) (r t)) target site).map (List.map r) := by
  induction target generalizing site with
  | nil => rfl
  | cons t target ih =>
      rw [List.map_cons, firstMatches_cons, firstMatches_cons, siteFrom_map]
      cases siteFrom (fun l t => same (r l) (r t)) t site with
      | nil => rfl
      | cons s rest =>
          show (firstMatches same (target.map r) (rest.map r)).map (r s :: ·) = _
          rw [ih, Option.map_map, Option.map_map]
          rfl

theorem implicitScopes_map (target site : List LoopDescriptor) :
    implicitScopes same (target.map r) (site.map r) =
      (implicitScopes (fun l t => same (r l) (r t)) target site).map r := by
  rw [implicitScopes, implicitScopes, matchedLength_map, ← List.map_take, ← List.map_reverse,
    ← List.map_reverse, firstMatches_map, List.map_reverse]
  cases firstMatches (fun l t => same (r l) (r t)) _ site.reverse <;> rfl

end

section

variable {α β : Type} (ρ : Relabeling) (f : α → β)

theorem assignLevels_relabel (target scopes : List LoopDescriptor)
    (brackets : List (ExplicitIndex α)) :
    assignLevels (target.map (LoopDescriptor.relabel ρ)) (scopes.map (LoopDescriptor.relabel ρ))
        (brackets.map (ExplicitIndex.relabel ρ f)) =
      Prod.map (List.map (IndexLevel.relabel ρ f)) (List.map (ExplicitIndex.relabel ρ f))
        (assignLevels target scopes brackets) := by
  induction target generalizing scopes brackets with
  | nil => rfl
  | cons t target ih =>
      cases scopes with
      | cons s scopes =>
          rw [List.map_cons, List.map_cons, assignLevels, assignLevels, ih]
          rfl
      | nil =>
          cases brackets with
          | nil =>
              have ih := ih [] []
              simp only [List.map_nil] at ih
              simp only [List.map_cons, List.map_nil, assignLevels, ih]
              rfl
          | cons b brackets =>
              have ih := ih [] brackets
              simp only [List.map_nil] at ih
              simp only [List.map_cons, List.map_nil, assignLevels, ih]
              rfl

/-- Correlating relabeled loops gives the relabeled context, if the same loops
are the same. -/
theorem correlate_relabel {same same' : LoopDescriptor → LoopDescriptor → Bool}
    {target site : List LoopDescriptor}
    (h : ∀ t ∈ target, ∀ l ∈ site, same' (l.relabel ρ) (t.relabel ρ) = same l t)
    (brackets : List (ExplicitIndex α)) :
    correlate same' (target.map (LoopDescriptor.relabel ρ)) (site.map (LoopDescriptor.relabel ρ))
        (brackets.map (ExplicitIndex.relabel ρ f)) =
      Prod.map (Option.map (IndexContext.relabel ρ f)) (List.map (ExplicitIndex.relabel ρ f))
        (correlate same target site brackets) := by
  rw [← correlate_congr h]
  cases target with
  | nil => rfl
  | cons t target =>
      have hscopes : scopesFor same' ((t :: target).map (LoopDescriptor.relabel ρ))
          (site.map (LoopDescriptor.relabel ρ)) (brackets.map (ExplicitIndex.relabel ρ f)) =
          (scopesFor (fun l t => same' (l.relabel ρ) (t.relabel ρ)) (t :: target) site
            brackets).map (LoopDescriptor.relabel ρ) := by
        rw [scopesFor, scopesFor, List.length_map, List.length_map, implicitScopes_map]
        split <;> rfl
      have hne : t :: target ≠ [] := List.cons_ne_nil _ _
      have hne' : (t :: target).map (LoopDescriptor.relabel ρ) ≠ [] := List.cons_ne_nil _ _
      rw [correlate_of_ne_nil hne, correlate_of_ne_nil hne', hscopes, assignLevels_relabel]
      rfl

end

/-! ## Results with reports -/

namespace Lowered

variable {α β γ δ : Type} (ρ : Relabeling)

/-- A result with new labels, its value changed by `f`. -/
def relabel (f : α → β) (x : Lowered α) : Lowered β :=
  ⟨f x.value, x.reports.map (Diagnostic.relabel ρ), x.resolved.map ρ.symbol⟩

variable {ρ}

/-- Steps may be relabeled one after the other. -/
theorem bind_relabel {f : α → β} {g : γ → δ} {x : Lowered α} {k : α → Lowered γ}
    {k' : β → Lowered δ} (h : k' (f x.value) = (k x.value).relabel ρ g) :
    x.relabel ρ f >>= k' = (x >>= k).relabel ρ g := by
  show Lowered.bind (x.relabel ρ f) k' = (Lowered.bind x k).relabel ρ g
  have hvalue : (x.relabel ρ f).value = f x.value := rfl
  rw [Lowered.bind, hvalue, h]
  simp only [relabel, Lowered.bind, List.map_append]

end Lowered

theorem allPresent_map {α β : Type} (f : α → β) (items : List (Option α)) :
    allPresent (items.map (Option.map f)) = (allPresent items).map (List.map f) := by
  induction items with
  | nil => rfl
  | cons item items ih =>
      cases item with
      | none => rfl
      | some a =>
          rw [List.map_cons, Option.map_some, allPresent, ih, allPresent, Option.map_map,
            Option.map_map]
          rfl

/-! ## References -/

/-- A model gives relabeled answers about a name at a node. -/
structure SymbolModel.RelabelsAt (ρ : Relabeling) (m m' : SymbolModel) (name : String)
    (node : SyntaxId) : Prop where
  lookup : m'.lookup name (ρ.node node) = (m.lookup name node).map (Symbol.relabel ρ)
  enclosingLoops : m'.enclosingLoops (ρ.node node) =
    (m.enclosingLoops node).map (LoopDescriptor.relabel ρ)
  loopsOf : ∀ s, m.lookup name node = some s →
    m'.loopsOf (s.relabel ρ) = (m.loopsOf s).map (LoopDescriptor.relabel ρ)
  sameLoop : ∀ s, m.lookup name node = some s → ∀ t ∈ m.loopsOf s,
    ∀ l ∈ m.enclosingLoops node, m'.sameLoop (l.relabel ρ) (t.relabel ρ) = m.sameLoop l t
  /-- The loops of a symbol keep different ids. -/
  loop_injective : ∀ s, m.lookup name node = some s → ∀ t ∈ m.loopsOf s, ∀ t' ∈ m.loopsOf s,
    ρ.loopId t.id = ρ.loopId t'.id → t.id = t'.id

section

variable {ρ : Relabeling}

theorem IndexOutcome.kind_relabel {α β : Type} (f : α → β) (outcome : IndexOutcome α) :
    (outcome.relabel ρ f).kind = outcome.kind := by
  cases outcome <;> rfl

theorem firstUnresolved?_relabel (c : ReferenceContext) :
    (c.relabel ρ (Operation.relabel ρ)).firstUnresolved? =
      c.firstUnresolved?.map (IndexLevel.relabel ρ (Operation.relabel ρ)) := by
  rw [IndexContext.firstUnresolved?, IndexContext.relabel, List.find?_map,
    IndexContext.firstUnresolved?]
  refine congrArg (Option.map _) (congrArg (List.find? · c.levels) (funext fun level => ?_))
  show ((level.outcome.relabel ρ _).kind == _) = _
  rw [IndexOutcome.kind_relabel]

theorem name_relabel (k : SymbolKind) : (k.relabel ρ).name = k.name := by
  cases k <;> rfl

/-- The loop that a report points to is the relabeled one. -/
theorem find?_relabel {target : List LoopDescriptor} {t : LoopDescriptor} (ht : t ∈ target)
    (hinjective : ∀ t ∈ target, ∀ t' ∈ target, ρ.loopId t.id = ρ.loopId t'.id → t.id = t'.id) :
    (target.map (LoopDescriptor.relabel ρ)).find? (·.id == ρ.loopId t.id) =
      (target.find? (·.id == t.id)).map (LoopDescriptor.relabel ρ) := by
  rw [List.find?_map, ← List.head?_filter, ← List.head?_filter]
  refine congrArg (Option.map _) (congrArg List.head? (List.filter_congr fun t' ht' => ?_))
  rw [Bool.eq_iff_iff, Function.comp, beq_iff_eq, beq_iff_eq]
  constructor
  · exact hinjective t' ht' t ht
  · intro hid
    rw [← hid]
    rfl

theorem reportMissingIndex_relabel {target : List LoopDescriptor} {level : IndexLevel Operation}
    (hlevel : ∃ t ∈ target, t.id = level.target)
    (hinjective : ∀ t ∈ target, ∀ t' ∈ target, ρ.loopId t.id = ρ.loopId t'.id → t.id = t'.id)
    (site : Origin) (name : String) (symbol : Symbol) :
    reportMissingIndex (ρ.origin site) name (symbol.relabel ρ)
        (target.map (LoopDescriptor.relabel ρ)) (level.relabel ρ (Operation.relabel ρ)) =
      (reportMissingIndex site name symbol target level).relabel ρ := by
  obtain ⟨t, ht, htarget⟩ := hlevel
  have hfind := find?_relabel ht hinjective
  have hid : (level.relabel ρ (Operation.relabel ρ)).target = ρ.loopId t.id := by
    rw [htarget]
    rfl
  have hname : (symbol.relabel ρ).kind.name = symbol.kind.name := name_relabel symbol.kind
  unfold reportMissingIndex
  rw [hid, hfind, htarget, hname]
  cases target.find? (·.id == level.target) <;> rfl

/-- A reference that may be indexed, in one piece. -/
theorem referIndexed_eq (m : SymbolModel) (site : Origin) (name : String) (symbol : Symbol)
    (referent : Referent) (brackets : List Bracket) :
    referIndexed m site name symbol referent brackets =
      ⟨some (.access site symbol referent
          (correlate m.sameLoop (m.loopsOf symbol) (m.enclosingLoops site.id) brackets).1,
        (correlate m.sameLoop (m.loopsOf symbol) (m.enclosingLoops site.id) brackets).2),
      ((correlate m.sameLoop (m.loopsOf symbol) (m.enclosingLoops site.id) brackets).1.bind
        (·.firstUnresolved?)).toList.map
          (reportMissingIndex site name symbol (m.loopsOf symbol)), []⟩ := by
  unfold referIndexed
  dsimp only
  split
  case h_1 level hlevel =>
    rw [hlevel]
    rfl
  case h_2 hlevel =>
    rw [hlevel]
    rfl

variable {m m' : SymbolModel} {site : Origin} {name : String} {symbol : Symbol}

/-- An operation and the brackets it did not use, with new labels. -/
def Reference.relabel (ρ : Relabeling) (r : Reference) : Reference :=
  (r.1.relabel ρ, r.2.map (ExplicitIndex.relabel ρ (Operation.relabel ρ)))

section

variable (h : m.RelabelsAt ρ m' name site.id) (hlookup : m.lookup name site.id = some symbol)

include h hlookup

theorem referIndexed_relabel (referent : Referent) (brackets : List Bracket) :
    referIndexed m' (ρ.origin site) name (symbol.relabel ρ) referent
        (brackets.map (ExplicitIndex.relabel ρ (Operation.relabel ρ))) =
      (referIndexed m site name symbol referent brackets).relabel ρ
        (Option.map (Reference.relabel ρ)) := by
  have hloops : m'.enclosingLoops (ρ.origin site).id =
      (m.enclosingLoops site.id).map (LoopDescriptor.relabel ρ) := h.enclosingLoops
  have hcorrelate := correlate_relabel ρ (Operation.relabel ρ) (h.sameLoop symbol hlookup) brackets
  rw [referIndexed_eq, referIndexed_eq, h.loopsOf symbol hlookup, hloops, hcorrelate]
  cases hcontext : correlate m.sameLoop (m.loopsOf symbol) (m.enclosingLoops site.id) brackets with
  | mk context rest =>
      cases context with
      | none =>
          rw [Lowered.relabel]
          dsimp only [Prod.map, Option.map_none, Option.map_some, Reference.relabel]
          rw [Operation.relabel_access]
          rfl
      | some context =>
          have htargets := (indexes_of_correlate hcontext).targets
          rw [Lowered.relabel]
          dsimp only [Prod.map, Option.map_some, Option.bind_some, Reference.relabel]
          rw [Operation.relabel_access, firstUnresolved?_relabel]
          cases hlevel : context.firstUnresolved? with
          | none => rfl
          | some level =>
              have hmem := List.mem_map_of_mem (f := (·.target))
                (List.mem_of_find?_eq_some hlevel)
              rw [htargets] at hmem
              simp only [Option.map_some, Option.toList_some, List.map_cons, List.map_nil]
              rw [reportMissingIndex_relabel (List.mem_map.1 hmem)
                (h.loop_injective symbol hlookup)]

/-- **References** with relabeled brackets behind them. -/
theorem refer_relabel (brackets : List Bracket) :
    refer m' (ρ.origin site) name (symbol.relabel ρ)
        (brackets.map (ExplicitIndex.relabel ρ (Operation.relabel ρ))) =
      (refer m site name symbol brackets).relabel ρ (Option.map (Reference.relabel ρ)) := by
  have hkind : (symbol.relabel ρ).kind = symbol.kind.relabel ρ := rfl
  rw [refer, refer, hkind]
  cases symbol.kind with
  | resource | module | «variable» => exact referIndexed_relabel h hlookup _ brackets
  | _ => rfl

end

/-! ## Spines -/

/-- A head with new labels. -/
def Head.relabel (ρ : Relabeling) : Head → Head
  | .symbol site name symbol => .symbol (ρ.origin site) name (symbol.relabel ρ)
  | .operation op => .operation (op.relabel ρ)

/-- A spine with new labels. -/
def Spine.relabel (ρ : Relabeling) (s : Spine) : Spine :=
  ⟨s.head.map (Head.relabel ρ),
    s.brackets.map (Option.map (ExplicitIndex.relabel ρ (Operation.relabel ρ)))⟩

theorem whole_relabel (op : Option Operation) :
    (Spine.whole op).relabel ρ = .whole (op.map (Operation.relabel ρ)) := by
  cases op <;> rfl

theorem append_relabel (head : Option Head) (brackets : List (Option Bracket))
    (b : Option Bracket) :
    (Spine.mk head (brackets ++ [b])).relabel ρ =
      ⟨head.map (Head.relabel ρ),
        brackets.map (Option.map (ExplicitIndex.relabel ρ (Operation.relabel ρ))) ++
          [b.map (ExplicitIndex.relabel ρ (Operation.relabel ρ))]⟩ := by
  rw [Spine.relabel, List.map_append]
  rfl

theorem withBrackets_relabel (op : Operation) (brackets : List Bracket) :
    (op.withBrackets brackets).relabel ρ =
      (op.relabel ρ).withBrackets
        (brackets.map (ExplicitIndex.relabel ρ (Operation.relabel ρ))) := by
  induction brackets generalizing op with
  | nil => rfl
  | cons b brackets ih =>
      rw [Operation.withBrackets_cons, ih, List.map_cons, Operation.withBrackets_cons]
      rfl

/-- Closing a relabeled spine, if the models agree about its head. -/
theorem close_relabel (s : Spine)
    (h : ∀ site name symbol, s.head = some (.symbol site name symbol) →
      m.RelabelsAt ρ m' name site.id ∧ m.lookup name site.id = some symbol) :
    (s.relabel ρ).close m' = (s.close m).relabel ρ (Option.map (Operation.relabel ρ)) := by
  obtain ⟨head, brackets⟩ := s
  rw [Spine.close, Spine.close, Spine.relabel, allPresent_map]
  cases allPresent brackets with
  | none => rfl
  | some present =>
      cases head with
      | none => rfl
      | some head =>
          cases head with
          | operation op =>
              show Pure.pure (some ((op.relabel ρ).withBrackets _)) = _
              rw [← withBrackets_relabel]
              rfl
          | symbol site name symbol =>
              obtain ⟨h, hlookup⟩ := h site name symbol rfl
              show refer m' (ρ.origin site) name (symbol.relabel ρ) _ >>= _ = _
              rw [refer_relabel h hlookup present]
              refine Lowered.bind_relabel ?_
              cases (refer m site name symbol present).value with
              | none => rfl
              | some reference =>
                  obtain ⟨op, rest⟩ := reference
                  show Pure.pure (some ((op.relabel ρ).withBrackets _)) = _
                  rw [← withBrackets_relabel]
                  rfl

/-! ## Expressions -/

/-- The models give relabeled answers at the references of some nodes. -/
def SymbolModel.Relabels (ρ : Relabeling) (m m' : SymbolModel) (nodes : List Expr) : Prop :=
  ∀ o name, .reference o name ∈ nodes → m.RelabelsAt ρ m' name o.id

theorem SymbolModel.Relabels.mono {nodes nodes' : List Expr} (h : m.Relabels ρ m' nodes')
    (hsub : nodes ⊆ nodes') : m.Relabels ρ m' nodes :=
  fun o name hmem => h o name (hsub hmem)

theorem lower_relabel_of_spine {e : Expr} (h : m.Relabels ρ m' e.preorder)
    (hspine : (e.relabel ρ).spine m' = (e.spine m).relabel ρ (Spine.relabel ρ)) :
    (e.relabel ρ).lower m' = (e.lower m).relabel ρ (Option.map (Operation.relabel ρ)) := by
  rw [Expr.lower, Expr.lower, hspine]
  refine Lowered.bind_relabel (close_relabel _ fun site name symbol hhead => ?_)
  obtain ⟨hmem, hlookup⟩ := sourced_head hhead
  exact ⟨h site name hmem, hlookup⟩

theorem lowerAll_relabel {es : List Expr}
    (hes : ∀ e ∈ es, (e.relabel ρ).lower m' =
      (e.lower m).relabel ρ (Option.map (Operation.relabel ρ))) :
    Expr.lowerAll m' (es.map (Expr.relabel ρ)) =
      (Expr.lowerAll m es).relabel ρ (List.map (Option.map (Operation.relabel ρ))) := by
  induction es with
  | nil => rfl
  | cons e es ih =>
      obtain ⟨he, hes⟩ := List.forall_mem_cons.1 hes
      rw [Expr.lower, Expr.lower] at he
      rw [List.map_cons, Expr.lowerAll, Expr.lowerAll, he, ih hes]
      exact Lowered.bind_relabel (Lowered.bind_relabel rfl)

/-- The values of an object with new labels. -/
def relabelValues (ρ : Relabeling) (entries : List (String × Operation)) :
    List (String × Operation) :=
  entries.map fun entry => (entry.1, entry.2.relabel ρ)

theorem lowerEntries_relabel {entries : List (String × Expr)}
    (hes : ∀ e ∈ entries.map Prod.snd, (e.relabel ρ).lower m' =
      (e.lower m).relabel ρ (Option.map (Operation.relabel ρ))) :
    Expr.lowerEntries m' (entries.map fun entry => (entry.1, entry.2.relabel ρ)) =
      (Expr.lowerEntries m entries).relabel ρ (relabelValues ρ) := by
  induction entries with
  | nil => rfl
  | cons entry entries ih =>
      obtain ⟨key, e⟩ := entry
      obtain ⟨he, hes⟩ := List.forall_mem_cons.1 hes
      rw [Expr.lower, Expr.lower] at he
      rw [List.map_cons, Expr.lowerEntries, Expr.lowerEntries, he, ih hes]
      refine Lowered.bind_relabel (Lowered.bind_relabel ?_)
      cases (e.spine m >>= Spine.close m).value <;> rfl

/-- A node whose children became operations is the relabeled one. -/
theorem pure_whole_relabel {op op' : Option Operation}
    (h : op' = op.map (Operation.relabel ρ)) :
    (Pure.pure (Spine.whole op') : Lowered Spine) =
      (Pure.pure (Spine.whole op) : Lowered Spine).relabel ρ (Spine.relabel ρ) := by
  rw [h, ← whole_relabel]
  rfl

/-- The same of a node with any number of children. -/
theorem allPresent_relabel {node node' : List Operation → Operation}
    (h : ∀ ops, node' (ops.map (Operation.relabel ρ)) = (node ops).relabel ρ)
    (items : List (Option Operation)) :
    (allPresent (items.map (Option.map (Operation.relabel ρ)))).map node' =
      ((allPresent items).map node).map (Operation.relabel ρ) := by
  rw [allPresent_map, Option.map_map, Option.map_map]
  exact congrArg (Option.map · (allPresent items)) (funext h)

/-- A node with one child. -/
theorem one_relabel {node node' : Operation → Operation}
    (h : ∀ a, node' (a.relabel ρ) = (node a).relabel ρ) (x : Lowered (Option Operation)) :
    (do
      let a ← x.relabel ρ (Option.map (Operation.relabel ρ))
      return Spine.whole (a.map node')) =
    Lowered.relabel ρ (Spine.relabel ρ) do
      let a ← x
      return Spine.whole (a.map node) := by
  refine Lowered.bind_relabel (pure_whole_relabel ?_)
  rw [Option.map_map, Option.map_map]
  exact congrArg (Option.map · x.value) (funext h)

/-- A node with two children. -/
theorem two_relabel {node node' : Operation → Operation → Operation}
    (h : ∀ a b, node' (a.relabel ρ) (b.relabel ρ) = (node a b).relabel ρ)
    (x y : Lowered (Option Operation)) :
    (do
      let a ← x.relabel ρ (Option.map (Operation.relabel ρ))
      let b ← y.relabel ρ (Option.map (Operation.relabel ρ))
      return Spine.whole do return node' (← a) (← b)) =
    Lowered.relabel ρ (Spine.relabel ρ) do
      let a ← x
      let b ← y
      return Spine.whole do return node (← a) (← b) := by
  refine Lowered.bind_relabel (Lowered.bind_relabel (pure_whole_relabel ?_))
  cases x.value with
  | none => rfl
  | some a =>
      cases y.value with
      | none => rfl
      | some b => exact congrArg some (h a b)

theorem filterMap_relabel (items : List (Option Operation)) :
    (items.map (Option.map (Operation.relabel ρ))).filterMap (fun item => item) =
      (items.filterMap fun item => item).map (Operation.relabel ρ) := by
  rw [List.filterMap_map, List.map_filterMap]
  rfl

theorem spine_relabel {e : Expr} (h : m.Relabels ρ m' e.preorder) :
    (e.relabel ρ).spine m' = (e.spine m).relabel ρ (Spine.relabel ρ) := by
  induction e using Expr.induction with
  | step e ih =>
      have hsub {c : Expr} (hc : c ∈ e.children) : m.Relabels ρ m' c.preorder :=
        h.mono (Expr.preorder_subset_of_mem_children hc)
      have hspine (c : Expr) (hc : c ∈ e.children) := ih c hc (hsub hc)
      have hlower (c : Expr) (hc : c ∈ e.children) : (c.relabel ρ).lower m' =
          (c.lower m).relabel ρ (Option.map (Operation.relabel ρ)) :=
        lower_relabel_of_spine (hsub hc) (hspine c hc)
      cases e with
      | literal => rfl
      | reference o name =>
          have hmem : .reference o name ∈ (Expr.reference o name).preorder := List.mem_cons_self
          have hlookup : m'.lookup name (ρ.origin o).id =
              (m.lookup name o.id).map (Symbol.relabel ρ) := (h o name hmem).lookup
          show Expr.spine m' (.reference (ρ.origin o) name) = _
          rw [Expr.spine, Expr.spine, resolveName, resolveName, hlookup]
          cases m.lookup name o.id <;> rfl
      | interpolation o segments parts =>
          have hparts : Expr.lowerAll m' (parts.map (Expr.relabel ρ)) = _ :=
            lowerAll_relabel hlower
          rw [Expr.relabel_interpolation, Expr.spine, Expr.spine, hparts]
          exact Lowered.bind_relabel (pure_whole_relabel (allPresent_relabel
            (fun ops => (Operation.relabel_interpolation ρ o segments ops).symm) _))
      | call o name arguments =>
          have harguments : Expr.lowerAll m' (arguments.map (Expr.relabel ρ)) = _ :=
            lowerAll_relabel hlower
          rw [Expr.relabel_call, Expr.spine, Expr.spine, harguments]
          exact Lowered.bind_relabel (pure_whole_relabel (allPresent_relabel
            (fun ops => (Operation.relabel_call ρ o name ops).symm) _))
      | object o entries =>
          have hentries := lowerEntries_relabel hlower
          rw [Expr.relabel_object, Expr.spine, Expr.spine, hentries]
          exact Lowered.bind_relabel (pure_whole_relabel
            (congrArg some (Operation.relabel_object ρ o _).symm))
      | array o items =>
          have hitems : Expr.lowerAll m' (items.map (Expr.relabel ρ)) = _ :=
            lowerAll_relabel hlower
          rw [Expr.relabel_array, Expr.spine, Expr.spine, hitems]
          refine Lowered.bind_relabel (pure_whole_relabel (congrArg some ?_))
          rw [filterMap_relabel, Operation.relabel_array]
      | element o base index =>
          have hbase := hspine base List.mem_cons_self
          have hindex := hlower index (List.mem_cons_of_mem _ List.mem_cons_self)
          rw [Expr.lower, Expr.lower] at hindex
          show Expr.spine m' (.element (ρ.origin o) (base.relabel ρ) (index.relabel ρ)) = _
          rw [Expr.spine, Expr.spine, hbase, hindex]
          refine Lowered.bind_relabel (Lowered.bind_relabel ?_)
          show (Pure.pure (Spine.mk _ _) : Lowered Spine) = Pure.pure (Spine.relabel ρ ⟨_, _⟩)
          rw [append_relabel]
          cases (index.spine m >>= Spine.close m).value <;> rfl
      | property o base name =>
          have hbase := hlower base List.mem_cons_self
          rw [Expr.lower, Expr.lower] at hbase
          show Expr.spine m' (.property (ρ.origin o) (base.relabel ρ) name) = _
          rw [Expr.spine, Expr.spine, hbase]
          have hnode (op : Operation) : Operation.property (ρ.origin o) (op.relabel ρ) name =
              (Operation.property o op name).relabel ρ := rfl
          exact one_relabel hnode _
      | unary o operator operand =>
          have hoperand := hlower operand List.mem_cons_self
          rw [Expr.lower, Expr.lower] at hoperand
          show Expr.spine m' (.unary (ρ.origin o) operator (operand.relabel ρ)) = _
          rw [Expr.spine, Expr.spine, hoperand]
          have hnode (op : Operation) : Operation.unary (ρ.origin o) operator (op.relabel ρ) =
              (Operation.unary o operator op).relabel ρ := rfl
          exact one_relabel hnode _
      | guarded o condition body =>
          simp only [Expr.children, List.forall_mem_cons, Expr.lower] at hlower
          obtain ⟨hcondition, hbody, -⟩ := hlower
          show Expr.spine m' (.guarded (ρ.origin o) (condition.relabel ρ) (body.relabel ρ)) = _
          rw [Expr.spine, Expr.spine, hcondition, hbody]
          exact two_relabel (fun _ _ => rfl) _ _
      | binary o operator left right =>
          simp only [Expr.children, List.forall_mem_cons, Expr.lower] at hlower
          obtain ⟨hleft, hright, -⟩ := hlower
          show Expr.spine m' (.binary (ρ.origin o) operator (left.relabel ρ) (right.relabel ρ)) = _
          rw [Expr.spine, Expr.spine, hleft, hright]
          exact two_relabel (fun _ _ => rfl) _ _
      | loop o item index source body =>
          simp only [Expr.children, List.forall_mem_cons, Expr.lower] at hlower
          obtain ⟨hsource, hbody, -⟩ := hlower
          show Expr.spine m' (.loop (ρ.origin o) item index (source.relabel ρ)
            (body.relabel ρ)) = _
          rw [Expr.spine, Expr.spine, hsource, hbody]
          exact two_relabel (fun _ _ => rfl) _ _
      | ternary o condition ifTrue ifFalse =>
          simp only [Expr.children, List.forall_mem_cons, Expr.lower] at hlower
          obtain ⟨hcondition, hifTrue, hifFalse, -⟩ := hlower
          show Expr.spine m' (.ternary (ρ.origin o) (condition.relabel ρ) (ifTrue.relabel ρ)
            (ifFalse.relabel ρ)) = _
          rw [Expr.spine, Expr.spine, hcondition, hifTrue, hifFalse]
          refine Lowered.bind_relabel (Lowered.bind_relabel (Lowered.bind_relabel
            (pure_whole_relabel ?_)))
          cases (condition.spine m >>= Spine.close m).value <;>
            cases (ifTrue.spine m >>= Spine.close m).value <;>
            cases (ifFalse.spine m >>= Spine.close m).value <;> rfl

/-- **Expressions** with relabeled nodes become the relabeled operation and
reports. -/
theorem lower_relabel {e : Expr} (h : m.Relabels ρ m' e.preorder) :
    (e.relabel ρ).lower m' = (e.lower m).relabel ρ (Option.map (Operation.relabel ρ)) :=
  lower_relabel_of_spine h (spine_relabel h)

/-! ## Declarations -/

theorem Declaration.lowerValue_relabel {d : Declaration} (h : m.Relabels ρ m' d.valueNodes) :
    lowerValue m' (d.value.map (Expr.relabel ρ)) =
      (lowerValue m d.value).relabel ρ (Option.map (Operation.relabel ρ)) := by
  rw [valueNodes] at h
  cases hvalue : d.value with
  | none => rfl
  | some value =>
      rw [hvalue] at h
      exact InfraGraph.lower_relabel h

theorem Declaration.lowerAll_relabel_of_lower {ds : List Declaration}
    (h : ∀ d ∈ ds, (d.relabel ρ).lower m' =
      (d.lower m).relabel ρ (Option.map (DeclarationOperation.relabel ρ))) :
    lowerAll m' (ds.map (relabel ρ)) =
      (lowerAll m ds).relabel ρ (List.map (DeclarationOperation.relabel ρ)) := by
  induction ds with
  | nil => rfl
  | cons d ds ih =>
      obtain ⟨hd, hds⟩ := List.forall_mem_cons.1 h
      rw [List.map_cons, lowerAll, lowerAll, hd, ih hds]
      refine Lowered.bind_relabel (Lowered.bind_relabel ?_)
      cases (d.lower m).value <;> rfl

/-- **Declarations** with relabeled nodes become the relabeled operation and
reports. -/
theorem Declaration.lower_relabel {d : Declaration}
    (hdeclared : ∀ c ∈ d.flatten, m'.declaredSymbol (ρ.node c.id) =
      (m.declaredSymbol c.id).map (Symbol.relabel ρ))
    (h : ∀ c ∈ d.flatten, m.Relabels ρ m' c.valueNodes) :
    (d.relabel ρ).lower m' =
      (d.lower m).relabel ρ (Option.map (DeclarationOperation.relabel ρ)) := by
  induction d using Declaration.induction with
  | step d ih =>
      have hchildren := lowerAll_relabel_of_lower fun c hc =>
        ih c hc (fun x hx => hdeclared x (flatten_subset_of_mem_children hc hx))
          fun x hx => h x (flatten_subset_of_mem_children hc hx)
      have hvalue := d.lowerValue_relabel (h d d.mem_flatten_self)
      have hsymbol := hdeclared d d.mem_flatten_self
      obtain ⟨origin, name, kind, value, children⟩ := d
      have hsymbol : m'.declaredSymbol (ρ.origin origin).id =
          (m.declaredSymbol origin.id).map (Symbol.relabel ρ) := hsymbol
      rw [relabel_eq, lower, lower, hsymbol]
      cases m.declaredSymbol origin.id with
      | none => rfl
      | some symbol =>
          show (lowerValue m' (value.map _) >>= _) = (lowerValue m value >>= _).relabel ρ _
          rw [hvalue]
          refine Lowered.bind_relabel ?_
          show (lowerAll m' (children.map _) >>= _) = (lowerAll m children >>= _).relabel ρ _
          rw [hchildren]
          refine Lowered.bind_relabel ?_
          show Pure.pure (some (DeclarationOperation.mk _ _ _ _)) = _
          rw [← DeclarationOperation.relabelAll_eq]
          rfl

end

end InfraGraph
