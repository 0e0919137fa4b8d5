import InfraGraph.Proofs.Graph.Brackets

/-!
# Where the references of a graph come from

Every reference among the operations of an expression was made from a
reference node of the expression: its name was looked up at that node, and
`refer` made the operation from what was found and from some brackets.  What
`refer` reported on the way is among the reports of the expression.

Which brackets these are is left open here, so that this is a statement about
the nodes and the reports alone.  `Traced` says more.

## Main results

* `sourced_lower` — every reference of an expression has a source in it.
* `refer_reports` — what a reference reports.
* `reported_of_refer` — a reference without a full index is reported where it
  stands.
-/

namespace InfraGraph

variable {m : SymbolModel}

/-- Where a reference comes from: a reference node among some nodes, and a run
of `refer` whose reports are among some reports. -/
def Sourced (m : SymbolModel) (nodes : List Expr) (reports : Diagnostics) (op : Operation) :
    Prop :=
  ∀ symbol, op.symbol? = some symbol → ∃ name brackets rest,
    Expr.reference op.origin name ∈ nodes ∧ m.lookup name op.id = some symbol ∧
      (refer m op.origin name symbol brackets).value = some (op, rest) ∧
      (refer m op.origin name symbol brackets).reports ⊆ reports

theorem Sourced.mono {nodes nodes' : List Expr} {reports reports' : Diagnostics} {op : Operation}
    (h : Sourced m nodes reports op) (hnodes : nodes ⊆ nodes') (hreports : reports ⊆ reports') :
    Sourced m nodes' reports' op := by
  intro symbol hsymbol
  obtain ⟨name, brackets, rest, hnode, hlookup, hrefer, hsub⟩ := h symbol hsymbol
  exact ⟨name, brackets, rest, hnodes hnode, hlookup, hrefer, fun d hd => hreports (hsub hd)⟩

/-- The head of a spine was looked up at a reference node of the expression. -/
theorem sourced_head {e : Expr} {site : Origin} {name : String} {symbol : Symbol}
    (h : (e.spine m).value.head = some (.symbol site name symbol)) :
    Expr.reference site name ∈ e.preorder ∧ m.lookup name site.id = some symbol := by
  obtain ⟨hlookup, inner, -, hmem⟩ := (traced_spine e).symbol site name symbol h
  exact ⟨Expr.node_mem_preorder (hmem []), hlookup⟩

/-- **Every reference has a source** in the expression it was lowered from. -/
theorem sourced_lower {e : Expr} {op : Operation} (h : (e.lower m).value = some op) :
    ∀ x ∈ op.preorder, Sourced m e.preorder (e.lower m).reports x := by
  intro x hx symbol hsymbol
  cases traced_lower h x hx with
  | node _ _ _ hnone =>
      rw [hnone] at hsymbol
      cases hsymbol
  | @reference r s brackets rest hr hlookup hlowered hrefer _ =>
      have hreferred := referred_of_refer hrefer
      have hid : x.id = r.site.id := congrArg Origin.id hreferred.origin_eq
      obtain rfl := Option.some.inj (hreferred.symbol_eq.symm.trans hsymbol)
      have hreports : r.reports m = (refer m r.site r.name s brackets).reports := by
        rw [BracketedReference.reports, hlookup]
        dsimp only
        rw [hlowered]
      rw [hreferred.origin_eq, hid]
      refine ⟨r.name, brackets, rest, Expr.node_mem_preorder hr, hlookup, hrefer, ?_⟩
      rw [← hreports]
      exact fun d hd => (perm_reports e).mem_iff.2 (List.mem_flatMap.2 ⟨r, hr, hd⟩)

/-! ## Reports on missing indices -/

theorem isUnresolved_iff (c : ReferenceContext) :
    c.isUnresolved = true ↔ ∃ level ∈ c.levels, level.outcome.kind = .unresolved := by
  rw [IndexContext.isUnresolved, beq_iff_eq, IndexContext.kind]
  by_cases h : (c.levels.map fun level => level.outcome.kind).contains .unresolved = true
  · rw [if_pos h]
    simpa [eq_comm] using h
  · rw [if_neg h]
    have hnone : ¬∃ level ∈ c.levels, level.outcome.kind = .unresolved := by
      simpa [eq_comm] using h
    split <;> simp [hnone]

theorem isSome_firstUnresolved? (c : ReferenceContext) :
    c.firstUnresolved?.isSome = c.isUnresolved := by
  rw [Bool.eq_iff_iff, isUnresolved_iff, IndexContext.firstUnresolved?, List.find?_isSome]
  simp

theorem position_reportMissingIndex (site : Origin) (name : String) (symbol : Symbol)
    (target : List LoopDescriptor) (level : IndexLevel Operation) :
    (reportMissingIndex site name symbol target level).position? = some site.span := by
  unfold reportMissingIndex
  dsimp only
  split <;> rfl

theorem code_reportMissingIndex (site : Origin) (name : String) (symbol : Symbol)
    (target : List LoopDescriptor) (level : IndexLevel Operation) :
    (reportMissingIndex site name symbol target level).code = some .missingLoopIndex := by
  unfold reportMissingIndex
  dsimp only
  split <;> rfl

/-- A reference reports the first of its loops without an index, and nothing
else. -/
theorem refer_reports {site : Origin} {name : String} {symbol : Symbol}
    {brackets rest : List Bracket} {op : Operation}
    (h : (refer m site name symbol brackets).value = some (op, rest)) :
    (refer m site name symbol brackets).reports =
      (op.context?.bind (·.firstUnresolved?)).toList.map
        (reportMissingIndex site name symbol (m.loopsOf symbol)) := by
  have hindexed (referent : Referent) :
      (referIndexed m site name symbol referent brackets).reports =
        ((correlate m.sameLoop (m.loopsOf symbol) (m.enclosingLoops site.id) brackets).1.bind
          (·.firstUnresolved?)).toList.map
            (reportMissingIndex site name symbol (m.loopsOf symbol)) := by
    unfold referIndexed
    dsimp only
    split
    case h_1 level hlevel => rw [hlevel]; rfl
    case h_2 hlevel => rw [hlevel]; rfl
  unfold refer at h ⊢
  split at h
  case h_1 => simp at h
  case h_2 =>
    obtain ⟨rfl, rfl⟩ := Prod.mk.inj (Option.some.inj h)
    rfl
  case h_3 =>
    obtain ⟨rfl, rfl⟩ := Prod.mk.inj (Option.some.inj h)
    rfl
  all_goals
    rw [referIndexed_value] at h
    obtain ⟨rfl, rfl⟩ := Prod.mk.inj (Option.some.inj h)
    exact hindexed _

/-- A reference without a full index is reported where it stands. -/
theorem reported_of_refer {site : Origin} {name : String} {symbol : Symbol}
    {brackets rest : List Bracket} {op : Operation} {c : ReferenceContext}
    (h : (refer m site name symbol brackets).value = some (op, rest))
    (hcontext : op.context? = some c) (hc : c.isUnresolved = true) :
    ∃ d ∈ (refer m site name symbol brackets).reports,
      d.code = some .missingLoopIndex ∧ d.position? = some site.span := by
  rw [← isSome_firstUnresolved?] at hc
  obtain ⟨level, hlevel⟩ := Option.isSome_iff_exists.1 hc
  refine ⟨reportMissingIndex site name symbol (m.loopsOf symbol) level, ?_,
    code_reportMissingIndex _ _ _ _ _, position_reportMissingIndex _ _ _ _ _⟩
  rw [refer_reports h, hcontext, Option.bind_some, hlevel]
  exact List.mem_singleton.2 rfl

end InfraGraph
