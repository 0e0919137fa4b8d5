import Mathlib.Data.List.Perm.Subperm
import InfraGraph.Proofs.Graph.Reports

/-!
# Missing indices

A reference that says too little about which instance it means is reported, and
it is reported once, however many of its loops have no index.  So there is a
reference node for every such report, and none has two.

The operations of a graph that miss an index are among these nodes.  They need
not be all of them: a node is reported when its reference is made, and may be
left out later together with a sibling that becomes nothing.  But whatever is
left out was reported itself, so if no such report was made, all are there.

An `Audit` keeps account of this through the lowering of a unit.  Over a spine
it runs with the head outstanding, since the head is only referred to, and so
only reported, when the spine is closed.

## Main results

* `audit_lower` — reports and missing indices of an expression.
* `missingIndices_reported` — those of a unit.
-/

namespace InfraGraph

variable {m : SymbolModel}

/-! ## One reference -/

/-- Whether a loop of a reference has no index. -/
def Operation.missesIndex (op : Operation) : Bool :=
  op.context?.any (·.isUnresolved)

theorem missesIndex_eq (op : Operation) :
    op.missesIndex = (op.context?.bind (·.firstUnresolved?)).isSome := by
  rw [Operation.missesIndex]
  cases op.context? with
  | none => rfl
  | some c => exact (isSome_firstUnresolved? c).symm

/-- The report on a missing index that a reference node may give. -/
inductive ReportedAt (m : SymbolModel) : Expr → Diagnostic → Prop
  | intro {site : Origin} {name : String} {symbol : Symbol} {level : IndexLevel Operation} :
      m.lookup name site.id = some symbol →
      ReportedAt m (.reference site name)
        (reportMissingIndex site name symbol (m.loopsOf symbol) level)

/-! ## Operations that miss an index -/

/-- The nodes of a tree that miss an index. -/
def Operation.missing (op : Operation) : List Origin :=
  (op.preorder.filter Operation.missesIndex).map Operation.origin

/-- Whether the node itself misses an index. -/
def Operation.ownMissing (op : Operation) : List Origin :=
  if op.missesIndex then [op.origin] else []

theorem missing_eq (op : Operation) :
    op.missing = op.ownMissing ++ op.children.flatMap Operation.missing := by
  rw [Operation.missing, Operation.preorder_eq, List.filter_cons, Operation.ownMissing,
    List.filter_flatMap]
  split
  · rw [List.map_cons, List.map_flatMap]
    rfl
  · rw [List.map_flatMap]
    rfl

theorem ownMissing_of_context_none {op : Operation} (h : op.context? = none) :
    op.ownMissing = [] := by
  rw [Operation.ownMissing, Operation.missesIndex, h]
  rfl

theorem missing_withBrackets (op : Operation) (brackets : List Bracket) :
    (op.withBrackets brackets).missing =
      op.missing ++ brackets.flatMap fun b => b.index.missing := by
  induction brackets generalizing op with
  | nil => simp [Operation.withBrackets]
  | cons b brackets ih =>
      rw [Operation.withBrackets_cons, ih, missing_eq, ownMissing_of_context_none rfl]
      simp [Operation.children]

/-- The nodes of the parts of a spine that miss an index. -/
def Spine.missing (s : Spine) : List Origin :=
  (match s.head with
    | some (.operation op) => op.missing
    | _ => []) ++ s.brackets.flatMap fun b => b.toList.flatMap fun b => b.index.missing

/-- The reference node at the head of a spine, to which nothing refers yet. -/
def Spine.pending (s : Spine) : List Expr :=
  match s.head with
  | some (.symbol site name _) => [.reference site name]
  | _ => []

/-- What misses an index when a spine with a reference at its head is closed:
what did so in the brackets, and perhaps the reference. -/
theorem missing_of_refer {site : Origin} {name : String} {symbol : Symbol}
    {brackets rest : List Bracket} {op : Operation}
    (h : (refer m site name symbol brackets).value = some (op, rest)) :
    (op.withBrackets rest).missing =
      op.ownMissing ++ brackets.flatMap fun b => b.index.missing := by
  have hreferred := referred_of_refer h
  have hindices : op.children ++ rest.map (·.index) = brackets.map (·.index) := by
    have hconserved := congrArg (List.map Prod.snd) hreferred.conserved
    rw [hreferred.children_eq]
    simpa [ExplicitIndex.pair, Function.comp_def] using hconserved
  rw [missing_withBrackets, missing_eq, List.append_assoc]
  refine congrArg _ ?_
  have hflat := congrArg (List.flatMap Operation.missing) hindices
  simpa [List.flatMap_map] using hflat

/-! ## Keeping account -/

/-- The account of what misses an index and what was reported: `sites` are the
reference nodes that were reported, one for each report. -/
structure Audit (m : SymbolModel) (missing : List Origin) (reports : Diagnostics)
    (sites : List Expr) : Prop where
  reported : List.Forall₂ (ReportedAt m) sites
    (Diagnostics.withCode reports .missingLoopIndex)
  subperm : missing.Subperm (sites.map Expr.origin)
  perm : Diagnostics.KeepsAll reports → missing.Perm (sites.map Expr.origin)

namespace Audit

variable {missing missing' : List Origin} {reports reports' : Diagnostics}
  {sites sites' : List Expr}

theorem of_withCode_eq_nil (h : Diagnostics.withCode reports .missingLoopIndex = []) :
    Audit m [] reports [] where
  reported := by
    rw [h]
    exact .nil
  subperm := List.Subperm.refl _
  perm _ := List.Perm.refl _

theorem append (h : Audit m missing reports sites) (h' : Audit m missing' reports' sites') :
    Audit m (missing ++ missing') (reports ++ reports') (sites ++ sites') where
  reported := by
    rw [withCode_append]
    exact List.rel_append h.reported h'.reported
  subperm := by
    rw [List.map_append]
    exact h.subperm.append h'.subperm
  perm hkeeps := by
    rw [keepsAll_append] at hkeeps
    rw [List.map_append]
    exact (h.perm hkeeps.1).append (h'.perm hkeeps.2)

/-- What is left out misses nothing any more. -/
theorem leave_out (h : Audit m missing reports sites) (hreports : ¬Diagnostics.KeepsAll reports) :
    Audit m [] reports sites where
  reported := h.reported
  subperm := List.nil_subperm
  perm hkeeps := absurd hkeeps hreports

theorem of_perm (h : Audit m missing reports sites) (hperm : missing'.Perm missing) :
    Audit m missing' reports sites where
  reported := h.reported
  subperm := hperm.subperm.trans h.subperm
  perm hkeeps := hperm.trans (h.perm hkeeps)

theorem flatMap {α : Type} {l : List α} {nodes : α → List Expr} {missing : α → List Origin}
    {reports : α → Diagnostics}
    (h : ∀ a ∈ l, ∃ sites, sites.Subperm (nodes a) ∧ Audit m (missing a) (reports a) sites) :
    ∃ sites, sites.Subperm (l.flatMap nodes) ∧
      Audit m (l.flatMap missing) (l.flatMap reports) sites := by
  induction l with
  | nil => exact ⟨[], List.Subperm.refl _, of_withCode_eq_nil rfl⟩
  | cons a l ih =>
      obtain ⟨sites, hsites, haudit⟩ := h a List.mem_cons_self
      obtain ⟨sites', hsites', haudit'⟩ := ih fun b hb => h b (List.mem_cons_of_mem _ hb)
      exact ⟨sites ++ sites', hsites.append hsites', haudit.append haudit'⟩

end Audit

/-- A reference is on the account once if it misses an index. -/
theorem audit_refer {site : Origin} {name : String} {symbol : Symbol}
    {brackets rest : List Bracket} {op : Operation} (hlookup : m.lookup name site.id = some symbol)
    (h : (refer m site name symbol brackets).value = some (op, rest)) :
    ∃ sites, sites.Subperm [.reference site name] ∧
      Audit m op.ownMissing (refer m site name symbol brackets).reports sites := by
  have horigin := (referred_of_refer h).origin_eq
  rw [refer_reports h, Operation.ownMissing, missesIndex_eq, horigin]
  cases op.context?.bind (·.firstUnresolved?) with
  | none => exact ⟨[], List.nil_subperm, .of_withCode_eq_nil rfl⟩
  | some level =>
      have hcode : Diagnostics.withCode
          [reportMissingIndex site name symbol (m.loopsOf symbol) level] .missingLoopIndex =
            [reportMissingIndex site name symbol (m.loopsOf symbol) level] := by
        rw [Diagnostics.withCode, List.filter_singleton, code_reportMissingIndex]
        rfl
      refine ⟨[.reference site name], List.Subperm.refl _, ?_, List.Subperm.refl _,
        fun _ => List.Perm.refl _⟩
      rw [Option.toList_some, List.map_singleton, hcode]
      exact .cons (.intro hlookup) .nil

/-! ## Expressions -/

/-- What becomes nothing when it is closed reports no missing index then. -/
theorem withCode_close_of_none {s : Spine} (h : (s.close m).value = none) :
    Diagnostics.withCode (s.close m).reports .missingLoopIndex = [] := by
  obtain ⟨head, brackets⟩ := s
  cases hbrackets : allPresent brackets with
  | none => simp [Spine.close, hbrackets, Diagnostics.withCode]
  | some present =>
      obtain rfl := allPresent_eq_some_iff.1 hbrackets
      cases head with
      | none => simp [Spine.close, hbrackets, Diagnostics.withCode]
      | some head =>
          cases head with
          | operation op => simp [Spine.close, hbrackets, Diagnostics.withCode]
          | symbol site name symbol =>
              have hkind : symbol.kind = .output := by
                simpa [close_eq_none_iff, Head.isOutput] using h
              rw [close_symbol_reports, reports_refer_output hkind]
              rfl

theorem audit_lower_of_spine {e : Expr}
    (h : ∃ sites, ((e.spine m).value.pending ++ sites).Subperm e.preorder ∧
      Audit m (e.spine m).value.missing (e.spine m).reports sites) :
    ∃ sites, sites.Subperm e.preorder ∧
      Audit m ((e.lower m).value.toList.flatMap Operation.missing) (e.lower m).reports sites := by
  obtain ⟨sites, hsites, haudit⟩ := h
  cases hop : (e.lower m).value with
  | none =>
      have hclose := haudit.append (.of_withCode_eq_nil (withCode_close_of_none hop))
      have hkeeps : ¬Diagnostics.KeepsAll (e.lower m).reports := by
        intro hkeeps
        have hsome := isSome_lower_of_keepsAll hkeeps
        rw [hop] at hsome
        cases hsome
      rw [List.append_nil, List.append_nil] at hclose
      exact ⟨sites, (List.sublist_append_right _ _).subperm.trans hsites, hclose.leave_out hkeeps⟩
  | some op =>
      rw [lower_reports]
      have hcloses := closes_of_close hop
      have hsourced {site : Origin} {name : String} {symbol : Symbol}
          (hhead : (e.spine m).value.head = some (.symbol site name symbol)) :
          m.lookup name site.id = some symbol := (sourced_head hhead).2
      generalize (e.spine m).value = spine at hsites haudit hcloses hsourced
      cases hcloses with
      | @operation base brackets =>
          have hpresent : allPresent (brackets.map some) = some brackets :=
            allPresent_eq_some_iff.2 rfl
          have hreports : (Spine.close m ⟨some (.operation base), brackets.map some⟩).reports =
              [] := by simp [Spine.close, hpresent]
          have hmissing : Spine.missing ⟨some (.operation base), brackets.map some⟩ =
              (base.withBrackets brackets).missing := by
            simp [Spine.missing, missing_withBrackets, List.flatMap_map]
          rw [hreports, List.append_nil, Option.toList_some, List.flatMap_singleton, ← hmissing]
          exact ⟨sites, hsites, haudit⟩
      | @symbol site name symbol brackets base rest hrefer =>
          obtain ⟨own, hown, haudit'⟩ := audit_refer (hsourced rfl) hrefer
          have hmissing : Spine.missing ⟨some (.symbol site name symbol), brackets.map some⟩ =
              brackets.flatMap fun b => b.index.missing := by
            simp [Spine.missing, List.flatMap_map]
          rw [close_symbol_reports, Option.toList_some, List.flatMap_singleton,
            missing_of_refer hrefer]
          rw [hmissing] at haudit
          refine ⟨sites ++ own, ?_, (haudit.append haudit').of_perm List.perm_append_comm⟩
          exact List.perm_append_comm.subperm.trans
            (((List.subperm_append_right sites).2 hown).trans hsites)

theorem audit_spine (e : Expr) :
    ∃ sites, ((e.spine m).value.pending ++ sites).Subperm e.preorder ∧
      Audit m (e.spine m).value.missing (e.spine m).reports sites := by
  induction e using Expr.induction with
  | step e ih =>
      by_cases hplain : e.isPlain = true
      · obtain ⟨sites, hsites, haudit⟩ :=
          Audit.flatMap fun c hc => audit_lower_of_spine (ih c hc)
        have hnodes : sites.Subperm e.preorder := by
          rw [Expr.preorder_eq]
          exact hsites.trans (List.sublist_cons_self _ _).subperm
        rw [← spine_plain_reports hplain] at haudit
        rw [spine_plain hplain]
        cases hop : (e.lower m).value with
        | none =>
            refine ⟨sites, hnodes, haudit.leave_out fun hkeeps => ?_⟩
            have hhead := (spine_of_keepsAll hkeeps).1
            rw [spine_plain hplain, hop] at hhead
            exact hhead rfl
        | some op =>
            obtain ⟨-, -, hcontext, hchildren⟩ := lower_plain hplain hop
            have hmissing : (Spine.whole (some op)).missing = e.children.flatMap fun c =>
                (c.lower m).value.toList.flatMap Operation.missing := by
              have hwhole : (Spine.whole (some op)).missing = op.missing := by
                simp [Spine.whole, Spine.missing]
              rw [hwhole, missing_eq, ownMissing_of_context_none hcontext, hchildren,
                List.filterMap_eq_flatMap_toList, List.flatMap_assoc]
              rfl
            rw [hmissing]
            exact ⟨sites, hnodes, haudit⟩
      · cases e with
        | reference o name =>
            rw [spine_reference, spine_reference_reports]
            cases m.lookup name o.id with
            | none => exact ⟨[], List.nil_subperm, .of_withCode_eq_nil rfl⟩
            | some symbol => exact ⟨[], List.Subperm.refl _, .of_withCode_eq_nil rfl⟩
        | element o base index =>
            obtain ⟨sites, hsites, haudit⟩ := ih base List.mem_cons_self
            obtain ⟨sites', hsites', haudit'⟩ := audit_lower_of_spine
              (ih index (List.mem_cons_of_mem _ List.mem_cons_self))
            have hmissing : ((Expr.element o base index).spine m).value.missing =
                (base.spine m).value.missing ++
                  (index.lower m).value.toList.flatMap Operation.missing := by
              rw [spine_element]
              cases (index.lower m).value <;> simp [Spine.missing]
            rw [hmissing, spine_element_reports]
            refine ⟨sites ++ sites', ?_, haudit.append haudit'⟩
            have hpreorder : (Expr.element o base index).preorder =
                .element o base index :: (base.preorder ++ index.preorder) := rfl
            have happend := hsites.append hsites'
            rw [List.append_assoc] at happend
            rw [hpreorder]
            exact happend.trans (List.sublist_cons_self _ _).subperm
        | _ => exact absurd rfl hplain

/-- **The account of an expression.** -/
theorem audit_lower (e : Expr) :
    ∃ sites, sites.Subperm e.preorder ∧
      Audit m ((e.lower m).value.toList.flatMap Operation.missing) (e.lower m).reports sites :=
  audit_lower_of_spine (audit_spine e)

/-! ## Units -/

theorem subperm_map {α β : Type} (f : α → β) {l l' : List α} (h : l.Subperm l') :
    (l.map f).Subperm (l'.map f) := by
  obtain ⟨common, hperm, hsub⟩ := h
  exact ⟨common.map f, hperm.map f, hsub.map f⟩

/-- Reports on missing indices point to their reference nodes. -/
theorem map_position_of_reported {sites : List Expr} {reports : Diagnostics}
    (h : List.Forall₂ (ReportedAt m) sites reports) :
    reports.map Diagnostic.position? = sites.map fun n => some n.span := by
  induction h with
  | nil => rfl
  | cons hd _ ih =>
      cases hd
      rw [List.map_cons, List.map_cons, ih, position_reportMissingIndex]
      rfl

theorem isError_reportMissingIndex (site : Origin) (name : String) (symbol : Symbol)
    (target : List LoopDescriptor) (level : IndexLevel Operation) :
    (reportMissingIndex site name symbol target level).isError = true := by
  unfold reportMissingIndex
  dsimp only
  split <;> rfl

/-- Reports on missing indices are errors. -/
theorem isError_of_reported {sites : List Expr} {reports : Diagnostics}
    (h : List.Forall₂ (ReportedAt m) sites reports) : ∀ d ∈ reports, d.isError = true := by
  induction h with
  | nil => simp
  | cons hd _ ih =>
      cases hd
      exact List.forall_mem_cons.2 ⟨isError_reportMissingIndex .., ih⟩

/-- Without errors nothing misses an index. -/
theorem Audit.missing_eq_nil {missing : List Origin} {reports : Diagnostics} {sites : List Expr}
    (h : Audit m missing reports sites) (herrors : Diagnostics.hasErrors reports = false) :
    missing = [] := by
  have hreported := h.reported
  have hnone : Diagnostics.withCode reports .missingLoopIndex = [] := by
    refine List.eq_nil_iff_forall_not_mem.2 fun d hd => ?_
    exact List.any_eq_false.1 herrors d (List.mem_of_mem_filter hd)
      (isError_of_reported hreported d hd)
  rw [hnone, List.forall₂_nil_right_iff] at hreported
  have hsubperm := h.subperm
  rw [hreported] at hsubperm
  exact List.subperm_nil.1 hsubperm

theorem mapM_of_isSome {α β : Type} {f : α → Option β} {l : List α} (h : ∀ a ∈ l, (f a).isSome) :
    ∃ bs, l.mapM f = some bs ∧ bs.length = l.length := by
  induction l with
  | nil => exact ⟨[], rfl, rfl⟩
  | cons a l ih =>
      obtain ⟨ha, hl⟩ := List.forall_mem_cons.1 h
      obtain ⟨b, hb⟩ := Option.isSome_iff_exists.1 ha
      obtain ⟨bs, hbs, hlength⟩ := ih hl
      refine ⟨b :: bs, ?_, congrArg (· + 1) hlength⟩
      rw [List.mapM_cons, hb, hbs]
      rfl

/-- A context in which every loop has an index has a substitution for every
loop. -/
theorem replacement_of_not_isUnresolved {c : ReferenceContext} (h : ¬c.isUnresolved = true) :
    ∃ substitutions, c.replacement? = some substitutions ∧
      substitutions.length = c.levels.length := by
  refine mapM_of_isSome fun level hlevel => ?_
  cases houtcome : level.outcome with
  | implicit => rfl
  | explicit => rfl
  | unresolved =>
      refine absurd ((isUnresolved_iff c).2 ⟨level, hlevel, ?_⟩) h
      rw [houtcome]
      rfl

namespace BoundProgram

variable {p : BoundProgram}

/-- **The account of a unit.** -/
theorem audit_operations (h : p.reusedIds = []) :
    ∃ sites, sites.Subperm p.expressions ∧
      Audit p.bind.model
        (((p.lower p.bind.model).operations.filter Operation.missesIndex).map Operation.origin)
        (p.lower p.bind.model).diagnostics sites := by
  have hmissing : ((p.lower p.bind.model).operations.filter Operation.missesIndex).map
      Operation.origin = p.allDeclarations.flatMap fun d =>
        (lowerValue p.bind.model d.value).value.toList.flatMap Operation.missing := by
    rw [OperationGraph.operations, Operation.drain_eq, roots_lower h, List.filter_flatMap,
      List.map_flatMap, List.filterMap_eq_flatMap_toList, List.flatMap_assoc]
    rfl
  rw [hmissing, diagnostics_lower h]
  refine Audit.flatMap fun d _ => ?_
  rw [Declaration.valueNodes]
  cases d.value with
  | none => exact ⟨[], List.nil_subperm, .of_withCode_eq_nil rfl⟩
  | some value => exact audit_lower value

/-- A context has one level for every loop of its symbol. -/
theorem targets_of_context {op : Operation} (hop : op ∈ (p.lower p.bind.model).operations)
    {symbol : Symbol} {context : ReferenceContext} (hsymbol : op.symbol? = some symbol)
    (hcontext : op.context? = some context) :
    context.levels.map (·.target) = symbol.loops.map (·.id) := by
  obtain ⟨symbol', _, brackets, rest, hsymbol', -, -, hcorrelate⟩ :=
    correlated_of_context hop hcontext
  obtain rfl := Option.some.inj (hsymbol.symm.trans hsymbol')
  exact (indexes_of_correlate hcorrelate).targets

/-- **Missing indices are reported exactly.**  Every operation that misses an
index is reported where it stands, and if nothing was left out, nothing else is
reported so.  Each of these reports has a reference node of its own.  Without
errors, every context has a substitution for every loop of its symbol. -/
theorem missingIndices_reported (h : p.reusedIds = []) :
    let g := p.lower p.bind.model
    let missing := (g.operations.filter Operation.missesIndex).map fun op => some op.span
    let reports := g.diagnostics.withCode .missingLoopIndex
    missing.Subperm (reports.map Diagnostic.position?) ∧
    (g.diagnostics.withCode .unknownSymbol = [] → g.diagnostics.withCode .outputReference = [] →
      missing.Perm (reports.map Diagnostic.position?)) ∧
    (∃ sites : List Expr, sites.Subperm p.expressions ∧ (sites.map Expr.id).Nodup ∧
      List.Forall₂ (ReportedAt p.bind.model) sites reports) ∧
    (g.diagnostics.hasErrors = false → ∀ op ∈ g.operations, ∀ symbol context,
      op.symbol? = some symbol → op.context? = some context →
        context.levels.map (·.target) = symbol.loops.map (·.id) ∧
        ∃ substitutions, context.replacement? = some substitutions ∧
          substitutions.length = symbol.loops.length) := by
  intro g missing reports
  obtain ⟨sites, hsites, haudit⟩ := audit_operations h
  have hspans : ((g.operations.filter Operation.missesIndex).map Operation.origin).map
      (fun o => some o.span) = missing := by
    rw [List.map_map]
    rfl
  have hpositions : (sites.map Expr.origin).map (fun o => some o.span) =
      reports.map Diagnostic.position? := by
    rw [map_position_of_reported haudit.reported, List.map_map]
    rfl
  rw [← hspans, ← hpositions]
  refine ⟨subperm_map _ haudit.subperm,
    fun hunknown houtput => (haudit.perm ⟨hunknown, houtput⟩).map _,
    ⟨sites, hsites, ?_, haudit.reported⟩, ?_⟩
  · obtain ⟨ids, hperm, hsub⟩ := subperm_map Expr.id hsites
    exact hperm.nodup_iff.1 (hsub.nodup (nodup_expressionIds h))
  · intro herrors op hop symbol context hsymbol hcontext
    have htargets := targets_of_context hop hsymbol hcontext
    have hmisses := List.filter_eq_nil_iff.1 (List.map_eq_nil_iff.1 (haudit.missing_eq_nil herrors))
      op hop
    rw [Operation.missesIndex, hcontext, Option.any_some] at hmisses
    obtain ⟨substitutions, hreplacement, hlength⟩ := replacement_of_not_isUnresolved hmisses
    have hlevels : context.levels.length = symbol.loops.length := by
      simpa using congrArg List.length htargets
    exact ⟨htargets, substitutions, hreplacement, hlength.trans hlevels⟩

/-- Of the unit with nested loops, one reference misses an index.  The unit with
an index behind every reference to its looped resource has no errors. -/
theorem missingIndices_reported_of_nested :
    (let p := (Scenario.nested.run 0).1.program
      let g := p.lower p.bind.model
      p.reusedIds = [] ∧ (g.diagnostics.withCode .missingLoopIndex).length = 1 ∧
        ((g.operations.filter Operation.missesIndex).map fun op => some op.span).Perm
          ((g.diagnostics.withCode .missingLoopIndex).map Diagnostic.position?)) ∧
    (let p := (Scenario.small.run 0).1.program
      let g := p.lower p.bind.model
      p.reusedIds = [] ∧ g.diagnostics.hasErrors = false ∧
        ∃ op ∈ g.operations, ∃ context substitutions, op.context? = some context ∧
          context.replacement? = some substitutions ∧ substitutions.length = 1) := by
  have hnested : (Scenario.nested.run 0).1.program.reusedIds = [] := by decide
  have hsmall : (Scenario.small.run 0).1.program.reusedIds = [] := by decide
  have herrors : ((Scenario.small.run 0).1.program.lower
      (Scenario.small.run 0).1.program.bind.model).diagnostics.hasErrors = false := by decide
  refine ⟨⟨hnested, by decide, (missingIndices_reported hnested).2.1 (by decide) (by decide)⟩,
    hsmall, herrors, ?_⟩
  have hlength : (((Scenario.small.run 0).1.program.lower
      (Scenario.small.run 0).1.program.bind.model).roots.flatMap Operation.preorder).length = 7 :=
    by decide
  obtain ⟨op, hop, symbol, context, hsymbol, hcontext, hloops⟩ :
      ∃ op ∈ ((Scenario.small.run 0).1.program.lower
        (Scenario.small.run 0).1.program.bind.model).operations, ∃ symbol context,
          op.symbol? = some symbol ∧ op.context? = some context ∧ symbol.loops.length = 1 := by
    rw [OperationGraph.operations, Operation.drain_eq]
    exact ⟨_, List.getElem_mem (hlength ▸ by decide : 5 < _), _, _, rfl, rfl, rfl⟩
  obtain ⟨-, substitutions, hreplacement, hsubstitutions⟩ :=
    (missingIndices_reported hsmall).2.2.2 herrors op hop symbol context hsymbol hcontext
  exact ⟨op, hop, context, substitutions, hcontext, hreplacement, hsubstitutions.trans hloops⟩

end BoundProgram

end InfraGraph
