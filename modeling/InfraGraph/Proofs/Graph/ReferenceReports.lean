import InfraGraph.Proofs.Graph.MissingIndices

/-!
# Reports on references

Lowering reports a name that means nothing where the reference is resolved,
that is before anything else of its spine is looked at.  So these reports stand
in the order of the references, whatever fails around them.

A reference to an output is reported only when its spine is closed.  A spine
with a bracket that became no operation is never closed, and then the output
behind it goes unreported.  Nor do these reports keep to the order of the
references, since the indices in the brackets are lowered first.

## Main results

* `unknownNames_reported` — the names that mean nothing, in order.
* `outputs_reported` — the references to outputs, unless a bracket behind one
  failed.
* `not_outputs_reported` — and then there is none.
-/

namespace InfraGraph

variable {m : SymbolModel}

/-! ## References and what is reported on them -/

namespace Expr

/-- Whether a node is a reference whose name means nothing. -/
def isUnknown (m : SymbolModel) : Expr → Bool
  | .reference o name => (m.lookup name o.id).isNone
  | _ => false

/-- Whether a node is a reference to an output. -/
def isOutput (m : SymbolModel) : Expr → Bool
  | .reference o name => (m.lookup name o.id).any (·.kind == .output)
  | _ => false

/-- The report on a reference whose name means nothing. -/
def unknownReport? (m : SymbolModel) : Expr → Option Diagnostic
  | .reference o name => if (m.lookup name o.id).isSome then none else some (reportUnknown o name)
  | _ => none

/-- The references of an expression, each with the indices in the brackets
behind it, innermost first.  Behind the expression stand `indices`. -/
def indexed (indices : List Expr) : Expr → List (Expr × List Expr)
  | .reference o name => [(.reference o name, indices)]
  | .element _ base index => base.indexed (index :: indices) ++ index.indexed []
  | e => e.children.attach.flatMap fun c => indexed [] c.1
termination_by e => sizeOf e
decreasing_by
  · simp only [element.sizeOf_spec]
    omega
  · simp only [element.sizeOf_spec]
    omega
  · exact sizeOf_lt_of_mem_children c.2

/-- The report on a reference to an output: there is none if an index behind it
becomes no operation. -/
def outputReport? (m : SymbolModel) (reference : Expr × List Expr) : Option Diagnostic :=
  match reference.1 with
  | .reference o name =>
    (m.lookup name o.id).bind fun s =>
      if s.kind == .output && !reference.2.any (fails m) then some (reportOutput o s) else none
  | _ => none

theorem indexed_plain {e : Expr} (hplain : e.isPlain = true) (indices : List Expr) :
    e.indexed indices = e.children.flatMap (indexed []) := by
  rw [indexed]
  · rw [List.flatMap_subtype (g := indexed []) fun _ _ => rfl, List.unattach_attach]
  · rintro o name rfl
    cases hplain
  · rintro o base index rfl
    cases hplain

theorem indexed_reference (o : Origin) (name : String) (indices : List Expr) :
    (Expr.reference o name).indexed indices = [(.reference o name, indices)] := by
  rw [indexed]

theorem indexed_element (o : Origin) (base index : Expr) (indices : List Expr) :
    (Expr.element o base index).indexed indices =
      base.indexed (index :: indices) ++ index.indexed [] := by
  rw [indexed]

/-- The indices behind a reference are those in its brackets. -/
theorem indexed_eq (e : Expr) (behind : List (ExplicitIndex Expr)) :
    e.indexed (behind.map (·.index)) =
      (e.bracketed behind).map fun r => (r.node, r.brackets.map (·.index)) := by
  induction e using Expr.induction generalizing behind with
  | step e ih =>
      by_cases hplain : e.isPlain = true
      · rw [indexed_plain hplain, bracketed_plain hplain, List.map_flatMap]
        exact List.flatMap_congr fun c hc => ih c hc []
      · cases e with
        | reference o name =>
            rw [indexed_reference, bracketed_reference]
            rfl
        | element o base index =>
            have hbase := ih base (by simp [children]) (⟨o, index⟩ :: behind)
            have hindex := ih index (by simp [children]) []
            rw [List.map_cons] at hbase
            rw [List.map_nil] at hindex
            rw [indexed_element, bracketed_element, List.map_append, hbase, hindex]
        | _ => exact absurd rfl hplain

/-- Every reference is listed once. -/
theorem map_fst_indexed (e : Expr) : (e.indexed []).map Prod.fst = e.references := by
  have hindexed := e.indexed_eq []
  rw [List.map_nil] at hindexed
  rw [hindexed, List.map_map]
  exact e.map_node_bracketed []

end Expr

/-! ## One reference -/

theorem withCode_flatMap {α : Type} (l : List α) (reports : α → Diagnostics) (code : ErrorCode) :
    Diagnostics.withCode (l.flatMap reports) code =
      l.flatMap fun a => Diagnostics.withCode (reports a) code :=
  List.filter_flatMap

/-- A reference reports a missing index, or that it refers to an output. -/
theorem reports_refer (site : Origin) (name : String) (symbol : Symbol)
    (brackets : List Bracket) :
    (∀ d ∈ (refer m site name symbol brackets).reports, d.code ≠ some .unknownSymbol) ∧
      Diagnostics.withCode (refer m site name symbol brackets).reports .outputReference =
        if symbol.kind == .output then [reportOutput site symbol] else [] := by
  by_cases hkind : symbol.kind = .output
  · rw [reports_refer_output hkind, hkind]
    refine ⟨?_, rfl⟩
    intro d hd hcode
    rw [List.mem_singleton.1 hd] at hcode
    exact absurd (Option.some.inj hcode) (by decide)
  · have hcode : ∀ d ∈ (refer m site name symbol brackets).reports,
        d.code = some .missingLoopIndex := by
      obtain ⟨⟨op, rest⟩, hrefer⟩ := Option.ne_none_iff_exists'.1 (mt refer_eq_none_iff.1 hkind)
      rw [refer_reports hrefer]
      intro d hd
      obtain ⟨level, -, rfl⟩ := List.mem_map.1 hd
      exact code_reportMissingIndex ..
    rw [beq_eq_false_iff_ne.2 hkind, if_neg Bool.false_ne_true, Diagnostics.withCode,
      List.filter_eq_nil_iff]
    constructor
    · intro d hd
      rw [hcode d hd]
      decide
    · intro d hd
      rw [hcode d hd]
      decide

/-! ## Names that mean nothing -/

/-- To close a spine never reports an unknown name. -/
theorem withCode_unknownSymbol_close (s : Spine) :
    Diagnostics.withCode (s.close m).reports .unknownSymbol = [] := by
  rw [close_reports, Spine.owing, Diagnostics.withCode, List.filter_eq_nil_iff]
  intro d hd
  rw [beq_iff_eq]
  split at hd
  · split at hd
    · cases hd
    · exact (reports_refer ..).1 d hd
  · cases hd

theorem withCode_unknownSymbol_lower (e : Expr) :
    Diagnostics.withCode (e.lower m).reports .unknownSymbol =
      Diagnostics.withCode (e.spine m).reports .unknownSymbol := by
  rw [lower_reports, withCode_append, withCode_unknownSymbol_close, List.append_nil]

/-- The names that mean nothing are reported as they are met. -/
theorem withCode_unknownSymbol_spine (e : Expr) :
    Diagnostics.withCode (e.spine m).reports .unknownSymbol =
      e.preorder.filterMap (Expr.unknownReport? m) := by
  induction e using Expr.induction with
  | step e ih =>
      have hlower (c : Expr) (hc : c ∈ e.children) :
          Diagnostics.withCode (c.lower m).reports .unknownSymbol =
            c.preorder.filterMap (Expr.unknownReport? m) :=
        (withCode_unknownSymbol_lower c).trans (ih c hc)
      by_cases hplain : e.isPlain = true
      · have hnone : e.unknownReport? m = none := by
          cases e <;> first | rfl | cases hplain
        rw [spine_plain_reports hplain, withCode_flatMap, Expr.preorder_eq,
          List.filterMap_cons_none hnone, List.filterMap_flatMap]
        exact List.flatMap_congr hlower
      · cases e with
        | reference o name =>
            rw [spine_reference_reports, Expr.preorder_eq, Expr.children, List.flatMap_nil,
              List.filterMap_cons, Expr.unknownReport?]
            split <;> rfl
        | element o base index =>
            have hpreorder : (Expr.element o base index).preorder =
                .element o base index :: (base.preorder ++ index.preorder) := rfl
            rw [spine_element_reports, withCode_append, ih base (by simp [Expr.children]),
              hlower index (by simp [Expr.children]), hpreorder,
              List.filterMap_cons_none (by rfl), List.filterMap_append]
        | _ => exact absurd rfl hplain

/-! ## References to outputs -/

theorem any_fails_eq (r : BracketedReference) :
    (r.brackets.map (·.index)).any (Expr.fails m) = (r.lowered m).isNone := by
  rw [Bool.eq_iff_iff, Option.isNone_iff_eq_none, BracketedReference.lowered,
    allPresent_eq_none_iff, List.any_map, List.any_eq_true, List.mem_map]
  refine exists_congr fun b => and_congr_right fun _ => ?_
  rw [ExplicitIndex.lower, Option.map_eq_none_iff, lower_eq_none_iff]
  rfl

/-- What is reported on a reference to an output. -/
theorem withCode_reports (r : BracketedReference) :
    Diagnostics.withCode (r.reports m) .outputReference =
      (Expr.outputReport? m (r.node, r.brackets.map (·.index))).toList := by
  have hreport : Expr.outputReport? m (r.node, r.brackets.map (·.index)) =
      (m.lookup r.name r.site.id).bind fun s =>
        if s.kind == .output && !(r.lowered m).isNone then some (reportOutput r.site s)
        else none := by
    rw [← any_fails_eq]
    rfl
  rw [hreport, BracketedReference.reports]
  cases m.lookup r.name r.site.id with
  | none => rfl
  | some s =>
      cases r.lowered m with
      | none =>
          rw [Option.bind_some, Option.isNone_none, Bool.not_true, Bool.and_false]
          rfl
      | some brackets =>
          rw [Option.bind_some, Option.isNone_some, Bool.not_false, Bool.and_true]
          dsimp only
          rw [(reports_refer r.site r.name s brackets).2]
          split <;> rfl

/-- The references to outputs are reported by the spine, or when it is
closed. -/
theorem perm_spine (e : Expr) :
    ((e.indexed []).filterMap (Expr.outputReport? m)).Perm
      (Diagnostics.withCode (e.spine m).reports .outputReference ++
        Diagnostics.withCode ((e.spine m).value.close m).reports .outputReference) := by
  have hindexed := e.indexed_eq []
  have hreports := perm_reports_spine (m := m) e []
  rw [List.map_nil] at hindexed
  rw [← close_reports] at hreports
  have houtputs := hreports.filter (·.code == some .outputReference)
  rw [List.filter_append, List.filter_flatMap] at houtputs
  rw [hindexed, List.filterMap_map, List.filterMap_eq_flatMap_toList]
  refine (List.Perm.of_eq (List.flatMap_congr fun r _ => ?_)).trans houtputs
  exact (withCode_reports r).symm

/-- Both together are what lowering reports. -/
theorem perm_lower_of_perm_spine {e : Expr}
    (h : ((e.indexed []).filterMap (Expr.outputReport? m)).Perm
      (Diagnostics.withCode (e.spine m).reports .outputReference ++
        Diagnostics.withCode ((e.spine m).value.close m).reports .outputReference)) :
    ((e.indexed []).filterMap (Expr.outputReport? m)).Perm
      (Diagnostics.withCode (e.lower m).reports .outputReference) := by
  rw [lower_reports, withCode_append]
  exact h

/-! ## Units -/

theorem map_filterMap_of_iff {α β γ : Type} {f : α → Option β} {g : β → γ} {test : α → Bool}
    {k : α → γ} (h : ∀ a, (f a).map g = if test a then some (k a) else none) (l : List α) :
    (l.filterMap f).map g = (l.filter test).map k := by
  induction l with
  | nil => rfl
  | cons a l ih =>
      have ha := h a
      cases htest : test a with
      | true =>
          rw [htest, if_pos rfl, Option.map_eq_some_iff] at ha
          obtain ⟨b, hb, hk⟩ := ha
          rw [List.filterMap_cons_some hb, List.filter_cons_of_pos htest, List.map_cons,
            List.map_cons, ih, hk]
      | false =>
          rw [htest, if_neg Bool.false_ne_true, Option.map_eq_none_iff] at ha
          rw [List.filterMap_cons_none ha,
            List.filter_cons_of_neg (by rw [htest]; exact Bool.false_ne_true), ih]

/-- A report on an unknown name points to the reference. -/
theorem position_unknownReport? (n : Expr) :
    (n.unknownReport? m).map Diagnostic.position? =
      if n.isUnknown m then some (some n.span) else none := by
  cases n with
  | reference o name =>
      rw [Expr.unknownReport?, Expr.isUnknown]
      cases m.lookup name o.id <;> rfl
  | _ => rfl

/-- So does a report on an output. -/
theorem position_outputReport? (reference : Expr × List Expr) :
    (Expr.outputReport? m reference).map Diagnostic.position? =
      if reference.1.isOutput m && !reference.2.any (Expr.fails m) then
        some (some reference.1.span)
      else none := by
  obtain ⟨n, indices⟩ := reference
  cases n with
  | reference o name =>
      rcases Option.eq_none_or_eq_some (m.lookup name o.id) with hlookup | ⟨s, hlookup⟩
      · simp only [Expr.outputReport?, Expr.isOutput, hlookup]
        rfl
      · simp only [Expr.outputReport?, Expr.isOutput, hlookup, Option.bind_some, Option.any_some]
        split <;> rfl
  | _ => rfl

namespace BoundProgram

/-- The references of a unit, each with the indices in the brackets behind
it. -/
def indexedReferences (p : BoundProgram) : List (Expr × List Expr) :=
  p.allDeclarations.flatMap fun d => (d.value.map (Expr.indexed [])).getD []

variable {p : BoundProgram}

theorem map_fst_indexedReferences (p : BoundProgram) :
    p.indexedReferences.map Prod.fst = p.expressions.filter (·.referenceName?.isSome) := by
  rw [indexedReferences, expressions, List.map_flatMap, List.filter_flatMap]
  refine List.flatMap_congr fun d _ => ?_
  rw [Declaration.valueNodes]
  cases d.value with
  | none => rfl
  | some value => exact value.map_fst_indexed

theorem filter_isOutput_expressions (p : BoundProgram) :
    p.expressions.filter (Expr.isOutput m) =
      (p.indexedReferences.filter (·.1.isOutput m)).map Prod.fst := by
  have hreference (n : Expr) (hn : n.isOutput m = true) : n.referenceName?.isSome = true := by
    cases n with
    | reference => rfl
    | _ => cases hn
  have hfilter : p.expressions.filter (Expr.isOutput m) =
      (p.expressions.filter (·.referenceName?.isSome)).filter (Expr.isOutput m) := by
    rw [List.filter_filter]
    refine List.filter_congr fun n _ => ?_
    cases hn : n.isOutput m with
    | true => rw [hreference n hn, Bool.and_self]
    | false => rw [Bool.false_and]
  rw [hfilter, ← map_fst_indexedReferences, List.filter_map]
  rfl

/-- Where no index behind an output fails, none is to be excepted. -/
theorem filter_isOutput_of_indices {references : List (Expr × List Expr)}
    (h : ∀ reference ∈ references, reference.1.isOutput m = true →
      ∀ index ∈ reference.2, index.fails m = false) :
    references.filter (fun r => r.1.isOutput m && !r.2.any (Expr.fails m)) =
      references.filter (·.1.isOutput m) := by
  refine List.filter_congr fun r hr => ?_
  cases houtput : r.1.isOutput m with
  | false => rw [Bool.false_and]
  | true =>
      have hany : r.2.any (Expr.fails m) = false := by
        rw [List.any_eq_false]
        intro index hindex
        rw [h r hr houtput index hindex]
        exact Bool.false_ne_true
      rw [hany]
      rfl

open Assembly in
/-- An output, and a variable that refers to it with an index. -/
def copiedOutput (index : Assembly Expr) : BoundProgram :=
  let unit : Assembly BoundProgram := do
    let one ← int 1
    let count ← Scenario.output "count" .int one
    let index ← index
    let all ← reference "count"
    let value ← element all index
    let copy ← Scenario.bindVariable "copy" value
    return .ofDeclarations [count, copy]
  (unit.run 0).1

open Assembly in
/-- `min(missing, absent)`. -/
def unknownIndex : Assembly Expr := do
  let missing ← reference "missing"
  let absent ← reference "absent"
  node (.call · "min" [missing, absent])

/-- **Names that mean nothing are reported in the order of the references**,
each once, and nothing else is reported so. -/
theorem unknownNames_reported (h : p.reusedIds = []) :
    let m := p.bind.model
    let reports := (p.lower m).diagnostics.withCode .unknownSymbol
    reports = p.expressions.filterMap (Expr.unknownReport? m) ∧
      reports.map Diagnostic.position? =
        (p.expressions.filter (Expr.isUnknown m)).map fun n => some n.span := by
  intro m reports
  have hreports : reports = p.expressions.filterMap (Expr.unknownReport? m) := by
    have hdiagnostics : reports =
        Diagnostics.withCode (p.lower p.bind.model).diagnostics .unknownSymbol := rfl
    rw [hdiagnostics, diagnostics_lower h, withCode_flatMap, expressions, List.filterMap_flatMap]
    refine List.flatMap_congr fun d _ => ?_
    rw [Declaration.valueNodes]
    cases d.value with
    | none => rfl
    | some value =>
        exact (withCode_unknownSymbol_lower value).trans (withCode_unknownSymbol_spine value)
  refine ⟨hreports, ?_⟩
  rw [hreports]
  exact map_filterMap_of_iff position_unknownReport? _

/-- Both names in an index are reported, although the call and the bracket
around them become nothing. -/
theorem unknownNames_reported_of_index :
    let p := copiedOutput unknownIndex
    let reports := (p.lower p.bind.model).diagnostics.withCode .unknownSymbol
    p.reusedIds = [] ∧ reports.length = 2 ∧ reports.map Diagnostic.position? =
      (p.expressions.filter (Expr.isUnknown p.bind.model)).map fun n => some n.span := by
  have h : (copiedOutput unknownIndex).reusedIds = [] := by decide
  exact ⟨h, by decide, (unknownNames_reported h).2⟩

/-- **References to outputs are reported**, each once, if every index in the
brackets behind it becomes an operation. -/
theorem outputs_reported (h : p.reusedIds = []) :
    let m := p.bind.model
    let reports := (p.lower m).diagnostics.withCode .outputReference
    let outputs := (p.expressions.filter (Expr.isOutput m)).map fun n => some n.span
    reports.Perm (p.indexedReferences.filterMap (Expr.outputReport? m)) ∧
      (reports.map Diagnostic.position?).Subperm outputs ∧
      ((∀ reference ∈ p.indexedReferences, reference.1.isOutput m = true →
          ∀ index ∈ reference.2, index.fails m = false) →
        (reports.map Diagnostic.position?).Perm outputs) := by
  intro m reports outputs
  have hreports : reports.Perm (p.indexedReferences.filterMap (Expr.outputReport? m)) := by
    have hdiagnostics : reports =
        Diagnostics.withCode (p.lower p.bind.model).diagnostics .outputReference := rfl
    rw [hdiagnostics, diagnostics_lower h, withCode_flatMap, indexedReferences,
      List.filterMap_flatMap]
    refine List.Perm.flatMap_left _ fun d _ => ?_
    cases d.value with
    | none => exact List.Perm.refl _
    | some value => exact (perm_lower_of_perm_spine (perm_spine value)).symm
  have hpositions := hreports.map Diagnostic.position?
  rw [map_filterMap_of_iff position_outputReport?] at hpositions
  have houtputs : outputs =
      (p.indexedReferences.filter (·.1.isOutput m)).map fun r => some r.1.span := by
    have hnodes : outputs = (p.expressions.filter (Expr.isOutput m)).map fun n => some n.span := rfl
    rw [hnodes, filter_isOutput_expressions, List.map_map]
    rfl
  rw [houtputs]
  refine ⟨hreports, hpositions.subperm.trans ?_, fun hindices => ?_⟩
  · refine (List.Sublist.map _ ?_).subperm
    exact List.monotone_filter_right _ fun r hr => (Bool.and_eq_true_iff.1 hr).1
  · rwa [filter_isOutput_of_indices hindices] at hpositions

/-- A reference to an output is reported with an index behind it. -/
theorem outputs_reported_of_int :
    let p := copiedOutput (Assembly.int 0)
    let reports := (p.lower p.bind.model).diagnostics.withCode .outputReference
    p.reusedIds = [] ∧ reports.length = 1 ∧ (reports.map Diagnostic.position?).Perm
      ((p.expressions.filter (Expr.isOutput p.bind.model)).map fun n => some n.span) := by
  have h : (copiedOutput (Assembly.int 0)).reusedIds = [] := by decide
  have hreferences : (copiedOutput (Assembly.int 0)).indexedReferences =
      [(.reference (.numbered 3) "count", [.literal (.numbered 2) (.int 0)])] := by
    show Expr.indexed [] (.literal _ _) ++
      (Expr.indexed [] (.element _ (.reference _ _) (.literal _ _)) ++ []) = _
    rw [Expr.indexed_element, Expr.indexed_reference, Expr.indexed_plain rfl,
      Expr.indexed_plain rfl]
    rfl
  refine ⟨h, by decide, (outputs_reported h).2.2 fun reference hreference _ index hindex => ?_⟩
  rw [hreferences, List.mem_singleton] at hreference
  obtain rfl := hreference
  obtain rfl := List.mem_singleton.1 hindex
  exact Expr.fails_plain rfl

/-- An unknown name in the bracket behind an output hides the reference to the
output. -/
theorem not_outputs_reported : ¬∀ p : BoundProgram, p.reusedIds = [] →
    (((p.lower p.bind.model).diagnostics.withCode .outputReference).map
      Diagnostic.position?).Perm
      ((p.expressions.filter (Expr.isOutput p.bind.model)).map fun n => some n.span) := by
  intro hall
  have hlength := (hall (copiedOutput (Assembly.reference "missing")) (by decide)).length_eq
  revert hlength
  decide

end BoundProgram

end InfraGraph
