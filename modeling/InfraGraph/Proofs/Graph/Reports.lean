import InfraGraph.Proofs.Graph.Totality

/-!
# What is reported

The reports of an expression are those of its parts, and what is left out was
reported: where nothing was reported that leaves something out, everything is
there.  The reports of a unit are those of the values of its declarations, one
after the other, and up to order those of its references.

## Main results

* `isSome_lower_of_keepsAll` — an expression without such reports becomes an
  operation.
* `diagnostics_lower`, `perm_diagnostics` — the reports of a unit.
-/

namespace InfraGraph

/-! ## Reports with a code -/

theorem withCode_append (r r' : Diagnostics) (code : ErrorCode) :
    Diagnostics.withCode (r ++ r') code =
      Diagnostics.withCode r code ++ Diagnostics.withCode r' code :=
  List.filter_append ..

/-- Whether nothing is reported on account of which something is left out. -/
def Diagnostics.KeepsAll (r : Diagnostics) : Prop :=
  Diagnostics.withCode r .unknownSymbol = [] ∧ Diagnostics.withCode r .outputReference = []

theorem keepsAll_append {r r' : Diagnostics} :
    Diagnostics.KeepsAll (r ++ r') ↔ Diagnostics.KeepsAll r ∧ Diagnostics.KeepsAll r' := by
  simp only [Diagnostics.KeepsAll, withCode_append, List.append_eq_nil_iff]
  exact and_and_and_comm

theorem keepsAll_flatMap {α : Type} {l : List α} {reports : α → Diagnostics} :
    Diagnostics.KeepsAll (l.flatMap reports) ↔ ∀ a ∈ l, Diagnostics.KeepsAll (reports a) := by
  induction l with
  | nil => exact iff_of_true ⟨rfl, rfl⟩ (by simp)
  | cons a l ih => rw [List.flatMap_cons, keepsAll_append, ih, List.forall_mem_cons]

/-! ## Expressions -/

variable {m : SymbolModel}

theorem reports_refer_output {site : Origin} {name : String} {symbol : Symbol}
    {brackets : List Bracket} (h : symbol.kind = .output) :
    (refer m site name symbol brackets).reports = [reportOutput site symbol] := by
  rw [refer, h]
  rfl

/-- A spine whose parts are all there becomes an operation, unless its head is
an output. -/
theorem isSome_close_of_keepsAll {s : Spine} (hhead : s.head ≠ none) (hbrackets : none ∉ s.brackets)
    (hreports : Diagnostics.KeepsAll (s.close m).reports) : (s.close m).value.isSome := by
  rw [← Option.ne_none_iff_isSome, ne_eq, close_eq_none_iff, or_iff_left hbrackets]
  intro houtput
  obtain ⟨head, brackets⟩ := s
  obtain ⟨present, hpresent⟩ := Option.ne_none_iff_exists'.1 (mt allPresent_eq_none_iff.1 hbrackets)
  obtain rfl := allPresent_eq_some_iff.1 hpresent
  match head, hhead with
  | some (.operation op), _ => cases houtput
  | some (.symbol site name symbol), _ =>
      have hkind : symbol.kind = .output := eq_of_beq houtput
      rw [close_symbol_reports, reports_refer_output hkind] at hreports
      cases hreports.2

theorem isSome_lower_of_spine {e : Expr}
    (h : Diagnostics.KeepsAll (e.spine m).reports →
      (e.spine m).value.head ≠ none ∧ none ∉ (e.spine m).value.brackets)
    (hreports : Diagnostics.KeepsAll (e.lower m).reports) : (e.lower m).value.isSome := by
  rw [lower_reports, keepsAll_append] at hreports
  obtain ⟨hhead, hbrackets⟩ := h hreports.1
  exact isSome_close_of_keepsAll hhead hbrackets hreports.2

/-- All parts of a spine are there if nothing was reported that leaves one
out. -/
theorem spine_of_keepsAll {e : Expr} (h : Diagnostics.KeepsAll (e.spine m).reports) :
    (e.spine m).value.head ≠ none ∧ none ∉ (e.spine m).value.brackets := by
  induction e using Expr.induction with
  | step e ih =>
      by_cases hplain : e.isPlain = true
      · rw [spine_plain_reports hplain, keepsAll_flatMap] at h
        have hsome : (e.lower m).value ≠ none := by
          rw [ne_eq, lower_plain_eq_none_iff hplain]
          rintro ⟨-, c, hc, hnone⟩
          have hpresent := isSome_lower_of_spine (ih c hc) (h c hc)
          rw [hnone] at hpresent
          cases hpresent
        obtain ⟨op, hop⟩ := Option.ne_none_iff_exists'.1 hsome
        rw [spine_plain hplain, hop]
        exact ⟨Option.some_ne_none _, List.not_mem_nil⟩
      · cases e with
        | reference o name =>
            rw [spine_reference]
            refine ⟨?_, List.not_mem_nil⟩
            intro hnone
            rw [spine_reference_reports, Option.map_eq_none_iff.1 hnone] at h
            cases h.1
        | element o base index =>
            rw [spine_element_reports, keepsAll_append] at h
            obtain ⟨hhead, hbrackets⟩ := ih base List.mem_cons_self h.1
            have hindex := isSome_lower_of_spine
              (ih index (List.mem_cons_of_mem _ List.mem_cons_self)) h.2
            rw [spine_element]
            refine ⟨hhead, ?_⟩
            obtain ⟨op, hop⟩ := Option.isSome_iff_exists.1 hindex
            simp [hop, hbrackets]
        | _ => exact absurd rfl hplain

/-- **What is left out was reported**: an expression becomes an operation if
nothing was reported on account of which something is left out. -/
theorem isSome_lower_of_keepsAll {e : Expr} (h : Diagnostics.KeepsAll (e.lower m).reports) :
    (e.lower m).value.isSome :=
  isSome_lower_of_spine spine_of_keepsAll h

/-! ## Units -/

theorem Declaration.reports_lower {d : Declaration}
    (h : ∀ d' ∈ d.flatten, (m.declaredSymbol d'.id).isSome) :
    (d.lower m).reports = d.flatten.flatMap fun d' => (lowerValue m d'.value).reports := by
  induction d using Declaration.induction with
  | step d ih =>
      obtain ⟨s, hs⟩ := Option.isSome_iff_exists.1 (h d d.mem_flatten_self)
      rw [lower_reports_of_some hs, lowerAll_reports, flatten_eq, List.flatMap_cons,
        List.flatMap_assoc]
      refine congrArg _ (List.flatMap_congr fun c hc => ih c hc fun d' hd' => ?_)
      exact h d' (flatten_subset_of_mem_children hc hd')

namespace BoundProgram

variable {p : BoundProgram} (h : p.reusedIds = [])

include h

/-- **The reports of a unit** are those of the values of its declarations. -/
theorem diagnostics_lower : (p.lower p.bind.model).diagnostics =
    p.allDeclarations.flatMap fun d => (lowerValue p.bind.model d.value).reports := by
  have hall : (p.lower p.bind.model).diagnostics =
      (Declaration.lowerAll p.bind.model p.declarations).reports := rfl
  rw [hall, Declaration.lowerAll_reports, allDeclarations, List.flatMap_assoc]
  refine List.flatMap_congr fun root hroot => Declaration.reports_lower fun d hd => ?_
  exact isSome_declaredSymbol h (flatten_subset_allDeclarations hroot hd)

/-- **What a unit reports** is what its references report. -/
theorem perm_diagnostics : (p.lower p.bind.model).diagnostics.Perm
    (p.bracketedReferences.flatMap (BracketedReference.reports p.bind.model)) := by
  rw [diagnostics_lower h, bracketedReferences, List.flatMap_assoc]
  refine List.Perm.flatMap_left _ fun d _ => ?_
  cases d.value with
  | none => exact List.Perm.refl _
  | some value => exact perm_reports value

/-- Its operations are what these values became. -/
theorem roots_lower : (p.lower p.bind.model).roots =
    p.allDeclarations.filterMap fun d => (lowerValue p.bind.model d.value).value := by
  have hlowers := p.forall₂_lowersTo (m := p.bind.model)
  rw [boundDeclarations_eq h] at hlowers
  rw [OperationGraph.roots]
  generalize (p.lower p.bind.model).allDeclarations = os,
    p.allDeclarations = ds at hlowers ⊢
  induction hlowers with
  | nil => rfl
  | cons hd _ ih => rw [List.filterMap_cons, List.filterMap_cons, hd.value, ih]

end BoundProgram

end InfraGraph
