import Mathlib.Data.List.Perm.Basic
import InfraGraph.Graph.Basic
import InfraGraph.Proofs.Graph.Lowering
import InfraGraph.Proofs.Tree.Nodes

/-!
# References with the brackets behind them

What becomes of a reference depends on the brackets behind it, and these are
nodes around the reference: `head[i][j]` is an access of an access of `head`.
`Expr.bracketed` lists the reference nodes of an expression, each with all
brackets behind it, so that a reference can be spoken of as a whole.

Both sides of lowering are then known reference by reference.  What an
expression reports is what its references report, up to order, since plain
nodes and brackets report nothing of their own.  And an operation of the graph
comes from a node that is no reference, or `refer` has made it from a reference
and all brackets behind it; then the brackets that were left over are still
around it.

The inductions run over spines, and leave open which brackets are behind an
expression.  The operation that a spine becomes depends on how many brackets
follow, so the operation of a base says nothing about the operation of the base
with one more bracket behind it.

## Main results

* `perm_reports` — the reports of an expression, reference by reference.
* `traced_lower` — the operations of an expression, node by node.
* `bracketedReferences` — the references of a unit.
-/

namespace InfraGraph

variable {m : SymbolModel}

/-! ## References -/

/-- A reference node with the brackets behind it, innermost first. -/
structure BracketedReference where
  site : Origin
  name : String
  brackets : List (ExplicitIndex Expr)

/-- A bracket whose index became an operation. -/
def ExplicitIndex.lower (m : SymbolModel) (b : ExplicitIndex Expr) : Option Bracket :=
  (b.index.lower m).value.map (⟨b.access, ·⟩)

namespace BracketedReference

/-- The reference node. -/
def node (r : BracketedReference) : Expr :=
  .reference r.site r.name

/-- The brackets of a reference, if all their indices became operations. -/
def lowered (m : SymbolModel) (r : BracketedReference) : Option (List Bracket) :=
  allPresent (r.brackets.map (ExplicitIndex.lower m))

/-- What is reported on a reference.  It is not looked at any further if an
index behind it became nothing. -/
def reports (m : SymbolModel) (r : BracketedReference) : Diagnostics :=
  match m.lookup r.name r.site.id with
  | none => [reportUnknown r.site r.name]
  | some symbol =>
    match r.lowered m with
    | none => []
    | some brackets => (refer m r.site r.name symbol brackets).reports

end BracketedReference

namespace Expr

/-- The references of an expression, with the brackets `behind` the expression
itself. -/
def bracketed (behind : List (ExplicitIndex Expr)) : Expr → List BracketedReference
  | .reference o name => [⟨o, name, behind⟩]
  | .element o base index => base.bracketed (⟨o, index⟩ :: behind) ++ index.bracketed []
  | e => e.children.attach.flatMap fun c => bracketed [] c.1
termination_by e => sizeOf e
decreasing_by
  · simp only [element.sizeOf_spec]
    omega
  · simp only [element.sizeOf_spec]
    omega
  · exact sizeOf_lt_of_mem_children c.2

theorem bracketed_plain {e : Expr} (hplain : e.isPlain = true)
    (behind : List (ExplicitIndex Expr)) :
    e.bracketed behind = e.children.flatMap (bracketed []) := by
  rw [bracketed]
  · rw [List.flatMap_subtype (g := bracketed []) fun _ _ => rfl, List.unattach_attach]
  · rintro o name rfl
    cases hplain
  · rintro o base index rfl
    cases hplain

theorem bracketed_reference (o : Origin) (name : String) (behind : List (ExplicitIndex Expr)) :
    (Expr.reference o name).bracketed behind = [⟨o, name, behind⟩] := by
  rw [bracketed]

theorem bracketed_element (o : Origin) (base index : Expr)
    (behind : List (ExplicitIndex Expr)) :
    (Expr.element o base index).bracketed behind =
      base.bracketed (⟨o, index⟩ :: behind) ++ index.bracketed [] := by
  rw [bracketed]

theorem references_eq (e : Expr) :
    e.references =
      (if e.referenceName?.isSome then [e] else []) ++ e.children.flatMap references := by
  rw [references, preorder_eq, List.filter_cons, List.filter_flatMap]
  split <;> rfl

/-- Only references and nodes with brackets are not plain. -/
theorem referenceName?_of_isPlain {e : Expr} (hplain : e.isPlain = true) :
    e.referenceName? = none := by
  cases e with
  | reference => cases hplain
  | _ => rfl

/-- Plain nodes mean nothing. -/
theorem resolve_of_isPlain {e : Expr} (hplain : e.isPlain = true) (s : Scoping) :
    s.resolve e = none := by
  rw [Scoping.resolve, referenceName?_of_isPlain hplain]
  rfl

/-- Every reference is listed once. -/
theorem map_node_bracketed (e : Expr) (behind : List (ExplicitIndex Expr)) :
    (e.bracketed behind).map BracketedReference.node = e.references := by
  induction e using Expr.induction generalizing behind with
  | step e ih =>
      rw [references_eq]
      by_cases hplain : e.isPlain = true
      · rw [bracketed_plain hplain, List.map_flatMap, referenceName?_of_isPlain hplain]
        exact List.flatMap_congr fun c hc => ih c hc []
      · cases e with
        | reference o name =>
            rw [bracketed_reference]
            rfl
        | element o base index =>
            rw [bracketed_element, List.map_append, ih base (by simp [children]),
              ih index (by simp [children])]
            simp [referenceName?, children]
        | _ => exact absurd rfl hplain

theorem node_mem_preorder {e : Expr} {behind : List (ExplicitIndex Expr)}
    {r : BracketedReference} (hr : r ∈ e.bracketed behind) : r.node ∈ e.preorder := by
  have hmem := List.mem_map_of_mem (f := BracketedReference.node) hr
  rw [map_node_bracketed] at hmem
  exact List.mem_of_mem_filter hmem

end Expr

/-! ## Reports -/

/-- What a spine has still to report when it is closed with brackets `behind`
it. -/
def Spine.owing (m : SymbolModel) (s : Spine) (behind : List (ExplicitIndex Expr)) :
    Diagnostics :=
  match s.head with
  | some (.symbol site name symbol) =>
    match allPresent (s.brackets ++ behind.map (ExplicitIndex.lower m)) with
    | none => []
    | some brackets => (refer m site name symbol brackets).reports
  | _ => []

/-- To close a spine is to report what it owes. -/
theorem close_reports (s : Spine) : (s.close m).reports = s.owing m [] := by
  obtain ⟨head, brackets⟩ := s
  rw [Spine.owing, List.map_nil, List.append_nil]
  cases hbrackets : allPresent brackets with
  | none =>
      have hclose : (Spine.close m ⟨head, brackets⟩).reports = [] := by
        simp [Spine.close, hbrackets]
      rw [hclose]
      split <;> rfl
  | some present =>
      obtain rfl := allPresent_eq_some_iff.1 hbrackets
      cases head with
      | none => simp [Spine.close, hbrackets]
      | some head =>
          cases head with
          | operation op => simp [Spine.close, hbrackets]
          | symbol site name symbol => exact close_symbol_reports site name symbol present

theorem owing_whole (op : Option Operation) (behind : List (ExplicitIndex Expr)) :
    (Spine.whole op).owing m behind = [] := by
  cases op <;> rfl

/-- A bracket that is lowered into the spine is one of those behind it no
longer. -/
theorem owing_element (o : Origin) (base index : Expr) (behind : List (ExplicitIndex Expr)) :
    ((Expr.element o base index).spine m).value.owing m behind =
      (base.spine m).value.owing m (⟨o, index⟩ :: behind) := by
  rw [spine_element, Spine.owing, Spine.owing, List.append_assoc]
  rfl

theorem owing_reference (o : Origin) (name : String) (behind : List (ExplicitIndex Expr)) :
    ((Expr.reference o name).spine m).reports ++
        ((Expr.reference o name).spine m).value.owing m behind =
      BracketedReference.reports m ⟨o, name, behind⟩ := by
  rw [spine_reference, spine_reference_reports, BracketedReference.reports]
  dsimp only
  cases m.lookup name o.id with
  | none => rfl
  | some symbol => rfl

/-- A spine has reported on its references, or owes the report. -/
theorem perm_reports_spine (e : Expr) (behind : List (ExplicitIndex Expr)) :
    ((e.bracketed behind).flatMap (BracketedReference.reports m)).Perm
      ((e.spine m).reports ++ (e.spine m).value.owing m behind) := by
  induction e using Expr.induction generalizing behind with
  | step e ih =>
      have hlower (c : Expr) (hc : c ∈ e.children) :
          ((c.bracketed []).flatMap (BracketedReference.reports m)).Perm
            (c.lower m).reports := by
        rw [lower_reports, close_reports]
        exact ih c hc []
      by_cases hplain : e.isPlain = true
      · rw [Expr.bracketed_plain hplain, spine_plain hplain, owing_whole, List.append_nil,
          spine_plain_reports hplain, List.flatMap_assoc]
        exact List.Perm.flatMap_left _ hlower
      · cases e with
        | reference o name =>
            rw [Expr.bracketed_reference, owing_reference, List.flatMap_singleton]
        | element o base index =>
            have hbase := ih base (by simp [Expr.children]) (⟨o, index⟩ :: behind)
            have hindex := hlower index (by simp [Expr.children])
            rw [Expr.bracketed_element, List.flatMap_append, spine_element_reports,
              owing_element]
            refine (hbase.append hindex).trans ?_
            rw [List.append_assoc, List.append_assoc]
            exact List.Perm.append_left _ List.perm_append_comm
        | _ => exact absurd rfl hplain

/-- **What an expression reports** is what its references report. -/
theorem perm_reports (e : Expr) :
    (e.lower m).reports.Perm ((e.bracketed []).flatMap (BracketedReference.reports m)) := by
  rw [lower_reports, close_reports]
  exact (perm_reports_spine e []).symm

/-! ## Operations -/

/-- Where an operation below `root` comes from: a node that is no reference, or
a reference with all brackets behind it.  Those that the reference did not use
are around it. -/
inductive Traced (m : SymbolModel) (nodes : List Expr) (references : List BracketedReference)
    (root x : Operation) : Prop
  | node {n} : n ∈ nodes → n.referenceName? = none → x.origin = n.origin →
      x.symbol? = none → Traced m nodes references root x
  | reference {r symbol brackets rest} : r ∈ references →
      m.lookup r.name r.site.id = some symbol → r.lowered m = some brackets →
      (refer m r.site r.name symbol brackets).value = some (x, rest) →
      x.withBrackets rest ∈ root.preorder → Traced m nodes references root x

theorem Traced.mono {nodes nodes' : List Expr} {references references' : List BracketedReference}
    {root root' x : Operation} (h : Traced m nodes references root x) (hnodes : nodes ⊆ nodes')
    (hreferences : references ⊆ references') (hroot : root.preorder ⊆ root'.preorder) :
    Traced m nodes' references' root' x := by
  cases h with
  | node hn hname horigin hsymbol => exact .node (hnodes hn) hname horigin hsymbol
  | reference hr hlookup hlowered hrefer hmem =>
      exact .reference (hreferences hr) hlookup hlowered hrefer (hroot hmem)

theorem Operation.mem_preorder_self (op : Operation) : op ∈ op.preorder := by
  rw [preorder_eq]
  exact List.mem_cons_self

theorem Operation.preorder_subset_of_mem_children {c op : Operation} (h : c ∈ op.children) :
    c.preorder ⊆ op.preorder := by
  intro x hx
  rw [preorder_eq op]
  exact List.mem_cons_of_mem _ (List.mem_flatMap.2 ⟨c, h, hx⟩)

/-- What is in brackets, and what they are behind, is below them. -/
theorem preorder_subset_withBrackets (op : Operation) (brackets : List Bracket) :
    op.preorder ⊆ (op.withBrackets brackets).preorder ∧
      ∀ b ∈ brackets, b.index.preorder ⊆ (op.withBrackets brackets).preorder := by
  induction brackets generalizing op with
  | nil => exact ⟨List.Subset.refl _, by simp⟩
  | cons b brackets ih =>
      obtain ⟨hop, hbrackets⟩ := ih (.element b.access op b.index)
      have hchild {c : Operation} (hc : c = op ∨ c = b.index) :
          c.preorder ⊆ (op.withBrackets (b :: brackets)).preorder := by
        refine List.Subset.trans (Operation.preorder_subset_of_mem_children ?_) hop
        rcases hc with rfl | rfl <;> simp [Operation.children]
      exact ⟨hchild (.inl rfl), List.forall_mem_cons.2 ⟨hchild (.inr rfl), hbrackets⟩⟩

/-- What is below brackets: what they are behind, what is in them, and the
brackets. -/
theorem mem_withBrackets_cases {x op : Operation} {brackets : List Bracket}
    (h : x ∈ (op.withBrackets brackets).preorder) :
    x ∈ op.preorder ∨ (∃ b ∈ brackets, x ∈ b.index.preorder) ∨
      ∃ b ∈ brackets, x.origin = b.access ∧ x.symbol? = none := by
  induction brackets generalizing op with
  | nil => exact .inl h
  | cons b brackets ih =>
      rw [Operation.withBrackets_cons] at h
      rcases ih h with hx | ⟨b', hb', hx⟩ | ⟨b', hb', hx⟩
      · rw [Operation.preorder_eq, List.mem_cons] at hx
        rcases hx with rfl | hx
        · exact .inr (.inr ⟨b, by simp, rfl, rfl⟩)
        · simp only [Operation.children, List.flatMap_cons, List.flatMap_nil, List.append_nil,
            List.mem_append] at hx
          rcases hx with hx | hx
          · exact .inl hx
          · exact .inr (.inl ⟨b, by simp, hx⟩)
      · exact .inr (.inl ⟨b', by simp [hb'], hx⟩)
      · exact .inr (.inr ⟨b', by simp [hb'], hx⟩)

/-- What is known of the parts of a spine before it is closed, whatever
brackets are behind it. -/
structure Spine.Traced (m : SymbolModel) (e : Expr) (s : Spine) : Prop where
  symbol : ∀ site name symbol, s.head = some (.symbol site name symbol) →
    m.lookup name site.id = some symbol ∧ ∃ inner : List (ExplicitIndex Expr),
      s.brackets = inner.map (ExplicitIndex.lower m) ∧
        ∀ behind, ⟨site, name, inner ++ behind⟩ ∈ e.bracketed behind
  operation : ∀ op, s.head = some (.operation op) → ∀ behind, ∀ x ∈ op.preorder,
    InfraGraph.Traced m e.preorder (e.bracketed behind) op x
  brackets : ∀ b, some b ∈ s.brackets →
    (∃ n ∈ e.preorder, n.referenceName? = none ∧ n.origin = b.access) ∧
      ∀ behind, ∀ x ∈ b.index.preorder,
        InfraGraph.Traced m e.preorder (e.bracketed behind) b.index x

/-- Closing a spine adds the reference at its head, and the brackets that are
left over. -/
theorem Spine.Traced.close {e : Expr} {s : Spine} {op : Operation} (h : s.Traced m e)
    (hclose : s.Closes m op) :
    ∀ x ∈ op.preorder, InfraGraph.Traced m e.preorder (e.bracketed []) op x := by
  intro x hx
  have hindex {b : Bracket} (hb : some b ∈ s.brackets) (hx : x ∈ b.index.preorder)
      (hroot : b.index.preorder ⊆ op.preorder) :
      InfraGraph.Traced m e.preorder (e.bracketed []) op x :=
    ((h.brackets b hb).2 [] x hx).mono (List.Subset.refl _) (List.Subset.refl _) hroot
  have haccess {b : Bracket} (hb : some b ∈ s.brackets)
      (hx : x.origin = b.access ∧ x.symbol? = none) :
      InfraGraph.Traced m e.preorder (e.bracketed []) op x := by
    obtain ⟨n, hn, hname, horigin⟩ := (h.brackets b hb).1
    exact .node hn hname (hx.1.trans horigin.symm) hx.2
  cases hclose with
  | @operation base brackets =>
      obtain ⟨hbase, hbrackets⟩ := preorder_subset_withBrackets base brackets
      rcases mem_withBrackets_cases hx with hx | ⟨b, hb, hx⟩ | ⟨b, hb, hx⟩
      · exact (h.operation base rfl [] x hx).mono (List.Subset.refl _) (List.Subset.refl _) hbase
      · exact hindex (List.mem_map_of_mem hb) hx (hbrackets b hb)
      · exact haccess (List.mem_map_of_mem hb) hx
  | @symbol site name symbol brackets base rest hrefer =>
      obtain ⟨hbase, hrest⟩ := preorder_subset_withBrackets base rest
      have hreferred := referred_of_refer hrefer
      rcases mem_withBrackets_cases hx with hx | ⟨b, hb, hx⟩ | ⟨b, hb, hx⟩
      · rw [Operation.preorder_eq, List.mem_cons] at hx
        rcases hx with rfl | hx
        · obtain ⟨hlookup, inner, hinner, hmem⟩ := h.symbol site name symbol rfl
          have hmem := hmem []
          rw [List.append_nil] at hmem
          exact .reference hmem hlookup (allPresent_eq_some_iff.2 hinner.symm) hrefer
            (Operation.mem_preorder_self _)
        · -- An index that the reference has used is one of its children.
          obtain ⟨index, hchild, hx⟩ := List.mem_flatMap.1 hx
          have hroot := List.Subset.trans
            (Operation.preorder_subset_of_mem_children hchild) hbase
          rw [hreferred.children_eq] at hchild
          obtain ⟨pair, hpair, rfl⟩ := List.mem_map.1 hchild
          have hpair : pair ∈ brackets.map ExplicitIndex.pair := by
            rw [← hreferred.conserved]
            exact List.mem_append_left _ hpair
          obtain ⟨b, hb, rfl⟩ := List.mem_map.1 hpair
          exact hindex (List.mem_map_of_mem hb) hx hroot
      · exact hindex (List.mem_map_of_mem (hreferred.suffix.subset hb)) hx (hrest b hb)
      · exact haccess (List.mem_map_of_mem (hreferred.suffix.subset hb)) hx

theorem traced_spine (e : Expr) : (e.spine m).value.Traced m e := by
  induction e using Expr.induction with
  | step e ih =>
      have hlower {c : Expr} (hc : c ∈ e.children) {op : Operation}
          (hop : (c.lower m).value = some op) :
          ∀ x ∈ op.preorder, Traced m c.preorder (c.bracketed []) op x :=
        (ih c hc).close (closes_of_close hop)
      by_cases hplain : e.isPlain = true
      · rw [spine_plain hplain]
        refine ⟨?_, ?_, ?_⟩
        · intro site name symbol hhead
          cases hop : (e.lower m).value <;> simp [Spine.whole, hop] at hhead
        · intro op hhead behind x hx
          have hop : (e.lower m).value = some op := by
            cases hop : (e.lower m).value <;> simp_all [Spine.whole]
          obtain ⟨horigin, hsymbol, -, hchildren⟩ := lower_plain hplain hop
          rw [Operation.preorder_eq, List.mem_cons] at hx
          rcases hx with rfl | hx
          · refine .node ?_ (Expr.referenceName?_of_isPlain hplain) horigin hsymbol
            rw [Expr.preorder_eq]
            exact List.mem_cons_self
          · obtain ⟨y, hy, hx⟩ := List.mem_flatMap.1 hx
            have hroot := Operation.preorder_subset_of_mem_children hy
            rw [hchildren] at hy
            obtain ⟨c, hc, hy⟩ := List.mem_filterMap.1 hy
            refine (hlower hc hy x hx).mono (Expr.preorder_subset_of_mem_children hc) ?_ hroot
            intro r hr
            rw [Expr.bracketed_plain hplain]
            exact List.mem_flatMap.2 ⟨c, hc, hr⟩
        · intro b hb
          cases hb
      · cases e with
        | reference o name =>
            rw [spine_reference]
            refine ⟨?_, ?_, ?_⟩
            · intro site name' symbol hhead
              obtain ⟨s, hs, heq⟩ := Option.map_eq_some_iff.1 hhead
              cases heq
              refine ⟨hs, [], rfl, fun behind => ?_⟩
              rw [Expr.bracketed_reference]
              exact List.mem_singleton.2 rfl
            · intro op hhead
              obtain ⟨s, -, heq⟩ := Option.map_eq_some_iff.1 hhead
              cases heq
            · intro b hb
              cases hb
        | element o base index =>
            have hbase := ih base (by simp [Expr.children])
            have hmem : base ∈ (Expr.element o base index).children := by simp [Expr.children]
            have hmem' : index ∈ (Expr.element o base index).children := by simp [Expr.children]
            have hsub (behind : List (ExplicitIndex Expr)) :
                base.bracketed (⟨o, index⟩ :: behind) ⊆
                  (Expr.element o base index).bracketed behind := by
              rw [Expr.bracketed_element]
              exact List.subset_append_left _ _
            rw [spine_element]
            refine ⟨?_, ?_, ?_⟩
            · intro site name symbol hhead
              obtain ⟨hlookup, inner, hinner, hbracketed⟩ := hbase.symbol site name symbol hhead
              refine ⟨hlookup, inner ++ [⟨o, index⟩], ?_, fun behind => hsub behind ?_⟩
              · rw [List.map_append, ← hinner]
                rfl
              · rw [List.append_assoc]
                exact hbracketed _
            · intro op hhead behind x hx
              exact (hbase.operation op hhead _ x hx).mono
                (Expr.preorder_subset_of_mem_children hmem) (hsub behind) (List.Subset.refl _)
            · intro b hb
              rcases List.mem_append.1 hb with hb | hb
              · obtain ⟨⟨n, hn, haccess⟩, hindex⟩ := hbase.brackets b hb
                refine ⟨⟨n, Expr.preorder_subset_of_mem_children hmem hn, haccess⟩, ?_⟩
                intro behind x hx
                exact (hindex _ x hx).mono (Expr.preorder_subset_of_mem_children hmem)
                  (hsub behind) (List.Subset.refl _)
              · obtain ⟨op, hop, rfl⟩ := Option.map_eq_some_iff.1 (List.mem_singleton.1 hb).symm
                constructor
                · refine ⟨.element o base index, ?_, rfl, rfl⟩
                  rw [Expr.preorder_eq]
                  exact List.mem_cons_self
                · intro behind x hx
                  refine (hlower hmem' hop x hx).mono
                    (Expr.preorder_subset_of_mem_children hmem') ?_ (List.Subset.refl _)
                  rw [Expr.bracketed_element]
                  exact List.subset_append_right _ _
        | _ => exact absurd rfl hplain

/-- **Every operation of an expression** comes from one of its nodes. -/
theorem traced_lower {e : Expr} {op : Operation} (h : (e.lower m).value = some op) :
    ∀ x ∈ op.preorder, Traced m e.preorder (e.bracketed []) op x :=
  (traced_spine e).close (closes_of_close h)

/-! ## Units -/

namespace BoundProgram

/-- The references of a unit, each with the brackets behind it. -/
def bracketedReferences (p : BoundProgram) : List BracketedReference :=
  p.allDeclarations.flatMap fun d => (d.value.map (Expr.bracketed [])).getD []

variable {p : BoundProgram}

theorem map_node_bracketedReferences (p : BoundProgram) :
    p.bracketedReferences.map BracketedReference.node =
      p.expressions.filter (·.referenceName?.isSome) := by
  rw [bracketedReferences, expressions, List.map_flatMap, List.filter_flatMap]
  refine List.flatMap_congr fun d _ => ?_
  rw [Declaration.valueNodes]
  cases d.value with
  | none => rfl
  | some value => exact value.map_node_bracketed []

theorem mem_bracketedReferences {d : Declaration} {value : Expr} (hd : d ∈ p.allDeclarations)
    (hvalue : d.value = some value) {r : BracketedReference} (hr : r ∈ value.bracketed []) :
    r ∈ p.bracketedReferences := by
  refine List.mem_flatMap.2 ⟨d, hd, ?_⟩
  rw [hvalue]
  exact hr

theorem node_mem_expressions {r : BracketedReference} (hr : r ∈ p.bracketedReferences) :
    r.node ∈ p.expressions := by
  have hmem := List.mem_map_of_mem (f := BracketedReference.node) hr
  rw [map_node_bracketedReferences] at hmem
  exact List.mem_of_mem_filter hmem

/-- A reference is known by the id of its node. -/
theorem eq_of_site_eq (h : p.reusedIds = []) {r r' : BracketedReference}
    (hr : r ∈ p.bracketedReferences) (hr' : r' ∈ p.bracketedReferences)
    (hid : r.site.id = r'.site.id) : r = r' := by
  have hnodup : (p.bracketedReferences.map fun r => r.node.id).Nodup := by
    have hmap : p.bracketedReferences.map (fun r => r.node.id) =
        (p.expressions.filter (·.referenceName?.isSome)).map Expr.id := by
      rw [← map_node_bracketedReferences, List.map_map]
      rfl
    rw [hmap]
    exact (List.filter_sublist.map _).nodup (nodup_expressionIds h)
  exact List.inj_on_of_nodup_map hnodup hr hr' hid

end BoundProgram

end InfraGraph
