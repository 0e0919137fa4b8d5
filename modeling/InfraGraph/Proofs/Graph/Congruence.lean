import InfraGraph.Graph.Build
import InfraGraph.Proofs.Graph.Declarations
import InfraGraph.Proofs.Symbol.Resolution

/-!
# The comparisons that building makes

Building a unit compares loops only where it correlates a reference: the loops
around the reference with those that replicate what it refers to.  All of them
are loops of the unit, and comparing loops of a unit ends, so building ends.

A model that answers these comparisons alike builds the same graph, whatever it
makes of others.  In particular nothing depends on what becomes of a comparison
that is not settled after as many steps as there are loops.

## Main results

* `lower_congr` — expressions are lowered alike by models that compare alike.
* `build_congr` — and so are units built.
* `comparisons_end` — comparisons of a unit are settled, and no build asks for
  others.
-/

namespace InfraGraph

/-! ## Correlation -/

section

variable {same same' : LoopDescriptor → LoopDescriptor → Bool}

theorem siteFrom_congr {t : LoopDescriptor} {site : List LoopDescriptor}
    (h : ∀ l ∈ site, same l t = same' l t) : siteFrom same t site = siteFrom same' t site := by
  induction site with
  | nil => rfl
  | cons l site ih =>
      have ih := ih fun l hl => h l (List.mem_cons_of_mem _ hl)
      simp only [siteFrom, List.dropWhile_cons, h l List.mem_cons_self] at ih ⊢
      rw [ih]

theorem siteFrom_subset {t : LoopDescriptor} {site inner : List LoopDescriptor}
    {l : LoopDescriptor} (h : siteFrom same t site = l :: inner) : inner ⊆ site := by
  have hsuffix : l :: inner <:+ site := h ▸ List.dropWhile_suffix _
  exact fun _ hm => hsuffix.subset (List.mem_cons_of_mem _ hm)

theorem matchedLength_congr {target site : List LoopDescriptor}
    (h : ∀ t ∈ target, ∀ l ∈ site, same l t = same' l t) :
    matchedLength same target site = matchedLength same' target site := by
  induction target generalizing site with
  | nil => rfl
  | cons t target ih =>
      rw [matchedLength, matchedLength, ← siteFrom_congr (h t List.mem_cons_self)]
      cases hsite : siteFrom same t site with
      | nil => rfl
      | cons l inner =>
          have hinner := ih fun t ht l hl =>
            h t (List.mem_cons_of_mem _ ht) l (siteFrom_subset hsite hl)
          exact congrArg (· + 1) hinner

theorem firstMatches_congr {target site : List LoopDescriptor}
    (h : ∀ t ∈ target, ∀ l ∈ site, same l t = same' l t) :
    firstMatches same target site = firstMatches same' target site := by
  induction target generalizing site with
  | nil => rfl
  | cons t target ih =>
      rw [firstMatches, firstMatches, ← siteFrom_congr (h t List.mem_cons_self)]
      cases hsite : siteFrom same t site with
      | nil => rfl
      | cons l inner =>
          have hinner := ih fun t ht l hl =>
            h t (List.mem_cons_of_mem _ ht) l (siteFrom_subset hsite hl)
          exact congrArg (Option.map (l :: ·)) hinner

/-- Correlating compares loops of the site with loops of the target. -/
theorem correlate_congr {α : Type} {target site : List LoopDescriptor}
    (h : ∀ t ∈ target, ∀ l ∈ site, same l t = same' l t) (brackets : List (ExplicitIndex α)) :
    correlate same target site brackets = correlate same' target site brackets := by
  have hscopes : implicitScopes same target site = implicitScopes same' target site := by
    rw [implicitScopes, implicitScopes, matchedLength_congr h, firstMatches_congr]
    intro t ht l hl
    exact h t (List.mem_of_mem_take (List.mem_reverse.1 ht)) l (List.mem_reverse.1 hl)
  rw [correlate, correlate, hscopes]

end

/-! ## Lowering -/

/-- Whether two comparisons agree on the loops that a reference to a symbol may
make a model compare: those around the reference, and those of the symbol. -/
def Scoping.AgreeOn (s : Scoping) (same same' : LoopDescriptor → LoopDescriptor → Bool) : Prop :=
  ∀ name node symbol, s.lookup name node = some symbol →
    ∀ t ∈ s.loopsOf symbol, ∀ l ∈ s.enclosingLoops node, same l t = same' l t

section

variable {s : Scoping} {same same' : LoopDescriptor → LoopDescriptor → Bool}

theorem refer_congr {site : Origin} {symbol : Symbol}
    (h : ∀ t ∈ s.loopsOf symbol, ∀ l ∈ s.enclosingLoops site.id, same l t = same' l t)
    (name : String) (brackets : List Bracket) :
    refer ⟨s, same⟩ site name symbol brackets = refer ⟨s, same'⟩ site name symbol brackets := by
  have hindexed (referent : Referent) : referIndexed ⟨s, same⟩ site name symbol referent brackets =
      referIndexed ⟨s, same'⟩ site name symbol referent brackets := by
    simp only [referIndexed, correlate_congr h]
  unfold refer
  split <;> first | rfl | exact hindexed _

variable (h : s.AgreeOn same same')

include h in
theorem close_congr (e : Expr) :
    (e.spine ⟨s, same⟩).value.close ⟨s, same⟩ = (e.spine ⟨s, same⟩).value.close ⟨s, same'⟩ := by
  have hsourced {site : Origin} {name : String} {symbol : Symbol}
      (hhead : (e.spine ⟨s, same⟩).value.head = some (.symbol site name symbol)) :
      s.lookup name site.id = some symbol := (sourced_head hhead).2
  generalize (e.spine ⟨s, same⟩).value = spine at hsourced
  obtain ⟨head, brackets⟩ := spine
  unfold Spine.close
  cases allPresent brackets with
  | none => rfl
  | some present =>
      match head, @hsourced with
      | none, _ => rfl
      | some (.operation op), _ => rfl
      | some (.symbol site name symbol), hsourced =>
          simp only [refer_congr (h name site.id symbol (hsourced rfl))]

include h in
theorem lower_eq_of_spine_eq {e : Expr} (hspine : e.spine ⟨s, same⟩ = e.spine ⟨s, same'⟩) :
    e.lower ⟨s, same⟩ = e.lower ⟨s, same'⟩ := by
  have hclose := close_congr h e
  rw [hspine] at hclose
  show Lowered.bind (e.spine ⟨s, same⟩) _ = Lowered.bind (e.spine ⟨s, same'⟩) _
  simp only [Lowered.bind, hspine, hclose]

theorem lowerAll_eq_of_lower_eq {es : List Expr}
    (hes : ∀ e ∈ es, e.lower ⟨s, same⟩ = e.lower ⟨s, same'⟩) :
    Expr.lowerAll ⟨s, same⟩ es = Expr.lowerAll ⟨s, same'⟩ es := by
  induction es with
  | nil => rfl
  | cons e es ih =>
      obtain ⟨he, hes⟩ := List.forall_mem_cons.1 hes
      rw [Expr.lower, Expr.lower] at he
      rw [Expr.lowerAll, Expr.lowerAll, he, ih hes]

theorem lowerEntries_eq_of_lower_eq {entries : List (String × Expr)}
    (hes : ∀ e ∈ entries.map Prod.snd, e.lower ⟨s, same⟩ = e.lower ⟨s, same'⟩) :
    Expr.lowerEntries ⟨s, same⟩ entries = Expr.lowerEntries ⟨s, same'⟩ entries := by
  induction entries with
  | nil => rfl
  | cons entry entries ih =>
      obtain ⟨he, hes⟩ := List.forall_mem_cons.1 hes
      rw [Expr.lower, Expr.lower] at he
      rw [Expr.lowerEntries, Expr.lowerEntries, he, ih hes]

include h in
theorem spine_congr (e : Expr) : e.spine ⟨s, same⟩ = e.spine ⟨s, same'⟩ := by
  induction e using Expr.induction with
  | step e ih =>
      have hlower (c : Expr) (hc : c ∈ e.children) : c.lower ⟨s, same⟩ = c.lower ⟨s, same'⟩ :=
        lower_eq_of_spine_eq h (ih c hc)
      cases e with
      | literal => rfl
      | reference => rfl
      | interpolation o segments parts =>
          have hparts : Expr.lowerAll ⟨s, same⟩ parts = Expr.lowerAll ⟨s, same'⟩ parts :=
            lowerAll_eq_of_lower_eq hlower
          simp only [Expr.spine, hparts]
      | object o entries => simp only [Expr.spine, lowerEntries_eq_of_lower_eq hlower]
      | array o items =>
          have hitems : Expr.lowerAll ⟨s, same⟩ items = Expr.lowerAll ⟨s, same'⟩ items :=
            lowerAll_eq_of_lower_eq hlower
          simp only [Expr.spine, hitems]
      | call o name arguments =>
          have harguments : Expr.lowerAll ⟨s, same⟩ arguments =
              Expr.lowerAll ⟨s, same'⟩ arguments := lowerAll_eq_of_lower_eq hlower
          simp only [Expr.spine, harguments]
      | element o base index =>
          have hbase := ih base List.mem_cons_self
          have hindex := hlower index (List.mem_cons_of_mem _ List.mem_cons_self)
          simp only [Expr.lower] at hindex
          simp only [Expr.spine, hbase, hindex]
      | _ =>
          simp only [Expr.children, List.forall_mem_cons, Expr.lower] at hlower
          simp only [Expr.spine, hlower]

include h in
/-- Expressions are lowered alike by models that compare alike. -/
theorem lower_congr (e : Expr) : e.lower ⟨s, same⟩ = e.lower ⟨s, same'⟩ :=
  lower_eq_of_spine_eq h (spine_congr h e)

theorem Declaration.lowerAll_eq_of_lower_eq {ds : List Declaration}
    (hds : ∀ d ∈ ds, d.lower ⟨s, same⟩ = d.lower ⟨s, same'⟩) :
    lowerAll ⟨s, same⟩ ds = lowerAll ⟨s, same'⟩ ds := by
  induction ds with
  | nil => rfl
  | cons d ds ih =>
      obtain ⟨hd, hds⟩ := List.forall_mem_cons.1 hds
      rw [lowerAll, lowerAll, hd, ih hds]

include h in
theorem Declaration.lower_congr (d : Declaration) :
    d.lower ⟨s, same⟩ = d.lower ⟨s, same'⟩ := by
  induction d using Declaration.induction with
  | step d ih =>
      obtain ⟨origin, name, kind, value, children⟩ := d
      have hchildren : lowerAll ⟨s, same⟩ children = lowerAll ⟨s, same'⟩ children :=
        lowerAll_eq_of_lower_eq ih
      have hvalue : lowerValue ⟨s, same⟩ value = lowerValue ⟨s, same'⟩ value := by
        cases value with
        | none => rfl
        | some value => exact InfraGraph.lower_congr h value
      rw [lower, lower, hvalue, hchildren]

include h in
/-- Units are built alike by models that compare alike. -/
theorem build_congr (p : BoundProgram) (options : BuildOptions) :
    p.build ⟨s, same⟩ options = p.build ⟨s, same'⟩ options := by
  have hlower : p.lower ⟨s, same⟩ = p.lower ⟨s, same'⟩ := by
    rw [BoundProgram.lower, BoundProgram.lower,
      Declaration.lowerAll_eq_of_lower_eq fun d _ => Declaration.lower_congr h d]
  -- Checking a graph compares no loops.
  have hverify (g : OperationGraph) : g.verify ⟨s, same⟩ = g.verify ⟨s, same'⟩ := rfl
  rw [BoundProgram.build, BoundProgram.build, hlower, hverify]

end

/-! ## Building a unit -/

namespace BoundProgram

variable {p : BoundProgram}

/-- The loops recorded around a node are loops of the unit, also if the node is
not in it. -/
theorem enclosingLoops_subset_copyLoops (p : BoundProgram) (node : SyntaxId) :
    p.bind.enclosingLoops node ⊆ p.copyLoops := by
  rw [Binding.enclosingLoops, lookupLast?]
  cases hfound : findLast? (·.1 == node) p.bind.scopes with
  | none => exact List.nil_subset _
  | some entry =>
      have hentry := (mem_of_findLast? hfound).1
      rw [scopes_bind] at hentry
      obtain ⟨n, hn, rfl⟩ := List.mem_map.1 (List.mem_of_mem_filter hentry)
      exact (chain_located hn).subset_copyLoops

/-- References make a model compare loops of the unit. -/
theorem agreeOn_of_copyLoops {same same' : LoopDescriptor → LoopDescriptor → Bool}
    (h : ∀ a ∈ p.copyLoops, ∀ b ∈ p.copyLoops, same a b = same' a b) :
    p.bind.scoping.AgreeOn same same' := by
  intro name node symbol hlookup t ht l hl
  have hsymbol : symbol ∈ p.bind.symbols := Binding.mem_symbols_of_lookup hlookup
  exact h l (enclosingLoops_subset_copyLoops p node hl) t
    ((chain_loops hsymbol).subset_copyLoops ht)

/-- **Comparisons end, and so does building**.  Comparisons of loops of a unit,
one inside the other, are at most as many as the unit has `for` nodes, and that
many steps settle them.  No others count when the unit is built: any model that
gives the settled answers builds the same graph. -/
theorem comparisons_end (h : p.reusedIds = []) :
    (∀ a ∈ p.copyLoops, ∀ b ∈ p.copyLoops,
      (∀ calls, ((a, b) :: calls).IsChain p.bind.scoping.Asks →
        ((a, b) :: calls).length ≤ p.expressions.countP Expr.isLoop) ∧
      p.bind.scoping.sameLoopWithin (p.expressions.countP Expr.isLoop) a b =
        some (p.bind.model.sameLoop a b)) ∧
    ∀ (same : LoopDescriptor → LoopDescriptor → Bool) (options : BuildOptions),
      (∀ a b answer, p.bind.scoping.sameLoopWithin (p.expressions.countP Expr.isLoop) a b =
        some answer → same a b = answer) →
      p.build ⟨p.bind.scoping, same⟩ options = p.build p.bind.model options := by
  have hrank {a : LoopDescriptor} (ha : a ∈ p.copyLoops) :
      p.rank a < p.expressions.countP Expr.isLoop := rank_lt_length ha
  have hsettled {a b : LoopDescriptor} (ha : a ∈ p.copyLoops) (hb : b ∈ p.copyLoops) :
      p.bind.scoping.sameLoopWithin (p.expressions.countP Expr.isLoop) a b =
        some (p.bind.model.sameLoop a b) := sameLoopWithin_eq h ha hb (hrank ha)
  refine ⟨fun a ha b hb => ⟨fun calls hcalls => ?_, hsettled ha hb⟩, fun same options hsame => ?_⟩
  · exact (length_le_of_isChain h ha hb hcalls).trans (hrank ha)
  · exact build_congr
      (agreeOn_of_copyLoops fun a ha b hb => hsame a b _ (hsettled ha hb)) p options

/-- The twins, with comparisons that are not settled within four steps taken to
be the same loop. -/
theorem comparisons_end_of_twins :
    twins.reusedIds = [] ∧
    (∀ a ∈ twins.copyLoops, ∀ b ∈ twins.copyLoops,
      twins.bind.scoping.sameLoopWithin 4 a b = some (twins.bind.model.sameLoop a b)) ∧
    twins.build ⟨twins.bind.scoping,
      fun a b => (twins.bind.scoping.sameLoopWithin 4 a b).getD true⟩ .checked =
        twins.build twins.bind.model .checked := by
  have h : twins.reusedIds = [] := by decide
  have hcount : twins.expressions.countP Expr.isLoop = 4 := by decide
  obtain ⟨hcalls, hbuild⟩ := comparisons_end h
  rw [hcount] at hcalls hbuild
  refine ⟨h, fun a ha b hb => (hcalls a ha b hb).2, hbuild _ _ fun a b answer hanswer => ?_⟩
  rw [hanswer, Option.getD_some]

end BoundProgram

end InfraGraph
