import InfraGraph.Proofs.Symbol.Comparison
import InfraGraph.Proofs.Symbol.SourceShapes
import InfraGraph.Scenario

/-!
# Resolved sources

The source of a copy loop without the identities of its nodes, each reference
with what it denotes: nothing, a declaration, or one of the variables of a loop
with a resolved source in turn.  Two loops are the same loop if and only if they
have equal resolved sources.

That is why it does not matter on which way two loops are compared, and why the
shortcuts of a comparison are harmless: one `for` node has one resolved source,
and so has one symbol one meaning wherever it is referred to.

## Main results

* `resolvedSource_eq` — the equation of resolved sources, which has no steps.
* `denotes_spec` — what a reference in a source denotes.
* `sameLoop_iff_resolvedSource_eq` — the same loop, by resolved sources.
* `sameLoop_resolved` — all of this, and that it is an equivalence.
-/

namespace InfraGraph

theorem map_eq_map_iff_zip {α β γ : Type} {f : α → γ} {g : β → γ} {as : List α} {bs : List β}
    (hlength : as.length = bs.length) :
    as.map f = bs.map g ↔ ∀ a b, (a, b) ∈ as.zip bs → f a = g b := by
  rw [← List.forall₂_eq_eq_eq, List.forall₂_map_left_iff, List.forall₂_map_right_iff,
    List.forall₂_iff_zip, and_iff_right hlength]

/-- A meaning with something else in the place of its loop. -/
def Meaning.map {δ ε : Type} (f : δ → ε) : Meaning δ → Meaning ε
  | .nothing => .nothing
  | .declaration id => .declaration id
  | .loopVariable role loop => .loopVariable role (f loop)

/-- The source of a copy loop, apart from where it stands: its shape, and what
its references denote. -/
structure ResolvedSource where
  shape : Expr
  references : List (Meaning ResolvedSource)

namespace BoundProgram

/-- The resolved source of a copy loop.  A loop that does not come earlier in
the order of binding counts as nothing; sources refer to none. -/
def resolvedSource (p : BoundProgram) (l : LoopDescriptor) : ResolvedSource :=
  ⟨l.source.erase, l.source.references.map fun x =>
    match p.bind.scoping.meaning x with
    | .nothing => .nothing
    | .declaration id => .declaration id
    | .loopVariable role u =>
      if _h : p.rank u < p.rank l then .loopVariable role (p.resolvedSource u) else .nothing⟩
termination_by p.rank l

/-- What a reference node denotes. -/
def denotes (p : BoundProgram) (x : Expr) : Meaning ResolvedSource :=
  (p.bind.scoping.meaning x).map p.resolvedSource

/-- What a reference node should denote: nothing if it resolves to nothing, the
declaration that it resolves to, or the role and the resolved source of the copy
loop whose variable it resolves to. -/
inductive Denotes (p : BoundProgram) (x : Expr) : Meaning ResolvedSource → Prop
  | nothing : p.bind.scoping.resolve x = none → Denotes p x .nothing
  | declaration {v : Symbol} :
      p.bind.scoping.resolve x = some v → v.kind.isLoopVariable = false →
      Denotes p x (.declaration v.id)
  | loopVariable {v : Symbol} {role : LoopRole} {u : LoopDescriptor} :
      p.bind.scoping.resolve x = some v → v.kind = .loopVariable u.id role →
      u ∈ p.copyLoops → Denotes p x (.loopVariable role (p.resolvedSource u))

variable {p : BoundProgram}

section

variable (h : p.reusedIds = [])

include h

theorem resolvedSource_eq {l : LoopDescriptor} (hl : l ∈ p.copyLoops) :
    p.resolvedSource l = ⟨l.source.erase, l.source.references.map p.denotes⟩ := by
  rw [resolvedSource]
  refine congrArg (ResolvedSource.mk _) (List.map_congr_left fun x hx => ?_)
  rw [denotes]
  cases hmeaning : p.bind.scoping.meaning x with
  | nothing => rfl
  | declaration id => rfl
  | loopVariable role u => exact dif_pos (rank_lt_of_meaning h hl hx hmeaning).2

/-- A reference in a source resolves to nothing, to a declaration, or to a
variable of a loop around it. -/
theorem meaning_cases {l : LoopDescriptor} (hl : l ∈ p.copyLoops) {x : Expr}
    (hx : x ∈ l.source.references) :
    (p.bind.scoping.resolve x = none ∧ p.bind.scoping.meaning x = .nothing) ∨
    (∃ v, p.bind.scoping.resolve x = some v ∧ v.kind.isLoopVariable = false ∧
      p.bind.scoping.meaning x = .declaration v.id) ∨
    (∃ v role u, p.bind.scoping.resolve x = some v ∧ v.kind = .loopVariable u.id role ∧
      p.bind.scoping.enclosingLoop? x.id u.id = some u ∧
      p.bind.scoping.meaning x = .loopVariable role u) := by
  cases hv : p.bind.scoping.resolve x with
  | none => exact .inl ⟨rfl, Scoping.meaning_of_none hv⟩
  | some v =>
      refine .inr ?_
      cases hkind : v.kind with
      | loopVariable loop role =>
          obtain ⟨chain, hmem, -⟩ := exists_chain_of_reference h hl hx
          obtain ⟨_, outer, u, inner, -, rfl, rfl, -, -⟩ := loopVariable_of_resolve h hmem hv hkind
          have hfound := enclosingLoop?_eq h hmem (List.mem_append_right outer List.mem_cons_self)
          exact .inr ⟨v, role, u, rfl, hkind, hfound,
            Scoping.meaning_of_loopVariable hv hkind hfound⟩
      | _ =>
          have hdeclared : v.kind.isLoopVariable = false := by
            rw [hkind]
            rfl
          exact .inl ⟨v, rfl, hdeclared, Scoping.meaning_of_declaration hv hdeclared⟩

/-- What a reference denotes is what it should. -/
theorem denotes_spec {l : LoopDescriptor} (hl : l ∈ p.copyLoops) {x : Expr}
    (hx : x ∈ l.source.references) : p.Denotes x (p.denotes x) := by
  rw [denotes]
  obtain ⟨hv, hmeaning⟩ | ⟨v, hv, hkind, hmeaning⟩ | ⟨v, role, u, hv, hkind, -, hmeaning⟩ :=
    meaning_cases h hl hx
  · rw [hmeaning]
    exact .nothing hv
  · rw [hmeaning]
    exact .declaration hv hkind
  · rw [hmeaning]
    exact .loopVariable hv hkind (rank_lt_of_meaning h hl hx hmeaning).1

/-! ## The same loop -/

/-- References bind alike if and only if they denote the same, provided that
loops are the same if and only if their resolved sources are equal. -/
theorem bindAlike_iff_denotes_eq {a b : LoopDescriptor} (ha : a ∈ p.copyLoops)
    (hb : b ∈ p.copyLoops) {x y : Expr} (hx : x ∈ a.source.references)
    (hy : y ∈ b.source.references) {same : LoopDescriptor → LoopDescriptor → Bool}
    (hsame : ∀ role u w, p.bind.scoping.meaning x = .loopVariable role u →
      p.bind.scoping.meaning y = .loopVariable role w →
      (same u w = true ↔ p.resolvedSource u = p.resolvedSource w)) :
    p.bind.scoping.bindAlike (fun u w => some (same u w)) x y = some true ↔
      p.denotes x = p.denotes y := by
  rw [denotes, denotes]
  obtain ⟨hv, hmx⟩ | ⟨v, hv, hkind, hmx⟩ | ⟨v, role, u, hv, hkind, hfound, hmx⟩ :=
    meaning_cases h ha hx
  · obtain ⟨hw, hmy⟩ | ⟨w, hw, -, hmy⟩ | ⟨w, role', u', hw, -, -, hmy⟩ := meaning_cases h hb hy
    all_goals simp [Scoping.bindAlike, hv, hw, hmx, hmy, Meaning.map]
  · obtain ⟨hw, hmy⟩ | ⟨w, hw, -, hmy⟩ | ⟨w, role', u', hw, hkind', -, hmy⟩ :=
      meaning_cases h hb hy
    · simp [Scoping.bindAlike, hv, hw, hmx, hmy, Meaning.map]
    · simp [Scoping.bindAlike_of_declaration hv hw (.inl hkind), hmx, hmy, Meaning.map]
    · have hid : v.id ≠ w.id := by
        intro hid
        rw [eq_of_resolve hv hw hid, hkind'] at hkind
        cases hkind
      simp [Scoping.bindAlike_of_declaration hv hw (.inl hkind), hmx, hmy, Meaning.map, hid]
  · obtain ⟨hw, hmy⟩ | ⟨w, hw, hkind', hmy⟩ | ⟨w, role', u', hw, hkind', hfound', hmy⟩ :=
      meaning_cases h hb hy
    · simp [Scoping.bindAlike, hv, hw, hmx, hmy, Meaning.map]
    · have hid : v.id ≠ w.id := by
        intro hid
        rw [← eq_of_resolve hv hw hid, hkind] at hkind'
        cases hkind'
      simp [Scoping.bindAlike_of_declaration hv hw (.inr hkind'), hmx, hmy, Meaning.map, hid]
    · by_cases hid : v.id = w.id
      · obtain rfl := eq_of_resolve hv hw hid
        obtain ⟨hloop, rfl⟩ := SymbolKind.loopVariable.inj (hkind.symm.trans hkind')
        obtain rfl := eq_of_mem_copyLoops h (rank_lt_of_meaning h ha hx hmx).1
          (rank_lt_of_meaning h hb hy hmy).1 hloop
        simp [Scoping.bindAlike, hv, hw, hmx, hmy]
      · by_cases hrole : role = role'
        · subst hrole
          simpa [Scoping.bindAlike, hv, hw, hid, hkind, hkind', hfound, hfound', hmx, hmy,
            Meaning.map] using hsame role u u' hmx hmy
        · simp [Scoping.bindAlike, hv, hw, hid, hkind, hkind', hmx, hmy, Meaning.map, hrole]

/-- **The same loop** is one with an equal resolved source. -/
theorem sameLoop_iff_resolvedSource_eq {a b : LoopDescriptor} (ha : a ∈ p.copyLoops)
    (hb : b ∈ p.copyLoops) :
    p.bind.model.sameLoop a b = true ↔ p.resolvedSource a = p.resolvedSource b := by
  generalize hrank : p.rank a = n
  induction n using Nat.strongRecOn generalizing a b with
  | ind n ih =>
      subst hrank
      rw [resolvedSource_eq h ha, resolvedSource_eq h hb, ResolvedSource.mk.injEq,
        ← Expr.sameShape_iff_erase_eq, sameLoop_iff h ha hb]
      have hpair : ∀ x y, (x, y) ∈ a.source.references.zip b.source.references →
          (p.bind.scoping.bindAlike (fun u w => some (p.bind.model.sameLoop u w)) x y =
            some true ↔ p.denotes x = p.denotes y) := by
        intro x y hxy
        obtain ⟨hx, hy⟩ := List.of_mem_zip hxy
        refine bindAlike_iff_denotes_eq h ha hb hx hy fun role u w hu hw => ?_
        obtain ⟨humem, hrank⟩ := rank_lt_of_meaning h ha hx hu
        exact ih _ hrank humem (rank_lt_of_meaning h hb hy hw).1 rfl
      constructor
      · rintro (hid | ⟨hshape, hrefs⟩)
        · obtain rfl := eq_of_mem_copyLoops h ha hb hid
          exact ⟨(Expr.sameShape_iff_erase_eq _ _).2 rfl, rfl⟩
        · have hlength := (Expr.forall₂_references_of_sameShape hshape).length_eq
          exact ⟨hshape, (map_eq_map_iff_zip hlength).2 fun x y hxy =>
            (hpair x y hxy).1 (hrefs x y hxy)⟩
      · rintro ⟨hshape, hrefs⟩
        have hlength := (Expr.forall₂_references_of_sameShape hshape).length_eq
        exact .inr ⟨hshape, fun x y hxy =>
          (hpair x y hxy).2 ((map_eq_map_iff_zip hlength).1 hrefs x y hxy)⟩

end

/-- **The same loop is an equivalence**: that of resolved sources.  A resolved
source is the source without ids and spans, with what its references denote:
nothing, a declaration, or a role and a resolved source in turn. -/
theorem sameLoop_resolved (h : p.reusedIds = []) :
    (∀ l ∈ p.copyLoops,
      p.resolvedSource l = ⟨l.source.erase, l.source.references.map p.denotes⟩ ∧
        ∀ x ∈ l.source.references, p.Denotes x (p.denotes x)) ∧
    (∀ a ∈ p.copyLoops, ∀ b ∈ p.copyLoops,
      (p.bind.model.sameLoop a b = true ↔ p.resolvedSource a = p.resolvedSource b) ∧
      (p.bind.model.sameLoop a b = true ↔ a.source.erase = b.source.erase ∧
        List.Forall₂ (fun x y => p.denotes x = p.denotes y) a.source.references
          b.source.references)) ∧
    Equivalence fun a b : {l // l ∈ p.copyLoops} => p.bind.model.sameLoop a b = true := by
  have hiff {a b : LoopDescriptor} (ha : a ∈ p.copyLoops) (hb : b ∈ p.copyLoops) :
      p.bind.model.sameLoop a b = true ↔ p.resolvedSource a = p.resolvedSource b :=
    sameLoop_iff_resolvedSource_eq h ha hb
  refine ⟨fun l hl => ⟨resolvedSource_eq h hl, fun x hx => denotes_spec h hl hx⟩,
    fun a ha b hb => ⟨hiff ha hb, ?_⟩, ?_⟩
  · rw [hiff ha hb, resolvedSource_eq h ha, resolvedSource_eq h hb, ResolvedSource.mk.injEq,
      ← List.forall₂_eq_eq_eq, List.forall₂_map_left_iff, List.forall₂_map_right_iff]
  · exact
      { refl := fun a => (hiff a.2 a.2).2 rfl
        symm := fun {a b} hab => (hiff b.2 a.2).2 ((hiff a.2 b.2).1 hab).symm
        trans := fun {a b c} hab hbc =>
          (hiff a.2 c.2).2 (((hiff a.2 b.2).1 hab).trans ((hiff b.2 c.2).1 hbc)) }

open Assembly in
/-- Twice `for a in accounts: for c in a.containers: { }`. -/
def twins : BoundProgram :=
  let containers : Assembly Expr := do
    let accounts ← reference "accounts"
    let account ← reference "a"
    let source ← property account "containers"
    let body ← object []
    let inner ← loop "c" none source body
    loop "a" none accounts inner
  let unit : Assembly BoundProgram := do
    let accounts ← declare "accounts" (.parameter .any) none
    let first ← Scenario.bindVariable "first" (← containers)
    let second ← Scenario.bindVariable "second" (← containers)
    return .ofDeclarations [accounts, first, second]
  (unit.run 0).1

/-- The inner loops of the twins are the same loop, although each refers to the
variable of its own outer loop: the outer loops are the same loop. -/
theorem sameLoop_resolved_of_twins :
    twins.reusedIds = [] ∧ ∃ a ∈ twins.copyLoops, ∃ b ∈ twins.copyLoops, a.id ≠ b.id ∧
      twins.bind.model.sameLoop a b = true ∧ twins.resolvedSource a = twins.resolvedSource b ∧
      a.source.references.length = 1 ∧
      List.Forall₂ (fun x y => twins.denotes x = twins.denotes y) a.source.references
        b.source.references := by
  have h : twins.reusedIds = [] := by decide
  let a := twins.copyLoops.get ⟨1, by decide⟩
  let b := twins.copyLoops.get ⟨3, by decide⟩
  have ha : a ∈ twins.copyLoops := List.get_mem _ _
  have hb : b ∈ twins.copyLoops := List.get_mem _ _
  have hsame : twins.bind.model.sameLoop a b = true := by decide
  obtain ⟨hresolved, hdenotes⟩ := (sameLoop_resolved h).2.1 a ha b hb
  exact ⟨h, a, ha, b, hb, by decide, hsame, hresolved.1 hsame, by decide, (hdenotes.1 hsame).2⟩

end BoundProgram

end InfraGraph
