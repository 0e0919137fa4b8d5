import Mathlib.Data.List.Perm.Basic
import InfraGraph.Proofs.Symbol.SameLoop

/-!
# The order of binding

The copy loops of a unit in the order in which binding declares their
variables: a loop after those in its source and before those in its body, and
the loops of a declaration before those of the declarations nested in it.

A variable that the source of a loop refers to is bound by a loop around that
loop or by one inside the source, and both come earlier.  So the place of a
loop in this order, its `rank`, goes down from a loop to the loops that its
source depends on.  Nothing about the shape of the tree does: that step leads
outwards in the one case and inwards in the other.

## Main results

* `boundLoops_perm` — the order lists every loop once.
* `cons_boundLoops_sublist` — a loop comes before all loops inside it.
* `rank_lt` — and after all loops that its source depends on.
-/

namespace InfraGraph

theorem sublist_flatMap_of_mem {α β : Type} {f : α → List β} {a : α} {l : List α} (h : a ∈ l) :
    (f a).Sublist (l.flatMap f) := by
  rw [List.flatMap_def]
  exact List.sublist_flatten_of_mem (List.mem_map_of_mem h)

theorem LoopDescriptor.ofExpr?_eq_none_iff {e : Expr} : ofExpr? e = none ↔ e.isLoop = false := by
  cases e <;> simp [ofExpr?, Expr.isLoop]

/-! ## Loops of an expression -/

namespace Expr

/-- The copy loops of an expression in the order of binding. -/
def boundLoops : Expr → List LoopDescriptor
  | .loop o item index source body =>
    source.boundLoops ++ ⟨⟨o.id⟩, item, index, source, o.span⟩ :: body.boundLoops
  | e => e.children.attach.flatMap fun c => boundLoops c.1
termination_by e => sizeOf e
decreasing_by
  · simp only [loop.sizeOf_spec]
    omega
  · simp only [loop.sizeOf_spec]
    omega
  · exact sizeOf_lt_of_mem_children c.2

theorem boundLoops_loop (o : Origin) (item : String) (index : Option String) (source body : Expr) :
    (Expr.loop o item index source body).boundLoops =
      source.boundLoops ++ ⟨⟨o.id⟩, item, index, source, o.span⟩ :: body.boundLoops := by
  rw [boundLoops]

theorem boundLoops_of_not_loop {e : Expr} (h : e.isLoop = false) :
    e.boundLoops = e.children.flatMap boundLoops := by
  rw [boundLoops]
  · rw [List.flatMap_subtype (g := boundLoops) fun _ _ => rfl, List.unattach_attach]
  · rintro o item index source body rfl
    cases h

/-- Every `for` node is listed once. -/
theorem boundLoops_perm (e : Expr) :
    e.boundLoops.Perm (e.preorder.filterMap LoopDescriptor.ofExpr?) := by
  induction e using Expr.induction with
  | step e ih =>
      have hchildren : (e.children.flatMap boundLoops).Perm
          ((e.children.flatMap preorder).filterMap LoopDescriptor.ofExpr?) := by
        rw [List.filterMap_flatMap]
        exact List.Perm.flatMap_left _ ih
      rw [preorder_eq]
      cases hloop : e.isLoop with
      | false =>
          rw [boundLoops_of_not_loop hloop,
            List.filterMap_cons_none (LoopDescriptor.ofExpr?_eq_none_iff.2 hloop)]
          exact hchildren
      | true =>
          cases e with
          | loop o item index source body =>
              simp only [children, List.flatMap_cons, List.flatMap_nil, List.append_nil]
                at hchildren
              rw [boundLoops_loop, List.filterMap_cons_some (by rfl)]
              refine List.perm_middle.trans (List.Perm.cons _ ?_)
              simpa only [children, List.flatMap_cons, List.flatMap_nil, List.append_nil]
                using hchildren
          | _ => cases hloop

/-- A loop of the order is the descriptor of one of the nodes. -/
theorem mem_boundLoops {e : Expr} {l : LoopDescriptor} :
    l ∈ e.boundLoops ↔ ∃ n ∈ e.preorder, LoopDescriptor.ofExpr? n = some l := by
  rw [e.boundLoops_perm.mem_iff, List.mem_filterMap]

/-- The loops around a child come before the loops in it. -/
theorem boundLoops_of_mem_childrenIn {outer : List LoopDescriptor} {e : Expr}
    {c : Expr × List LoopDescriptor} (h : c ∈ e.childrenIn outer) :
    c.1.boundLoops.Sublist e.boundLoops ∧
      (c.2 = outer ∨ ∃ l, c.2 = outer ++ [l] ∧ (l :: c.1.boundLoops).Sublist e.boundLoops) := by
  cases hloop : e.isLoop with
  | false =>
      have hmem := mem_children_of_mem_childrenIn h
      rw [boundLoops_of_not_loop hloop]
      refine ⟨sublist_flatMap_of_mem hmem, .inl ?_⟩
      rcases childrenIn_cases h with heq | ⟨l, hl, -⟩
      · exact heq
      · rw [LoopDescriptor.ofExpr?_eq_none_iff.2 hloop] at hl
        cases hl
  | true =>
      cases e with
      | loop o item index source body =>
          rw [boundLoops_loop]
          simp only [childrenIn, List.mem_cons, List.not_mem_nil, or_false] at h
          rcases h with rfl | rfl
          · exact ⟨List.sublist_append_left _ _, .inl rfl⟩
          · exact ⟨(List.sublist_cons_self _ _).trans (List.sublist_append_right _ _),
              .inr ⟨_, rfl, List.sublist_append_right _ _⟩⟩
      | _ => cases hloop

/-- The loops that an expression puts around one of its nodes come before the
loops in that node. -/
theorem boundLoops_of_mem_located {outer chain : List LoopDescriptor} {e n : Expr}
    (h : (n, chain) ∈ e.located outer) :
    n.boundLoops.Sublist e.boundLoops ∧ ∃ inner, chain = outer ++ inner ∧
      ∀ u ∈ inner, (u :: n.boundLoops).Sublist e.boundLoops := by
  induction e using Expr.induction generalizing outer with
  | step e ih =>
      rw [located_eq, List.mem_cons, List.mem_flatMap] at h
      rcases h with h | ⟨c, hc, hn⟩
      · obtain ⟨rfl, rfl⟩ := Prod.mk.inj h
        exact ⟨List.Sublist.refl _, [], (List.append_nil _).symm, by simp⟩
      · obtain ⟨hsub, inner, hchain, hinner⟩ := ih c.1 (mem_children_of_mem_childrenIn hc) hn
        obtain ⟨hc, houter | ⟨l, houter, hl⟩⟩ := boundLoops_of_mem_childrenIn hc
        · exact ⟨hsub.trans hc, inner, by rw [hchain, houter],
            fun u hu => (hinner u hu).trans hc⟩
        · refine ⟨hsub.trans hc, l :: inner, by rw [hchain, houter, List.append_assoc]; rfl, ?_⟩
          intro u hu
          rcases List.mem_cons.1 hu with rfl | hu
          · exact (hsub.cons_cons u).trans hl
          · exact (hinner u hu).trans hc

end Expr

/-! ## Loops of a unit -/

/-- The copy loops in a declaration's own value, in the order of binding. -/
def Declaration.boundLoops (d : Declaration) : List LoopDescriptor :=
  match d.value with
  | none => []
  | some value => value.boundLoops

/-- The loop of a declaration is one of those in its value. -/
theorem Declaration.mem_boundLoops_of_ownLoop? {d : Declaration} {l : LoopDescriptor}
    (h : d.ownLoop? = some l) : l ∈ d.boundLoops := by
  rw [ownLoop?] at h
  split at h
  case isFalse => cases h
  case isTrue =>
    obtain ⟨value, hvalue, hl⟩ := Option.bind_eq_some_iff.1 h
    rw [boundLoops, hvalue]
    exact Expr.mem_boundLoops.2 ⟨value, by simp [Expr.preorder_eq value], hl⟩

/-- The loops that a declaration puts around those nested in it come before the
loops in their values. -/
theorem Declaration.boundLoops_of_mem_placements {d : Declaration} {parent : Option String}
    {outer : List LoopDescriptor} {placed : PlacedDeclaration}
    (h : placed ∈ d.placements parent outer) :
    ∃ inner, placed.outer = outer ++ inner ∧ ∀ u ∈ inner,
      (u :: placed.declaration.boundLoops).Sublist (d.flatten.flatMap boundLoops) := by
  induction d using Declaration.induction generalizing parent outer with
  | step d ih =>
      rw [placements_eq, List.mem_cons, List.mem_flatMap] at h
      rw [flatten_eq, List.flatMap_cons, List.flatMap_assoc]
      rcases h with rfl | ⟨c, hc, hplaced⟩
      · exact ⟨[], (List.append_nil _).symm, by simp⟩
      · obtain ⟨inner, houter, hinner⟩ := ih c hc hplaced
        have hnested : (c.flatten.flatMap boundLoops).Sublist
            (d.children.flatMap fun c => c.flatten.flatMap boundLoops) :=
          sublist_flatMap_of_mem (f := fun c => c.flatten.flatMap boundLoops) hc
        refine ⟨d.ownLoop?.toList ++ inner, by rw [houter, List.append_assoc], ?_⟩
        intro u hu
        rcases List.mem_append.1 hu with hu | hu
        · -- The own loop is among those of the value, which come before the nested ones.
          have hown := mem_boundLoops_of_ownLoop? (Option.mem_toList.1 hu)
          have hmem : placed.declaration ∈ c.flatten := by
            rw [← map_declaration_placements]
            exact List.mem_map_of_mem hplaced
          have hplacedLoops := (sublist_flatMap_of_mem (f := boundLoops) hmem).trans hnested
          exact (List.singleton_sublist.2 hown).append hplacedLoops
        · exact (hinner u hu).trans (hnested.trans (List.sublist_append_right _ _))

namespace BoundProgram

/-- The descriptors of the `for` nodes of a unit. -/
def copyLoops (p : BoundProgram) : List LoopDescriptor :=
  p.expressions.filterMap LoopDescriptor.ofExpr?

/-- The copy loops of a unit in the order of binding. -/
def boundLoops (p : BoundProgram) : List LoopDescriptor :=
  p.allDeclarations.flatMap Declaration.boundLoops

/-- The place of a loop in the order of binding. -/
def rank (p : BoundProgram) (l : LoopDescriptor) : Nat :=
  (p.boundLoops.map (·.id)).idxOf l.id

variable {p : BoundProgram}

theorem boundLoops_perm (p : BoundProgram) : p.boundLoops.Perm p.copyLoops := by
  rw [boundLoops, copyLoops, expressions, List.filterMap_flatMap]
  refine List.Perm.flatMap_left _ fun d _ => ?_
  rw [Declaration.boundLoops, Declaration.valueNodes]
  cases d.value with
  | none => exact List.Perm.refl _
  | some value => exact value.boundLoops_perm

theorem length_copyLoops (p : BoundProgram) : p.copyLoops.length = p.bind.loopCount := by
  have hcount : p.bind.loopCount = p.expressions.countP Expr.isLoop := rfl
  rw [hcount, copyLoops, List.length_filterMap_eq_countP]
  refine List.countP_congr fun e _ => ?_
  cases e <;> simp [LoopDescriptor.ofExpr?, Expr.isLoop]

theorem mem_copyLoops {l : LoopDescriptor} :
    l ∈ p.copyLoops ↔ ∃ n outer, (n, outer) ∈ p.located ∧ LoopDescriptor.ofExpr? n = some l := by
  rw [copyLoops, List.mem_filterMap]
  constructor
  · rintro ⟨n, hn, hl⟩
    obtain ⟨outer, hn⟩ := exists_located hn
    exact ⟨n, outer, hn, hl⟩
  · rintro ⟨n, outer, hn, hl⟩
    exact ⟨n, mem_expressions_of_located hn, hl⟩

theorem Chain.subset_copyLoops {chain : List LoopDescriptor} (h : p.Chain chain) :
    chain ⊆ p.copyLoops :=
  fun _ hl => mem_copyLoops.2 (h.exists_located hl)

/-- The loops around a node come before the loops in it. -/
theorem cons_boundLoops_sublist {n : Expr} {chain : List LoopDescriptor}
    (hn : (n, chain) ∈ p.located) :
    n.boundLoops.Sublist p.boundLoops ∧
      ∀ u ∈ chain, (u :: n.boundLoops).Sublist p.boundLoops := by
  obtain ⟨d, hd, hn⟩ := List.mem_flatMap.1 hn
  have hplaced := hd
  rw [placements_eq_flatMap, List.mem_flatMap] at hplaced
  obtain ⟨root, hroot, hplaced⟩ := hplaced
  obtain ⟨outer, houter, hbefore⟩ := Declaration.boundLoops_of_mem_placements hplaced
  have hrootLoops : (root.flatten.flatMap Declaration.boundLoops).Sublist p.boundLoops := by
    rw [boundLoops, allDeclarations, List.flatMap_assoc]
    exact sublist_flatMap_of_mem (f := fun d => d.flatten.flatMap Declaration.boundLoops) hroot
  have hdeclaration : d.declaration.boundLoops.Sublist p.boundLoops :=
    sublist_flatMap_of_mem (mem_allDeclarations.2 ⟨d, hd, rfl⟩)
  obtain ⟨value, hvalue, hn⟩ := PlacedDeclaration.mem_located.1 hn
  rw [Declaration.boundLoops, hvalue] at hbefore hdeclaration
  obtain ⟨hsub, inner, rfl, hinner⟩ := Expr.boundLoops_of_mem_located hn
  refine ⟨hsub.trans hdeclaration, fun u hu => ?_⟩
  rcases List.mem_append.1 hu with hu | hu
  · rw [houter] at hu
    exact ((hsub.cons_cons u).trans (hbefore u hu)).trans hrootLoops
  · exact (hinner u hu).trans hdeclaration

/-! ## The place in the order -/

section

variable (h : p.reusedIds = [])

include h

theorem eq_of_mem_copyLoops {a b : LoopDescriptor} (ha : a ∈ p.copyLoops) (hb : b ∈ p.copyLoops)
    (hid : a.id = b.id) : a = b := by
  obtain ⟨_, _, hn, ha⟩ := mem_copyLoops.1 ha
  obtain ⟨_, _, hn', hb⟩ := mem_copyLoops.1 hb
  exact (eq_of_loopId_eq h hn hn' ha hb hid).1

theorem nodup_boundLoops : (p.boundLoops.map (·.id)).Nodup := by
  have hsub (es : List Expr) : ((es.filterMap LoopDescriptor.ofExpr?).map (·.id.node)).Sublist
      (es.map Expr.id) := by
    induction es with
    | nil => exact List.nil_sublist _
    | cons e es ih =>
        cases hl : LoopDescriptor.ofExpr? e with
        | none =>
            rw [List.filterMap_cons_none hl]
            exact ih.cons _
        | some l =>
            have hid : l.id.node = e.id := congrArg LoopId.node (LoopDescriptor.id_of_ofExpr? hl)
            rw [List.filterMap_cons_some hl, List.map_cons, List.map_cons, hid]
            exact ih.cons_cons _
  rw [((p.boundLoops_perm).map _).nodup_iff]
  refine List.Nodup.of_map LoopId.node ?_
  rw [List.map_map]
  exact (hsub p.expressions).nodup (nodup_expressionIds h)

theorem rank_lt_of_sublist {u l : LoopDescriptor} (hul : [u, l].Sublist p.boundLoops) :
    p.rank u < p.rank l := by
  obtain ⟨before, after, heq, hu, hl⟩ := List.cons_sublist_iff.1 hul
  have hnodup := nodup_boundLoops h
  rw [rank, rank, heq, List.map_append]
  rw [heq, List.map_append, List.nodup_append] at hnodup
  have hu : u.id ∈ before.map (·.id) := List.mem_map_of_mem hu
  have hl : l.id ∈ after.map (·.id) := List.mem_map_of_mem (List.singleton_sublist.1 hl)
  have hnot : l.id ∉ before.map (·.id) := fun hl' => hnodup.2.2 _ hl' _ hl rfl
  rw [List.idxOf_append_of_mem hu, List.idxOf_append_of_notMem hnot]
  have hlt := List.idxOf_lt_length_of_mem hu
  omega

omit h in
theorem rank_lt_length {l : LoopDescriptor} (hl : l ∈ p.copyLoops) :
    p.rank l < p.bind.loopCount := by
  rw [← length_copyLoops, ← (p.boundLoops_perm).length_eq, ← List.length_map (·.id), rank]
  exact List.idxOf_lt_length_of_mem (List.mem_map_of_mem ((p.boundLoops_perm).mem_iff.2 hl))

/-- **A loop comes after all loops that its source depends on**: those around
the nodes of the source. -/
theorem rank_lt {n : Expr} {outer : List LoopDescriptor} {l : LoopDescriptor}
    (hn : (n, outer) ∈ p.located) (hl : LoopDescriptor.ofExpr? n = some l) {x : Expr}
    {chain : List LoopDescriptor} (hx : (x, chain) ∈ l.source.located outer) {u : LoopDescriptor}
    (hu : u ∈ chain) : p.rank u < p.rank l := by
  refine rank_lt_of_sublist h ?_
  obtain ⟨hnode, haround⟩ := cons_boundLoops_sublist hn
  cases n with
  | loop o item index source body =>
      obtain rfl := Option.some.inj hl
      obtain ⟨-, inner, rfl, hinner⟩ := Expr.boundLoops_of_mem_located hx
      rw [Expr.boundLoops_loop] at hnode haround
      rcases List.mem_append.1 hu with hu | hu
      · -- A loop around this one.
        refine List.Sublist.trans (List.Sublist.cons_cons _ ?_) (haround u hu)
        exact List.singleton_sublist.2 (List.mem_append_right _ List.mem_cons_self)
      · -- A loop inside the source.
        have hsource := List.singleton_sublist.2 ((hinner u hu).subset List.mem_cons_self)
        refine List.Sublist.trans (hsource.append ?_) hnode
        exact List.singleton_sublist.2 List.mem_cons_self
  | _ => cases hl

end

end BoundProgram

end InfraGraph
