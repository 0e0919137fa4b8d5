import InfraGraph.Proofs.Symbol.BindingOrder

/-!
# Comparing loops ends

To compare two loops is to compare what their sources mean, and where two
references mean variables of loops, those loops are compared in turn.  Each
such step leads to loops that come earlier in the order of binding, on both
sides, so no comparison goes deeper than there are loops.

`Scoping.Asks` is that step.  It looks at all references, though a comparison
stops at the first two that differ, so what is said of it holds of the
comparisons that are made.

Once it is known that comparisons end, `sameLoop` is known by the equation that
it was meant to solve, without a word on steps.

## Main results

* `isSome_of_asks` — a comparison takes one step more than those it asks for.
* `rank_lt_of_asks` — what it asks for is about earlier loops.
* `length_le_of_isChain` — so comparisons one inside the other are at most as
  many as there are loops.
* `sameLoop_iff` — when two loops are the same loop.
-/

namespace InfraGraph

/-- What a reference denotes: nothing, a declaration, or the variable of some
role of a copy loop, for which `δ` stands. -/
inductive Meaning (δ : Type) where
  | nothing
  | declaration (id : SymbolId)
  | loopVariable (role : LoopRole) (loop : δ)

/-! ## One comparison -/

theorem isSome_allAnswers {α : Type} {question : α → Option Bool} {l : List α}
    (h : ∀ a ∈ l, (question a).isSome) : (allAnswers question l).isSome := by
  induction l with
  | nil => rfl
  | cons a l ih =>
      obtain ⟨answer, ha⟩ := Option.isSome_iff_exists.1 (h a List.mem_cons_self)
      rw [allAnswers, ha]
      cases answer with
      | true => exact ih fun b hb => h b (List.mem_cons_of_mem _ hb)
      | false => rfl

namespace Scoping

variable {s : Scoping}

/-- What a reference node denotes. -/
def meaning (s : Scoping) (x : Expr) : Meaning LoopDescriptor :=
  match s.resolve x with
  | none => .nothing
  | some v =>
    match v.kind with
    | .loopVariable loop role =>
      match s.enclosingLoop? x.id loop with
      | some l => .loopVariable role l
      | none => .nothing
    | _ => .declaration v.id

theorem meaning_of_none {x : Expr} (h : s.resolve x = none) : s.meaning x = .nothing := by
  rw [meaning, h]

theorem meaning_of_loopVariable {x : Expr} {v : Symbol} {loop : LoopId} {role : LoopRole}
    {l : LoopDescriptor} (hv : s.resolve x = some v) (hkind : v.kind = .loopVariable loop role)
    (hl : s.enclosingLoop? x.id loop = some l) : s.meaning x = .loopVariable role l := by
  simp only [meaning, hv, hkind, hl]

theorem meaning_of_declaration {x : Expr} {v : Symbol} (hv : s.resolve x = some v)
    (hkind : v.kind.isLoopVariable = false) : s.meaning x = .declaration v.id := by
  rw [meaning, hv]
  cases hv' : v.kind <;> simp_all [SymbolKind.isLoopVariable]

/-- A reference that denotes a variable is inside the loop that binds it. -/
theorem resolve_of_meaning {x : Expr} {role : LoopRole} {l : LoopDescriptor}
    (h : s.meaning x = .loopVariable role l) :
    ∃ v loop, s.resolve x = some v ∧ v.kind = .loopVariable loop role ∧
      s.enclosingLoop? x.id loop = some l := by
  unfold meaning at h
  split at h
  case h_1 => cases h
  case h_2 v hv =>
    split at h
    case h_2 => cases h
    case h_1 loop role' hkind =>
      split at h
      case h_2 => cases h
      case h_1 l' hl =>
        obtain ⟨rfl, rfl⟩ := Meaning.loopVariable.inj h
        exact ⟨v, loop, hv, hkind, hl⟩

/-- The comparisons that the comparison of two loops may ask for: those of the
loops whose variables two references at one place of the sources denote. -/
inductive Asks (s : Scoping) :
    LoopDescriptor × LoopDescriptor → LoopDescriptor × LoopDescriptor → Prop
  | intro {a b u w : LoopDescriptor} {x y : Expr} {role : LoopRole} :
      a.id ≠ b.id → a.source.sameShape b.source = true →
      (x, y) ∈ a.source.references.zip b.source.references →
      s.meaning x = .loopVariable role u → s.meaning y = .loopVariable role w →
      Asks s (a, b) (u, w)

/-- How two references bind depends on the loops whose variables they denote
and on no other. -/
theorem bindAlike_congr {same same' : LoopDescriptor → LoopDescriptor → Option Bool} {x y : Expr}
    (h : ∀ role u w, s.meaning x = .loopVariable role u → s.meaning y = .loopVariable role w →
      same u w = same' u w) : s.bindAlike same x y = s.bindAlike same' x y := by
  unfold bindAlike
  split
  case h_2 v v' hv hv' =>
    split
    case isTrue => rfl
    case isFalse =>
      split
      case h_1 loop role loop' role' hkind hkind' =>
        split
        case isTrue hrole =>
          subst hrole
          split
          case h_1 u w hu hw =>
            exact h role u w (meaning_of_loopVariable hv hkind hu)
              (meaning_of_loopVariable hv' hkind' hw)
          case h_2 => rfl
        case isFalse => rfl
      case h_2 => rfl
  all_goals rfl

theorem isSome_bindAlike {same : LoopDescriptor → LoopDescriptor → Option Bool} {x y : Expr}
    (h : ∀ role u w, s.meaning x = .loopVariable role u → s.meaning y = .loopVariable role w →
      (same u w).isSome) : (s.bindAlike same x y).isSome := by
  have hsame : s.bindAlike same x y = s.bindAlike (fun u w => some ((same u w).getD false)) x y :=
    bindAlike_congr fun role u w hx hy => by
      obtain ⟨answer, hanswer⟩ := Option.isSome_iff_exists.1 (h role u w hx hy)
      rw [hanswer, Option.getD_some]
  rw [hsame]
  unfold bindAlike
  repeat' split
  all_goals rfl

/-- A declaration is like itself and nothing else. -/
theorem bindAlike_of_declaration {same : LoopDescriptor → LoopDescriptor → Option Bool}
    {x y : Expr} {v w : Symbol} (hv : s.resolve x = some v) (hw : s.resolve y = some w)
    (hkind : v.kind.isLoopVariable = false ∨ w.kind.isLoopVariable = false) :
    s.bindAlike same x y = some (decide (v.id = w.id)) := by
  simp only [bindAlike, hv, hw]
  by_cases hid : v.id = w.id
  · rw [if_pos hid, decide_eq_true hid]
  · rw [if_neg hid, decide_eq_false hid]
    split
    case h_2 => rfl
    case h_1 hkindv hkindw =>
      rw [hkindv, hkindw] at hkind
      rcases hkind with hkind | hkind <;> cases hkind

/-- A comparison is settled one step after all those it asks for. -/
theorem isSome_of_asks {steps : Nat} {a b : LoopDescriptor}
    (h : ∀ u w, s.Asks (a, b) (u, w) → (s.sameLoopWithin steps u w).isSome) :
    (s.sameLoopWithin (steps + 1) a b).isSome := by
  rw [sameLoopWithin]
  by_cases hid : a.id = b.id
  · rw [if_pos hid]
    rfl
  · rw [if_neg hid]
    by_cases hshape : a.source.sameShape b.source = true
    · rw [if_pos hshape]
      refine isSome_allAnswers ?_
      rintro ⟨x, y⟩ hxy
      exact isSome_bindAlike fun role u w hx hy => h u w (.intro hid hshape hxy hx hy)
    · rw [if_neg hshape]
      rfl

end Scoping

/-! ## Comparisons in a unit -/

namespace BoundProgram

variable {p : BoundProgram} (h : p.reusedIds = [])

include h

/-- The references in the source of a loop stand in the unit, and the loops
around them come earlier. -/
theorem exists_chain_of_reference {l : LoopDescriptor} (hl : l ∈ p.copyLoops) {x : Expr}
    (hx : x ∈ l.source.references) :
    ∃ chain, (x, chain) ∈ p.located ∧ ∀ u ∈ chain, p.rank u < p.rank l := by
  obtain ⟨n, outer, hn, hnode⟩ := mem_copyLoops.1 hl
  rw [← Expr.map_fst_locatedReferences outer, List.mem_map] at hx
  obtain ⟨⟨_, chain⟩, hmem, rfl⟩ := hx
  have hsource := (List.mem_filter.1 hmem).1
  exact ⟨chain, located_subset_of_mem_located hn (Expr.located_source_subset hnode outer hsource),
    fun u hu => rank_lt h hn hnode hsource hu⟩

/-- A loop whose variable the source of another loop refers to comes earlier. -/
theorem rank_lt_of_meaning {l u : LoopDescriptor} (hl : l ∈ p.copyLoops) {x : Expr}
    (hx : x ∈ l.source.references) {role : LoopRole}
    (hu : p.bind.scoping.meaning x = .loopVariable role u) :
    u ∈ p.copyLoops ∧ p.rank u < p.rank l := by
  obtain ⟨chain, hmem, hrank⟩ := exists_chain_of_reference h hl hx
  obtain ⟨_, loop, -, -, hfound⟩ := Scoping.resolve_of_meaning hu
  have hloops : p.bind.scoping.enclosingLoops x.id = chain := enclosingLoops_eq h hmem
  rw [Scoping.enclosingLoop?, hloops] at hfound
  have huchain := List.mem_of_find?_eq_some hfound
  exact ⟨(chain_located hmem).subset_copyLoops huchain, hrank u huchain⟩

/-- What a comparison asks for is about loops of the unit that come earlier. -/
theorem rank_lt_of_asks {a b u w : LoopDescriptor} (ha : a ∈ p.copyLoops) (hb : b ∈ p.copyLoops)
    (hasks : p.bind.scoping.Asks (a, b) (u, w)) :
    u ∈ p.copyLoops ∧ w ∈ p.copyLoops ∧ p.rank u < p.rank a := by
  cases hasks with
  | intro _ _ hxy hx hy =>
      obtain ⟨hxa, hyb⟩ := List.of_mem_zip hxy
      obtain ⟨hu, hrank⟩ := rank_lt_of_meaning h ha hxa hx
      exact ⟨hu, (rank_lt_of_meaning h hb hyb hy).1, hrank⟩

/-- **Comparisons one inside the other** are at most as many as there are loops
up to the first one compared. -/
theorem length_le_of_isChain {calls : List (LoopDescriptor × LoopDescriptor)}
    {a b : LoopDescriptor} (ha : a ∈ p.copyLoops) (hb : b ∈ p.copyLoops)
    (hcalls : ((a, b) :: calls).IsChain p.bind.scoping.Asks) :
    ((a, b) :: calls).length ≤ p.rank a + 1 := by
  induction calls generalizing a b with
  | nil => simp
  | cons call calls ih =>
      obtain ⟨hasks, hcalls⟩ := List.isChain_cons_cons.1 hcalls
      obtain ⟨hu, hw, hrank⟩ := rank_lt_of_asks h ha hb hasks
      have ih := ih hu hw hcalls
      simp only [List.length_cons] at ih ⊢
      omega

/-- A comparison is settled within the place of the first loop. -/
theorem isSome_sameLoopWithin {steps : Nat} {a b : LoopDescriptor} (ha : a ∈ p.copyLoops)
    (hb : b ∈ p.copyLoops) (hsteps : p.rank a < steps) :
    (p.bind.scoping.sameLoopWithin steps a b).isSome := by
  induction steps generalizing a b with
  | zero => omega
  | succ steps ih =>
      refine Scoping.isSome_of_asks fun u w hasks => ?_
      obtain ⟨hu, hw, hrank⟩ := rank_lt_of_asks h ha hb hasks
      exact ih hu hw (by omega)

/-- However many steps it takes, the answer is that of the model. -/
theorem sameLoopWithin_eq {steps : Nat} {a b : LoopDescriptor} (ha : a ∈ p.copyLoops)
    (hb : b ∈ p.copyLoops) (hsteps : p.rank a < steps) :
    p.bind.scoping.sameLoopWithin steps a b = some (p.bind.model.sameLoop a b) := by
  obtain ⟨answer, hanswer⟩ := Option.isSome_iff_exists.1 (isSome_sameLoopWithin h ha hb hsteps)
  obtain ⟨settled, hsettled⟩ :=
    Option.isSome_iff_exists.1 (isSome_sameLoopWithin h ha hb (Nat.lt_succ_self _))
  have hlimit : p.rank a + 1 ≤ Scoping.stepLimit p.bind.loopCount := by
    have hrank := rank_lt_length ha
    have hsquare : p.bind.loopCount + 2 ≤ (p.bind.loopCount + 2) * (p.bind.loopCount + 2) :=
      Nat.le_mul_of_pos_left _ (by omega)
    rw [Scoping.stepLimit]
    omega
  have hmodel : p.bind.model.sameLoop a b =
      (p.bind.scoping.sameLoopWithin (Scoping.stepLimit p.bind.loopCount) a b).getD false := rfl
  have hagain := Scoping.sameLoopWithin_mono (Nat.succ_le_of_lt hsteps) hsettled
  rw [hmodel, Scoping.sameLoopWithin_mono hlimit hsettled, hagain, Option.getD_some]

/-- **When two loops are the same loop**: they are one, or their sources look
alike and bind alike, reference by reference. -/
theorem sameLoop_iff {a b : LoopDescriptor} (ha : a ∈ p.copyLoops) (hb : b ∈ p.copyLoops) :
    p.bind.model.sameLoop a b = true ↔
      a.id = b.id ∨ a.source.sameShape b.source = true ∧
        ∀ x y, (x, y) ∈ a.source.references.zip b.source.references →
          p.bind.scoping.bindAlike (fun u w => some (p.bind.model.sameLoop u w)) x y =
            some true := by
  have hsettled := sameLoopWithin_eq h ha hb (Nat.lt_succ_self (p.rank a))
  rw [← Option.some_inj, ← hsettled, Scoping.sameLoopWithin]
  by_cases hid : a.id = b.id
  · simp [hid]
  · rw [if_neg hid, or_iff_right hid]
    by_cases hshape : a.source.sameShape b.source = true
    · rw [if_pos hshape, allAnswers_eq_true_iff, and_iff_right hshape, Prod.forall]
      refine forall_congr' fun x => forall_congr' fun y => imp_congr_right fun hxy => ?_
      obtain ⟨hx, hy⟩ := List.of_mem_zip hxy
      rw [Scoping.bindAlike_congr fun role u w hu hw => ?_]
      obtain ⟨humem, hrank⟩ := rank_lt_of_meaning h ha hx hu
      exact (sameLoopWithin_eq h humem (rank_lt_of_meaning h hb hy hw).1 hrank).symm
    · simp [hshape]

end BoundProgram

end InfraGraph
