import Mathlib.Data.List.Forall2
import InfraGraph.Proofs.Symbol.Scopes

/-!
# The same loop

Two loops with one and the same `for` node, or with sources that look alike
and mean the same.  What a source means is decided reference by reference, and
may in turn depend on the loops around the two sources.

An answer does not change with more steps at hand, so what is found the same
on the way is the same loop to `sameLoop` as well.

The source of a loop may have loops in it.  A name that leads out of the one
source must then lead out of the other, because the loops inside bind the same
names on both sides; that is what `Alike` keeps track of.

## Main results

* `sameLoopWithin_mono` — answers do not change with more steps.
* `forall₂_located` — what it means for two expressions to look alike.
* `outer_of_sameLoop` — what the source of a loop takes from the loops around
  it, the source of the same loop takes from the same loops.
-/

namespace InfraGraph

/-! ## Steps -/

theorem allAnswers_eq_true_iff {α : Type} {question : α → Option Bool} {l : List α} :
    allAnswers question l = some true ↔ ∀ a ∈ l, question a = some true := by
  induction l with
  | nil => simp [allAnswers]
  | cons a l ih =>
      rw [List.forall_mem_cons, ← ih, allAnswers]
      cases h : question a with
      | none => simp
      | some answer => cases answer <;> simp

/-- Who answers more questions, and the others alike, answers more lists. -/
theorem allAnswers_mono {α : Type} {question question' : α → Option Bool} {l : List α}
    (h : ∀ a answer, question a = some answer → question' a = some answer) {answer : Bool}
    (hl : allAnswers question l = some answer) : allAnswers question' l = some answer := by
  induction l with
  | nil => exact hl
  | cons a l ih =>
      rw [allAnswers] at hl ⊢
      cases ha : question a with
      | none =>
          rw [ha] at hl
          cases hl
      | some first =>
          rw [h a first ha]
          rw [ha] at hl
          cases first with
          | true => exact ih hl
          | false => exact hl

section

variable {α β : Type} {question question' : α → Option Bool}

theorem allAnswers_congr {l : List α} (h : ∀ a ∈ l, question a = question' a) :
    allAnswers question l = allAnswers question' l := by
  induction l with
  | nil => rfl
  | cons a l ih =>
      obtain ⟨ha, hl⟩ := List.forall_mem_cons.1 h
      rw [allAnswers, allAnswers, ha, ih hl]

theorem allAnswers_map (f : β → α) (l : List β) :
    allAnswers question (l.map f) = allAnswers (fun b => question (f b)) l := by
  induction l with
  | nil => rfl
  | cons b l ih => rw [List.map_cons, allAnswers, allAnswers, ih]

end

namespace Scoping

variable {s : Scoping}

theorem bindAlike_mono {same same' : LoopDescriptor → LoopDescriptor → Option Bool}
    (h : ∀ a b answer, same a b = some answer → same' a b = some answer) {x y : Expr}
    {answer : Bool} (hxy : s.bindAlike same x y = some answer) :
    s.bindAlike same' x y = some answer := by
  unfold bindAlike at hxy ⊢
  split at hxy <;> try exact hxy
  split at hxy
  case isTrue hid => rwa [if_pos hid]
  case isFalse hid =>
    rw [if_neg hid]
    split at hxy <;> try exact hxy
    split at hxy
    case isFalse hrole => rwa [if_neg hrole]
    case isTrue hrole =>
      rw [if_pos hrole]
      split at hxy
      · exact h _ _ _ hxy
      · exact hxy

theorem sameLoopWithin_succ {steps : Nat} {a b : LoopDescriptor} {answer : Bool}
    (h : s.sameLoopWithin steps a b = some answer) :
    s.sameLoopWithin (steps + 1) a b = some answer := by
  induction steps generalizing a b answer with
  | zero => cases h
  | succ steps ih =>
      rw [sameLoopWithin] at h ⊢
      by_cases hid : a.id = b.id
      · rwa [if_pos hid] at h ⊢
      · rw [if_neg hid] at h ⊢
        by_cases hshape : a.source.sameShape b.source = true
        · rw [if_pos hshape] at h ⊢
          refine allAnswers_mono ?_ h
          rintro ⟨x, y⟩ answer hxy
          exact bindAlike_mono (fun _ _ _ => ih) hxy
        · rwa [if_neg hshape] at h ⊢

/-- Answers do not change with more steps. -/
theorem sameLoopWithin_mono {steps steps' : Nat} (hle : steps ≤ steps') {a b : LoopDescriptor}
    {answer : Bool} (h : s.sameLoopWithin steps a b = some answer) :
    s.sameLoopWithin steps' a b = some answer := by
  induction hle with
  | refl => exact h
  | step _ ih => exact sameLoopWithin_succ ih

/-- How two references that mean something bind alike. -/
theorem bindAlike_cases {same : LoopDescriptor → LoopDescriptor → Option Bool} {x y : Expr}
    {t : Symbol} (h : s.bindAlike same x y = some true) (ht : s.resolve y = some t) :
    ∃ r, s.resolve x = some r ∧
      (r.id = t.id ∨ ∃ loop loop' role outer outer', r.kind = .loopVariable loop role ∧
        t.kind = .loopVariable loop' role ∧ s.enclosingLoop? x.id loop = some outer ∧
        s.enclosingLoop? y.id loop' = some outer' ∧ same outer outer' = some true) := by
  unfold bindAlike at h
  rw [ht] at h
  cases hr : s.resolve x with
  | none =>
      rw [hr] at h
      cases h
  | some r =>
      refine ⟨r, rfl, ?_⟩
      rw [hr] at h
      dsimp only at h
      by_cases hid : r.id = t.id
      · exact .inl hid
      · rw [if_neg hid] at h
        right
        split at h
        case h_2 => cases h
        case h_1 loop role loop' role' hkind hkind' =>
          by_cases hrole : role = role'
          · subst hrole
            rw [if_pos rfl] at h
            split at h
            case h_2 => cases h
            case h_1 outer outer' houter houter' =>
              exact ⟨loop, loop', role, outer, outer', hkind, hkind', houter, houter', h⟩
          · rw [if_neg hrole] at h
            cases h

/-- How two loops are the same loop. -/
theorem sameLoopWithin_cases {steps : Nat} {a b : LoopDescriptor}
    (h : s.sameLoopWithin steps a b = some true) :
    a.id = b.id ∨ ∃ fewer, steps = fewer + 1 ∧ a.source.sameShape b.source = true ∧
      ∀ x y, (x, y) ∈ a.source.references.zip b.source.references →
        s.bindAlike (s.sameLoopWithin fewer) x y = some true := by
  cases steps with
  | zero => cases h
  | succ fewer =>
      by_cases hid : a.id = b.id
      · exact .inl hid
      · rw [sameLoopWithin, if_neg hid] at h
        by_cases hshape : a.source.sameShape b.source = true
        · rw [if_pos hshape] at h
          exact .inr ⟨fewer, rfl, hshape, fun x y hxy => allAnswers_eq_true_iff.1 h (x, y) hxy⟩
        · rw [if_neg hshape] at h
          cases h

theorem sameLoop_toModel_iff {loops : Nat} {a b : LoopDescriptor} :
    (s.toModel loops).sameLoop a b = true ↔
      s.sameLoopWithin (stepLimit loops) a b = some true := by
  have hsame : (s.toModel loops).sameLoop a b =
      (s.sameLoopWithin (stepLimit loops) a b).getD false := rfl
  rw [hsame]
  cases s.sameLoopWithin (stepLimit loops) a b <;> simp

/-- One `for` node is one loop. -/
theorem sameLoop_of_id_eq {loops : Nat} {a b : LoopDescriptor} (h : a.id = b.id) :
    (s.toModel loops).sameLoop a b = true := by
  have hlimit : stepLimit loops = (stepLimit loops - 1) + 1 := by
    have hpos : 0 < stepLimit loops := Nat.mul_pos (by omega) (by omega)
    omega
  rw [sameLoop_toModel_iff, hlimit, sameLoopWithin, if_pos h]

end Scoping

/-! ## Expressions that look alike -/

theorem forall₂_getElem? {α β : Type} {R : α → β → Prop} {as : List α} {bs : List β}
    (h : List.Forall₂ R as bs) {k : Nat} {b : β} (hb : bs[k]? = some b) :
    ∃ a, as[k]? = some a ∧ R a b := by
  obtain ⟨hk, rfl⟩ := List.getElem?_eq_some_iff.1 hb
  have hk' : k < as.length := h.length_eq ▸ hk
  exact ⟨as[k], List.getElem?_eq_getElem hk', h.get hk' hk⟩

/-- Loops that bind the same names in the same roles. -/
def LoopDescriptor.SameNames (l l' : LoopDescriptor) : Prop :=
  ∀ role, l.variable? role = l'.variable? role

namespace Expr

theorem forall₂_of_sameShapes {es fs : List Expr} (h : sameShapes es fs = true) :
    List.Forall₂ (fun e f => e.sameShape f = true) es fs := by
  induction es generalizing fs with
  | nil =>
      cases fs with
      | nil => exact .nil
      | cons f fs => cases h
  | cons e es ih =>
      cases fs with
      | nil => cases h
      | cons f fs =>
          rw [sameShapes, Bool.and_eq_true] at h
          exact .cons h.1 (ih h.2)

theorem forall₂_of_sameEntries {es fs : List (String × Expr)} (h : sameEntries es fs = true) :
    List.Forall₂ (fun e f => e.sameShape f = true) (es.map Prod.snd) (fs.map Prod.snd) := by
  induction es generalizing fs with
  | nil =>
      cases fs with
      | nil => exact .nil
      | cons f fs => cases h
  | cons e es ih =>
      cases fs with
      | nil => cases h
      | cons f fs =>
          rw [sameEntries, Bool.and_eq_true, Bool.and_eq_true] at h
          exact .cons h.1.2 (ih h.2)

/-- Two children of nodes that look alike: they look alike themselves, and
stand inside the same further loops. -/
def AlikeIn (outer outer' : List LoopDescriptor) (c c' : Expr × List LoopDescriptor) : Prop :=
  c.1.sameShape c'.1 = true ∧ ((c.2 = outer ∧ c'.2 = outer') ∨
    ∃ l l', l.SameNames l' ∧ c.2 = outer ++ [l] ∧ c'.2 = outer' ++ [l'])

theorem forall₂_map_alikeIn {outer outer' : List LoopDescriptor} {es fs : List Expr}
    (h : List.Forall₂ (fun e f => e.sameShape f = true) es fs) :
    List.Forall₂ (AlikeIn outer outer') (es.map (·, outer)) (fs.map (·, outer')) := by
  rw [List.forall₂_map_left_iff, List.forall₂_map_right_iff]
  exact h.imp fun e f hef => ⟨hef, .inl ⟨rfl, rfl⟩⟩

/-- Nodes that look alike have the same name, if any, and children that look
alike. -/
theorem forall₂_childrenIn {a b : Expr} (h : a.sameShape b = true)
    (outer outer' : List LoopDescriptor) :
    a.referenceName? = b.referenceName? ∧
      List.Forall₂ (AlikeIn outer outer') (a.childrenIn outer) (b.childrenIn outer') := by
  cases a <;> cases b <;> simp only [sameShape, Bool.and_eq_true, beq_iff_eq, Bool.false_eq_true]
    at h
  case interpolation.interpolation => exact ⟨rfl, forall₂_map_alikeIn (forall₂_of_sameShapes h.2)⟩
  case object.object => exact ⟨rfl, forall₂_map_alikeIn (forall₂_of_sameEntries h)⟩
  case array.array => exact ⟨rfl, forall₂_map_alikeIn (forall₂_of_sameShapes h)⟩
  case call.call => exact ⟨rfl, forall₂_map_alikeIn (forall₂_of_sameShapes h.2)⟩
  case literal.literal => exact ⟨rfl, .nil⟩
  case reference.reference => exact ⟨congrArg some h, .nil⟩
  case property.property => exact ⟨rfl, forall₂_map_alikeIn (.cons h.2 .nil)⟩
  case element.element => exact ⟨rfl, forall₂_map_alikeIn (.cons h.1 (.cons h.2 .nil))⟩
  case ternary.ternary =>
    exact ⟨rfl, forall₂_map_alikeIn (.cons h.1.1 (.cons h.1.2 (.cons h.2 .nil)))⟩
  case guarded.guarded => exact ⟨rfl, forall₂_map_alikeIn (.cons h.1 (.cons h.2 .nil))⟩
  case binary.binary => exact ⟨rfl, forall₂_map_alikeIn (.cons h.1.2 (.cons h.2 .nil))⟩
  case unary.unary => exact ⟨rfl, forall₂_map_alikeIn (.cons h.2 .nil)⟩
  case loop.loop =>
    obtain ⟨⟨⟨hitem, hindex⟩, hsource⟩, hbody⟩ := h
    refine ⟨rfl, .cons ⟨hsource, .inl ⟨rfl, rfl⟩⟩ (.cons ⟨hbody, .inr ⟨_, _, ?_, rfl, rfl⟩⟩ .nil)⟩
    intro role
    cases role with
    | item => exact congrArg some hitem
    | index => exact hindex

/-- Two nodes of expressions that look alike: they have the same name, if any,
and the further loops around them bind the same names. -/
def Alike (outer outer' : List LoopDescriptor) (n n' : Expr × List LoopDescriptor) : Prop :=
  n.1.referenceName? = n'.1.referenceName? ∧
    ∃ inner inner', n.2 = outer ++ inner ∧ n'.2 = outer' ++ inner' ∧
      List.Forall₂ LoopDescriptor.SameNames inner inner'

theorem Alike.of_snoc {outer outer' : List LoopDescriptor} {l l' : LoopDescriptor}
    {n n' : Expr × List LoopDescriptor} (hnames : l.SameNames l')
    (h : Alike (outer ++ [l]) (outer' ++ [l']) n n') : Alike outer outer' n n' := by
  obtain ⟨hname, inner, inner', hn, hn', hinner⟩ := h
  refine ⟨hname, l :: inner, l' :: inner', ?_, ?_, .cons hnames hinner⟩
  · rw [hn, List.append_assoc]
    rfl
  · rw [hn', List.append_assoc]
    rfl

/-- Expressions that look alike do so node by node. -/
theorem forall₂_located {a b : Expr} (h : a.sameShape b = true)
    (outer outer' : List LoopDescriptor) :
    List.Forall₂ (Alike outer outer') (a.located outer) (b.located outer') := by
  induction a using Expr.induction generalizing b outer outer' with
  | step a ih =>
      obtain ⟨hname, hchildren⟩ := forall₂_childrenIn h outer outer'
      rw [located_eq, located_eq]
      refine .cons ⟨hname, [], [], by simp, by simp, .nil⟩ ?_
      have hmem : List.Forall₂ (fun c d => c ∈ a.childrenIn outer ∧ AlikeIn outer outer' c d)
          (a.childrenIn outer) (b.childrenIn outer') :=
        (List.forall₂_and_left _ _).2 ⟨fun _ hc => hc, hchildren⟩
      refine List.rel_flatMap hmem ?_
      rintro c d ⟨hc, hshape, hloops⟩
      have ih := ih c.1 (mem_children_of_mem_childrenIn hc) hshape
      show List.Forall₂ (Alike outer outer') (c.1.located c.2) (d.1.located d.2)
      rcases hloops with ⟨houter, houter'⟩ | ⟨l, l', hnames, houter, houter'⟩
      · rw [houter, houter']
        exact ih outer outer'
      · rw [houter, houter']
        exact (ih _ _).imp fun _ _ => Alike.of_snoc hnames

/-- The references of an expression with the loops around them. -/
def locatedReferences (outer : List LoopDescriptor) (e : Expr) :
    List (Expr × List LoopDescriptor) :=
  (e.located outer).filter fun n => n.1.referenceName?.isSome

theorem map_fst_locatedReferences (outer : List LoopDescriptor) (e : Expr) :
    (e.locatedReferences outer).map Prod.fst = e.references := by
  rw [locatedReferences, references, ← map_fst_located outer, List.filter_map]
  rfl

theorem forall₂_locatedReferences {a b : Expr} (h : a.sameShape b = true)
    (outer outer' : List LoopDescriptor) :
    List.Forall₂ (Alike outer outer') (a.locatedReferences outer)
      (b.locatedReferences outer') := by
  refine List.rel_filter ?_ (forall₂_located h outer outer')
  intro n n' hn
  show n.1.referenceName?.isSome = true ↔ n'.1.referenceName?.isSome = true
  rw [hn.1]

end Expr

/-! ## What sources take from the loops around them -/

namespace Expr

/-- The nodes of a node stand inside the loops around it and more. -/
theorem located_subset_of_mem_located {outer chain : List LoopDescriptor} {e n : Expr}
    (h : (n, chain) ∈ e.located outer) : n.located chain ⊆ e.located outer := by
  induction e using Expr.induction generalizing outer with
  | step e ih =>
      rw [located_eq, List.mem_cons, List.mem_flatMap] at h
      rcases h with h | ⟨c, hc, hn⟩
      · obtain ⟨rfl, rfl⟩ := Prod.mk.inj h
        exact List.Subset.refl _
      · exact List.Subset.trans (ih c.1 (mem_children_of_mem_childrenIn hc) hn)
          (located_subset_of_mem_childrenIn hc)

/-- The source of a loop stands outside the loop. -/
theorem located_source_subset {n : Expr} {l : LoopDescriptor}
    (hl : LoopDescriptor.ofExpr? n = some l) (outer : List LoopDescriptor) :
    l.source.located outer ⊆ n.located outer := by
  cases n with
  | loop o item index source body =>
      obtain rfl := Option.some.inj hl
      have hmem : (source, outer) ∈ (Expr.loop o item index source body).childrenIn outer :=
        List.mem_cons_self
      exact located_subset_of_mem_childrenIn hmem
  | _ => cases hl

end Expr

namespace BoundProgram

variable {p : BoundProgram}

theorem located_subset_of_mem_located {n : Expr} {chain : List LoopDescriptor}
    (h : (n, chain) ∈ p.located) : n.located chain ⊆ p.located := by
  obtain ⟨d, hd, hn⟩ := List.mem_flatMap.1 h
  obtain ⟨value, hvalue, hn⟩ := PlacedDeclaration.mem_located.1 hn
  exact List.Subset.trans (Expr.located_subset_of_mem_located hn) (located_value_subset hd hvalue)

/-- The references in the source of a loop stand in the unit. -/
theorem located_of_reference {n : Expr} {outer chain : List LoopDescriptor} {l : LoopDescriptor}
    (hn : (n, outer) ∈ p.located) (hl : LoopDescriptor.ofExpr? n = some l) {k : Nat} {x : Expr}
    (hx : (l.source.locatedReferences outer)[k]? = some (x, chain)) : (x, chain) ∈ p.located := by
  have hmem := (List.mem_filter.1 (List.mem_of_getElem? hx)).1
  exact located_subset_of_mem_located hn (Expr.located_source_subset hl outer hmem)

/-- Symbols that references mean are known by their numbers. -/
theorem eq_of_resolve {x y : Expr} {v w : Symbol} (hv : p.bind.scoping.resolve x = some v)
    (hw : p.bind.scoping.resolve y = some w) (hid : v.id = w.id) : v = w :=
  eq_of_symbolId_eq (Binding.mem_symbols_of_resolve hv) (Binding.mem_symbols_of_resolve hw) hid

section

variable (h : p.reusedIds = [])

include h

/-- A loop variable is a variable of one of the loops around the reference,
and no loop further in binds its name. -/
theorem loopVariable_of_resolve {x : Expr} {chain : List LoopDescriptor}
    (hx : (x, chain) ∈ p.located) {v : Symbol} (hv : p.bind.scoping.resolve x = some v)
    {loop : LoopId} {role : LoopRole} (hkind : v.kind = .loopVariable loop role) :
    ∃ name outer l inner, x.referenceName? = some name ∧ chain = outer ++ l :: inner ∧
      l.id = loop ∧ p.bind.variableOf? name l = some v ∧
      ∀ l' ∈ inner, p.bind.variableOf? name l' = none := by
  obtain ⟨name, hname, hlookup⟩ := Option.bind_eq_some_iff.1 hv
  rcases Binding.lookup_cases hlookup with ⟨outer, l, inner, hchain, hvariable, hinner⟩ |
    ⟨hdeclaration, -⟩
  · rw [enclosingLoops_eq h hx] at hchain
    obtain ⟨-, -, role', hkind'⟩ := Binding.kind_of_variableOf? hvariable
    have hid : l.id = loop := (SymbolKind.loopVariable.inj (hkind'.symm.trans hkind)).1
    exact ⟨name, outer, l, inner, hname, hchain, hid, hvariable, hinner⟩
  · obtain ⟨-, -, hnot⟩ := Binding.kind_of_declarationNamed? hdeclaration
    rw [hkind] at hnot
    cases hnot

/-- Loops of a unit with the same names have a variable of a name alike. -/
theorem variableOf?_eq_none_of_sameNames {chain chain' : List LoopDescriptor}
    {l l' : LoopDescriptor} (hchain : p.Chain chain) (hl : l ∈ chain) (hchain' : p.Chain chain')
    (hl' : l' ∈ chain') (hnames : l.SameNames l') {name : String}
    (hnone : p.bind.variableOf? name l' = none) : p.bind.variableOf? name l = none := by
  obtain ⟨n, _, hn, hloop⟩ := hchain.exists_located hl
  obtain ⟨n', _, hn', hloop'⟩ := hchain'.exists_located hl'
  rw [← Option.not_isSome_iff_eq_none,
    variableOf?_isSome_iff h (mem_expressions_of_located hn) hloop]
  rw [← Option.not_isSome_iff_eq_none,
    variableOf?_isSome_iff h (mem_expressions_of_located hn') hloop'] at hnone
  rintro ⟨role, hrole⟩
  exact hnone ⟨role, (hnames role).symm.trans hrole⟩

/-- If a reference means a variable of an outer loop, no inner loop binds its
name. -/
theorem variableOf?_inner_eq_none {x : Expr} {outer inner : List LoopDescriptor}
    (hx : (x, outer ++ inner) ∈ p.located) {v : Symbol}
    (hv : p.bind.scoping.resolve x = some v) {loop : LoopDescriptor} {role : LoopRole}
    (hkind : v.kind = .loopVariable loop.id role) (hloop : loop ∈ outer) :
    ∃ name, x.referenceName? = some name ∧
      ∀ l ∈ inner, p.bind.variableOf? name l = none := by
  obtain ⟨name, before, l, after, hname, hchain, hid, -, hafter⟩ :=
    loopVariable_of_resolve h hx hv hkind
  refine ⟨name, hname, ?_⟩
  obtain ⟨outer₁, outer₂, rfl⟩ := List.append_of_mem hloop
  have hall : p.Chain (outer₁ ++ loop :: (outer₂ ++ inner)) := by
    have hx := chain_located hx
    rwa [List.append_assoc, List.cons_append] at hx
  have hsplit : p.Chain (before ++ l :: after) := hchain ▸ chain_located hx
  obtain ⟨rfl, rfl⟩ := Chain.eq_of_id_eq h hsplit hall hid
  rw [List.append_assoc, List.cons_append, List.append_cancel_left_eq] at hchain
  obtain ⟨-, rfl⟩ := List.cons.inj hchain
  intro l' hl'
  exact hafter l' (List.mem_append_right _ hl')

/-- And if no inner loop binds its name, it is a variable of an outer one. -/
theorem exists_outer_of_resolve {x : Expr} {outer inner : List LoopDescriptor}
    (hx : (x, outer ++ inner) ∈ p.located) {v : Symbol}
    (hv : p.bind.scoping.resolve x = some v) {loop : LoopId} {role : LoopRole}
    (hkind : v.kind = .loopVariable loop role) {name : String}
    (hname : x.referenceName? = some name)
    (hinner : ∀ l ∈ inner, p.bind.variableOf? name l = none) : ∃ u ∈ outer, u.id = loop := by
  obtain ⟨name', before, u, after, hname', hchain, hid, hvariable, -⟩ :=
    loopVariable_of_resolve h hx hv hkind
  obtain rfl := Option.some.inj (hname.symm.trans hname')
  have hu : u ∈ outer ++ inner := by
    rw [hchain]
    exact List.mem_append_right _ List.mem_cons_self
  rcases List.mem_append.1 hu with hu | hu
  · exact ⟨u, hu, hid⟩
  · rw [hinner u hu] at hvariable
    cases hvariable

theorem enclosingLoop?_eq {x : Expr} {chain : List LoopDescriptor} (hx : (x, chain) ∈ p.located)
    {u : LoopDescriptor} (hu : u ∈ chain) : p.bind.scoping.enclosingLoop? x.id u.id = some u := by
  have hloops : p.bind.scoping.enclosingLoops x.id = chain := enclosingLoops_eq h hx
  rw [Scoping.enclosingLoop?, hloops]
  exact (chain_located hx).find? h hu

/-- Of two references that bind alike, the one takes from the loops around it
what the other takes from those around itself. -/
theorem outer_of_bindAlike {x y : Expr} {outer outer' inner inner' : List LoopDescriptor}
    (hx : (x, outer' ++ inner') ∈ p.located) (hy : (y, outer ++ inner) ∈ p.located)
    {name : String} (hname : y.referenceName? = some name)
    (hinner : ∀ l ∈ inner, p.bind.variableOf? name l = none) {v : Symbol} {loop : LoopDescriptor}
    {role : LoopRole} (hv : p.bind.scoping.resolve x = some v)
    (hkind : v.kind = .loopVariable loop.id role) (hloop : loop ∈ outer') {steps : Nat}
    (hsteps : steps ≤ Scoping.stepLimit p.bind.loopCount)
    (hbind : p.bind.scoping.bindAlike (p.bind.scoping.sameLoopWithin steps) y x = some true) :
    ∃ w u, p.bind.scoping.resolve y = some w ∧ w.kind = .loopVariable u.id role ∧ u ∈ outer ∧
      p.bind.model.sameLoop u loop = true := by
  obtain ⟨w, hw, hcases⟩ := Scoping.bindAlike_cases hbind hv
  have houter {loop : LoopId} {role : LoopRole} (hwkind : w.kind = .loopVariable loop role) :
      ∃ u ∈ outer, u.id = loop :=
    exists_outer_of_resolve h hy hw hwkind hname hinner
  rcases hcases with hid | ⟨loopW, loopV, role', outerW, outerV, hwkind, hvkind, hfoundW, hfoundV,
    hagain⟩
  · -- Both mean one and the same variable.
    obtain rfl := eq_of_resolve hw hv hid
    obtain ⟨u, hu, huid⟩ := houter hkind
    exact ⟨w, u, hw, huid ▸ hkind, hu, Scoping.sameLoop_of_id_eq huid⟩
  · -- They mean variables of loops that were found the same with fewer steps.
    obtain ⟨rfl, rfl⟩ := SymbolKind.loopVariable.inj (hvkind.symm.trans hkind)
    obtain ⟨u, hu, rfl⟩ := houter hwkind
    rw [enclosingLoop?_eq h hy (List.mem_append_left _ hu)] at hfoundW
    rw [enclosingLoop?_eq h hx (List.mem_append_left _ hloop)] at hfoundV
    obtain rfl := Option.some.inj hfoundW
    obtain rfl := Option.some.inj hfoundV
    exact ⟨w, u, hw, hwkind, hu,
      Scoping.sameLoop_toModel_iff.2 (Scoping.sameLoopWithin_mono hsteps hagain)⟩

/-- What has its place in the one of two sources that look alike has a place in
the other, and a name that leads out of the one source leads out of the
other. -/
theorem exists_reference_of_sameShape {n n' : Expr} {outer outer' : List LoopDescriptor}
    {l l' : LoopDescriptor} (hn : (n, outer) ∈ p.located) (hl : LoopDescriptor.ofExpr? n = some l)
    (hn' : (n', outer') ∈ p.located) (hl' : LoopDescriptor.ofExpr? n' = some l')
    (hshape : l.source.sameShape l'.source = true) {k : Nat} {x : Expr} {v : Symbol}
    {loop : LoopDescriptor} {role : LoopRole} (hx : l'.source.references[k]? = some x)
    (hv : p.bind.scoping.resolve x = some v) (hkind : v.kind = .loopVariable loop.id role)
    (hloop : loop ∈ outer') :
    ∃ y name inner inner', l.source.references[k]? = some y ∧
      (x, outer' ++ inner') ∈ p.located ∧ (y, outer ++ inner) ∈ p.located ∧
      y.referenceName? = some name ∧ ∀ l ∈ inner, p.bind.variableOf? name l = none := by
  rw [← Expr.map_fst_locatedReferences outer', List.getElem?_map, Option.map_eq_some_iff] at hx
  obtain ⟨⟨x', chain'⟩, hxat, hfst⟩ := hx
  obtain rfl : x' = x := hfst
  obtain ⟨⟨y, chain⟩, hyat, hname, inner, inner', rfl, rfl, hinner⟩ :=
    forall₂_getElem? (Expr.forall₂_locatedReferences hshape outer outer') hxat
  have hy : l.source.references[k]? = some y := by
    rw [← Expr.map_fst_locatedReferences outer, List.getElem?_map, hyat]
    rfl
  have hxin := located_of_reference hn' hl' hxat
  have hyin := located_of_reference hn hl hyat
  -- The loops inside the sources bind the same names, so they bind this one on neither side.
  obtain ⟨name, hxname, hxinner⟩ := variableOf?_inner_eq_none h hxin hv hkind hloop
  refine ⟨y, name, inner, inner', hy, hxin, hyin, hname.trans hxname, ?_⟩
  intro m hm
  obtain ⟨i, hi⟩ := List.getElem?_of_mem hm
  obtain ⟨m', hm', hnames⟩ := forall₂_getElem? hinner.flip hi
  have hm' := List.mem_of_getElem? hm'
  exact variableOf?_eq_none_of_sameNames h (chain_located hyin) (List.mem_append_right _ hm)
    (chain_located hxin) (List.mem_append_right _ hm') hnames (hxinner m' hm')

/-- **What the source of a loop takes from the loops around it, the source of
the same loop takes from the same loops.** -/
theorem outer_of_sameLoop {n n' : Expr} {outer outer' : List LoopDescriptor}
    {l l' : LoopDescriptor} (hn : (n, outer) ∈ p.located) (hl : LoopDescriptor.ofExpr? n = some l)
    (hn' : (n', outer') ∈ p.located) (hl' : LoopDescriptor.ofExpr? n' = some l')
    (hsame : p.bind.model.sameLoop l l' = true) {k : Nat} {x : Expr} {v : Symbol}
    {loop : LoopDescriptor} {role : LoopRole} (hx : l'.source.references[k]? = some x)
    (hv : p.bind.scoping.resolve x = some v) (hkind : v.kind = .loopVariable loop.id role)
    (hloop : loop ∈ outer') :
    ∃ y w u, l.source.references[k]? = some y ∧ p.bind.scoping.resolve y = some w ∧
      w.kind = .loopVariable u.id role ∧ u ∈ outer ∧ p.bind.model.sameLoop u loop = true := by
  have hwithin := Scoping.sameLoop_toModel_iff.1 hsame
  rcases Scoping.sameLoopWithin_cases hwithin with hid | ⟨fewer, hsteps, hshape, hbind⟩
  · obtain ⟨rfl, rfl⟩ := eq_of_loopId_eq h hn hn' hl hl' hid
    exact ⟨x, v, loop, hx, hv, hkind, hloop, Scoping.sameLoop_of_id_eq rfl⟩
  · obtain ⟨y, name, inner, inner', hy, hxin, hyin, hname, hinner⟩ :=
      exists_reference_of_sameShape h hn hl hn' hl' hshape hx hv hkind hloop
    have hpair : (y, x) ∈ l.source.references.zip l'.source.references :=
      List.mem_of_getElem? (List.getElem?_zip_eq_some.2 ⟨hy, hx⟩)
    have hfewer : fewer ≤ Scoping.stepLimit p.bind.loopCount := by omega
    obtain ⟨w, u, hw, hwkind, hu, husame⟩ :=
      outer_of_bindAlike h hxin hyin hname hinner hv hkind hloop hfewer (hbind y x hpair)
    exact ⟨y, w, u, hy, hw, hwkind, hu, husame⟩

end

end BoundProgram

end InfraGraph
