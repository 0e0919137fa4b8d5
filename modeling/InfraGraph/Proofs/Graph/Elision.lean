import Mathlib.Data.List.Perm.Basic
import InfraGraph.Graph.Basic
import InfraGraph.Proofs.Graph.Lowering
import InfraGraph.Proofs.Tree.Nodes

/-!
# Which nodes lowering keeps

Lowering leaves out what fails: references to nothing or to an output, and
then every node above them up to the next object or list.  This file says so
without spines, over the bare tree, and counts the nodes that are left.

A node may be kept in two ways, as an operation or as a bracket folded into
the context of a reference.  `Operation.accounted` lists both.  Folding moves
brackets to another place of the list, so the count is up to order.

## Main results

* `lower_eq_none_iff` — an expression becomes no operation exactly if it
  fails.
* `accounted_perm` — the operation of an expression accounts for its
  survivors, each once.
-/

namespace InfraGraph

variable {m : SymbolModel}

/-! ## Failing and surviving -/

namespace Expr

/-- Whether an expression fails: it is a reference to nothing or to an output,
or it is neither an object nor a list and has a failing child. -/
def fails (m : SymbolModel) : Expr → Bool
  | .reference o name => (m.lookup name o.id).all fun s => s.kind == .output
  | e => !e.isCollection && e.children.attach.any fun c => fails m c.1
termination_by e => sizeOf e
decreasing_by exact sizeOf_lt_of_mem_children c.2

theorem fails_reference (o : Origin) (name : String) :
    (Expr.reference o name).fails m = (m.lookup name o.id).all fun s => s.kind == .output := by
  rw [fails]

theorem fails_element (o : Origin) (base index : Expr) :
    (Expr.element o base index).fails m = (base.fails m || index.fails m) := by
  rw [fails]
  · simp [isCollection, children]
  · intro o name h
    cases h

theorem fails_plain {e : Expr} (h : e.isPlain = true) :
    e.fails m = (!e.isCollection && e.children.any (fails m)) := by
  rw [fails]
  · rw [List.any_subtype (g := fails m) fun _ _ => rfl, List.unattach_attach]
  · rintro o name rfl
    cases h

/-- Whether a node is met on the way down from a root without passing a
failing node: neither the node nor any that encloses it fails. -/
inductive Survives (m : SymbolModel) : Expr → Expr → Prop
  | root {e} : e.fails m = false → Survives m e e
  | child {e c n} : e.fails m = false → c ∈ e.children → Survives m c n → Survives m e n

/-- The nodes that survive, each before its children. -/
def survivors (m : SymbolModel) (e : Expr) : List Expr :=
  if e.fails m then [] else e :: e.children.attach.flatMap fun c => survivors m c.1
termination_by sizeOf e
decreasing_by exact sizeOf_lt_of_mem_children c.2

theorem survivors_of_fails {e : Expr} (h : e.fails m = true) : e.survivors m = [] := by
  rw [survivors, if_pos h]

theorem survivors_of_not_fails {e : Expr} (h : e.fails m = false) :
    e.survivors m = e :: e.children.flatMap (survivors m) := by
  rw [survivors, if_neg (by simp [h])]
  simp

theorem mem_survivors {e n : Expr} : n ∈ e.survivors m ↔ e.Survives m n := by
  induction e using Expr.induction with
  | step e ih =>
      cases h : e.fails m with
      | true =>
          rw [survivors_of_fails h]
          constructor
          · intro hn
            cases hn
          · intro hn
            cases hn <;> simp_all
      | false =>
          rw [survivors_of_not_fails h, List.mem_cons, List.mem_flatMap]
          constructor
          · rintro (rfl | ⟨c, hc, hn⟩)
            · exact .root h
            · exact .child h hc ((ih c hc).1 hn)
          · intro hn
            cases hn with
            | root => exact .inl rfl
            | child _ hc hn => exact .inr ⟨_, hc, (ih _ hc).2 hn⟩

theorem survivors_sublist (e : Expr) : (e.survivors m).Sublist e.preorder := by
  induction e using Expr.induction with
  | step e ih =>
      cases h : e.fails m with
      | true =>
          rw [survivors_of_fails h]
          exact List.nil_sublist _
      | false =>
          rw [survivors_of_not_fails h, preorder_eq]
          exact (List.Sublist.flatMap_right _ ih).cons_cons e

end Expr

/-- An expression becomes no operation exactly if it fails. -/
theorem lower_eq_none_iff (e : Expr) : (e.lower m).value = none ↔ e.fails m = true := by
  induction e using Expr.induction with
  | step e ih =>
      by_cases hplain : e.isPlain = true
      · rw [lower_plain_eq_none_iff hplain, Expr.fails_plain hplain]
        simp only [Bool.and_eq_true, Bool.not_eq_true', List.any_eq_true]
        exact and_congr_right fun _ => exists_congr fun c => and_congr_right fun hc => ih c hc
      · cases e with
        | reference o name =>
            rw [Expr.lower, Lowered.value_bind, close_eq_none_iff, spine_reference,
              Expr.fails_reference]
            cases m.lookup name o.id <;> simp [Head.isOutput]
        | element o base index =>
            have hbase := ih base (by simp [Expr.children])
            have hindex := ih index (by simp [Expr.children])
            rw [Expr.lower, Lowered.value_bind, close_eq_none_iff] at hbase
            rw [Expr.lower, Lowered.value_bind, close_eq_none_iff, spine_element,
              Expr.fails_element, Bool.or_eq_true, ← hbase, ← hindex]
            simp [or_assoc]
        | _ => exact absurd rfl hplain

theorem lower_of_not_fails {e : Expr} (h : e.fails m = false) :
    ∃ op, (e.lower m).value = some op := by
  apply Option.ne_none_iff_exists'.1
  rw [Ne, lower_eq_none_iff, h]
  exact Bool.false_ne_true

theorem not_fails_of_lower {e : Expr} {op : Operation} (h : (e.lower m).value = some op) :
    e.fails m = false := by
  rw [← Bool.not_eq_true, ← lower_eq_none_iff, h]
  exact Option.some_ne_none op

/-! ## What an operation accounts for -/

namespace Operation

/-- The syntax nodes that an operation stands for: those of its nodes, and
the brackets folded into them. -/
def accounted (op : Operation) : List SyntaxId :=
  op.preorder.flatMap fun x => x.id :: x.foldedAccesses

theorem accounted_eq (op : Operation) :
    op.accounted = op.id :: (op.foldedAccesses ++ op.children.flatMap accounted) := by
  rw [accounted, preorder_eq, List.flatMap_cons, List.flatMap_assoc]
  rfl

theorem accounted_of_context_none {op : Operation} (h : op.context? = none) :
    op.accounted = op.id :: op.children.flatMap accounted := by
  rw [accounted_eq, foldedAccesses, h]
  rfl

end Operation

/-- The syntax nodes of a bracket: its own and those of its index. -/
def accountedPair (b : SyntaxId × Operation) : List SyntaxId :=
  b.1 :: b.2.accounted

theorem accounted_withBrackets_perm (op : Operation) (brackets : List Bracket) :
    (op.withBrackets brackets).accounted.Perm
      (op.accounted ++ (brackets.map ExplicitIndex.pair).flatMap accountedPair) := by
  induction brackets generalizing op with
  | nil => simp [Operation.withBrackets]
  | cons b brackets ih =>
      have helement : (Operation.element b.access op b.index).accounted =
          b.access.id :: (op.accounted ++ b.index.accounted) := by
        rw [Operation.accounted_of_context_none rfl]
        simp [Operation.children, Operation.id, Operation.origin]
      rw [Operation.withBrackets_cons, List.map_cons, List.flatMap_cons, ← List.append_assoc]
      refine (ih _).trans (List.Perm.append_right _ ?_)
      rw [helement]
      exact List.perm_middle.symm

namespace Referred

variable {site : Origin} {symbol : Symbol} {brackets rest : List Bracket} {op : Operation}

/-- A reference accounts for its node and for the brackets it has used. -/
theorem accounted_perm (h : Referred m site symbol brackets op rest) :
    op.accounted.Perm (site.id :: op.usedBrackets.flatMap accountedPair) := by
  have hfolded : op.foldedAccesses = op.usedBrackets.map Prod.fst := by
    cases hcontext : op.context? <;> simp [Operation.foldedAccesses, Operation.usedBrackets,
      hcontext, IndexContext.explicitAccesses]
  rw [Operation.accounted_eq, hfolded, h.children_eq, List.flatMap_map, Operation.id, h.origin_eq]
  exact (List.map_append_flatMap_perm _ _ _).cons _

end Referred

/-- The syntax nodes of a spine: those of its head and of its brackets. -/
def Spine.accounted (s : Spine) : List SyntaxId :=
  (match s.head with
    | some (.operation op) => op.accounted
    | some (.symbol site _ _) => [site.id]
    | none => [])
  ++ (s.brackets.filterMap fun b => b.map ExplicitIndex.pair).flatMap accountedPair

theorem accounted_spine_element (o : Origin) (base : Expr) {index : Expr} {i : Operation}
    (h : (index.lower m).value = some i) :
    ((Expr.element o base index).spine m).value.accounted =
      (base.spine m).value.accounted ++ accountedPair (o.id, i) := by
  rw [spine_element]
  simp [Spine.accounted, h, ExplicitIndex.pair]

/-- Closing a spine accounts for all of it. -/
theorem Spine.Closes.accounted_perm {s : Spine} {op : Operation} (h : s.Closes m op) :
    op.accounted.Perm s.accounted := by
  cases h with
  | @operation base brackets =>
      simp only [Spine.accounted, filterMap_pair_map_some]
      exact accounted_withBrackets_perm base brackets
  | @symbol site name symbol brackets base rest hrefer =>
      have hreferred := referred_of_refer hrefer
      simp only [Spine.accounted, filterMap_pair_map_some, ← hreferred.conserved,
        List.flatMap_append]
      refine (accounted_withBrackets_perm base rest).trans ?_
      exact List.Perm.append_right _ hreferred.accounted_perm

/-- **Each survivor is accounted for once**, as an operation or as a folded
bracket, and nothing else is. -/
theorem accounted_perm {e : Expr} {op : Operation} (h : (e.lower m).value = some op) :
    op.accounted.Perm ((e.survivors m).map Expr.id) := by
  induction e using Expr.induction generalizing op with
  | step e ih =>
      have hkept := not_fails_of_lower h
      rw [Expr.survivors_of_not_fails hkept, List.map_cons, List.map_flatMap]
      by_cases hplain : e.isPlain = true
      · obtain ⟨horigin, -, hcontext, hchildren⟩ := lower_plain hplain h
        have hid : op.id = e.id := congrArg Origin.id horigin
        rw [Operation.accounted_of_context_none hcontext, hid, hchildren,
          List.filterMap_eq_flatMap_toList, List.flatMap_assoc]
        refine List.Perm.cons _ (List.Perm.flatMap_left _ fun c hc => ?_)
        cases hc' : (c.lower m).value with
        | none => simp [Expr.survivors_of_fails ((lower_eq_none_iff c).1 hc')]
        | some x => simpa using ih c hc hc'
      · cases e with
        | reference o name =>
            have hperm := (closes_of_close h).accounted_perm
            rw [spine_reference] at hperm
            cases hlookup : m.lookup name o.id with
            | none => simp [Expr.fails_reference, hlookup] at hkept
            | some s =>
                rw [hlookup] at hperm
                simpa [Spine.accounted, Expr.children, Expr.id, Expr.origin] using hperm
        | element o base index =>
            rw [Expr.fails_element, Bool.or_eq_false_iff] at hkept
            obtain ⟨b, hb⟩ := lower_of_not_fails hkept.1
            obtain ⟨i, hi⟩ := lower_of_not_fails hkept.2
            -- Closed over one bracket more, the head may become another operation than that of
            -- the base; what the two share is the spine.
            have hbase := (closes_of_close hb).accounted_perm.symm.trans
              (ih base (by simp [Expr.children]) hb)
            have hindex := ih index (by simp [Expr.children]) hi
            refine (closes_of_close h).accounted_perm.trans ?_
            rw [accounted_spine_element o base hi]
            refine (hbase.append (hindex.cons o.id)).trans ?_
            simp [Expr.children, Expr.id, Expr.origin]
        | _ => exact absurd rfl hplain

end InfraGraph
