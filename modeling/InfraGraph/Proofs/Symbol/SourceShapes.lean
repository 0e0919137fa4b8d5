import InfraGraph.Proofs.Symbol.SameLoop
import InfraGraph.Proofs.Tree.Erasure
import InfraGraph.Tree.Assembly

/-!
# Sources of one shape

To compare two loops is to compare their sources for shape and then to go
through the references of the two sources side by side.  Nothing in that walk
says that the two lists end together, or that the references it puts together
stand at the same place; both come from the shape.

The place of a node is its address: which child to take at each step down from
the root.  Whatever does not change with the origins of a tree is the same in
all trees of one shape, and that goes for the addresses of the references and
for their names.

## Main results

* `map_some_references` — the references of a tree stand at its reference
  addresses, in order.
* `eq_of_sameShape` — what does not depend on origins depends on the shape.
* `sameLoopWithin_eq_addresses` — loops are compared address by address.
* `sameShape_exact` — when two trees have one shape, and what follows.
-/

namespace InfraGraph

namespace Expr

/-! ## Addresses -/

/-- The node at an address: which child to take at each step down from the
root. -/
def nodeAt? (e : Expr) : List Nat → Option Expr
  | [] => some e
  | i :: rest => e.children[i]?.bind fun c => c.nodeAt? rest

/-- The addresses of the nodes of a tree, each before those below it. -/
def addresses (e : Expr) : List (List Nat) :=
  [] :: e.children.attach.zipIdx.flatMap fun c => (addresses c.1.1).map (c.2 :: ·)
termination_by sizeOf e
decreasing_by exact sizeOf_lt_of_mem_children c.1.2

theorem addresses_eq (e : Expr) :
    e.addresses = [] :: e.children.zipIdx.flatMap fun c => c.1.addresses.map (c.2 :: ·) := by
  have hattach : e.children.attach.map Subtype.val = e.children := List.attach_map_subtype_val _
  rw [addresses]
  conv_rhs => rw [← hattach, List.zipIdx_map, List.flatMap_map]
  rfl

/-- The addresses lead to the nodes, one by one. -/
theorem map_some_preorder (e : Expr) : e.preorder.map some = e.addresses.map e.nodeAt? := by
  induction e using Expr.induction with
  | step e ih =>
      have hchildren : e.children.zipIdx.map Prod.fst = e.children := List.zipIdx_map_fst 0 _
      rw [preorder_eq, addresses_eq, List.map_cons, List.map_cons, List.map_flatMap,
        List.map_flatMap]
      refine congrArg (some e :: ·) ?_
      -- The children with their numbers are the children, so both sides go through the same list.
      conv_lhs => rw [← hchildren, List.flatMap_map]
      refine List.flatMap_congr fun c hc => ?_
      have hchild : e.children[c.2]? = some c.1 := List.mem_zipIdx_iff_getElem?.1 hc
      rw [ih c.1 (List.mem_of_getElem? hchild), List.map_map]
      refine List.map_congr_left fun address _ => ?_
      show c.1.nodeAt? address = e.children[c.2]?.bind fun c => c.nodeAt? address
      rw [hchild, Option.bind_some]

/-- The addresses of the references of a tree in source order. -/
def referenceAddresses (e : Expr) : List (List Nat) :=
  e.addresses.filter fun address => (e.nodeAt? address).any (·.referenceName?.isSome)

/-- **The references of a tree stand at its reference addresses**, in order. -/
theorem map_some_references (e : Expr) :
    e.references.map some = e.referenceAddresses.map e.nodeAt? := by
  have hfilter : (e.preorder.map some).filter (Option.any (·.referenceName?.isSome)) =
      e.references.map some := by
    rw [List.filter_map]
    rfl
  rw [← hfilter, map_some_preorder, List.filter_map]
  rfl

theorem isSome_of_mem_references {e n : Expr} (hn : n ∈ e.references) :
    n.referenceName?.isSome = true :=
  (List.mem_filter.1 hn).2

/-! ## What depends on the shape -/

/-- What does not depend on the origins of a tree depends on its shape. -/
theorem eq_of_sameShape {α : Type} {f : Expr → α} (hf : ∀ e, f e.erase = f e) {a b : Expr}
    (h : a.sameShape b = true) : f a = f b := by
  rw [← hf a, (sameShape_iff_erase_eq a b).1 h, hf]

section

variable (f : Origin → Origin)

theorem nodeAt?_mapOrigin (e : Expr) (address : List Nat) :
    (e.mapOrigin f).nodeAt? address = (e.nodeAt? address).map (mapOrigin f) := by
  induction address generalizing e with
  | nil => rfl
  | cons i rest ih =>
      rw [nodeAt?, nodeAt?, children_mapOrigin, List.getElem?_map]
      cases e.children[i]? with
      | none => rfl
      | some c => exact ih c

theorem addresses_mapOrigin (e : Expr) : (e.mapOrigin f).addresses = e.addresses := by
  induction e using Expr.induction with
  | step e ih =>
      rw [addresses_eq, addresses_eq e, children_mapOrigin, List.zipIdx_map, List.flatMap_map]
      refine congrArg ([] :: ·) (List.flatMap_congr fun c hc => ?_)
      have hmem := List.mem_of_getElem? (List.mem_zipIdx_iff_getElem?.1 hc)
      exact congrArg (List.map (c.2 :: ·)) (ih c.1 hmem)

theorem referenceAddresses_mapOrigin (e : Expr) :
    (e.mapOrigin f).referenceAddresses = e.referenceAddresses := by
  rw [referenceAddresses, referenceAddresses, addresses_mapOrigin]
  refine List.filter_congr fun address _ => ?_
  rw [nodeAt?_mapOrigin, Option.any_map]
  refine congrArg (Option.any · _) (funext fun n => ?_)
  show (n.mapOrigin f).referenceName?.isSome = n.referenceName?.isSome
  rw [referenceName?_mapOrigin]

theorem map_referenceName?_mapOrigin (e : Expr) :
    (e.mapOrigin f).references.map referenceName? = e.references.map referenceName? := by
  rw [references_mapOrigin, List.map_map]
  exact List.map_congr_left fun n _ => referenceName?_mapOrigin f n

end

section

variable {a b : Expr} (h : a.sameShape b = true)

include h

theorem referenceAddresses_of_sameShape : a.referenceAddresses = b.referenceAddresses :=
  eq_of_sameShape (referenceAddresses_mapOrigin _) h

/-- The references have the same names, pair by pair. -/
theorem forall₂_references_of_sameShape :
    List.Forall₂ (fun x y => ∃ name, x.referenceName? = some name ∧ y.referenceName? = some name)
      a.references b.references := by
  have hnames : a.references.map referenceName? = b.references.map referenceName? :=
    eq_of_sameShape (f := fun e => e.references.map referenceName?)
      (map_referenceName?_mapOrigin _) h
  rw [← List.forall₂_eq_eq_eq, List.forall₂_map_left_iff, List.forall₂_map_right_iff] at hnames
  have hsome := (List.forall₂_and_left _ _).2 ⟨fun x hx => isSome_of_mem_references hx, hnames⟩
  refine hsome.imp ?_
  rintro x y ⟨hx, hxy⟩
  obtain ⟨name, hname⟩ := Option.isSome_iff_exists.1 hx
  exact ⟨name, hname, hxy.symm.trans hname⟩

/-- Pairing the references passes over none of them, and pairs what stands at
one address. -/
theorem map_some_zip_references :
    (a.references.zip b.references).map (Prod.map some some) =
      a.referenceAddresses.map fun address => (a.nodeAt? address, b.nodeAt? address) := by
  rw [← List.zip_map, map_some_references, map_some_references,
    ← referenceAddresses_of_sameShape h, List.zip_map']

end

end Expr

/-! ## Comparing loops -/

namespace Scoping

variable {s : Scoping}

/-- Whether two references bind alike, if both are there. -/
def bindAlike? (s : Scoping) (same : LoopDescriptor → LoopDescriptor → Option Bool) :
    Option Expr → Option Expr → Option Bool
  | some x, some y => s.bindAlike same x y
  | _, _ => some false

/-- **Loops are compared address by address**, if their sources have one
shape. -/
theorem sameLoopWithin_eq_addresses {l l' : LoopDescriptor} (hid : l.id ≠ l'.id)
    (hshape : l.source.sameShape l'.source = true) (steps : Nat) :
    s.sameLoopWithin (steps + 1) l l' =
      allAnswers (fun address => s.bindAlike? (s.sameLoopWithin steps)
        (l.source.nodeAt? address) (l'.source.nodeAt? address)) l.source.referenceAddresses := by
  have hpairs := congrArg
    (allAnswers fun pair => s.bindAlike? (s.sameLoopWithin steps) pair.1 pair.2)
    (Expr.map_some_zip_references hshape)
  rw [allAnswers_map, allAnswers_map] at hpairs
  rw [sameLoopWithin, if_neg hid, if_pos hshape]
  exact hpairs

end Scoping

namespace Expr

/-- **Two trees have one shape if and only if they are equal once their ids and
spans are erased.**  Then their references are equally many, have the same names
and stand at the same addresses, pair by pair.  So when two loops with these
sources are compared, the references of the sources are all compared, each with
the one that stands at its address in the other source. -/
theorem sameShape_exact (a b : Expr) :
    (a.sameShape b = true ↔ a.erase = b.erase) ∧
      (a.sameShape b = true →
        a.references.length = b.references.length ∧
        List.Forall₂
          (fun x y => ∃ name, x.referenceName? = some name ∧ y.referenceName? = some name)
          a.references b.references ∧
        a.referenceAddresses = b.referenceAddresses ∧
        a.references.map some = a.referenceAddresses.map a.nodeAt? ∧
        b.references.map some = b.referenceAddresses.map b.nodeAt? ∧
        ∀ (s : Scoping) (steps : Nat) (l l' : LoopDescriptor), l.source = a → l'.source = b →
          l.id ≠ l'.id →
          s.sameLoopWithin (steps + 1) l l' =
            allAnswers (fun address => s.bindAlike? (s.sameLoopWithin steps)
              (a.nodeAt? address) (b.nodeAt? address)) a.referenceAddresses) := by
  refine ⟨sameShape_iff_erase_eq a b, ?_⟩
  intro h
  have hnames := forall₂_references_of_sameShape h
  refine ⟨hnames.length_eq, hnames, referenceAddresses_of_sameShape h, map_some_references a,
    map_some_references b, ?_⟩
  rintro s steps l l' rfl rfl hid
  exact Scoping.sameLoopWithin_eq_addresses hid h steps

end Expr

open Assembly in
/-- `union(accounts, [for c in containers: c.name])`. -/
def containerNames : Assembly Expr := do
  let accounts ← reference "accounts"
  let containers ← reference "containers"
  let container ← reference "c"
  let name ← property container "name"
  let names ← loop "c" none containers name
  node (.call · "union" [accounts, names])

/-- Written twice, the expression has other ids but the same references at the
same addresses, inside its loop and outside; and two loops over it are compared
at all three of them. -/
theorem Expr.sameShape_exact_of_containerNames :
    let a := (containerNames.run 0).1
    let b := (containerNames.run 10).1
    a.sameShape b = true ∧ a.erase = b.erase ∧
      a.references.map (·.id) = [⟨0⟩, ⟨1⟩, ⟨2⟩] ∧ b.references.map (·.id) = [⟨10⟩, ⟨11⟩, ⟨12⟩] ∧
      List.Forall₂
        (fun x y => ∃ name, x.referenceName? = some name ∧ y.referenceName? = some name)
        a.references b.references ∧
      ∀ (s : Scoping) (steps : Nat),
        s.sameLoopWithin (steps + 1) ⟨⟨⟨6⟩⟩, "n", none, a, default⟩
            ⟨⟨⟨16⟩⟩, "n", none, b, default⟩ =
          allAnswers (fun address => s.bindAlike? (s.sameLoopWithin steps)
            (a.nodeAt? address) (b.nodeAt? address)) [[0], [1, 0], [1, 1, 0]] := by
  intro a b
  have h : a.sameShape b = true := by decide
  have haddresses : a.referenceAddresses = [[0], [1, 0], [1, 1, 0]] := by
    decide +kernel
  obtain ⟨hiff, hsame⟩ := sameShape_exact a b
  obtain ⟨-, hnames, -, -, -, hcompared⟩ := hsame h
  refine ⟨h, hiff.1 h, rfl, rfl, hnames, ?_⟩
  intro s steps
  rw [← haddresses]
  exact hcompared s steps _ _ rfl rfl (by decide)

end InfraGraph
