import InfraGraph.Proofs.Symbol.BindingOrder
import InfraGraph.Scenario

/-!
# The loops of a declaration and the loops inside it

Binding puts the loops of a unit together twice.  A declaration is replicated
by the loops of the resources and modules around it and by the `for` that its
own value is.  A node of a value has the loops around it put down on the way
down to it, where the own `for` of the declaration is met again like any other.

The two agree where it matters: what stands in an instance of a resource or
module stands inside exactly the loops that replicate it.  That is so for the
body of its own loop and for the value of every declaration nested directly in
it, at any depth.  Every one of these loops also makes the declared type an
array once more.

## Main results

* `located_instanceBody_subset` — the loops around the body of the own loop.
* `placements_children_subset` — the loops around nested declarations.
* `declaredType_entity` — the declared type and its layers.
* `loops_eq_enclosingLoops` — the loops of a symbol and those inside its
  declaration.
-/

namespace InfraGraph

/-! ## The body of a loop -/

/-- What stands in the body of the loop that an expression is, or the expression
itself. -/
def Expr.instanceBody : Expr → Expr
  | .loop _ _ _ _ body => body
  | e => e

theorem Expr.located_instanceBody_subset (outer : List LoopDescriptor) (e : Expr) :
    e.instanceBody.located (outer ++ (LoopDescriptor.ofExpr? e).toList) ⊆ e.located outer := by
  cases e with
  | loop o item index source body =>
      have hbody : (body, outer ++ [⟨⟨o.id⟩, item, index, source, o.span⟩]) ∈
          (Expr.loop o item index source body).childrenIn outer :=
        List.mem_cons_of_mem _ List.mem_cons_self
      exact located_subset_of_mem_childrenIn hbody
  | _ =>
      rw [LoopDescriptor.ofExpr?_eq_none_iff.2 rfl, Option.toList_none, List.append_nil]
      exact List.Subset.refl _

/-! ## Nested declarations -/

/-- What is nested in a declaration of the list is in the list. -/
theorem Declaration.placements_children_subset {d : Declaration} {parent : Option String}
    {outer : List LoopDescriptor} {placed : PlacedDeclaration}
    (h : placed ∈ d.placements parent outer) :
    placed.declaration.children.flatMap (placements (some placed.name) placed.loops) ⊆
      d.placements parent outer := by
  induction d using Declaration.induction generalizing parent outer with
  | step d ih =>
      rw [placements_eq] at h ⊢
      rcases List.mem_cons.1 h with rfl | h
      · exact List.subset_cons_self _ _
      · obtain ⟨c, hc, h⟩ := List.mem_flatMap.1 h
        intro x hx
        exact List.mem_cons_of_mem _ (List.mem_flatMap.2 ⟨c, hc, ih c hc h hx⟩)

namespace BoundProgram

variable {p : BoundProgram} {d : PlacedDeclaration} (hd : d ∈ p.placements)

include hd

theorem placements_children_subset :
    d.declaration.children.flatMap (Declaration.placements (some d.name) d.loops) ⊆
      p.placements := by
  rw [placements_eq_flatMap] at hd ⊢
  obtain ⟨root, hroot, hd⟩ := List.mem_flatMap.1 hd
  intro x hx
  exact List.mem_flatMap.2 ⟨root, hroot, Declaration.placements_children_subset hd hx⟩

/-- A declaration nested directly in another one stands inside its loops. -/
theorem exists_placed_of_child {c : Declaration} (hc : c ∈ d.declaration.children) :
    ∃ inner ∈ p.placements, inner.declaration = c ∧ inner.outer = d.loops := by
  refine ⟨⟨c, qualifiedName (some d.name) c.name, d.loops⟩, ?_, rfl, rfl⟩
  apply placements_children_subset hd
  refine List.mem_flatMap.2 ⟨c, hc, ?_⟩
  rw [Declaration.placements_eq]
  exact List.mem_cons_self

/-! ## Values -/

omit hd in
/-- The loops of a resource or module are those around it and its own. -/
theorem loops_of_isReplicable (hkind : d.declaration.kind.isReplicable = true) {value : Expr}
    (hvalue : d.declaration.value = some value) :
    d.loops = d.outer ++ (LoopDescriptor.ofExpr? value).toList := by
  rw [PlacedDeclaration.loops, Declaration.ownLoop?, if_pos hkind, hvalue, Option.bind_some]

/-- What stands in the body of its loop stands inside its loops. -/
theorem located_instanceBody_subset (hkind : d.declaration.kind.isReplicable = true)
    {value : Expr} (hvalue : d.declaration.value = some value) :
    value.instanceBody.located d.loops ⊆ p.located := by
  rw [loops_of_isReplicable hkind hvalue]
  exact List.Subset.trans (value.located_instanceBody_subset d.outer)
    (located_value_subset hd hvalue)

end BoundProgram

/-! ## Declared types -/

/-- How many layers of arrays a type has. -/
def DeclaredType.layers : DeclaredType → Nat
  | .array element => element.layers + 1
  | _ => 0

theorem DeclaredType.layers_arrayed (n : Nat) (type : DeclaredType) :
    (arrayed n type).layers = n + type.layers := by
  induction n with
  | zero => exact (Nat.zero_add _).symm
  | succ n ih =>
      show (arrayed n type).layers + 1 = n + 1 + type.layers
      omega

/-- The type of one instance of a declaration. -/
def DeclarationKind.instanceType : DeclarationKind → DeclaredType
  | .parameter type => type
  | .variable => .any
  | .resource type _ => .resource (TypeReference.parse type).type
  | .module path _ => .module path
  | .output type => type

/-- An instance of a resource or module is no array. -/
theorem DeclarationKind.layers_instanceType {kind : DeclarationKind}
    (hkind : kind.isReplicable = true) : kind.instanceType.layers = 0 := by
  cases kind with
  | resource | module => rfl
  | _ => cases hkind

/-- **Every loop makes the declared type an array once more.** -/
theorem PlacedDeclaration.declaredType_entity (target : DeploymentScope) (d : PlacedDeclaration) :
    (d.entity target).declaredType = .arrayed d.loops.length d.declaration.kind.instanceType := by
  show DeclaredType.arrayed d.loops.length (d.kindAndType target).2 = _
  rw [kindAndType]
  cases d.declaration.kind <;> rfl

/-! ## Symbols -/

namespace BoundProgram

variable {p : BoundProgram}

/-- **The loops of a resource or module are the loops around what stands in
it.**  Its symbol has the loops that are on record for its value as a whole and
then the `for` that the value is; these are the loops on record for the body of
that `for`, or for the value itself if it is no `for`, and for the value of each
declaration nested directly in it.  The declared type is the type of an instance
under as many layers of arrays as there are loops. -/
theorem loops_eq_enclosingLoops (h : p.reusedIds = []) {d : Declaration}
    (hd : d ∈ p.allDeclarations) (hkind : d.kind.isReplicable = true) :
    ∃ s, p.bind.declaredSymbol d.id = some s ∧
      (∀ value, d.value = some value →
        s.loops = p.bind.enclosingLoops value.id ++ (LoopDescriptor.ofExpr? value).toList ∧
        p.bind.enclosingLoops value.instanceBody.id = s.loops) ∧
      (∀ c ∈ d.children, ∀ value, c.value = some value →
        p.bind.enclosingLoops value.id = s.loops) ∧
      s.declaredType = .arrayed s.loops.length d.kind.instanceType ∧
      s.declaredType.layers = s.loops.length := by
  obtain ⟨s, placed, hs, hplaced, rfl, hentity⟩ := exists_declaredSymbol h hd
  have hloops : s.loops = placed.loops := by
    rw [hentity]
    rfl
  have htype : s.declaredType = .arrayed s.loops.length placed.declaration.kind.instanceType := by
    rw [hloops, hentity, placed.declaredType_entity]
  refine ⟨s, hs, ?_, ?_, htype, ?_⟩
  · intro value hvalue
    -- The value is gone through from the loops around the declaration, and its own loop is met
    -- on the way to the body.
    have hwhole := located_value_subset hplaced hvalue (value.mem_located_self placed.outer)
    have hbody := located_instanceBody_subset hplaced hkind hvalue
      (value.instanceBody.mem_located_self placed.loops)
    rw [enclosingLoops_eq h hwhole, enclosingLoops_eq h hbody, hloops]
    exact ⟨loops_of_isReplicable hkind hvalue, rfl⟩
  · intro c hc value hvalue
    obtain ⟨inner, hinner, rfl, houter⟩ := exists_placed_of_child hplaced hc
    have hwhole := located_value_subset hinner hvalue (value.mem_located_self inner.outer)
    rw [enclosingLoops_eq h hwhole, houter, hloops]
  · rw [htype, DeclaredType.layers_arrayed, DeclarationKind.layers_instanceType hkind,
      Nat.add_zero]

/-- A looped storage account, with the chain of its loop on record for its body
and for the container nested in it; and the container, with the chain of both
loops on record for its body and with an array of arrays for its type. -/
theorem loops_eq_enclosingLoops_of_nested :
    let p := (Scenario.nested.run 0).1.program
    p.reusedIds = [] ∧
      (∃ s, p.bind.declaredSymbol ⟨6⟩ = some s ∧ s.loops.map (·.id) = [⟨⟨5⟩⟩] ∧
        p.bind.enclosingLoops ⟨4⟩ = s.loops ∧ p.bind.enclosingLoops ⟨10⟩ = s.loops) ∧
      ∃ s, p.bind.declaredSymbol ⟨11⟩ = some s ∧ s.loops.map (·.id) = [⟨⟨5⟩⟩, ⟨⟨10⟩⟩] ∧
        p.bind.enclosingLoops ⟨9⟩ = s.loops ∧ s.declaredType.layers = 2 := by
  intro p
  have h : p.reusedIds = [] := by decide
  have hstorage : p.allDeclarations[2]? = some _ := rfl
  have hblob : p.allDeclarations[3]? = some _ := rfl
  obtain ⟨s, hs, hvalue, hchildren, -⟩ :=
    loops_eq_enclosingLoops h (List.mem_of_getElem? hstorage) rfl
  obtain ⟨t, ht, hblobValue, -, -, hlayers⟩ :=
    loops_eq_enclosingLoops h (List.mem_of_getElem? hblob) rfl
  have hbody : p.bind.enclosingLoops ⟨4⟩ = s.loops := (hvalue _ rfl).2
  have hblobBody : p.bind.enclosingLoops ⟨9⟩ = t.loops := (hblobValue _ rfl).2
  have hids : (p.bind.enclosingLoops ⟨4⟩).map (·.id) = [⟨⟨5⟩⟩] := by decide
  have hblobIds : (p.bind.enclosingLoops ⟨9⟩).map (·.id) = [⟨⟨5⟩⟩, ⟨⟨10⟩⟩] := by decide
  rw [hbody] at hids
  rw [hblobBody] at hblobIds
  refine ⟨h, ⟨s, hs, hids, hbody, hchildren _ List.mem_cons_self _ rfl⟩,
    t, ht, hblobIds, hblobBody, ?_⟩
  rw [hlayers, ← List.length_map (·.id), hblobIds]
  rfl

end BoundProgram

end InfraGraph
