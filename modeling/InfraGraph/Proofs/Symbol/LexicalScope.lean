import InfraGraph.CommandLine.Run
import InfraGraph.Proofs.Graph.Verification
import InfraGraph.Proofs.Symbol.BindingOrder

/-!
# Lexical scope

Binding keeps no tree of scopes.  It numbers the symbols of a unit in the order
of declaring and puts the loops around a node down under the id of the node; a
lookup searches these lists by id and by name.

What a name means can be read off the tree instead.  The loops around a node
are those of the declarations around its declaration, and then the `for` nodes
of the value whose body the node stands in.  A name means a variable of the
innermost of them that introduces it, and else the first declaration of that
full name.  In a unit without reused ids both give the same.

## Main results

* `placements_eq_map_placed` — names and loops of nested declarations.
* `eq_of_mem_located` — the loops around a node of an expression.
* `variables_of_mem_boundLoops` — a loop has the variables it introduces and no
  others.
* `lookup_lexical` — a lookup finds what the name means where it stands.
-/

namespace InfraGraph

/-! ## Meaning by the tree -/

/-- A declaration with those it is nested in, outermost first. -/
structure NestedDeclaration where
  around : List Declaration
  declaration : Declaration

namespace NestedDeclaration

/-- The names of the declarations from the outermost inwards. -/
def fullName (d : NestedDeclaration) : String :=
  "::".intercalate ((d.around ++ [d.declaration]).map (·.name))

/-- The copy loops of the resources and modules around a declaration. -/
def loopsAround (d : NestedDeclaration) : List LoopDescriptor :=
  d.around.filterMap Declaration.ownLoop?

/-- The declaration in its place. -/
def placed (d : NestedDeclaration) : PlacedDeclaration :=
  ⟨d.declaration, d.fullName, d.loopsAround⟩

end NestedDeclaration

namespace Declaration

mutual

/-- A declaration inside those `around` it, and then those nested in it. -/
def nested (around : List Declaration) : Declaration → List NestedDeclaration
  | ⟨origin, name, kind, value, children⟩ =>
    let d : Declaration := ⟨origin, name, kind, value, children⟩
    ⟨around, d⟩ :: nestedAll (around ++ [d]) children

/-- `nested` over several declarations. -/
def nestedAll (around : List Declaration) : List Declaration → List NestedDeclaration
  | [] => []
  | d :: rest => nested around d ++ nestedAll around rest

end

end Declaration

/-- Every declaration of a unit with those around it, each before those nested
in it. -/
def BoundProgram.nestedDeclarations (p : BoundProgram) : List NestedDeclaration :=
  Declaration.nestedAll [] p.declarations

namespace Expr

/-- The copy loop at a node, if the node of that id is in its body. -/
def loopOver? (node : SyntaxId) : Expr → Option LoopDescriptor
  | .loop o item index source body =>
    if body.preorder.any (·.id == node) then some ⟨⟨o.id⟩, item, index, source, o.span⟩ else none
  | _ => none

/-- The copy loops of an expression that have the node of that id in their
bodies, outermost first. -/
def loopsOver (e : Expr) (node : SyntaxId) : List LoopDescriptor :=
  e.preorder.filterMap (loopOver? node)

end Expr

/-- The variable that a name means in the body of a copy loop: the index, or
else the item. -/
def LoopDescriptor.introduced? (l : LoopDescriptor) (name : String) : Option Entity :=
  if l.index = some name then some (.ofLoop ⟨l.id.node, l.span⟩ .index name)
  else if l.item = name then some (.ofLoop ⟨l.id.node, l.span⟩ .item name)
  else none

/-- What a name means inside copy loops, these outermost first. -/
def BoundProgram.meaningInside (p : BoundProgram) (loops : List LoopDescriptor)
    (name : String) : Option Entity :=
  (loops.reverse.findSome? (·.introduced? name)).or
    ((p.nestedDeclarations.find? (·.fullName == name)).map (·.placed.entity p.targetScope))

/-! ## Nested declarations -/

/-- The name of a nested declaration is put behind those around it. -/
theorem intercalate_append_singleton {names : List String} (h : names ≠ []) (name : String) :
    "::".intercalate (names ++ [name]) = "::".intercalate names ++ "::" ++ name := by
  rw [String.intercalate_append_of_ne_nil h (List.cons_ne_nil _ _), String.intercalate_singleton]

namespace Declaration

theorem nestedAll_eq (around : List Declaration) (ds : List Declaration) :
    nestedAll around ds = ds.flatMap (nested around) := by
  induction ds with
  | nil => rfl
  | cons d ds ih => rw [nestedAll, ih, List.flatMap_cons]

theorem nested_eq (around : List Declaration) (d : Declaration) :
    d.nested around = ⟨around, d⟩ :: d.children.flatMap (nested (around ++ [d])) := by
  obtain ⟨origin, name, kind, value, children⟩ := d
  rw [nested, nestedAll_eq]

/-- Binding knows of the declarations around one their full name and their
loops. -/
theorem placements_eq_map_placed {d : Declaration} {around : List Declaration}
    {parent : Option String}
    (hparent : ∀ name, qualifiedName parent name =
      "::".intercalate (around.map (·.name) ++ [name])) :
    d.placements parent (around.filterMap ownLoop?) =
      (d.nested around).map NestedDeclaration.placed := by
  induction d using Declaration.induction generalizing around parent with
  | step d ih =>
      have hfull : qualifiedName parent d.name =
          (NestedDeclaration.mk around d).fullName := by
        rw [hparent, NestedDeclaration.fullName, List.map_append, List.map_singleton]
      have hloops : around.filterMap ownLoop? ++ d.ownLoop?.toList =
          (around ++ [d]).filterMap ownLoop? := by
        rw [List.filterMap_append]
        cases hown : d.ownLoop? <;> simp [hown]
      have hnested (name : String) : qualifiedName (some (qualifiedName parent d.name)) name =
          "::".intercalate ((around ++ [d]).map (·.name) ++ [name]) := by
        rw [intercalate_append_singleton (by simp), hfull]
        rfl
      rw [placements_eq, nested_eq, List.map_cons, List.map_flatMap, hloops, hfull]
      refine congrArg (_ :: ·) (List.flatMap_congr fun c hc => ?_)
      rw [← hfull]
      exact ih c hc hnested

end Declaration

namespace BoundProgram

variable {p : BoundProgram}

theorem placements_eq_map_nested (p : BoundProgram) :
    p.placements = p.nestedDeclarations.map NestedDeclaration.placed := by
  rw [placements_eq_flatMap, nestedDeclarations, Declaration.nestedAll_eq, List.map_flatMap]
  refine List.flatMap_congr fun d _ => ?_
  have hroot (name : String) : qualifiedName none name =
      "::".intercalate (([] : List Declaration).map (·.name) ++ [name]) :=
    String.intercalate_singleton.symm
  exact Declaration.placements_eq_map_placed hroot

end BoundProgram

/-! ## Loops around a node -/

namespace Expr

theorem loopsOver_eq (e : Expr) (node : SyntaxId) :
    e.loopsOver node = (e.loopOver? node).toList ++ e.children.flatMap (·.loopsOver node) := by
  rw [loopsOver, preorder_eq, List.filterMap_cons, List.filterMap_flatMap]
  cases e.loopOver? node <;> rfl

/-- A loop has the nodes of its body among its own. -/
theorem loopOver?_eq_none {e : Expr} {node : SyntaxId}
    (h : ∀ c ∈ e.children, ∀ n ∈ c.preorder, n.id ≠ node) : e.loopOver? node = none := by
  cases e with
  | loop o item index source body =>
      refine if_neg ?_
      rw [List.any_eq_true]
      rintro ⟨n, hn, hid⟩
      exact h body (by simp [children]) n hn (eq_of_beq hid)
  | _ => rfl

theorem loopsOver_eq_nil {e : Expr} {node : SyntaxId} (h : ∀ n ∈ e.preorder, n.id ≠ node) :
    e.loopsOver node = [] := by
  induction e using Expr.induction with
  | step e ih =>
      have hchildren : ∀ c ∈ e.children, ∀ n ∈ c.preorder, n.id ≠ node :=
        fun c hc n hn => h n (preorder_subset_of_mem_children hc hn)
      rw [loopsOver_eq, loopOver?_eq_none hchildren, Option.toList_none, List.nil_append,
        List.flatMap_eq_nil_iff]
      exact fun c hc => ih c hc (hchildren c hc)

section

variable {e : Expr} (h : (e.preorder.map Expr.id).Nodup)

include h

/-- A node has no other node of its id below it. -/
theorem ne_of_nodup : ∀ c ∈ e.children, ∀ n ∈ c.preorder, n.id ≠ e.id := by
  rw [preorder_eq, List.map_cons, List.nodup_cons, List.mem_map] at h
  intro c hc n hn hid
  exact h.1 ⟨n, List.mem_flatMap.2 ⟨c, hc, hn⟩, hid⟩

theorem nodup_of_mem_children {c : Expr} (hc : c ∈ e.children) :
    (c.preorder.map Expr.id).Nodup := by
  refine ((sublist_flatMap_of_mem (f := preorder) hc).map _).nodup ?_
  rw [preorder_eq, List.map_cons, List.nodup_cons] at h
  exact h.2

/-- The nodes of one child have other ids than those of the others. -/
theorem ne_of_mem_others {before after : List Expr} {c : Expr}
    (hchildren : e.children = before ++ c :: after) {n : Expr} (hn : n ∈ c.preorder) :
    ∀ c' ∈ before ++ after, ∀ n' ∈ c'.preorder, n'.id ≠ n.id := by
  rw [preorder_eq, hchildren, List.flatMap_append, List.flatMap_cons, List.map_cons,
    List.map_append, List.map_append, List.nodup_cons, List.nodup_append, List.nodup_append] at h
  obtain ⟨-, -, ⟨-, -, hafter⟩, hbefore⟩ := h
  have hid : n.id ∈ c.preorder.map Expr.id := List.mem_map_of_mem hn
  intro c' hc' n' hn'
  rcases List.mem_append.1 hc' with hc' | hc'
  · refine hbefore _ (List.mem_map_of_mem ?_) _ (List.mem_append_left _ hid)
    exact List.mem_flatMap.2 ⟨c', hc', hn'⟩
  · refine (hafter _ hid _ (List.mem_map_of_mem ?_)).symm
    exact List.mem_flatMap.2 ⟨c', hc', hn'⟩

/-- The loops below a node that are around one of its nodes are all below the
same child. -/
theorem flatMap_loopsOver {c : Expr} (hc : c ∈ e.children) {n : Expr} (hn : n ∈ c.preorder) :
    e.children.flatMap (·.loopsOver n.id) = c.loopsOver n.id := by
  obtain ⟨before, after, hchildren⟩ := List.append_of_mem hc
  have hothers (c' : Expr) (hc' : c' ∈ before ++ after) : c'.loopsOver n.id = [] :=
    loopsOver_eq_nil (ne_of_mem_others h hchildren hn c' hc')
  have hbefore : before.flatMap (·.loopsOver n.id) = [] :=
    List.flatMap_eq_nil_iff.2 fun c' hc' => hothers c' (List.mem_append_left _ hc')
  have hafter : after.flatMap (·.loopsOver n.id) = [] :=
    List.flatMap_eq_nil_iff.2 fun c' hc' => hothers c' (List.mem_append_right _ hc')
  rw [hchildren, List.flatMap_append, List.flatMap_cons, hbefore, hafter, List.append_nil,
    List.nil_append]

/-- A node puts its loop around the child whose nodes have it over them. -/
theorem loops_of_mem_childrenIn {outer : List LoopDescriptor} {c : Expr × List LoopDescriptor}
    (hc : c ∈ e.childrenIn outer) {n : Expr} (hn : n ∈ c.1.preorder) :
    c.2 = outer ++ (e.loopOver? n.id).toList := by
  cases e with
  | loop o item index source body =>
      simp only [childrenIn, List.mem_cons, List.not_mem_nil, or_false] at hc
      rcases hc with rfl | rfl
      · -- The source has no nodes of the body.
        have hchildren : (Expr.loop o item index source body).children = [] ++ source :: [body] :=
          rfl
        have hbody := ne_of_mem_others h hchildren hn body (by simp)
        have hnot : ¬body.preorder.any (·.id == n.id) = true := by
          simpa only [List.any_eq_true, beq_iff_eq, not_exists, not_and] using hbody
        rw [loopOver?, if_neg hnot, Option.toList_none, List.append_nil]
      · have hany : body.preorder.any (·.id == n.id) = true :=
          List.any_eq_true.2 ⟨n, hn, beq_self_eq_true _⟩
        rw [loopOver?, if_pos hany]
        rfl
  | _ =>
      obtain ⟨_, -, rfl⟩ := List.mem_map.1 hc
      exact (List.append_nil _).symm

end

/-- **The loops around a node are those around the expression, and the `for`
nodes of the expression whose body the node stands in.** -/
theorem eq_of_mem_located {e : Expr} (h : (e.preorder.map Expr.id).Nodup)
    {outer chain : List LoopDescriptor} {n : Expr} (hn : (n, chain) ∈ e.located outer) :
    chain = outer ++ e.loopsOver n.id := by
  induction e using Expr.induction generalizing outer with
  | step e ih =>
      rw [located_eq, List.mem_cons, List.mem_flatMap] at hn
      rcases hn with hn | ⟨c, hc, hn⟩
      · obtain ⟨rfl, rfl⟩ := Prod.mk.inj hn
        have hbelow := ne_of_nodup h
        have hchildren : n.children.flatMap (·.loopsOver n.id) = [] :=
          List.flatMap_eq_nil_iff.2 fun c hc => loopsOver_eq_nil (hbelow c hc)
        rw [loopsOver_eq, loopOver?_eq_none hbelow, hchildren, Option.toList_none,
          List.append_nil, List.append_nil]
      · have hmem := mem_children_of_mem_childrenIn hc
        have hnode : n ∈ c.1.preorder := by
          rw [← map_fst_located c.2]
          exact List.mem_map_of_mem hn
        rw [ih c.1 hmem (nodup_of_mem_children h hmem) hn, loops_of_mem_childrenIn h hc hnode,
          loopsOver_eq e, flatMap_loopsOver h hmem hnode, List.append_assoc]

end Expr

/-! ## Symbols in the order of declaring -/

/-- The variables that a copy loop introduces, in the order of declaring. -/
def LoopDescriptor.boundVariables (l : LoopDescriptor) : List Entity :=
  .ofLoop ⟨l.id.node, l.span⟩ .item l.item ::
    (l.index.map (.ofLoop ⟨l.id.node, l.span⟩ .index)).toList

/-- The variables of an expression are those of its loops in the order of
binding. -/
theorem Expr.loopVariables_eq (e : Expr) :
    e.loopVariables = e.boundLoops.flatMap LoopDescriptor.boundVariables := by
  induction e using Expr.induction with
  | step e ih =>
      cases hloop : e.isLoop with
      | false =>
          rw [boundLoops_of_not_loop hloop, List.flatMap_assoc, loopVariables_of_not_loop hloop]
          exact List.flatMap_congr ih
      | true =>
          cases e with
          | loop o item index source body =>
              rw [boundLoops_loop, loopVariables, ih source (by simp [children]),
                ih body (by simp [children]), List.flatMap_append, List.flatMap_cons,
                List.append_assoc]
              rfl
          | _ => cases hloop

/-- The variable that a name means in the body of a loop is the last that the
loop introduces under that name. -/
theorem LoopDescriptor.findLast?_boundVariables (l : LoopDescriptor) (name : String) :
    findLast? (·.name == name) l.boundVariables = l.introduced? name := by
  obtain ⟨id, item, index, source, span⟩ := l
  have hlast (o : Origin) (role : LoopRole) (x : String) :
      findLast? (·.name == name) [Entity.ofLoop o role x] =
        if x = name then some (.ofLoop o role name) else none := by
    by_cases hx : x = name <;> simp [findLast?, Entity.ofLoop, hx]
  cases index with
  | none => exact hlast ..
  | some index =>
      have hitem := hlast ⟨id.node, span⟩ .item item
      have hindex := hlast ⟨id.node, span⟩ .index index
      simp only [findLast?, Option.none_or] at hitem hindex
      simp only [boundVariables, Option.map_some, Option.toList_some, findLast?, Option.none_or,
        hitem, hindex, introduced?, Option.some.injEq]
      by_cases hx : index = name <;> simp [hx]

theorem find?_filter_and {α : Type} (kept test : α → Bool) (l : List α) :
    (l.filter kept).find? test = l.find? fun a => kept a && test a := by
  rw [List.find?_filter]
  refine congrArg (List.find? · l) (funext fun a => ?_)
  rw [Bool.decide_and, Bool.decide_eq_true, Bool.decide_eq_true]

/-- Whether an entity is a variable of the copy loop of that id. -/
def Entity.isBoundBy (loop : LoopId) (v : Entity) : Bool :=
  match v.kind with
  | .loopVariable l _ => l == loop
  | _ => false

theorem LoopDescriptor.kind_of_mem_boundVariables {l : LoopDescriptor} {v : Entity}
    (hv : v ∈ l.boundVariables) : ∃ role, v.kind = .loopVariable l.id role := by
  rcases List.mem_cons.1 hv with rfl | hv
  · exact ⟨.item, rfl⟩
  · obtain ⟨name, -, rfl⟩ := Option.map_eq_some_iff.1 (Option.mem_toList.1 hv)
    exact ⟨.index, rfl⟩

/-- The variables of a loop are bound by it alone. -/
theorem LoopDescriptor.filter_isBoundBy (l : LoopDescriptor) (loop : LoopId) :
    l.boundVariables.filter (·.isBoundBy loop) = if l.id = loop then l.boundVariables else [] := by
  have hbound {v : Entity} (hv : v ∈ l.boundVariables) : v.isBoundBy loop = (l.id == loop) := by
    obtain ⟨role, hkind⟩ := kind_of_mem_boundVariables hv
    rw [Entity.isBoundBy, hkind]
  by_cases hid : l.id = loop
  · rw [if_pos hid, List.filter_eq_self]
    intro v hv
    rw [hbound hv, beq_iff_eq]
    exact hid
  · rw [if_neg hid, List.filter_eq_nil_iff]
    intro v hv
    rw [hbound hv, beq_iff_eq]
    exact hid

/-- The two variables of a loop differ in their roles. -/
theorem LoopDescriptor.nodup_boundVariables (l : LoopDescriptor) : l.boundVariables.Nodup := by
  rw [boundVariables]
  cases l.index with
  | none => exact List.nodup_singleton _
  | some index =>
      refine List.nodup_cons.2 ⟨fun hmem => ?_, List.nodup_singleton _⟩
      have hkind := congrArg Entity.kind (List.mem_singleton.1 hmem)
      cases hkind

/-- What a declaration and its value introduce, in the order of declaring. -/
theorem PlacedDeclaration.entities_eq (target : DeploymentScope) (d : PlacedDeclaration) :
    d.entities target =
      d.entity target :: d.declaration.boundLoops.flatMap LoopDescriptor.boundVariables := by
  rw [entities, Declaration.boundLoops]
  cases d.declaration.value with
  | none => rfl
  | some value => exact congrArg (_ :: ·) value.loopVariables_eq

namespace BoundProgram

variable {p : BoundProgram}

theorem map_toEntity_symbols (p : BoundProgram) :
    p.bind.symbols.map (·.toEntity) = p.entities := by
  rw [symbols_bind]
  refine List.ext_getElem ?_ fun i h h' => ?_
  · simp
  · simp

/-- The declarations among what a unit introduces. -/
theorem filter_declared_entities (p : BoundProgram) :
    p.entities.filter (!·.kind.isLoopVariable) =
      p.nestedDeclarations.map (·.placed.entity p.targetScope) := by
  have hplaced (d : PlacedDeclaration) :
      (d.entities p.targetScope).filter (!·.kind.isLoopVariable) = [d.entity p.targetScope] := by
    have hvariables : (d.declaration.boundLoops.flatMap LoopDescriptor.boundVariables).filter
        (!·.kind.isLoopVariable) = [] := by
      rw [List.filter_eq_nil_iff]
      intro v hv
      obtain ⟨l, -, hv⟩ := List.mem_flatMap.1 hv
      obtain ⟨role, hkind⟩ := LoopDescriptor.kind_of_mem_boundVariables hv
      rw [hkind]
      exact Bool.false_ne_true
    rw [d.entities_eq, List.filter_cons, d.isLoopVariable_entity, hvariables]
    rfl
  rw [entities, List.filter_flatMap, placements_eq_map_nested, List.flatMap_map,
    List.map_eq_flatMap]
  exact List.flatMap_congr fun d _ => hplaced d.placed

/-- The variables of a loop among what a unit introduces. -/
theorem filter_isBoundBy_entities (p : BoundProgram) (loop : LoopId) :
    p.entities.filter (·.isBoundBy loop) =
      p.boundLoops.flatMap fun l => if l.id = loop then l.boundVariables else [] := by
  have hentity (d : PlacedDeclaration) : ¬(d.entity p.targetScope).isBoundBy loop = true := by
    have hkind := d.isLoopVariable_entity p.targetScope
    rw [Entity.isBoundBy]
    split
    case h_1 heq =>
      rw [heq] at hkind
      cases hkind
    case h_2 => exact Bool.false_ne_true
  rw [entities, List.filter_flatMap, boundLoops, ← map_declaration_placements, List.flatMap_map,
    List.flatMap_assoc]
  refine List.flatMap_congr fun d _ => ?_
  rw [d.entities_eq, List.filter_cons_of_neg (hentity d), List.filter_flatMap]
  exact List.flatMap_congr fun l _ => l.filter_isBoundBy loop

/-- They are those of its descriptor, in their order. -/
theorem variables_of_mem_boundLoops (h : p.reusedIds = []) {l : LoopDescriptor}
    (hl : l ∈ p.boundLoops) : p.entities.filter (·.isBoundBy l.id) = l.boundVariables := by
  obtain ⟨before, after, heq⟩ := List.append_of_mem hl
  have hnodup := nodup_boundLoops h
  rw [heq, List.map_append, List.map_cons, List.nodup_append, List.nodup_cons] at hnodup
  obtain ⟨-, ⟨hafter, -⟩, hbefore⟩ := hnodup
  have hbeforeNil : (before.flatMap fun l' => if l'.id = l.id then l'.boundVariables else []) =
      [] := by
    rw [List.flatMap_eq_nil_iff]
    intro l' hl'
    exact if_neg (hbefore _ (List.mem_map_of_mem hl') _ List.mem_cons_self)
  have hafterNil : (after.flatMap fun l' => if l'.id = l.id then l'.boundVariables else []) =
      [] := by
    rw [List.flatMap_eq_nil_iff]
    intro l' hl'
    exact if_neg fun hid => hafter (List.mem_map.2 ⟨l', hl', hid⟩)
  rw [filter_isBoundBy_entities, heq, List.flatMap_append, List.flatMap_cons, hbeforeNil,
    hafterNil, if_pos rfl, List.nil_append, List.append_nil]

theorem map_declaration_nestedDeclarations (p : BoundProgram) :
    p.nestedDeclarations.map (·.declaration) = p.allDeclarations := by
  rw [← map_declaration_placements, placements_eq_map_nested, List.map_map]
  rfl

section

variable (h : p.reusedIds = [])

include h

/-- Nothing is introduced twice. -/
theorem nodup_entities : p.entities.Nodup := by
  classical
  rw [List.nodup_iff_count_le_one]
  intro v
  by_cases hv : v ∈ p.entities
  · rcases mem_entities.1 hv with ⟨d, -, rfl⟩ | ⟨n, hn, hv⟩
    · have hkind := d.isLoopVariable_entity p.targetScope
      rw [← List.count_filter (p := (!·.kind.isLoopVariable)) (by rw [hkind, Bool.not_false]),
        filter_declared_entities]
      refine List.nodup_iff_count_le_one.1 (List.Nodup.of_map (·.origin.id) ?_) _
      have hids := nodup_declarationIds h
      rw [← map_declaration_nestedDeclarations, List.map_map] at hids
      rw [List.map_map]
      exact hids
    · obtain ⟨l, role, name, hl, -, rfl⟩ := Expr.mem_ownVariables.1 hv
      have hbound : l ∈ p.boundLoops :=
        (boundLoops_perm p).mem_iff.2 (List.mem_filterMap.2 ⟨n, hn, hl⟩)
      have hid : (Entity.ofLoop n.origin role name).isBoundBy l.id = true := by
        rw [LoopDescriptor.id_of_ofExpr? hl]
        exact beq_self_eq_true _
      rw [← List.count_filter (p := (·.isBoundBy l.id)) hid, variables_of_mem_boundLoops h hbound]
      exact List.nodup_iff_count_le_one.1 l.nodup_boundVariables _
  · rw [List.count_eq_zero_of_not_mem hv]
    exact Nat.zero_le 1

/-- So a symbol is known by what it stands for. -/
theorem eq_of_toEntity_eq {s t : Symbol} (hs : s ∈ p.bind.symbols) (ht : t ∈ p.bind.symbols)
    (hst : s.toEntity = t.toEntity) : s = t := by
  refine eq_of_symbolId_eq hs ht ?_
  rw [mem_symbols] at hs ht
  obtain ⟨hlt, -⟩ := List.getElem?_eq_some_iff.1 hs
  have hindex : p.entities[s.id.index]? = p.entities[t.id.index]? := by
    rw [hs, ht, hst]
  exact congrArg SymbolId.mk ((List.getElem?_inj hlt (nodup_entities h)).1 hindex)

end

/-! ## Lookups -/

/-- The declaration found by its full name is the first of that name. -/
theorem map_declarationNamed? (p : BoundProgram) (name : String) :
    (p.bind.declarationNamed? name).map (·.toEntity) =
      (p.nestedDeclarations.find? (·.fullName == name)).map
        (·.placed.entity p.targetScope) := by
  have hentities : (p.bind.declarationNamed? name).map (·.toEntity) =
      p.entities.find? fun v => !v.kind.isLoopVariable && v.name == name := by
    rw [← map_toEntity_symbols, List.find?_map]
    rfl
  have hdeclared : (p.entities.find? fun v => !v.kind.isLoopVariable && v.name == name) =
      (p.entities.filter (!·.kind.isLoopVariable)).find? (·.name == name) :=
    (find?_filter_and ..).symm
  rw [hentities, hdeclared, filter_declared_entities, List.find?_map]
  rfl

/-- The variable of a loop found by its name is the one that the loop
introduces. -/
theorem map_variableOf? (h : p.reusedIds = []) {l : LoopDescriptor} (hl : l ∈ p.boundLoops)
    (name : String) : (p.bind.variableOf? name l).map (·.toEntity) = l.introduced? name := by
  have hentities : (p.bind.variableOf? name l).map (·.toEntity) =
      p.entities.reverse.find? fun v => v.isBoundBy l.id && v.name == name := by
    rw [← map_toEntity_symbols, ← List.map_reverse, List.find?_map, Binding.variableOf?,
      findLast?_eq_find?]
    refine congrArg (Option.map _) (congrArg (List.find? · _) (funext fun s => ?_))
    rw [Binding.isVariableOf, Function.comp, Entity.isBoundBy]
    cases s.kind <;> rfl
  have hbound : (p.entities.reverse.find? fun v => v.isBoundBy l.id && v.name == name) =
      (p.entities.filter (·.isBoundBy l.id)).reverse.find? (·.name == name) := by
    rw [← List.filter_reverse, find?_filter_and]
  rw [hentities, hbound, variables_of_mem_boundLoops h hl, ← findLast?_eq_find?,
    l.findLast?_boundVariables]

/-- **A lookup inside copy loops finds what the name means inside them.** -/
theorem map_lookup (h : p.reusedIds = []) {node : SyntaxId}
    (hloops : p.bind.enclosingLoops node ⊆ p.boundLoops) (name : String) :
    (p.bind.lookup name node).map (·.toEntity) =
      p.meaningInside (p.bind.enclosingLoops node) name := by
  have hvariables : ((p.bind.enclosingLoops node).reverse.findSome?
        (p.bind.variableOf? name)).map (·.toEntity) =
      (p.bind.enclosingLoops node).reverse.findSome? (·.introduced? name) := by
    rw [List.map_findSome?, ← List.head?_filterMap, ← List.head?_filterMap]
    refine congrArg List.head? (List.filterMap_congr fun l hl => ?_)
    exact map_variableOf? h (hloops (List.mem_reverse.1 hl)) name
  rw [Binding.lookup, Option.map_or, hvariables, map_declarationNamed?, meaningInside]

/-- The loops around a node of a declaration's value. -/
theorem enclosingLoops_of_mem_value (h : p.reusedIds = []) {d : NestedDeclaration}
    (hd : d ∈ p.nestedDeclarations) {value : Expr} (hvalue : d.declaration.value = some value)
    {n : Expr} (hn : n ∈ value.preorder) :
    p.bind.enclosingLoops n.id = d.loopsAround ++ value.loopsOver n.id ∧
      p.bind.enclosingLoops n.id ⊆ p.boundLoops := by
  have hplaced : d.placed ∈ p.placements := by
    rw [placements_eq_map_nested]
    exact List.mem_map_of_mem hd
  rw [← Expr.map_fst_located d.loopsAround, List.mem_map] at hn
  obtain ⟨⟨n, chain⟩, hlocated, rfl⟩ := hn
  have hmem : (n, chain) ∈ p.located := located_value_subset hplaced hvalue hlocated
  have hnodup : (value.preorder.map Expr.id).Nodup := by
    refine (List.Sublist.map _ ?_).nodup (nodup_expressionIds h)
    have hnodes : d.declaration.valueNodes = value.preorder := by
      rw [Declaration.valueNodes, hvalue]
    rw [expressions, ← hnodes]
    exact sublist_flatMap_of_mem (mem_allDeclarations.2 ⟨d.placed, hplaced, rfl⟩)
  rw [enclosingLoops_eq h hmem]
  refine ⟨Expr.eq_of_mem_located hnodup hlocated, fun l hl => ?_⟩
  rw [(boundLoops_perm p).mem_iff]
  exact (chain_located hmem).subset_copyLoops hl

/-- The run that lists references selects what a name means outside all
loops. -/
theorem run_references (h : p.reusedIds = []) {files : FileReader} {tree : String}
    (hload : loadTree files tree = .ok p) (config : Config) (name : String) :
    (Command.references tree name).run files config =
      match p.bind.declarationNamed? name with
      | none => .error ⟨"", .unknownSymbol name⟩
      | some s => .ok ⟨0, String.join (((p.lower p.bind.model).referencesTo s.id).map
          fun r => r.display ++ "\n"), ""⟩ := by
  have hunit : loadUnit files config tree = .ok ⟨p.bind, p.lower p.bind.model⟩ := by
    rw [loadUnit, hload]
    show (do
      let graph ← (p.build p.bind.model config.build).mapError RunError.violation
      return LoadedUnit.mk p.bind graph) = _
    rw [build_of_stable h p.bind.stable_model]
    rfl
  simp only [Command.run, hunit]
  show (match p.bind.declarationNamed? name with
    | none => _
    | some symbol => _) = _
  cases p.bind.declarationNamed? name <;> rfl

/-- **Names are resolved by lexical scope.**  The loops around a node of a
declaration's value are those of the resources and modules around the
declaration and then the `for` nodes of the value whose body the node stands
in.  What a lookup at the node finds is the one symbol for what the name means
inside these loops.

Where no loop is around, that is the first symbol of the name that is no loop
variable, and it is the symbol whose references the program lists under that
name. -/
theorem lookup_lexical (h : p.reusedIds = []) :
    (∀ d ∈ p.nestedDeclarations, ∀ value, d.declaration.value = some value →
      ∀ n ∈ value.preorder,
        p.bind.enclosingLoops n.id = d.loopsAround ++ value.loopsOver n.id ∧
          ∀ name, (p.bind.lookup name n.id).map (·.toEntity) =
            p.meaningInside (d.loopsAround ++ value.loopsOver n.id) name) ∧
    (∀ s ∈ p.bind.symbols, ∀ t ∈ p.bind.symbols, s.toEntity = t.toEntity → s = t) ∧
    ∀ node name, p.bind.enclosingLoops node = [] →
      p.bind.lookup name node =
          p.bind.symbols.find? (fun s => !s.kind.isLoopVariable && s.name == name) ∧
        ∀ files config tree, loadTree files tree = .ok p →
          (Command.references tree name).run files config =
            match p.bind.lookup name node with
            | none => .error ⟨"", .unknownSymbol name⟩
            | some s => .ok ⟨0, String.join (((p.lower p.bind.model).referencesTo s.id).map
                fun r => r.display ++ "\n"), ""⟩ := by
  refine ⟨?_, fun s hs t ht => eq_of_toEntity_eq h hs ht, ?_⟩
  · intro d hd value hvalue n hn
    obtain ⟨hloops, hbound⟩ := enclosingLoops_of_mem_value h hd hvalue hn
    refine ⟨hloops, fun name => ?_⟩
    rw [map_lookup h hbound, hloops]
  · intro node name hnode
    have hlookup : p.bind.lookup name node = p.bind.declarationNamed? name := by
      rw [Binding.lookup, hnode]
      rfl
    refine ⟨hlookup, fun files config tree hload => ?_⟩
    rw [hlookup]
    exact run_references h hload config name

/-- The text of a unit with one variable. -/
def oneVariableText : String :=
  "\x7b\"declarations\":[\x7b\"id\":1,\"kind\":\"variable\",\"name\":\"a\","
    ++ "\"value\":\x7b\"id\":2,\"kind\":\"reference\",\"name\":\"a\"\x7d\x7d]\x7d"

/-- Inside a container that is nested in a storage account, both of them in
loops, names mean the variables of the two loops or a declaration.  Outside all
loops, the run over a stored unit finds what the name means. -/
theorem lookup_lexical_of_nested :
    let p := (Scenario.nested.run 0).1.program
    p.reusedIds = [] ∧
      (p.bind.enclosingLoops ⟨8⟩).map (·.id) = [⟨⟨5⟩⟩, ⟨⟨10⟩⟩] ∧
      (p.bind.lookup "account" ⟨8⟩).map (·.kind) = some (.loopVariable ⟨⟨5⟩⟩ .item) ∧
      (p.bind.lookup "j" ⟨8⟩).map (·.kind) = some (.loopVariable ⟨⟨10⟩⟩ .index) ∧
      (p.bind.lookup "accounts" ⟨8⟩).map (·.kind) = some .parameter ∧
    ∃ q, loadTree (fun _ => .ok oneVariableText) "unit" = .ok q ∧ q.reusedIds = [] ∧
      q.bind.enclosingLoops ⟨2⟩ = [] ∧ ∃ s, q.bind.lookup "a" ⟨2⟩ = some s ∧
        (Command.references "unit" "a").run (fun _ => .ok oneVariableText) .default =
          .ok ⟨0, String.join (((q.lower q.bind.model).referencesTo s.id).map
            fun r => r.display ++ "\n"), ""⟩ := by
  have h : (Scenario.nested.run 0).1.program.reusedIds = [] := by decide
  have hd : (Scenario.nested.run 0).1.program.nestedDeclarations[3]? = some _ := rfl
  obtain ⟨hloops, hlookup⟩ := (lookup_lexical h).1 _ (List.mem_of_getElem? hd) _ rfl _
    (List.mem_of_getElem? (i := 3) rfl)
  have hkind (name : String) := congrArg (Option.map Entity.kind) (hlookup name)
  simp only [Option.map_map] at hkind
  refine ⟨h, congrArg (List.map (·.id)) hloops, (hkind _).trans rfl, (hkind _).trans rfl,
    (hkind _).trans rfl, ?_⟩
  have hread : ((loadTree (fun _ => .ok oneVariableText) "unit").toOption.any fun q =>
      q.reusedIds.isEmpty && (q.bind.enclosingLoops ⟨2⟩).isEmpty &&
        (q.bind.lookup "a" ⟨2⟩).isSome) = true := by
    decide +kernel
  cases hload : loadTree (fun _ => .ok oneVariableText) "unit" with
  | error e =>
      rw [hload] at hread
      cases hread
  | ok q =>
      rw [hload] at hread
      simp only [Except.toOption, Option.any_some, Bool.and_eq_true, List.isEmpty_iff] at hread
      obtain ⟨⟨hq, hnode⟩, hsome⟩ := hread
      obtain ⟨s, hs⟩ := Option.isSome_iff_exists.1 hsome
      have hrun := ((lookup_lexical hq).2.2 _ "a" hnode).2 _ .default _ hload
      rw [hs] at hrun
      exact ⟨q, rfl, hq, hnode, s, hs, hrun⟩

end BoundProgram

end InfraGraph
