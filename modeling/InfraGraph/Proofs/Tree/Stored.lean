import InfraGraph.Pipeline
import InfraGraph.Proofs.Json.Text
import InfraGraph.Proofs.Tree.Leaves
import InfraGraph.Proofs.Tree.Nodes
import InfraGraph.Scenario

/-!
# Reading stored trees

A node is stored as one object, in which its own members, its kind and the
members of that kind stand side by side.  Reading takes such an object apart in
three steps: the node's own members first, then the kind out of what was left,
then the members of that kind out of the rest.  No member is taken twice,
because the kinds have no member that is called like one of the node's own.

So every tree is read back as it was stored, if there is room for what its
stored form nests.

## Main results

* `Expr.read_toJson` — expressions.
* `Declaration.read_toJson` — declarations.
* `BoundProgram.stored_reread` — units, from their values and from their texts.
-/

namespace InfraGraph

/-! ## Expressions -/

namespace Expr

theorem toJsonAll_eq (es : List Expr) : toJsonAll es = es.map toJson := by
  induction es with
  | nil => rfl
  | cons e es ih => rw [toJsonAll, ih, List.map_cons]

/-- An entry of an object literal as JSON. -/
def entryToJson (entry : String × Expr) : Json :=
  .obj [("key", .str entry.1), ("value", entry.2.toJson)]

theorem toJsonEntries_eq (entries : List (String × Expr)) :
    toJsonEntries entries = entries.map entryToJson := by
  induction entries with
  | nil => rfl
  | cons entry entries ih =>
      obtain ⟨key, e⟩ := entry
      rw [toJsonEntries, ih, List.map_cons]
      rfl

@[simp] theorem clean_toJson (e : Expr) : e.toJson.Clean := by
  induction e using Expr.induction with
  | step e ih =>
      cases e with
      | loop o item index source body =>
          cases index <;>
            simp_all [toJson, Origin.members, optionalMember, children]
      | object o entries =>
          have hentries : ∀ v ∈ entries.map entryToJson, v.Clean := by
            rw [List.forall_mem_map]
            intro entry hentry
            simp [entryToJson, ih entry.2 (List.mem_map_of_mem hentry)]
          simpa [toJson, Origin.members, toJsonEntries_eq] using hentries
      | _ => simp_all [toJson, Origin.members, toJsonAll_eq, children]

/-! ### One node -/

section

open Json.Fields

variable {child : Nat → Json → Json.Decoded Expr} {stage : Stage} {room : Nat}

/-- A node of an expression is read if its kind finds its members among those
that are not the node's own. -/
theorem readNode_obj {o : Origin} {kind : String} {own : List (String × Json)}
    {fields : Json.Fields (Origin → Expr)} {build : Origin → Expr}
    (hclean : (Json.obj (o.members kind ++ own)).Clean)
    (hdepth : (Json.obj (o.members kind ++ own)).depth ≤ room + 1)
    (hkind : (kinds child room).lookup kind = some fields)
    (hown : ∀ m ∈ own, m.1 ∉ ["id", "span", "kind"])
    (hfinds : (Json.obj own).depth ≤ room + 1 → fields.Finds own build) :
    readNode child stage (room + 1) (.obj (o.members kind ++ own)) = .ok (build o) := by
  have hvalues {name : String} (hname : name ∈ ["id", "span", "kind"]) :
      Json.valuesOf name (o.members kind ++ own) = Json.valuesOf name (o.members kind) := by
    apply Json.valuesOf_append_of_ne
    rintro m hm rfl
    exact hown m hm hname
  have horigin : (Origin.fields stage room).Finds (o.members kind ++ own) o := by
    refine (Finds.map Origin.mk ?_).seq ?_
    · exact finds_required hdepth (hvalues (by simp)) fun _ => o.id.read_toJson
    · exact finds_defaulted hdepth (hvalues (by simp)) Span.read_toJson
  have hrest : (o.members kind ++ own).filter (fun m => !(["id", "span"].contains m.1)) =
      ("kind", .str kind) :: own := by
    have hfilter : own.filter (fun m => !(["id", "span"].contains m.1)) = own := by
      rw [List.filter_eq_self]
      intro m hm
      have hnot := hown m hm
      simp_all
    rw [List.filter_append, hfilter]
    rfl
  obtain ⟨hnode, htag, hread⟩ := readOuter_kind hclean hdepth stage horigin hrest hkind
    (fun m hm heq => hown m hm (by simp [heq])) hfinds
  show ((Origin.fields stage room).readOuter stage room (o.members kind ++ own) none >>= _) = _
  rw [hnode]
  show ((Json.required "kind" _).readOuter .collected room (("kind", .str kind) :: own) none >>=
    _) = _
  rw [htag]
  show (fields.read own none >>= _) = _
  rw [hread]
  rfl

end

/-! ### Expressions in expressions -/

section

open Json.Fields

theorem depth_toJson_pos (e : Expr) : 0 < e.toJson.depth := by
  cases e <;> exact Nat.succ_pos _

theorem clean_entryToJson (entry : String × Expr) : (entryToJson entry).Clean := by
  simp [entryToJson]

/-- An entry is read if its value is. -/
theorem readEntry_entryToJson {child : Nat → Json → Json.Decoded Expr} {room : Nat}
    {entry : String × Expr} (hdepth : (entryToJson entry).depth ≤ room)
    (hchild : ∀ inner < room, entry.2.toJson.depth ≤ inner →
      child inner entry.2.toJson = .ok entry.2) :
    readEntry child room (entryToJson entry) = .ok entry := by
  refine Json.readRecord_obj (clean_entryToJson entry) hdepth fun inner hinner hmembers => ?_
  obtain ⟨key, e⟩ := entry
  refine (Finds.map Prod.mk ?_).seq ?_
  · exact finds_required hmembers rfl fun _ => rfl
  · exact finds_required hmembers rfl (hchild inner hinner)

theorem readWithin_toJson {e : Expr} {stage : Stage} {layers room : Nat} (hlayers : room ≤ layers)
    (hdepth : e.toJson.depth ≤ room) : readWithin layers stage room e.toJson = .ok e := by
  induction e using Expr.induction generalizing stage layers room with
  | step e ih =>
      have hpos := e.depth_toJson_pos
      obtain ⟨room, rfl⟩ := Nat.exists_eq_succ_of_ne_zero (n := room) (by omega)
      obtain ⟨layers, rfl⟩ := Nat.exists_eq_succ_of_ne_zero (n := layers) (by omega)
      have hchild {c : Expr} (hc : c ∈ e.children) (hdepth : c.toJson.depth ≤ room) :
          readWithin layers .collected room c.toJson = .ok c :=
        ih c hc (by omega) hdepth
      have hall {cs : List Expr} (hcs : cs ⊆ e.children)
          (hdepth : (Json.arr (toJsonAll cs)).depth ≤ room) :
          Json.readList (readWithin layers .collected) room (.arr (toJsonAll cs)) = .ok cs := by
        rw [toJsonAll_eq] at hdepth ⊢
        refine Json.readList_arr hdepth fun inner hinner c hc hdepth => ?_
        exact ih c (hcs hc) (by omega) hdepth
      have hclean := e.clean_toJson
      cases e with
      | literal o value =>
          refine readNode_obj hclean hdepth rfl (by simp) fun hown => Finds.map _ ?_
          exact finds_required hown rfl LiteralValue.read_toJson
      | interpolation o segments parts =>
          refine readNode_obj hclean hdepth rfl (by simp) fun hown => (Finds.map _ ?_).seq ?_
          · exact finds_required hown rfl fun hdepth =>
              Json.readList_arr hdepth fun _ _ _ _ _ => rfl
          · exact finds_required hown rfl (hall (List.Subset.refl parts))
      | object o entries =>
          refine readNode_obj hclean hdepth rfl (by simp) fun hown => Finds.map _ ?_
          refine finds_required hown rfl fun hdepth => ?_
          rw [toJsonEntries_eq] at hdepth ⊢
          refine Json.readList_arr hdepth fun inner hinner entry hentry hdepth => ?_
          have hmem : entry.2 ∈ (Expr.object o entries).children := List.mem_map_of_mem hentry
          exact readEntry_entryToJson hdepth fun room hroom => ih entry.2 hmem (by omega)
      | array o items =>
          refine readNode_obj hclean hdepth rfl (by simp) fun hown => Finds.map _ ?_
          exact finds_required hown rfl (hall (List.Subset.refl items))
      | reference o name =>
          refine readNode_obj hclean hdepth rfl (by simp) fun hown => Finds.map _ ?_
          exact finds_required hown rfl fun _ => rfl
      | property o base name =>
          refine readNode_obj hclean hdepth rfl (by simp) fun hown => (Finds.map _ ?_).seq ?_
          · exact finds_required hown rfl (hchild (by simp [children]))
          · exact finds_required hown rfl fun _ => rfl
      | element o base index =>
          refine readNode_obj hclean hdepth rfl (by simp) fun hown => (Finds.map _ ?_).seq ?_
          · exact finds_required hown rfl (hchild (by simp [children]))
          · exact finds_required hown rfl (hchild (by simp [children]))
      | ternary o condition ifTrue ifFalse =>
          refine readNode_obj hclean hdepth rfl (by simp) fun hown =>
            ((Finds.map _ ?_).seq ?_).seq ?_
          · exact finds_required hown rfl (hchild (by simp [children]))
          · exact finds_required hown rfl (hchild (by simp [children]))
          · exact finds_required hown rfl (hchild (by simp [children]))
      | guarded o condition body =>
          refine readNode_obj hclean hdepth rfl (by simp) fun hown => (Finds.map _ ?_).seq ?_
          · exact finds_required hown rfl (hchild (by simp [children]))
          · exact finds_required hown rfl (hchild (by simp [children]))
      | call o name arguments =>
          refine readNode_obj hclean hdepth rfl (by simp) fun hown => (Finds.map _ ?_).seq ?_
          · exact finds_required hown rfl fun _ => rfl
          · exact finds_required hown rfl (hall (List.Subset.refl arguments))
      | binary o operator left right =>
          refine readNode_obj hclean hdepth rfl (by simp) fun hown =>
            ((Finds.map _ ?_).seq ?_).seq ?_
          · exact finds_required hown rfl fun _ => operator.read_name .collected room
          · exact finds_required hown rfl (hchild (by simp [children]))
          · exact finds_required hown rfl (hchild (by simp [children]))
      | unary o operator operand =>
          refine readNode_obj hclean hdepth rfl (by simp) fun hown => (Finds.map _ ?_).seq ?_
          · exact finds_required hown rfl fun _ => operator.read_name .collected room
          · exact finds_required hown rfl (hchild (by simp [children]))
      | loop o item index source body =>
          have hmembers : (Expr.loop o item index source body).toJson =
              .obj (o.members "for" ++ ([("itemVariable", .str item)]
                ++ optionalMember "indexVariable" Json.str index
                ++ [("source", source.toJson), ("body", body.toJson)])) := by
            rw [toJson, List.append_assoc, List.append_assoc, List.append_assoc]
          rw [hmembers] at hclean hdepth ⊢
          refine readNode_obj hclean hdepth rfl (by cases index <;> simp [optionalMember])
            fun hown => (((Finds.map _ ?_).seq ?_).seq ?_).seq ?_
          · exact finds_required hown (by cases index <;> rfl) fun _ => rfl
          · exact finds_optional hown (by cases index <;> rfl) fun _ _ => rfl
          · exact finds_required hown (by cases index <;> rfl) (hchild (by simp [children]))
          · exact finds_required hown (by cases index <;> rfl) (hchild (by simp [children]))

/-- **Expressions** are read back as they were stored. -/
theorem read_toJson {e : Expr} {stage : Stage} {room : Nat} (hdepth : e.toJson.depth ≤ room) :
    read stage room e.toJson = .ok e :=
  readWithin_toJson (Nat.le_refl room) hdepth

theorem readOption_toJson {e : Expr} {stage : Stage} {room : Nat}
    (hdepth : e.toJson.depth ≤ room) :
    Json.readOption (read stage room) e.toJson = .ok (some e) := by
  have hread : (read stage room e.toJson).map some = .ok (some e) :=
    congrArg (Except.map some) (read_toJson hdepth)
  cases e <;> exact hread

end

end Expr

/-! ## Declarations -/

namespace DeclarationKind

@[simp] theorem clean_members (kind : DeclarationKind) : (Json.obj kind.members).Clean := by
  cases kind with
  | resource type scope => cases scope <;> simp [members, optionalMember]
  | module path scope => cases scope <;> simp [members, optionalMember]
  | _ => simp [members]

open Json.Fields in
/-- A kind is found by its name, and finds its members. -/
theorem exists_members (kind : DeclarationKind) (room : Nat) : ∃ name own fields,
    kind.members = ("kind", .str name) :: own ∧ (∀ m ∈ own, m.1 ≠ "kind") ∧
      (kinds room).lookup name = some fields ∧
      ((Json.obj own).depth ≤ room + 1 → fields.Finds own kind) := by
  have hscope (s : DeploymentScope) (_ : s.toJson.depth ≤ room) :
      Json.readOption (DeploymentScope.read .collected room) s.toJson = .ok (some s) :=
    congrArg (Except.map some) (s.read_toJson .collected room)
  cases kind with
  | parameter type =>
      refine ⟨"parameter", _, _, rfl, by simp, rfl, fun hown => Finds.map _ ?_⟩
      exact finds_required hown rfl DeclaredType.read_toJson
  | «variable» => exact ⟨"variable", _, _, rfl, by simp, rfl, fun _ => finds_pure _⟩
  | resource type scope =>
      refine ⟨"resource", _, _, rfl, by cases scope <;> simp [optionalMember], rfl,
        fun hown => (Finds.map _ ?_).seq ?_⟩
      · exact finds_required hown (by cases scope <;> rfl) fun _ => rfl
      · exact finds_optional hown (by cases scope <;> rfl) hscope
  | module path scope =>
      refine ⟨"module", _, _, rfl, by cases scope <;> simp [optionalMember], rfl,
        fun hown => (Finds.map _ ?_).seq ?_⟩
      · exact finds_required hown (by cases scope <;> rfl) fun _ => rfl
      · exact finds_optional hown (by cases scope <;> rfl) hscope
  | output type =>
      refine ⟨"output", _, _, rfl, by simp, rfl, fun hown => Finds.map _ ?_⟩
      exact finds_required hown rfl DeclaredType.read_toJson

end DeclarationKind

namespace Declaration

theorem toJsonAll_eq (ds : List Declaration) : toJsonAll ds = ds.map toJson := by
  induction ds with
  | nil => rfl
  | cons d ds ih => rw [toJsonAll, ih, List.map_cons]

/-- The members of a declaration that belong to no kind and may be missing. -/
def optionalMembers (d : Declaration) : List (String × Json) :=
  optionalMember "value" Expr.toJson d.value
    ++ (if d.children.isEmpty then [] else [("children", .arr (toJsonAll d.children))])

/-- The members of a declaration. -/
def members (d : Declaration) : List (String × Json) :=
  [("id", d.origin.id.toJson), ("name", .str d.name), ("span", d.origin.span.toJson)]
    ++ (d.kind.members ++ d.optionalMembers)

theorem toJson_eq (d : Declaration) : d.toJson = .obj d.members := by
  obtain ⟨origin, name, kind, value, children⟩ := d
  rw [toJson, members, optionalMembers, List.append_assoc, List.append_assoc]

@[simp] theorem clean_toJson (d : Declaration) : d.toJson.Clean := by
  induction d using Declaration.induction with
  | step d ih =>
      have hvalue : ∀ m ∈ optionalMember "value" Expr.toJson d.value, m.2.Clean := by
        cases d.value <;> simp [optionalMember]
      have hchildren : (Json.arr (toJsonAll d.children)).Clean := by
        rw [toJsonAll_eq, Json.clean_arr, List.forall_mem_map]
        exact ih
      rw [toJson_eq, Json.clean_obj, members, optionalMembers]
      simp only [List.forall_mem_append]
      refine ⟨by simp, Json.clean_obj.1 d.kind.clean_members, hvalue, ?_⟩
      cases d.children.isEmpty <;> simp_all

/-- The names of the members that belong to no kind. -/
def ownNames : List String :=
  ["id", "name", "span", "value", "children"]

theorem kind_names (kind : DeclarationKind) : ∀ m ∈ kind.members, m.1 ∉ ownNames := by
  cases kind with
  | resource type scope =>
      cases scope <;> simp [DeclarationKind.members, optionalMember, ownNames]
  | module path scope =>
      cases scope <;> simp [DeclarationKind.members, optionalMember, ownNames]
  | _ => simp [DeclarationKind.members, ownNames]

theorem valuesOf_members (d : Declaration) {name : String} (hname : name ∈ ownNames) :
    Json.valuesOf name d.members =
      Json.valuesOf name [("id", d.origin.id.toJson), ("name", .str d.name),
        ("span", d.origin.span.toJson)] ++ Json.valuesOf name d.optionalMembers := by
  have hkind : Json.valuesOf name d.kind.members = [] := by
    rw [← List.nil_append d.kind.members, Json.valuesOf_append_of_ne]
    · rfl
    · rintro m hm rfl
      exact kind_names d.kind m hm hname
  rw [members, Json.valuesOf_append, Json.valuesOf_append, hkind, List.nil_append]

/-- The values of the members that belong to no kind. -/
theorem valuesOf_own (d : Declaration) :
    Json.valuesOf "id" d.members = [d.origin.id.toJson] ∧
      Json.valuesOf "name" d.members = [.str d.name] ∧
      Json.valuesOf "span" d.members = [d.origin.span.toJson] ∧
      Json.valuesOf "value" d.members = (d.value.map Expr.toJson).toList ∧
      Json.valuesOf "children" d.members =
        if d.children.isEmpty then [] else [.arr (toJsonAll d.children)] := by
  refine ⟨?_, ?_, ?_, ?_, ?_⟩ <;> rw [d.valuesOf_members (by decide), optionalMembers]
  all_goals cases d.value <;> cases d.children <;> rfl

/-- The members that are left for the kind. -/
theorem filter_members (d : Declaration) :
    d.members.filter (fun m => !ownNames.contains m.1) = d.kind.members := by
  have hkind : d.kind.members.filter (fun m => !ownNames.contains m.1) = d.kind.members := by
    rw [List.filter_eq_self]
    intro m hm
    simp [kind_names d.kind m hm]
  have hoptional : d.optionalMembers.filter (fun m => !ownNames.contains m.1) = [] := by
    rw [optionalMembers, List.filter_append]
    cases d.value <;> cases d.children <;> rfl
  rw [members, List.filter_append, List.filter_append, hkind, hoptional, List.append_nil]
  rfl

section

open Json.Fields

variable {child : Nat → Json → Json.Decoded Declaration} {stage : Stage} {room : Nat}

/-- The fields of a declaration find its own members. -/
theorem fields_find {d : Declaration} (hdepth : d.toJson.depth ≤ room + 1)
    (hchildren : (Json.arr (toJsonAll d.children)).depth ≤ room →
      Json.readList child room (.arr (toJsonAll d.children)) = .ok d.children) :
    (fields child stage room).Finds d.members fun kind =>
      ⟨d.origin, d.name, kind, d.value, d.children⟩ := by
  rw [toJson_eq] at hdepth
  obtain ⟨hid, hname, hspan, hvalue, hchild⟩ := d.valuesOf_own
  refine ((((Finds.map _ ?_).seq ?_).seq ?_).seq ?_).seq ?_
  · exact finds_required hdepth hid fun _ => d.origin.id.read_toJson
  · exact finds_required hdepth hname fun _ => rfl
  · exact finds_defaulted hdepth hspan Span.read_toJson
  · exact finds_optional hdepth hvalue fun e => Expr.readOption_toJson
  · cases hempty : d.children with
    | nil =>
        rw [hempty] at hchild
        exact finds_default hchild
    | cons c cs =>
        rw [hempty] at hchild hchildren
        exact finds_defaulted hdepth hchild hchildren

/-- A declaration is read if those nested in it are. -/
theorem readNode_toJson {d : Declaration} (hdepth : d.toJson.depth ≤ room + 1)
    (hchildren : (Json.arr (toJsonAll d.children)).depth ≤ room →
      Json.readList child room (.arr (toJsonAll d.children)) = .ok d.children) :
    readNode child stage (room + 1) d.toJson = .ok d := by
  have hclean := d.clean_toJson
  have hfind : (fields child stage room).Finds d.members fun kind =>
      ⟨d.origin, d.name, kind, d.value, d.children⟩ := fields_find hdepth hchildren
  obtain ⟨name, own, kindFields, hmembers, hown, hkind, hfinds⟩ := d.kind.exists_members room
  rw [toJson_eq] at hclean hdepth ⊢
  obtain ⟨hnode, htag, hread⟩ := readOuter_kind hclean hdepth stage hfind
    (d.filter_members.trans hmembers) hkind hown hfinds
  show ((fields child stage room).readOuter stage room d.members none >>= _) = _
  rw [hnode]
  show ((Json.required "kind" _).readOuter .collected room (("kind", .str name) :: own) none >>=
    _) = _
  rw [htag]
  show (kindFields.read own none >>= _) = _
  rw [hread]
  cases d
  rfl

theorem readWithin_toJson {d : Declaration} {layers : Nat} (hlayers : room ≤ layers)
    (hdepth : d.toJson.depth ≤ room) : readWithin layers stage room d.toJson = .ok d := by
  induction d using Declaration.induction generalizing layers room with
  | step d ih =>
      have hpos : 0 < d.toJson.depth := by
        rw [toJson_eq]
        exact Nat.succ_pos _
      obtain ⟨room, rfl⟩ := Nat.exists_eq_succ_of_ne_zero (n := room) (by omega)
      obtain ⟨layers, rfl⟩ := Nat.exists_eq_succ_of_ne_zero (n := layers) (by omega)
      refine readNode_toJson hdepth fun hchildren => ?_
      rw [toJsonAll_eq] at hchildren ⊢
      refine Json.readList_arr hchildren fun inner hinner c hc hdepth => ?_
      exact ih c hc (by omega) hdepth

/-- **Declarations** are read back as they were stored. -/
theorem read_toJson {d : Declaration} (hdepth : d.toJson.depth ≤ room) :
    read stage room d.toJson = .ok d :=
  readWithin_toJson (Nat.le_refl room) hdepth

end

end Declaration

/-! ## Units -/

namespace BoundProgram

@[simp] theorem clean_toJson (p : BoundProgram) : p.toJson.Clean := by
  simp [toJson, Declaration.toJsonAll_eq]

open Json.Fields in
theorem read_toJson {p : BoundProgram} {room : Nat} (hdepth : p.toJson.depth ≤ room) :
    read room p.toJson = .ok p := by
  refine Json.readRecord_obj p.clean_toJson hdepth fun inner _ hinner => ?_
  obtain ⟨target, ds⟩ := p
  refine (Finds.map BoundProgram.mk ?_).seq ?_
  · exact finds_defaulted hinner rfl fun _ => target.read_toJson .streamed inner
  · refine finds_required hinner rfl fun hdeclarations => ?_
    rw [Declaration.toJsonAll_eq] at hdeclarations ⊢
    exact Json.readList_arr hdeclarations fun _ _ d _ hd => Declaration.read_toJson hd

/-- A text that holds the stored form of a unit is read as the unit. -/
theorem readJsonText_of_parse {p : BoundProgram} {text : String}
    (hdepth : p.toJson.depth ≤ nestingLimit) (h : Document.parse text = .ofValue p.toJson) :
    Json.readJsonText read text = .ok p := by
  rw [Json.readJsonText, Json.readDocument, h]
  show (read nestingLimit p.toJson >>= _) = _
  rw [read_toJson hdepth]
  rfl

/-- **Units are read back as they were stored.**  The stored form of a unit,
whatever declarations, expressions, literals, types, scopes and spans it has, is
read as that unit in any room that its containers fit into.  In text they fit if
no more than 127 of them are nested in each other, and the unit is read back
from its text in either layout. -/
theorem stored_reread (p : BoundProgram) :
    (∀ room, p.toJson.depth ≤ room → read room p.toJson = .ok p) ∧
      (p.toJson.depth ≤ nestingLimit →
        p.reread = .ok p ∧ Json.readJsonText read p.toJson.pretty = .ok p) := by
  refine ⟨fun room hdepth => read_toJson hdepth, fun hdepth => ⟨?_, ?_⟩⟩
  · exact readJsonText_of_parse hdepth (Json.parse_compact p.clean_toJson)
  · exact readJsonText_of_parse hdepth (Json.parse_pretty p.clean_toJson)

open Assembly Scenario in
/-- A unit with declarations, expressions and literals of every kind, and nested
types and declarations. -/
def everyKind : BoundProgram :=
  let unit : Assembly BoundProgram := do
    let least ← int Int64.minValue
    let null ← node (.literal · .null)
    let truth ← node (.literal · (.bool true))
    let quoted ← string "\"a\\b\"\n\x01"
    let minus ← node (.unary · .minus least)
    let choice ← node (.ternary · truth minus null)
    let join ← node (.interpolation · ["", "-", ""] [quoted, choice])
    let pair ← node (.array · [join, ← rangeOfThree])
    let limits ← declare "limits" (.parameter (.array (.array .int))) (some pair)
    let source ← reference "limits"
    let first ← element (← reference "row") (← reference "i")
    let sum ← node (.binary · .add first (← int 1))
    let body ← node (.guarded · (← node (.literal · (.bool false))) sum)
    let rows ← loop "row" (some "i") source body
    let inner ← bindVariable "inner" (← object [("same", ← property (← reference "store") "id")])
    let store ← declare "store" (.resource storageType (some .tenant)) (some rows)
    let net ← declare "net" (.module "net.keel" none) none
    let out ← output "out" (.resource storageType) (← reference "store::inner")
    return ⟨.subscription, [limits, { store with children := [inner] }, net, out]⟩
  (unit.run 0).1

/-- The unit with something of every kind nests twelve containers, and is read
back from its value and from its text. -/
theorem stored_reread_of_everyKind :
    everyKind.toJson.depth = 12 ∧ 12 ≤ nestingLimit ∧
      read 12 everyKind.toJson = .ok everyKind ∧ everyKind.reread = .ok everyKind ∧
      Json.readJsonText read everyKind.toJson.pretty = .ok everyKind := by
  have hdepth : everyKind.toJson.depth = 12 := by decide +kernel
  have hlimit : 12 ≤ nestingLimit := by decide
  obtain ⟨hvalue, htext⟩ := stored_reread everyKind
  obtain ⟨hcompact, hpretty⟩ := htext (by rw [hdepth]; exact hlimit)
  exact ⟨hdepth, hlimit, hvalue 12 (Nat.le_of_eq hdepth), hcompact, hpretty⟩

end BoundProgram

end InfraGraph
