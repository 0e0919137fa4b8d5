import InfraGraph.Json.Record
import InfraGraph.Json.Variant
import InfraGraph.Proofs.Json.Clean

/-!
# Reading what is there

The fields of a record look for their members on their own, and every problem
of theirs has its place.  Where a clean object has exactly one member for a
field, and the field can read its value, there is no problem; where all fields
of a record find what they look for, the record is read.  Members that are there
for others do no harm.

What a member is read as may rest on how deep its value is nested.  So the
lemmas hand on to each field that its value fits into what room is left.

## Main definitions

* `Json.valuesOf` — the values under a name.
* `Json.Fields.Finds` — fields find what they look for.

## Main results

* `finds_required`, `finds_defaulted` — single fields.
* `readRecord_obj`, `readOuter_eq` — records.
* `readList_arr` — lists.
-/

namespace InfraGraph

namespace Json

/-! ## Members by their names -/

/-- The values under a name, in the order of the members. -/
def valuesOf (name : String) (members : List (String × Json)) : List Json :=
  (members.filter (·.1 == name)).map Prod.snd

theorem mem_of_mem_valuesOf {name : String} {members : List (String × Json)} {v : Json}
    (h : v ∈ valuesOf name members) : (name, v) ∈ members := by
  obtain ⟨⟨key, _⟩, hm, rfl⟩ := List.mem_map.1 h
  obtain ⟨hmem, hkey⟩ := List.mem_filter.1 hm
  obtain rfl : key = name := eq_of_beq hkey
  exact hmem

theorem valuesOf_append (name : String) (members others : List (String × Json)) :
    valuesOf name (members ++ others) = valuesOf name members ++ valuesOf name others := by
  rw [valuesOf, List.filter_append, List.map_append]
  rfl

theorem valuesOf_append_of_ne {name : String} {others : List (String × Json)}
    (h : ∀ m ∈ others, m.1 ≠ name) (members : List (String × Json)) :
    valuesOf name (members ++ others) = valuesOf name members := by
  have hothers : valuesOf name others = [] := by
    rw [valuesOf, List.map_eq_nil_iff, List.filter_eq_nil_iff]
    intro m hm heq
    exact h m hm (eq_of_beq heq)
  rw [valuesOf_append, hothers, List.append_nil]

theorem map_snd_placed (members : List (String × Json)) :
    (placed members).map Prod.snd = members := by
  rw [placed, List.map_map]
  exact List.zipIdx_map_fst 0 members

theorem mem_of_mem_placed {members : List (String × Json)} {m : Nat × String × Json}
    (h : m ∈ placed members) : m.2 ∈ members := by
  rw [← map_snd_placed members]
  exact List.mem_map_of_mem h

theorem map_filter_placed (name : String) (members : List (String × Json)) :
    ((placed members).filter (·.2.1 == name)).map (·.2.2) = valuesOf name members := by
  have hfilter : ((placed members).filter (·.2.1 == name)).map Prod.snd =
      members.filter (·.1 == name) := by
    rw [← map_snd_placed members, List.filter_map, map_snd_placed]
    rfl
  rw [valuesOf, ← hfilter, List.map_map]
  rfl

/-- A clean value that fits into the room is taken in at either stage. -/
theorem collect_eq_ok {stage : Stage} {room : Nat} {v : Json} (hclean : v.Clean)
    (hdepth : v.depth ≤ room) : collect stage room v = .ok () := by
  cases stage with
  | streamed => rw [collect, firstFault_eq_none hclean hdepth]
  | collected => rfl

/-! ## Fields -/

namespace Fields

section

variable {α β : Type} {members : List (String × Json)}

/-- The fields find in the members what they look for. -/
def Finds (fields : Fields α) (members : List (String × Json)) (a : α) : Prop :=
  fields.named (placed members) = .ok a

theorem finds_pure (a : α) : (Fields.pure a).Finds members a := rfl

theorem Finds.seq {f : Fields (α → β)} {x : Fields α} {g : α → β} {a : α}
    (hf : f.Finds members g) (hx : x.Finds members a) : (f <*> x).Finds members (g a) := by
  show (Trouble.both (f.named _) (x.named _)).map _ = _
  rw [hf, hx]
  rfl

theorem Finds.map {x : Fields α} {a : α} (f : α → β) (hx : x.Finds members a) :
    (f <$> x).Finds members (f a) :=
  (finds_pure f).seq hx

variable {name : String} {read : Json → Decoded α} {a : α}

theorem finds_field {absent omitted : Decoded α} {v : Json} (hv : valuesOf name members = [v])
    (hread : read v = .ok a) : (field name read absent omitted).Finds members a := by
  rw [← map_filter_placed] at hv
  obtain ⟨⟨place, key, _⟩, hfilter, rfl⟩ := List.map_eq_singleton_iff.1 hv
  simp only [Finds, field, hfilter, hread]
  rfl

theorem finds_absent {absent omitted : Decoded α} (hv : valuesOf name members = [])
    (habsent : absent = .ok a) : (field name read absent omitted).Finds members a := by
  rw [← map_filter_placed, List.map_eq_nil_iff] at hv
  simp only [Finds, field, hv, habsent]
  rfl

section

variable {room : Nat} (hdepth : (obj members).depth ≤ room + 1)

include hdepth

theorem depth_le_of_valuesOf {v : Json} (hv : valuesOf name members = [v]) : v.depth ≤ room := by
  have hmem : (name, v) ∈ members := by
    apply mem_of_mem_valuesOf
    rw [hv]
    exact List.mem_singleton_self v
  exact depth_obj_le.1 hdepth _ hmem

/-- A field that must be there is read from its only member. -/
theorem finds_required {v : Json} (hv : valuesOf name members = [v])
    (hread : v.depth ≤ room → read v = .ok a) : (required name read).Finds members a :=
  finds_field hv (hread (depth_le_of_valuesOf hdepth hv))

/-- So is a field that may be left out. -/
theorem finds_defaulted {v : Json} {value : α} (hv : valuesOf name members = [v])
    (hread : v.depth ≤ room → read v = .ok a) : (defaulted name value read).Finds members a :=
  finds_field hv (hread (depth_le_of_valuesOf hdepth hv))

end

/-- A field that was left out has its default. -/
theorem finds_default {value : α} (hv : valuesOf name members = []) :
    (defaulted name value read).Finds members value :=
  finds_absent hv rfl

/-- What is left out where there is nothing to write is read back as nothing. -/
theorem finds_optional {room : Nat} (hdepth : (obj members).depth ≤ room + 1) {write : α → Json}
    {x : Option α} (hv : valuesOf name members = (x.map write).toList)
    (hread : ∀ a, (write a).depth ≤ room → readOption read (write a) = .ok (some a)) :
    (defaulted name none (readOption read)).Finds members x := by
  cases x with
  | none => exact finds_default hv
  | some a => exact finds_defaulted hdepth hv (hread a)

end

/-! ## Records -/

section

variable {α : Type} {members : List (String × Json)} (hclean : (obj members).Clean)

theorem forM_eq_ok {ε β : Type} {f : β → Except ε Unit} {l : List β}
    (h : ∀ b ∈ l, f b = .ok ()) : l.forM f = .ok () := by
  induction l with
  | nil => rfl
  | cons b l ih =>
      obtain ⟨hb, hl⟩ := List.forall_mem_cons.1 h
      show (f b >>= fun _ => l.forM f) = .ok ()
      rw [hb]
      exact ih hl

include hclean

theorem skipUnknown_eq_ok (names : List String) : skipUnknown names (placed members) = .ok () := by
  apply forM_eq_ok
  intro m hm
  have hskip : skipFault m.2.2 = none :=
    skipFault_eq_none (clean_obj.1 hclean _ (mem_of_mem_placed hm))
  simp only [hskip]
  exact ite_self _

/-- Members that are there for others do no harm. -/
theorem read_eq {fields : Fields α} {a : α} (h : fields.Finds members a) :
    fields.read members none = .ok a := by
  rw [Fields.read, skipUnknown_eq_ok hclean, h]
  rfl

section

variable {room : Nat} (hdepth : (obj members).depth ≤ room + 1)

include hdepth

theorem collectUnknown_eq_ok (stage : Stage) (names : List String) :
    collectUnknown stage room names (placed members) = .ok () := by
  apply forM_eq_ok
  intro m hm
  have hmem := mem_of_mem_placed hm
  have hcollect : collect stage room m.2.2 = .ok () :=
    collect_eq_ok (clean_obj.1 hclean _ hmem) (depth_obj_le.1 hdepth _ hmem)
  simp only [hcollect]
  exact ite_self _

/-- The outer one of two records that share an object leaves to the inner one
what it has no fields for. -/
theorem readOuter_eq (stage : Stage) {fields : Fields α} {a : α} (h : fields.Finds members a) :
    fields.readOuter stage room members none =
      .ok (a, members.filter fun m => !fields.names.contains m.1) := by
  rw [Fields.readOuter, collectUnknown_eq_ok hclean hdepth, h]
  rfl

/-- A record that names its kind beside its own members: its own fields leave
the kind and the members of the kind, and the kind leaves its members. -/
theorem readOuter_kind (stage : Stage) {fields : Fields α} {a : α} {β : Type}
    {kinds : List (String × Fields β)} {kind : String} {kindFields : Fields β} {b : β}
    {own : List (String × Json)} (hfinds : fields.Finds members a)
    (hrest : members.filter (fun m => !fields.names.contains m.1) = ("kind", .str kind) :: own)
    (hkind : kinds.lookup kind = some kindFields) (hown : ∀ m ∈ own, m.1 ≠ "kind")
    (hown_finds : (obj own).depth ≤ room + 1 → kindFields.Finds own b) :
    fields.readOuter stage room members none = .ok (a, ("kind", .str kind) :: own) ∧
      (required "kind" (readTag kinds)).readOuter .collected room (("kind", .str kind) :: own) none
        = .ok (kindFields, own) ∧
      kindFields.read own none = .ok b := by
  have hsubset : ("kind", .str kind) :: own ⊆ members := hrest ▸ List.filter_sublist.subset
  have hclean_rest := hclean.of_subset hsubset
  have hdepth_rest := depth_obj_le_of_subset hdepth hsubset
  have hsubset_own : own ⊆ ("kind", .str kind) :: own := List.subset_cons_self _ _
  have htag : (required "kind" (readTag kinds)).Finds (("kind", .str kind) :: own) kindFields := by
    have hvalues := valuesOf_append_of_ne hown [("kind", .str kind)]
    refine finds_required hdepth_rest hvalues fun _ => ?_
    rw [readTag, hkind]
  have hfilter : (("kind", .str kind) :: own).filter (fun m => !(["kind"].contains m.1)) = own := by
    rw [List.filter_cons_of_neg (by simp), List.filter_eq_self]
    intro m hm
    simp [hown m hm]
  refine ⟨?_, ?_, ?_⟩
  · rw [readOuter_eq hclean hdepth stage hfinds, hrest]
  · rw [readOuter_eq hclean_rest hdepth_rest .collected htag]
    exact congrArg (fun rest => Except.ok (kindFields, rest)) hfilter
  · exact read_eq (hclean_rest.of_subset hsubset_own)
      (hown_finds (depth_obj_le_of_subset hdepth_rest hsubset_own))

end

end

end Fields

/-- A record is read from an object in which its fields find what they look
for. -/
theorem readRecord_obj {α : Type} {stage : Stage} {fields : Nat → Fields α} {room : Nat}
    {members : List (String × Json)} {a : α} (hclean : (obj members).Clean)
    (hdepth : (obj members).depth ≤ room)
    (h : ∀ inner < room, (obj members).depth ≤ inner + 1 → (fields inner).Finds members a) :
    readRecord stage fields room (.obj members) = .ok a := by
  cases room with
  | zero => cases hdepth
  | succ inner => exact Fields.read_eq hclean (h inner (Nat.lt_succ_self inner) hdepth)

/-! ## Lists and enumerations -/

theorem mapM_eq_ok {ε α β : Type} {f : α → Except ε β} {write : β → α} {l : List β}
    (h : ∀ b ∈ l, f (write b) = .ok b) : (l.map write).mapM f = .ok l := by
  induction l with
  | nil => rfl
  | cons b l ih =>
      obtain ⟨hb, hl⟩ := List.forall_mem_cons.1 h
      rw [List.map_cons, List.mapM_cons, hb, ih hl]
      rfl

/-- A list is read if its items are. -/
theorem readList_arr {α : Type} {read : Nat → Json → Decoded α} {write : α → Json} {l : List α}
    {room : Nat} (hdepth : (arr (l.map write)).depth ≤ room)
    (h : ∀ inner < room, ∀ a ∈ l, (write a).depth ≤ inner → read inner (write a) = .ok a) :
    readList read room (.arr (l.map write)) = .ok l := by
  cases room with
  | zero => cases hdepth
  | succ inner =>
      rw [depth_arr_le, List.forall_mem_map] at hdepth
      exact mapM_eq_ok fun a ha => h inner (Nat.lt_succ_self inner) a ha (hdepth a ha)

/-- A plain variant is read from its name. -/
theorem readVariant_str {α : Type} {stage : Stage} {table : Nat → List (String × Variant α)}
    {room : Nat} {name : String} {a : α} (h : (table room).lookup name = some (.plain a)) :
    readVariant stage table room (.str name) = .ok a := by
  rw [readVariant, findVariant, h]
  rfl

/-- A variant with a payload is read from the only member of an object. -/
theorem readVariant_obj {α : Type} {stage : Stage} {table : Nat → List (String × Variant α)}
    {room : Nat} {name : String} {read : Json → Decoded α} {v : Json} {a : α}
    (h : (table room).lookup name = some (.payload read)) (hread : read v = .ok a) :
    readVariant stage table (room + 1) (.obj [(name, v)]) = .ok a := by
  cases stage with
  | streamed =>
      rw [readVariant, readObject, readStreamedVariant, findVariant, h]
      show (read v >>= _) = _
      rw [hread]
      rfl
  | collected =>
      show (findVariant (table room) name >>= _) = _
      rw [findVariant, h]
      exact hread

end Json

end InfraGraph
