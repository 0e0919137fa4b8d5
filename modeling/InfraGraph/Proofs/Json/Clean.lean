import InfraGraph.Json.Value

/-!
# Values without flaws

Only values that were read have flaws, and only in text is a number more than
an integer of a machine word.  A value without either is *clean*.  Taking such a
value in as a whole meets no fault if its containers are not nested too deep,
and skipping it meets none at all.

## Main definitions

* `Json.Clean` — a value without flaws.
* `Json.depth` — how deep its containers are nested.

## Main results

* `Json.induction` — induction from the inside of a value.
* `firstFault_eq_none`, `skipFault_eq_none` — taking in and skipping.
-/

namespace InfraGraph

namespace Json

/-! ## What stands inside a value -/

/-- The values directly inside a value. -/
def children : Json → List Json
  | .arr items => items
  | .obj members => members.map Prod.snd
  | .torn members _ => members.map Prod.snd
  | _ => []

theorem sizeOf_lt_of_mem_members {m : String × Json} {members : List (String × Json)}
    (h : m ∈ members) : sizeOf m.2 < sizeOf members := by
  have hmember := List.sizeOf_lt_of_mem h
  obtain ⟨name, v⟩ := m
  simp only [Prod.mk.sizeOf_spec] at hmember
  show sizeOf v < sizeOf members
  omega

theorem sizeOf_lt_of_mem_children {c v : Json} (h : c ∈ v.children) : sizeOf c < sizeOf v := by
  cases v with
  | arr items =>
      have : sizeOf c < sizeOf items := List.sizeOf_lt_of_mem h
      simp only [arr.sizeOf_spec]
      omega
  | obj members =>
      obtain ⟨m, hm, rfl⟩ := List.mem_map.1 h
      have := sizeOf_lt_of_mem_members hm
      simp only [obj.sizeOf_spec]
      omega
  | torn members f =>
      obtain ⟨m, hm, rfl⟩ := List.mem_map.1 h
      have := sizeOf_lt_of_mem_members hm
      simp only [torn.sizeOf_spec]
      omega
  | _ => cases h

/-- Induction from the values inside a value to the value. -/
theorem induction {motive : Json → Prop}
    (step : ∀ v, (∀ c ∈ v.children, motive c) → motive v) (v : Json) : motive v :=
  step v fun c _ => induction step c
termination_by sizeOf v
decreasing_by exact sizeOf_lt_of_mem_children ‹_›

/-! ## Depth -/

mutual

/-- The number of containers that are nested in each other, the outermost
included. -/
def depth : Json → Nat
  | .arr items => depthItems items + 1
  | .obj members => depthMembers members + 1
  | .torn members _ => depthMembers members + 1
  | _ => 0

/-- `depth` over the items of a list. -/
def depthItems : List Json → Nat
  | [] => 0
  | v :: rest => max (depth v) (depthItems rest)

/-- `depth` over the members of an object. -/
def depthMembers : List (String × Json) → Nat
  | [] => 0
  | (_, v) :: rest => max (depth v) (depthMembers rest)

end

theorem depthItems_le {items : List Json} {room : Nat} :
    depthItems items ≤ room ↔ ∀ v ∈ items, v.depth ≤ room := by
  induction items with
  | nil => simp [depthItems]
  | cons v items ih => rw [depthItems, Nat.max_le, ih, List.forall_mem_cons]

theorem depthMembers_le {members : List (String × Json)} {room : Nat} :
    depthMembers members ≤ room ↔ ∀ m ∈ members, m.2.depth ≤ room := by
  induction members with
  | nil => simp [depthMembers]
  | cons m members ih => rw [depthMembers, Nat.max_le, ih, List.forall_mem_cons]

theorem depth_arr_le {items : List Json} {room : Nat} :
    (arr items).depth ≤ room + 1 ↔ ∀ v ∈ items, v.depth ≤ room := by
  rw [depth, Nat.add_le_add_iff_right, depthItems_le]

theorem depth_obj_le {members : List (String × Json)} {room : Nat} :
    (obj members).depth ≤ room + 1 ↔ ∀ m ∈ members, m.2.depth ≤ room := by
  rw [depth, Nat.add_le_add_iff_right, depthMembers_le]

/-! ## Clean values -/

mutual

/-- A value without flaws, all of whose numbers are integers of a machine
word. -/
def Clean : Json → Prop
  | .null => True
  | .bool _ => True
  | .int n => Int64.minValue.toInt ≤ n ∧ n < UInt64.size
  | .real => False
  | .str _ => True
  | .arr items => CleanItems items
  | .obj members => CleanMembers members
  | .flaw _ => False
  | .torn _ _ => False

/-- `Clean` for the items of a list. -/
def CleanItems : List Json → Prop
  | [] => True
  | v :: rest => Clean v ∧ CleanItems rest

/-- `Clean` for the members of an object. -/
def CleanMembers : List (String × Json) → Prop
  | [] => True
  | (_, v) :: rest => Clean v ∧ CleanMembers rest

end

@[simp] theorem clean_null : null.Clean := trivial

@[simp] theorem clean_bool (b : Bool) : (bool b).Clean := trivial

@[simp] theorem clean_str (s : String) : (str s).Clean := trivial

@[simp] theorem clean_int {n : Int} :
    (int n).Clean ↔ Int64.minValue.toInt ≤ n ∧ n < UInt64.size := Iff.rfl

@[simp] theorem clean_arr {items : List Json} : (arr items).Clean ↔ ∀ v ∈ items, v.Clean := by
  show CleanItems items ↔ _
  induction items with
  | nil => simp [CleanItems]
  | cons v items ih => rw [CleanItems, ih, List.forall_mem_cons]

@[simp] theorem clean_obj {members : List (String × Json)} :
    (obj members).Clean ↔ ∀ m ∈ members, m.2.Clean := by
  show CleanMembers members ↔ _
  induction members with
  | nil => simp [CleanMembers]
  | cons m members ih => rw [CleanMembers, ih, List.forall_mem_cons]

theorem Clean.of_subset {members rest : List (String × Json)} (h : (obj members).Clean)
    (hrest : rest ⊆ members) : (obj rest).Clean := by
  rw [clean_obj] at h ⊢
  intro m hm
  exact h m (hrest hm)

theorem depth_obj_le_of_subset {members rest : List (String × Json)} {room : Nat}
    (h : (obj members).depth ≤ room + 1) (hrest : rest ⊆ members) :
    (obj rest).depth ≤ room + 1 := by
  rw [depth_obj_le] at h ⊢
  intro m hm
  exact h m (hrest hm)

/-! ## Taking in and skipping -/

theorem firstFaultItems_eq_none {room : Nat} {items : List Json} :
    firstFaultItems room items = none ↔ ∀ v ∈ items, firstFault room v = none := by
  induction items with
  | nil => simp [firstFaultItems]
  | cons v items ih => rw [firstFaultItems, Option.or_eq_none_iff, ih, List.forall_mem_cons]

theorem firstFaultMembers_eq_none {room : Nat} {members : List (String × Json)} :
    firstFaultMembers room members = none ↔ ∀ m ∈ members, firstFault room m.2 = none := by
  induction members with
  | nil => simp [firstFaultMembers]
  | cons m members ih => rw [firstFaultMembers, Option.or_eq_none_iff, ih, List.forall_mem_cons]

/-- A clean value that fits into the room can be taken in. -/
theorem firstFault_eq_none {v : Json} {room : Nat} (hclean : v.Clean) (hdepth : v.depth ≤ room) :
    firstFault room v = none := by
  induction v using Json.induction generalizing room with
  | step v ih =>
      cases v with
      | arr items =>
          cases room with
          | zero => cases hdepth
          | succ room =>
              rw [clean_arr] at hclean
              rw [depth_arr_le] at hdepth
              rw [firstFault, firstFaultItems_eq_none]
              intro v hv
              exact ih v hv (hclean v hv) (hdepth v hv)
      | obj members =>
          cases room with
          | zero => cases hdepth
          | succ room =>
              rw [clean_obj] at hclean
              rw [depth_obj_le] at hdepth
              rw [firstFault, firstFaultMembers_eq_none]
              intro m hm
              exact ih m.2 (List.mem_map_of_mem hm) (hclean m hm) (hdepth m hm)
      | flaw f => cases hclean
      | torn members f => cases hclean
      | _ => rfl

theorem skipFaultItems_eq_none {items : List Json} :
    skipFaultItems items = none ↔ ∀ v ∈ items, skipFault v = none := by
  induction items with
  | nil => simp [skipFaultItems]
  | cons v items ih => rw [skipFaultItems, Option.or_eq_none_iff, ih, List.forall_mem_cons]

theorem skipFaultMembers_eq_none {members : List (String × Json)} :
    skipFaultMembers members = none ↔ ∀ m ∈ members, skipFault m.2 = none := by
  induction members with
  | nil => simp [skipFaultMembers]
  | cons m members ih => rw [skipFaultMembers, Option.or_eq_none_iff, ih, List.forall_mem_cons]

/-- A clean value can be skipped. -/
theorem skipFault_eq_none {v : Json} (hclean : v.Clean) : skipFault v = none := by
  induction v using Json.induction with
  | step v ih =>
      cases v with
      | arr items =>
          rw [clean_arr] at hclean
          rw [skipFault, skipFaultItems_eq_none]
          intro v hv
          exact ih v hv (hclean v hv)
      | obj members =>
          rw [clean_obj] at hclean
          rw [skipFault, skipFaultMembers_eq_none]
          intro m hm
          exact ih m.2 (List.mem_map_of_mem hm) (hclean m hm)
      | flaw f => cases hclean
      | torn members f => cases hclean
      | _ => rfl

end Json

end InfraGraph
