import InfraGraph.Tree.Stored
import InfraGraph.Proofs.Json.Record

/-!
# Reading the leaves of stored trees

What a tree holds beside its nodes: ids, positions and spans, literals,
operators, declared types and deployment scopes.  Each of them is stored as a
clean value and read back as it was, while the text is read and afterwards, in
whatever room its stored form fits into.

## Main results

* `Span.read_toJson`, `SyntaxId.read_toJson` — origins.
* `LiteralValue.read_toJson` — literals; their numbers are machine integers.
* `DeclaredType.read_toJson` — declared types.
-/

namespace InfraGraph

/-! ## Numbers -/

namespace Json

theorem readNat_ofNat {bound n : Nat} (h : n < bound) : readNat bound (.ofNat n) = .ok n := by
  have hrange : 0 ≤ (n : Int) ∧ (n : Int) < bound := by omega
  exact if_pos hrange

@[simp] theorem readUInt32_ofNat (n : UInt32) : readUInt32 (.ofNat n.toNat) = .ok n := by
  rw [readUInt32, readNat_ofNat n.toNat_lt]
  exact congrArg Except.ok UInt32.ofNat_toNat

@[simp] theorem readUInt64_ofNat (n : UInt64) : readUInt64 (.ofNat n.toNat) = .ok n := by
  rw [readUInt64, readNat_ofNat n.toNat_lt]
  exact congrArg Except.ok UInt64.ofNat_toNat

theorem clean_ofNat {n : Nat} (h : n < UInt64.size) : (ofNat n).Clean := by
  have hmin : Int64.minValue.toInt ≤ 0 := by decide
  refine clean_int.2 ⟨?_, ?_⟩ <;> omega

@[simp] theorem clean_ofNat_uint32 (n : UInt32) : (ofNat n.toNat).Clean :=
  clean_ofNat (Nat.lt_trans n.toNat_lt (by decide))

@[simp] theorem clean_ofNat_uint64 (n : UInt64) : (ofNat n.toNat).Clean :=
  clean_ofNat n.toNat_lt

end Json

/-! ## Origins -/

@[simp] theorem SyntaxId.clean_toJson (id : SyntaxId) : id.toJson.Clean :=
  Json.clean_ofNat_uint32 id.val

@[simp] theorem SyntaxId.read_toJson (id : SyntaxId) : read id.toJson = .ok id := by
  rw [read, toJson, Json.readUInt32_ofNat]
  rfl

@[simp] theorem Position.clean_toJson (p : Position) : p.toJson.Clean := by
  simp [toJson]

@[simp] theorem Span.clean_toJson (s : Span) : s.toJson.Clean := by
  simp [toJson]

section

open Json.Fields

variable {stage : Stage} {room : Nat}

theorem Position.read_toJson {p : Position} (hdepth : p.toJson.depth ≤ room) :
    read stage room p.toJson = .ok p := by
  refine Json.readRecord_obj p.clean_toJson hdepth fun inner _ hinner => ?_
  obtain ⟨line, column, offset⟩ := p
  refine ((Finds.map Position.mk ?_).seq ?_).seq ?_
  · exact finds_required hinner rfl fun _ => Json.readUInt32_ofNat line
  · exact finds_required hinner rfl fun _ => Json.readUInt32_ofNat column
  · exact finds_required hinner rfl fun _ => Json.readUInt64_ofNat offset

theorem Span.read_toJson {s : Span} (hdepth : s.toJson.depth ≤ room) :
    read stage room s.toJson = .ok s := by
  refine Json.readRecord_obj s.clean_toJson hdepth fun inner _ hinner => ?_
  obtain ⟨start, stop, file⟩ := s
  refine ((Finds.map Span.mk ?_).seq ?_).seq ?_
  · exact finds_required hinner rfl Position.read_toJson
  · exact finds_required hinner rfl Position.read_toJson
  · exact finds_defaulted hinner rfl fun _ => Json.readUInt32_ofNat file

end

/-! ## Literals and names -/

@[simp] theorem LiteralValue.clean_toJson (v : LiteralValue) : v.toJson.Clean := by
  cases v with
  | int n =>
      have hmin : Int64.minValue.toInt ≤ n.toInt := n.minValue_le_toInt
      have hmax : n.toInt ≤ Int64.maxValue.toInt := n.toInt_le
      have hsize : Int64.maxValue.toInt < UInt64.size := by decide
      exact Json.clean_int.2 ⟨hmin, by omega⟩
  | _ => trivial

theorem LiteralValue.ofJson?_toJson (v : LiteralValue) : ofJson? v.toJson = some v := by
  cases v with
  | int n =>
      have hrange : Int64.minValue.toInt ≤ n.toInt ∧ n.toInt ≤ Int64.maxValue.toInt :=
        ⟨n.minValue_le_toInt, n.toInt_le⟩
      rw [toJson, ofJson?, if_pos hrange, Int64.ofInt_toInt]
  | _ => rfl

theorem LiteralValue.read_toJson {stage : Stage} {room : Nat} {v : LiteralValue}
    (hdepth : v.toJson.depth ≤ room) : read stage room v.toJson = .ok v := by
  have hcollect : Json.collect stage room v.toJson = .ok () :=
    Json.collect_eq_ok v.clean_toJson hdepth
  simp only [read, hcollect, ofJson?_toJson]
  rfl

@[simp] theorem DeploymentScope.clean_toJson (s : DeploymentScope) : s.toJson.Clean := trivial

theorem DeploymentScope.read_toJson (stage : Stage) (room : Nat) (s : DeploymentScope) :
    read stage room s.toJson = .ok s := by
  cases s <;> rfl

theorem BinaryOperator.read_name (stage : Stage) (room : Nat) (o : BinaryOperator) :
    read stage room (.str o.name) = .ok o := by
  cases o <;> rfl

theorem UnaryOperator.read_name (stage : Stage) (room : Nat) (o : UnaryOperator) :
    read stage room (.str o.name) = .ok o := by
  cases o <;> rfl

/-! ## Declared types -/

namespace DeclaredType

@[simp] theorem clean_toJson (t : DeclaredType) : t.toJson.Clean := by
  induction t <;> simp_all [toJson]

theorem readWithin_toJson {stage : Stage} {layers room : Nat} {t : DeclaredType}
    (hlayers : room < layers) (hdepth : t.toJson.depth ≤ room) :
    readWithin stage layers room t.toJson = .ok t := by
  cases layers with
  | zero => exact absurd hlayers (Nat.not_lt_zero room)
  | succ layers =>
      cases t with
      | array element =>
          cases room with
          | zero => cases hdepth
          | succ room =>
              have helement : readWithin stage layers room element.toJson = .ok element :=
                readWithin_toJson (Nat.lt_of_succ_lt_succ hlayers)
                  (Json.depth_obj_le.1 hdepth ("array", element.toJson) List.mem_cons_self)
              apply Json.readVariant_obj rfl
              rw [helement]
              rfl
      | resource type =>
          cases room with
          | zero => cases hdepth
          | succ room => exact Json.readVariant_obj rfl rfl
      | module path =>
          cases room with
          | zero => cases hdepth
          | succ room => exact Json.readVariant_obj rfl rfl
      | _ => exact Json.readVariant_str rfl

theorem read_toJson {stage : Stage} {room : Nat} {t : DeclaredType}
    (hdepth : t.toJson.depth ≤ room) : read stage room t.toJson = .ok t :=
  readWithin_toJson (Nat.lt_succ_self room) hdepth

end DeclaredType

end InfraGraph
