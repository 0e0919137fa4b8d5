import InfraGraph.Json.Decoder

/-!
# Decoding enumerations

A value of an enumeration is the name of a plain variant, or an object with one member that names a
variant and holds its payload. While the text is read, nothing behind the name is looked at before
the name is known to be that of a variant.

## Main definitions

* `Variant` — a plain variant, or one with a payload.
* `readVariant`, `readName` — a value of an enumeration.
* `readTag` — a variant that is named beside other members.
-/

namespace InfraGraph

namespace Json

/-! ## Variants -/

/-- One variant of an enumeration: a plain name, or a name with a payload. -/
inductive Variant (α : Type) where
  | plain (value : α)
  | payload (read : Json → Decoded α)

/-- The variant of that name. -/
def findVariant {α : Type} (table : List (String × Variant α)) (name : String) :
    Decoded (Variant α) :=
  match table.lookup name with
  | some v => .ok v
  | none => .error (.unknownVariant name (table.map Prod.fst))

/-- A variant with the value written behind its name. A plain one is followed by `null`; where the
value was taken in as a whole before, an empty object is as good. -/
def Variant.read {α : Type} (stage : Stage) (variant : Variant α) (v : Json) : Decoded α :=
  match variant, stage, v with
  | .payload read, _, v => read v
  | .plain a, _, .null => .ok a
  | .plain a, .collected, .obj [] => .ok a
  | .plain _, _, v => unexpected v

/-! ## Values -/

/-- What may follow the only member of a streamed enumeration. -/
def closeVariant : List (String × Json) → Option Fault → Decoded Unit
  | [], none => .ok ()
  | [], some (.ended .object) => .error (.broken (.ended .object))
  | _, _ => .error (.broken .malformed)

/-- A streamed enumeration that is written as an object. -/
def readStreamedVariant {α : Type} (table : List (String × Variant α))
    (members : List (String × Json)) (tear : Option Fault) : Decoded α :=
  match members with
  | [] => .error (.broken (tear.getD .malformed))
  | (name, v) :: rest => do
    let a ← (← findVariant table name).read .streamed v
    closeVariant rest tear
    return a

/-- What is met where a streamed enumeration should be and neither a string nor an object is: what
begins as another value is not looked at any further. -/
def noVariant : Json → Fault
  | .flaw ⟨.ended .null, _⟩ => .malformed
  | .flaw ⟨.ended .truth, _⟩ => .malformed
  | .flaw ⟨.ended .number, _⟩ => .malformed
  | .flaw f => f.read
  | _ => .malformed

/-- A value of an enumeration: the name of a plain variant, or an object whose only member names
the variant and holds its payload. -/
def readVariant {α : Type} (stage : Stage) (table : Nat → List (String × Variant α)) (room : Nat)
    (v : Json) : Decoded α :=
  match v, stage with
  | .str name, _ => do
    match ← findVariant (table room) name with
    | .plain a => return a
    | .payload _ => throw .wrongType
  | .obj _, .streamed => readObject (fun room => readStreamedVariant (table room)) room v
  | .torn _ _, .streamed => readObject (fun room => readStreamedVariant (table room)) room v
  | v, .streamed => .error (.broken (noVariant v))
  | v, .collected =>
    readObject
      (fun room members _ =>
        match members with
        | [(name, v)] => do (← findVariant (table room) name).read .collected v
        | _ => .error .wrongValue)
      room v

/-- An enumeration of plain variants. -/
def readName {α : Type} (stage : Stage) (table : List (String × α)) (room : Nat) (v : Json) :
    Decoded α :=
  readVariant stage (fun _ => table.map fun (name, a) => (name, .plain a)) room v

/-- The variant that a tag beside other members names: by name, or by its place in the table. -/
def readTag {α : Type} (table : List (String × α)) : Json → Decoded α
  | .str name =>
    match table.lookup name with
    | some a => .ok a
    | none => .error (.unknownVariant name (table.map Prod.fst))
  | .int n =>
    if n < 0 then .error .wrongType
    else
      match table[n.toNat]? with
      | some (_, a) => .ok a
      | none => .error .wrongValue
  | v => unexpected v

end Json

end InfraGraph
