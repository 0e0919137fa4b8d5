import InfraGraph.Json.Reader

/-!
# Decoding JSON values

A decoder turns a `Json` value into a value of the library, or says why it cannot. Of several
problems the first in reading order is reported.

Values are read either while the text is read (`streamed`), or after the object around them was
taken in as a whole (`collected`); the two differ in what they report for values of a wrong form.

## Main definitions

* `DecodeError` and `DecodeError.message` — the causes and their wording.
* `readNat`, `readText`, `readOption` and others — the simple forms.
* `readList`, `readObject` — the two containers.
* `readDocument` — a whole text.
-/

namespace InfraGraph

/-- Why a JSON text is not accepted. -/
inductive DecodeError where
  /-- The text is no JSON, nests too deep, or holds something no value can begin with. -/
  | broken (f : Fault)
  | missingField (name : String)
  | duplicateField (name : String)
  | unknownVariant (found : String) (known : List String)
  /-- A literal is neither a boolean, a machine integer, a string nor `null`. -/
  | noLiteral
  | wrongType
  | wrongValue
  | wrongLength
deriving DecidableEq, Repr

namespace DecodeError

/-- A name between backquotes. -/
def quoted (name : String) : String :=
  "`" ++ name ++ "`"

/-- The variants an enumeration has, as a message lists them. -/
def expectation : List String → String
  | [one] => quoted one
  | [one, two] => quoted one ++ " or " ++ quoted two
  | names => "one of " ++ ", ".intercalate (names.map quoted)

/-- What an early end is reported as. -/
def endMessage : Construct → String
  | .string => "EOF while parsing a string"
  | .list => "EOF while parsing a list"
  | .object => "EOF while parsing an object"
  | _ => "EOF while parsing a value"

/-- The wording of an error. -/
def message : DecodeError → String
  | .broken (.ended inside) => endMessage inside
  | .broken _ => "malformed JSON"
  | .missingField name => "missing field " ++ quoted name
  | .duplicateField name => "duplicate field " ++ quoted name
  | .unknownVariant found known =>
    "unknown variant " ++ quoted found ++ ", expected " ++ expectation known
  | .noLiteral => "data did not match any variant of untagged enum LiteralValue"
  | .wrongType => "invalid type"
  | .wrongValue => "invalid value"
  | .wrongLength => "invalid length"

end DecodeError

/-- When a value is looked at. -/
inductive Stage where
  /-- While the text is read. -/
  | streamed
  /-- After the object it belongs to was taken in as a whole. -/
  | collected
deriving DecidableEq, Repr

/-- The number of containers, the outermost included, that may be nested in each other. -/
def nestingLimit : Nat :=
  127

namespace Json

/-- The result of a decoder. -/
abbrev Decoded (α : Type) :=
  Except DecodeError α

/-- What a decoder reports for a value of another form than the one it reads. -/
def unexpected {α : Type} : Json → Decoded α
  | .flaw f => .error (.broken f.read)
  | _ => .error .wrongType

/-! ## Scalars -/

/-- A natural number below `bound`. -/
def readNat (bound : Nat) : Json → Decoded Nat
  | .int n => if 0 ≤ n ∧ n < bound then .ok n.toNat else .error .wrongValue
  | v => unexpected v

/-- An unsigned 16-bit number. -/
def readUInt16 (v : Json) : Decoded UInt16 :=
  (readNat UInt16.size v).map (·.toUInt16)

/-- An unsigned 32-bit number. -/
def readUInt32 (v : Json) : Decoded UInt32 :=
  (readNat UInt32.size v).map (·.toUInt32)

/-- An unsigned 64-bit number. -/
def readUInt64 (v : Json) : Decoded UInt64 :=
  (readNat UInt64.size v).map (·.toUInt64)

/-- A boolean. -/
def readBool : Json → Decoded Bool
  | .bool b => .ok b
  | v => unexpected v

/-- A string. -/
def readText : Json → Decoded String
  | .str s => .ok s
  | v => unexpected v

/-- `null`, or what `read` accepts. A text that ends inside of `null` was going to be that. -/
def readOption {α : Type} (read : Json → Decoded α) : Json → Decoded (Option α)
  | .null => .ok none
  | .flaw ⟨.ended .null, _⟩ => .error (.broken (.ended .null))
  | v => (read v).map some

/-- Takes a value in as a whole; a value that already was is left alone. -/
def collect (stage : Stage) (room : Nat) (v : Json) : Decoded Unit :=
  match stage with
  | .collected => .ok ()
  | .streamed =>
    match firstFault room v with
    | none => .ok ()
    | some f => .error (.broken f)

/-! ## Lists and objects -/

/-- A list, each item read with the room that is left inside it. -/
def readList {α : Type} (read : Nat → Json → Decoded α) : Nat → Json → Decoded (List α)
  | room + 1, .arr items => items.mapM (read room)
  | 0, .arr _ => .error (.broken .malformed)
  | _, v => unexpected v

/-- An object: `read` is given the room that is left inside it, its members, and what is met behind
them where it breaks off. -/
def readObject {α : Type} (read : Nat → List (String × Json) → Option Fault → Decoded α) :
    Nat → Json → Decoded α
  | room + 1, .obj members => read room members none
  | room + 1, .torn members f => read room members (some f.read)
  | 0, .obj _ => .error (.broken .malformed)
  | 0, .torn _ _ => .error (.broken .malformed)
  | _, v => unexpected v

/-- What is met behind the members of an object. -/
def endObject : Option Fault → Decoded Unit
  | none => .ok ()
  | some f => .error (.broken f)

/-- An object whose keys are free, as a list of entries. -/
def readEntries {α : Type} (read : Nat → Json → Decoded α) :
    Nat → Json → Decoded (List (String × α)) :=
  readObject fun room members tear => do
    let entries ← members.mapM fun (k, v) => (read room v).map (k, ·)
    endObject tear
    return entries

/-! ## Whole texts -/

/-- A whole document: what follows the value counts only when the value was accepted. -/
def readDocument {α : Type} (read : Nat → Json → Decoded α) (d : Document) : Decoded α := do
  let a ← read nestingLimit d.value
  if d.trailing then throw (.broken .malformed)
  return a

/-- A whole text. -/
def readJsonText {α : Type} (read : Nat → Json → Decoded α) (text : String) : Decoded α :=
  readDocument read (Document.parse text)

end Json

end InfraGraph
