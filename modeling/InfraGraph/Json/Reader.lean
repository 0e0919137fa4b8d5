import InfraGraph.Json.Number
import InfraGraph.Json.Quoted

/-!
# Reading JSON text

`Document.parse` reads a text into one value. It never fails: where the text is no JSON, the value
has a flaw. If nobody can get past the flaw, everything that was opened before it ends there.
Whether anything but blanks follows the value is kept beside it, because that counts only once the
value itself has been accepted.

Recursion is bounded by `fuel`. Of four calls inside each other at least one uses up a character, so
four times the length of the text is always enough.

## Main definitions

* `readValue` — one value and the text after it.
* `Document.parse` — a whole text.
-/

namespace InfraGraph

namespace Json

/-- The four characters that may stand between tokens. -/
def isBlank (c : Char) : Bool :=
  c == ' ' || c == '\n' || c == '\t' || c == '\r'

/-- The text from its first character that is not blank. -/
def skipBlank : List Char → List Char
  | [] => []
  | c :: rest => if isBlank c then skipBlank rest else c :: rest

/-! ## Tokens -/

/-- A value and the text after it; there is none after a value that cannot even be skipped. -/
abbrev Reading :=
  Json × Option (List Char)

/-- A flaw that the text does not go on behind. -/
def Reading.broken (f : Fault) : Reading :=
  (.flaw (.ofFault f), none)

/-- The text after a given word, which must stand at its start. -/
def afterWord (cut : Construct) : List Char → List Char → Except Fault (List Char)
  | [], text => .ok text
  | _ :: _, [] => .error (.ended cut)
  | w :: word, c :: text => if w == c then afterWord cut word text else .error .malformed

/-- A word that stands for a value, its first letter already seen. -/
def readWord (value : Json) (cut : Construct) (word text : List Char) : Reading :=
  match afterWord cut word text with
  | .ok rest => (value, some rest)
  | .error f => .broken f

/-- A number as a value. -/
def readNumberValue (text : List Char) : Reading :=
  match readNumber text with
  | .ok (value, rest) => (value, some rest)
  | .error f => (.flaw f, none)

/-- A string as a value, its opening quote already seen. -/
def readStringValue (text : List Char) : Reading :=
  match readString "" text with
  | .ok (content, rest) => (.str content, some rest)
  | .error f =>
    match skipString text with
    | .ok rest => (.flaw ⟨f, none⟩, some rest)
    | .error skipped => (.flaw ⟨f, some skipped⟩, none)

/-- The text after the colon behind a key. -/
def afterColon (text : List Char) : Except Fault (List Char) :=
  match skipBlank text with
  | ':' :: rest => .ok rest
  | [] => .error (.ended .object)
  | _ => .error .malformed

/-! ## Values -/

/-- The members of an object up to where it closes or is torn, and the text after it. -/
structure Body where
  members : List (String × Json)
  tear : Option Flaw
  rest : Option (List Char)

namespace Body

/-- The end of an object. -/
def closed (rest : List Char) : Body :=
  ⟨[], none, some rest⟩

/-- An object that nobody gets past the flaw of. -/
def torn (f : Flaw) : Body :=
  ⟨[], some f, none⟩

/-- A member put before the others. -/
def cons (key : String) (value : Json) (b : Body) : Body :=
  ⟨(key, value) :: b.members, b.tear, b.rest⟩

/-- An object as a value. -/
def value (b : Body) : Json :=
  match b.tear with
  | none => .obj b.members
  | some f => .torn b.members f

/-- The object is torn before these members, at a key that can be skipped. -/
def unkeyed (b : Body) (read : Fault) : Body :=
  ⟨[], some ⟨read, b.value.skipFault⟩, b.rest⟩

end Body

mutual

/-- One value, with the blanks before it. -/
def readValue : Nat → List Char → Reading
  | 0, _ => .broken .malformed
  | fuel + 1, text =>
    match skipBlank text with
    | [] => .broken (.ended .value)
    | '"' :: rest => readStringValue rest
    | '[' :: rest =>
      let (items, rest) := readItems fuel true rest
      (.arr items, rest)
    | '{' :: rest =>
      let body := readMembers fuel true rest
      (body.value, body.rest)
    | 'n' :: rest => readWord .null .null ['u', 'l', 'l'] rest
    | 't' :: rest => readWord (.bool true) .truth ['r', 'u', 'e'] rest
    | 'f' :: rest => readWord (.bool false) .truth ['a', 'l', 's', 'e'] rest
    | c :: rest =>
      if c == '-' || c.isDigit then readNumberValue (c :: rest) else .broken .malformed

/-- The items of a list up to its bracket, `first` before any was read. -/
def readItems : Nat → Bool → List Char → List Json × Option (List Char)
  | 0, _, _ => ([.flaw (.ofFault .malformed)], none)
  | fuel + 1, first, text =>
    match skipBlank text with
    | [] => ([.flaw (.ofFault (.ended .list))], none)
    | ']' :: rest => ([], some rest)
    | c :: rest =>
      if first then readItem fuel (c :: rest)
      else if c == ',' then readItem fuel rest
      else ([.flaw (.ofFault .malformed)], none)

/-- One item and all that follow it. -/
def readItem : Nat → List Char → List Json × Option (List Char)
  | 0, _ => ([.flaw (.ofFault .malformed)], none)
  | fuel + 1, text =>
    match readValue fuel text with
    | (value, none) => ([value], none)
    | (value, some rest) =>
      let (items, rest) := readItems fuel false rest
      (value :: items, rest)

/-- The members of an object up to its brace, `first` before any was read. Behind a comma, a text
that ends is reported in reading as one that lacks a value. -/
def readMembers : Nat → Bool → List Char → Body
  | 0, _, _ => .torn (.ofFault .malformed)
  | fuel + 1, first, text =>
    match skipBlank text with
    | [] => .torn (.ofFault (.ended .object))
    | '}' :: rest => .closed rest
    | c :: rest =>
      if first then readMember fuel (c :: rest)
      else if c == ',' then
        match skipBlank rest with
        | [] => .torn ⟨.ended .value, some (.ended .object)⟩
        | rest => readMember fuel rest
      else .torn (.ofFault .malformed)

/-- One member and all that follow it. -/
def readMember : Nat → List Char → Body
  | 0, _ => .torn (.ofFault .malformed)
  | fuel + 1, text =>
    match text with
    | '"' :: text =>
      match readString "" text with
      | .ok (key, rest) => readEntry fuel key rest
      | .error f =>
        match skipString text with
        | .ok rest => (readEntry fuel "" rest).unkeyed f
        | .error skipped => .torn ⟨f, some skipped⟩
    | _ => .torn (.ofFault .malformed)

/-- What stands behind a key, and all members that follow. -/
def readEntry : Nat → String → List Char → Body
  | 0, _, _ => .torn (.ofFault .malformed)
  | fuel + 1, key, text =>
    match afterColon text with
    | .error f => ⟨[(key, .flaw (.ofFault f))], none, none⟩
    | .ok rest =>
      match readValue fuel rest with
      | (value, none) => ⟨[(key, value)], none, none⟩
      | (value, some rest) => (readMembers fuel false rest).cons key value

end

end Json

/-- A text read as one JSON value. -/
structure Document where
  value : Json
  /-- Something other than blanks follows the value. -/
  trailing : Bool

/-- Reads a whole text. -/
def Document.parse (text : String) : Document :=
  let chars := text.toList
  match Json.readValue (4 * chars.length + 4) chars with
  | (value, none) => ⟨value, false⟩
  | (value, some rest) => ⟨value, !(Json.skipBlank rest).isEmpty⟩

/-- The document that holds exactly this value. -/
def Document.ofValue (value : Json) : Document :=
  ⟨value, false⟩

end InfraGraph
