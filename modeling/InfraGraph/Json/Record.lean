import InfraGraph.Json.Decoder

/-!
# Decoding records

A record is an object with members for its fields. Every field looks at the members on its own and
reports where its problem lies, and the problem with the least place wins (`Fields.seq`). So the
first problem in reading order is reported, whatever the order of the fields. A missing field is
noticed when the object closes, that is after every member, and of two missing fields the first
declared wins. Where the object breaks off, that is met before anything is found missing.

A record may also be written as a list of its fields in order.

## Main definitions

* `Fields`, `required`, `defaulted` — the fields of a record.
* `readRecord` — a record as an object or a list.
* `Fields.readOuter` — a record that shares its object with another one.
-/

namespace InfraGraph

namespace Json

/-! ## Fields -/

/-- A problem and the place of the member it is noticed at. -/
structure Trouble where
  place : Nat
  error : DecodeError

/-- Some fields of a record: how they are found among an object's members, and how they are taken
from the front of a list. -/
structure Fields (α : Type) where
  names : List String
  named : List (Nat × String × Json) → Except Trouble α
  listed : List Json → Decoded (α × List Json)

/-- The place after every member. -/
def closingPlace (members : List (Nat × String × Json)) : Nat :=
  match members.getLast? with
  | none => 0
  | some (place, _) => place + 1

/-- The members with their places. -/
def placed (members : List (String × Json)) : List (Nat × String × Json) :=
  members.zipIdx.map fun (m, i) => (i, m)

/-- A field that is named by `name` and read by `read`; `absent` stands for it where no member has
that name, and `omitted` where a list ends before it. -/
def field {α : Type} (name : String) (read : Json → Decoded α) (absent omitted : Decoded α) :
    Fields α where
  names := [name]
  named members :=
    match members.filter (·.2.1 == name) with
    | [] => absent.mapError fun e => ⟨closingPlace members, e⟩
    | (place, _, v) :: more => do
      let a ← (read v).mapError fun e => ⟨place, e⟩
      match more with
      | [] => return a
      | (place, _) :: _ => throw ⟨place, .duplicateField name⟩
  listed
    | [] => omitted.map (·, [])
    | v :: rest => (read v).map (·, rest)

/-- A field that must be there. -/
def required {α : Type} (name : String) (read : Json → Decoded α) : Fields α :=
  field name read (.error (.missingField name)) (.error .wrongLength)

/-- A field that may be left out. -/
def defaulted {α : Type} (name : String) (value : α) (read : Json → Decoded α) : Fields α :=
  field name read (.ok value) (.ok value)

/-- Of two problems the earlier one; of two at one place the first. -/
def Trouble.first (a b : Trouble) : Trouble :=
  if b.place < a.place then b else a

/-- Both of two results, or the first problem of either. -/
def Trouble.both {α β : Type} : Except Trouble α → Except Trouble β → Except Trouble (α × β)
  | .ok a, .ok b => .ok (a, b)
  | .error a, .ok _ => .error a
  | .ok _, .error b => .error b
  | .error a, .error b => .error (a.first b)

/-- A record with no fields. -/
def Fields.pure {α : Type} (a : α) : Fields α :=
  ⟨[], fun _ => .ok a, fun items => .ok (a, items)⟩

/-- The fields of `f` and then those of `x`. -/
def Fields.seq {α β : Type} (f : Fields (α → β)) (x : Fields α) : Fields β where
  names := f.names ++ x.names
  named members := (Trouble.both (f.named members) (x.named members)).map fun (f, a) => f a
  listed items := do
    let (f, items) ← f.listed items
    let (a, items) ← x.listed items
    return (f a, items)

instance : Seq Fields where
  seq f x := f.seq (x ())

instance : Functor Fields where
  map f x := (Fields.pure f).seq x

/-- The first problem met in skipping the members that no field is named for. -/
def skipUnknown (names : List String) (members : List (Nat × String × Json)) :
    Except Trouble Unit :=
  members.forM fun (place, name, v) =>
    if names.contains name then return ()
    else
      match skipFault v with
      | none => return ()
      | some f => throw ⟨place, .broken f⟩

/-- `endObject`, at the place behind all members. -/
def endMembers (members : List (Nat × String × Json)) (tear : Option Fault) :
    Except Trouble Unit :=
  (endObject tear).mapError fun e => ⟨closingPlace members, e⟩

/-- The fields among the members of an object; members of other names are skipped. -/
def Fields.read {α : Type} (fields : Fields α) (members : List (String × Json))
    (tear : Option Fault) : Decoded α :=
  let members := placed members
  let others := Trouble.both (endMembers members tear) (skipUnknown fields.names members)
  match Trouble.both others (fields.named members) with
  | .ok (_, a) => .ok a
  | .error t => .error t.error

/-- What items after the last field of a record are reported as. -/
def surplus (stage : Stage) : List Json → Decoded Unit
  | [] => .ok ()
  | .flaw ⟨.ended .list, _⟩ :: _ => .error (.broken (.ended .list))
  | _ :: _ =>
    match stage with
    | .streamed => .error (.broken .malformed)
    | .collected => .error .wrongLength

/-! ## Records -/

/-- A record, given what its fields are when `room` is left inside it. -/
def readRecord {α : Type} (stage : Stage) (fields : Nat → Fields α) :
    Nat → Json → Decoded α
  | room + 1, .arr items => do
    let (a, rest) ← (fields room).listed items
    surplus stage rest
    return a
  | 0, .arr _ => .error (.broken .malformed)
  | room, v => readObject (fun room members tear => (fields room).read members tear) room v

/-! ## Records that share their object

Some records are written into the object of another one, beside its fields. The members that the
outer record does not know are then taken in as a whole and read once the object has closed. -/

/-- The first problem met in taking in the members that no field is named for. -/
def collectUnknown (stage : Stage) (room : Nat) (names : List String)
    (members : List (Nat × String × Json)) : Except Trouble Unit :=
  members.forM fun (place, name, v) =>
    if names.contains name then return ()
    else (collect stage room v).mapError fun e => ⟨place, e⟩

/-- The fields of an outer record, and the members left over for the inner one. -/
def Fields.readOuter {α : Type} (fields : Fields α) (stage : Stage) (room : Nat)
    (members : List (String × Json)) (tear : Option Fault) :
    Decoded (α × List (String × Json)) :=
  let all := placed members
  let others := Trouble.both (endMembers all tear) (collectUnknown stage room fields.names all)
  match Trouble.both others (fields.named all) with
  | .ok (_, a) => .ok (a, members.filter fun m => !fields.names.contains m.1)
  | .error t => .error t.error

end Json

end InfraGraph
