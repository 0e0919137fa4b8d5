/-!
# JSON values

One type serves for writing and for reading. A value that is written has no flaw. A value that was
read may have some: a `flaw` stands where the text holds no value or none that can be used, and an
object is `torn` where it should have a key and has none that can be read. Whoever reads the value
meets the flaw there, after everything that stands before it. Which of two problems of a text is
reported is therefore settled by the order of reading alone.

A value that nobody asks for is skipped, and skipping looks less closely than reading does: a string
with half a surrogate pair can be skipped but not read. So a flaw tells what either of them meets.

Objects are lists of members: the order is the order of the text, and a key may repeat.

## Main definitions

* `Fault`, `Flaw` — what is met where a text is no JSON.
* `Json` — the values.
* `Json.firstFault` — the first fault inside a value that is taken in as a whole.
* `Json.skipFault` — the first fault that skipping a value runs into.
-/

namespace InfraGraph

/-- What a text was in the middle of when it ended. -/
inductive Construct where
  /-- Nothing of the value was there yet. -/
  | value
  | null
  /-- The word `true` or `false`. -/
  | truth
  | number
  | string
  | list
  | object
deriving DecidableEq, Repr

/-- What is wrong with a place of a text. -/
inductive Fault where
  /-- The text ended too early. -/
  | ended (inside : Construct)
  /-- The text does not go on as JSON does, or with something that stands for no value: half of a
  surrogate pair in a string, or a number beyond every float. -/
  | malformed
deriving DecidableEq, Repr

/-- A place of a text that holds no value, or none that can be used. -/
structure Flaw where
  /-- What is met in reading. -/
  read : Fault
  /-- What is met in skipping; `none` if the place can be passed over. -/
  skipped : Option Fault
deriving DecidableEq, Repr

/-- A flaw that is the same in reading and in skipping. -/
def Flaw.ofFault (f : Fault) : Flaw :=
  ⟨f, some f⟩

/-- A JSON value. -/
inductive Json where
  | null
  | bool (b : Bool)
  /-- A number written as an integer, from `-2^63` to `2^64 - 1`. -/
  | int (n : Int)
  /-- Any other number; nothing here asks which. -/
  | real
  | str (s : String)
  | arr (items : List Json)
  | obj (members : List (String × Json))
  /-- No value, or none that can be used. -/
  | flaw (f : Flaw)
  /-- An object that breaks off behind these members: no key that can be read follows. Where the
  object goes on for whoever skips it, the flaw tells what is met in the whole rest of it. -/
  | torn (members : List (String × Json)) (f : Flaw)
deriving Repr, Inhabited

namespace Json

/-- A natural number as a JSON value. -/
def ofNat (n : Nat) : Json :=
  .int n

/-- A text, or `null` where there is none. -/
def ofText? : Option String → Json
  | none => .null
  | some s => .str s

/-- The first member of that name, if the value is an object that has one. -/
def member? (key : String) : Json → Option Json
  | .obj members => members.lookup key
  | _ => none

mutual

/-- The first fault inside a value that is taken in as a whole, `room` being the number of nested
containers it may open. -/
def firstFault (room : Nat) : Json → Option Fault
  | .arr items =>
    match room with
    | 0 => some .malformed
    | room + 1 => firstFaultItems room items
  | .obj members =>
    match room with
    | 0 => some .malformed
    | room + 1 => firstFaultMembers room members
  | .torn members f =>
    match room with
    | 0 => some .malformed
    | room + 1 => (firstFaultMembers room members).or (some f.read)
  | .flaw f => some f.read
  | _ => none

/-- `firstFault` over the items of a list. -/
def firstFaultItems (room : Nat) : List Json → Option Fault
  | [] => none
  | v :: rest => (firstFault room v).or (firstFaultItems room rest)

/-- `firstFault` over the members of an object. -/
def firstFaultMembers (room : Nat) : List (String × Json) → Option Fault
  | [] => none
  | (_, v) :: rest => (firstFault room v).or (firstFaultMembers room rest)

end

mutual

/-- The first fault that skipping a value runs into; skipping has no limit on nesting. -/
def skipFault : Json → Option Fault
  | .arr items => skipFaultItems items
  | .obj members => skipFaultMembers members
  | .torn members f => (skipFaultMembers members).or f.skipped
  | .flaw f => f.skipped
  | _ => none

/-- `skipFault` over the items of a list. -/
def skipFaultItems : List Json → Option Fault
  | [] => none
  | v :: rest => (skipFault v).or (skipFaultItems rest)

/-- `skipFault` over the members of an object. -/
def skipFaultMembers : List (String × Json) → Option Fault
  | [] => none
  | (_, v) :: rest => (skipFault v).or (skipFaultMembers rest)

end

end Json

end InfraGraph
