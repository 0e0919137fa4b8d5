import InfraGraph.Json.Variant
import InfraGraph.Source.Span
import InfraGraph.Text.Escape

/-!
# Diagnostics

What a pass has to say about a unit is never thrown: it is a `Diagnostic` in a list, and the pass
goes on. The order of the list is the order of reporting. Only a diagnostic of level `error` keeps a
unit from being accepted.

## Main definitions

* `Diagnostic` — one report: level, code, message, labels, notes and help.
* `Diagnostic.position?` — where it points: the span of its first primary label.
* `Diagnostics` — the reports of a pass, in order.
-/

namespace InfraGraph

/-- How grave a diagnostic is. -/
inductive Level where
  | error
  | warning
  | info
deriving DecidableEq, Repr

namespace Level

/-- The levels by name. -/
def table : List (String × Level) :=
  [("error", .error), ("warning", .warning), ("info", .info)]

/-- The name of a level. -/
def name : Level → String
  | .error => "error"
  | .warning => "warning"
  | .info => "info"

/-- A level from JSON. -/
def read (stage : Stage) : Nat → Json → Json.Decoded Level :=
  Json.readName stage table

end Level

/-- A region a diagnostic points to. -/
structure Label where
  span : Span
  message : String
  /-- Primary labels say where the diagnostic is; the others say what belongs to it. -/
  primary : Bool
deriving DecidableEq, Repr

/-- A code such as `ER001`: a letter for the kind of fault and a number. -/
structure ErrorCode where
  category : Char
  number : UInt16
deriving DecidableEq, Repr

namespace ErrorCode

/-- The same syntax id on two nodes. -/
def duplicateSyntaxId : ErrorCode :=
  ⟨'T', 1⟩

/-- A name that means nothing where it stands. -/
def unknownSymbol : ErrorCode :=
  ⟨'R', 1⟩

/-- A reference to an output. -/
def outputReference : ErrorCode :=
  ⟨'R', 2⟩

/-- The same name declared twice. -/
def duplicateDeclaration : ErrorCode :=
  ⟨'R', 3⟩

/-- A reference to a looped declaration that says too little about which instance it means. -/
def missingLoopIndex : ErrorCode :=
  ⟨'I', 1⟩

/-- A declaration nothing refers to. -/
def unusedDeclaration : ErrorCode :=
  ⟨'L', 1⟩

/-- The written form: `E`, the letter, and at least three digits. -/
def display (c : ErrorCode) : String :=
  ("E".push c.category) ++ Text.padded 3 c.number.toNat

end ErrorCode

/-- One report. -/
structure Diagnostic where
  level : Level
  code : Option ErrorCode
  message : String
  labels : List Label
  notes : List String
  help : List String
deriving DecidableEq, Repr

/-- The reports of a pass, in order. -/
abbrev Diagnostics :=
  List Diagnostic

namespace Diagnostic

/-- A report of some level that only has a message. -/
def ofMessage (level : Level) (message : String) : Diagnostic :=
  ⟨level, none, message, [], [], []⟩

/-- A report of level `error` that only has a message and a code. -/
def error (code : ErrorCode) (message : String) : Diagnostic :=
  { ofMessage .error message with code := some code }

/-- Adds a primary label. -/
def withLabel (d : Diagnostic) (span : Span) (message : String) : Diagnostic :=
  { d with labels := d.labels ++ [⟨span, message, true⟩] }

/-- Adds a label that is not primary. -/
def withSecondaryLabel (d : Diagnostic) (span : Span) (message : String) : Diagnostic :=
  { d with labels := d.labels ++ [⟨span, message, false⟩] }

/-- Adds a note. -/
def withNote (d : Diagnostic) (note : String) : Diagnostic :=
  { d with notes := d.notes ++ [note] }

/-- Adds advice. -/
def withHelp (d : Diagnostic) (help : String) : Diagnostic :=
  { d with help := d.help ++ [help] }

/-- Where the diagnostic points: the span of its first primary label. -/
def position? (d : Diagnostic) : Option Span :=
  (d.labels.find? (·.primary)).map (·.span)

/-- Whether the diagnostic is an error. -/
def isError (d : Diagnostic) : Bool :=
  d.level == .error

end Diagnostic

namespace Diagnostics

/-- Whether any report is an error. -/
def hasErrors (ds : Diagnostics) : Bool :=
  ds.any (·.isError)

/-- How many reports are errors. -/
def errorCount (ds : Diagnostics) : Nat :=
  ds.countP (·.isError)

/-- The reports that carry a code, in order. -/
def withCode (ds : Diagnostics) (code : ErrorCode) : Diagnostics :=
  ds.filter (·.code == some code)

end Diagnostics

/-! ## JSON form -/

/-- A label as JSON. -/
def Label.toJson (l : Label) : Json :=
  .obj [("span", l.span.toJson), ("message", .str l.message), ("primary", .bool l.primary)]

/-- A diagnostic as JSON; one without a code has no member for it. -/
def Diagnostic.toJson (d : Diagnostic) : Json :=
  .obj <|
    [("level", Json.str d.level.name)]
      ++ d.code.toList.map (fun c => ("code", Json.str c.display))
      ++ [("message", .str d.message), ("labels", .arr (d.labels.map Label.toJson)),
        ("notes", .arr (d.notes.map Json.str)), ("help", .arr (d.help.map Json.str))]

/-- Diagnostics as JSON. -/
def Diagnostics.toJson (ds : Diagnostics) : Json :=
  .arr (ds.map Diagnostic.toJson)

end InfraGraph
