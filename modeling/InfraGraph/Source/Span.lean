import InfraGraph.Json.Record

/-!
# Positions and spans

A `Span` is a region of one source file. Lines and columns count from one and offsets are bytes, but
nothing here relies on that: a span is taken as it was given, even if it ends before it starts.

Lines, columns and file ids are 32-bit words and offsets are 64-bit words. An operation whose result
would not fit its word has no result.

## Main definitions

* `Span.onLine?` — a span on one line.
* `Span.merge?` — the span that covers two spans of one file.
* `Span.contains` — whether one span lies in another.
-/

namespace InfraGraph

/-- A place in a source file. -/
structure Position where
  line : UInt32
  column : UInt32
  /-- Bytes from the start of the file. -/
  offset : UInt64
deriving DecidableEq, Repr, Inhabited

/-- A region of a source file. -/
structure Span where
  start : Position
  stop : Position
  /-- Which file the region belongs to. -/
  file : UInt32
deriving DecidableEq, Repr, Inhabited

namespace Span

/-- The span of a node that was given none. -/
def unknown : Span :=
  ⟨⟨0, 0, 0⟩, ⟨0, 0, 0⟩, 0⟩

/-- The sum of two words, if it is one. -/
def addColumn? (a b : UInt32) : Option UInt32 :=
  if a.toNat + b.toNat < UInt32.size then some (a + b) else none

/-- The sum of two words, if it is one. -/
def addOffset? (a b : UInt64) : Option UInt64 :=
  if a.toNat + b.toNat < UInt64.size then some (a + b) else none

/-- The span of `length` bytes on one line, in the first file. Columns take the low half of the
length. -/
def onLine? (line column : UInt32) (offset length : UInt64) : Option Span := do
  let stopColumn ← addColumn? column length.toUInt32
  let stopOffset ← addOffset? offset length
  return ⟨⟨line, column, offset⟩, ⟨line, stopColumn, stopOffset⟩, 0⟩

/-- The span from the earlier start to the later end; spans of two files have none. -/
def merge? (a b : Span) : Option Span :=
  if a.file = b.file then
    some
      { start := if a.start.offset ≤ b.start.offset then a.start else b.start
        stop := if b.stop.offset ≤ a.stop.offset then a.stop else b.stop
        file := a.file }
  else none

/-- Whether `b` lies entirely within `a`. -/
def contains (a b : Span) : Bool :=
  a.file == b.file && decide (a.start.offset ≤ b.start.offset)
    && decide (b.stop.offset ≤ a.stop.offset)

/-- The number of bytes covered; none if the span ends before it starts. -/
def length (s : Span) : Nat :=
  s.stop.offset.toNat - s.start.offset.toNat

/-- Whether no byte is covered. -/
def isEmpty (s : Span) : Bool :=
  s.length == 0

/-- The line and column a span starts at. -/
def display (s : Span) : String :=
  toString s.start.line.toNat ++ ":" ++ toString s.start.column.toNat

end Span

/-! ## JSON form -/

/-- A position as JSON. -/
def Position.toJson (p : Position) : Json :=
  .obj
    [("line", .ofNat p.line.toNat), ("column", .ofNat p.column.toNat),
      ("offset", .ofNat p.offset.toNat)]

/-- A span as JSON. -/
def Span.toJson (s : Span) : Json :=
  .obj
    [("start", s.start.toJson), ("end", s.stop.toJson), ("file_id", .ofNat s.file.toNat)]

/-- A position from JSON. -/
def Position.read (stage : Stage) : Nat → Json → Json.Decoded Position :=
  Json.readRecord stage fun _ =>
    Position.mk <$> Json.required "line" Json.readUInt32
      <*> Json.required "column" Json.readUInt32
      <*> Json.required "offset" Json.readUInt64

/-- A span from JSON; the file is the first one unless it is given. -/
def Span.read (stage : Stage) : Nat → Json → Json.Decoded Span :=
  Json.readRecord stage fun room =>
    Span.mk <$> Json.required "start" (Position.read stage room)
      <*> Json.required "end" (Position.read stage room)
      <*> Json.defaulted "file_id" 0 Json.readUInt32

end InfraGraph
