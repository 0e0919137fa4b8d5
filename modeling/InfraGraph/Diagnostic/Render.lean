import InfraGraph.Diagnostic.Basic
import InfraGraph.Source.File

/-!
# Diagnostics as text

A diagnostic is written as a head line, a block for each label, and a line for each note and each
piece of advice. Where the text of the file is at hand, a label's block shows the line it starts on
and underlines the region; otherwise it only gives the message.

Every piece of text is either plain or paint, and a piece of paint is written only when colours are
wanted. So the two forms of a diagnostic cannot differ in anything else.

## Main definitions

* `Diagnostic.pieces` — a diagnostic as pieces of text and paint.
* `Diagnostic.render` — a diagnostic as text, coloured or not.
* `Diagnostics.render` — several diagnostics without colours, an empty line between them.
-/

namespace InfraGraph

/-- A terminal colour, or the end of one. -/
inductive Paint where
  | level (l : Level)
  | frame
  | reset
deriving DecidableEq, Repr

/-- The terminal sequence of a colour. -/
def Paint.code : Paint → String
  | .level .error => "\x1b[1;31m"
  | .level .warning => "\x1b[1;33m"
  | .level .info => "\x1b[1;36m"
  | .frame => "\x1b[1;34m"
  | .reset => "\x1b[0m"

/-- A piece of a rendered diagnostic. -/
inductive Piece where
  | plain (s : String)
  | paint (p : Paint)
deriving DecidableEq, Repr

/-- What a piece is written as. -/
def Piece.write (colored : Bool) : Piece → String
  | .plain s => s
  | .paint p => if colored then p.code else ""

/-- What pieces are written as. -/
def Piece.writeAll (colored : Bool) (pieces : List Piece) : String :=
  String.join (pieces.map (Piece.write colored))

namespace Label

/-- Where a label is: the file's name, or `<unit>` for an unknown file, with line and column. -/
def location (cache : SourceCache) (l : Label) : String :=
  ((cache.file? l.span.file).map (·.name)).getD "<unit>" ++ ":" ++ l.span.display

/-- How long the underline of a label is. On one line it goes up to the end column; a region of
several lines is underlined to the end of its first line, counted in bytes. It has always at least
one mark. -/
def underlineLength (l : Label) (line : String) : Nat :=
  let column := l.span.start.column.toNat
  if l.span.start.line = l.span.stop.line then max (l.span.stop.column.toNat - column) 1
  else max (line.utf8ByteSize - (column - 1)) 1

/-- The block that shows a label under the line it starts on. -/
def snippet (level : Level) (l : Label) (line : String) : List Piece :=
  let number := toString l.span.start.line.toNat
  let margin := Text.repeated number.length " "
  let mark := if l.primary then "^" else "-"
  [.plain (" " ++ margin ++ " "), .paint .frame, .plain "|", .paint .reset, .plain "\n",
    .plain " ", .paint .frame, .plain number, .paint .reset, .plain " |", .paint .reset,
    .plain (" " ++ line ++ "\n"),
    .plain (" " ++ margin ++ " "), .paint .frame, .plain "|", .paint .reset,
    .plain (" " ++ Text.repeated (l.span.start.column.toNat - 1) " "),
    .paint (if l.primary then .level level else .frame),
    .plain (Text.repeated (l.underlineLength line) mark), .paint .reset,
    .plain (" " ++ l.message ++ "\n")]

/-- The block of a label. -/
def pieces (cache : SourceCache) (level : Level) (l : Label) : List Piece :=
  [.plain " ", .paint .frame, .plain "-->", .paint .reset,
    .plain (" " ++ l.location cache ++ "\n")]
    ++ match (cache.file? l.span.file).bind (·.line? l.span.start.line) with
      | some line => l.snippet level line
      | none =>
        [.plain "   ", .paint .frame, .plain "|", .paint .reset,
          .plain (" " ++ l.message ++ "\n")]

end Label

namespace Diagnostic

/-- Level, code and message. -/
def headline (d : Diagnostic) : List Piece :=
  [.paint (.level d.level), .plain d.level.name]
    ++ d.code.toList.map (fun c => Piece.plain ("[" ++ c.display ++ "]"))
    ++ [.paint .reset, .plain (": " ++ d.message ++ "\n")]

/-- A diagnostic as pieces of text and paint. -/
def pieces (cache : SourceCache) (d : Diagnostic) : List Piece :=
  d.headline
    ++ d.labels.flatMap (·.pieces cache d.level)
    ++ d.notes.map (fun note => .plain ("  = note: " ++ note ++ "\n"))
    ++ d.help.map (fun help => .plain ("  = help: " ++ help ++ "\n"))

/-- A diagnostic as text. -/
def render (cache : SourceCache) (colored : Bool) (d : Diagnostic) : String :=
  Piece.writeAll colored (d.pieces cache)

end Diagnostic

/-- Diagnostics as text without colours. -/
def Diagnostics.render (cache : SourceCache) (ds : Diagnostics) : String :=
  "\n".intercalate (ds.map (·.render cache false))

end InfraGraph
