import InfraGraph.Json.Value

/-!
# Writing JSON text

Two layouts of the same value: `compact` on one line, and `pretty` with one item or member a line,
two blanks deeper than what holds it. Both keep the order of members, write empty containers as
`[]` and `{}`, and leave every character above the control range as it is. No value that is written
has a flaw; a flaw would be written as `null` and a torn object as `{}`.

Text is written onto the end of what was written before, so a value costs time in its own size.
-/

namespace InfraGraph

namespace Json

/-- A hexadecimal digit below sixteen, in lower case. -/
def hexChar (n : Nat) : Char :=
  if n < 10 then Char.ofNat ('0'.toNat + n) else Char.ofNat ('a'.toNat + (n - 10))

/-- One character of a JSON string: quote, backslash and control characters are escaped. -/
def writeChar (out : String) (c : Char) : String :=
  if c == '"' then out ++ "\\\""
  else if c == '\\' then out ++ "\\\\"
  else if c == '\x08' then out ++ "\\b"
  else if c == '\x0c' then out ++ "\\f"
  else if c == '\n' then out ++ "\\n"
  else if c == '\r' then out ++ "\\r"
  else if c == '\t' then out ++ "\\t"
  else if c.toNat < 0x20 then
    ((out ++ "\\u00").push (hexChar (c.toNat / 16))).push (hexChar (c.toNat % 16))
  else out.push c

/-- A JSON string with its quotes. -/
def writeString (out : String) (s : String) : String :=
  (s.toList.foldl writeChar (out.push '"')).push '"'

mutual

/-- A value on one line. -/
def writeCompact (out : String) : Json → String
  | .null => out ++ "null"
  | .bool b => out ++ (if b then "true" else "false")
  | .int n => out ++ toString n
  | .real => out ++ "0.0"
  | .str s => writeString out s
  | .arr items => (writeCompactItems (out.push '[') true items).push ']'
  | .obj members => (writeCompactMembers (out.push '\x7b') true members).push '\x7d'
  | .torn _ _ => out ++ "\x7b\x7d"
  | .flaw _ => out ++ "null"

/-- Items with commas between them. -/
def writeCompactItems (out : String) (first : Bool) : List Json → String
  | [] => out
  | v :: rest =>
    writeCompactItems (writeCompact (if first then out else out.push ',') v) false rest

/-- Members with commas between them. -/
def writeCompactMembers (out : String) (first : Bool) : List (String × Json) → String
  | [] => out
  | (k, v) :: rest =>
    let out := writeString (if first then out else out.push ',') k
    writeCompactMembers (writeCompact (out.push ':') v) false rest

end

/-- The value on one line. -/
def compact (v : Json) : String :=
  writeCompact "" v

/-- A new line and the blanks that `depth` levels of nesting put before it. -/
def writeBreak (out : String) : Nat → String
  | 0 => out.push '\n'
  | depth + 1 => writeBreak out depth ++ "  "

mutual

/-- A value over several lines, its first one already begun. -/
def writePretty (out : String) (depth : Nat) : Json → String
  | .null => out ++ "null"
  | .bool b => out ++ (if b then "true" else "false")
  | .int n => out ++ toString n
  | .real => out ++ "0.0"
  | .str s => writeString out s
  | .arr [] => out ++ "[]"
  | .arr (v :: rest) =>
    let out := writePretty (writeBreak (out.push '[') (depth + 1)) (depth + 1) v
    (writeBreak (writePrettyItems out (depth + 1) rest) depth).push ']'
  | .obj [] => out ++ "\x7b\x7d"
  | .obj ((k, v) :: rest) =>
    let out := writeString (writeBreak (out.push '\x7b') (depth + 1)) k
    let out := writePretty (out ++ ": ") (depth + 1) v
    (writeBreak (writePrettyMembers out (depth + 1) rest) depth).push '\x7d'
  | .torn _ _ => out ++ "\x7b\x7d"
  | .flaw _ => out ++ "null"

/-- Further items, each on a line of its own after a comma. -/
def writePrettyItems (out : String) (depth : Nat) : List Json → String
  | [] => out
  | v :: rest => writePrettyItems (writePretty (writeBreak (out.push ',') depth) depth v) depth rest

/-- Further members, each on a line of its own after a comma. -/
def writePrettyMembers (out : String) (depth : Nat) : List (String × Json) → String
  | [] => out
  | (k, v) :: rest =>
    let out := writeString (writeBreak (out.push ',') depth) k
    writePrettyMembers (writePretty (out ++ ": ") depth v) depth rest

end

/-- The value over several lines. -/
def pretty (v : Json) : String :=
  writePretty "" 0 v

end Json

end InfraGraph
