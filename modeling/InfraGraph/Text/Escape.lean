import InfraGraph.Text.Extending
import InfraGraph.Text.Shapeless

/-!
# Escaped text

Two ways of writing a text inside quotes. A *literal* keeps printable ASCII alone and writes every
other character by its code; both kinds of quotes are escaped, so the quotes around it are free to
choose. A *quoted* text escapes only what would not be seen in a double-quoted line as what it is:
the double quote, the backslash, characters without a shape, and those that are drawn onto the one
before them.

## Main definitions

* `Text.escapeLiteral` — the inside of a literal.
* `Text.quote`, `Text.quoteList` — a quoted text, and a list of them in brackets.
-/

namespace InfraGraph

namespace Text

/-- A number in hexadecimal, without leading zeros. -/
def hex (n : Nat) : String :=
  String.ofList (Nat.toDigits 16 n)

/-- A character by its code. -/
def escapeCode (c : Char) : String :=
  "\\u\x7b" ++ hex c.toNat ++ "\x7d"

/-- One character of a literal. -/
def escapeLiteralChar (c : Char) : String :=
  if c == '\t' then "\\t"
  else if c == '\r' then "\\r"
  else if c == '\n' then "\\n"
  else if c == '\'' then "\\'"
  else if c == '"' then "\\\""
  else if c == '\\' then "\\\\"
  else if 0x20 ≤ c.toNat && c.toNat ≤ 0x7e then c.toString
  else escapeCode c

/-- The inside of a literal. -/
def escapeLiteral (s : String) : String :=
  String.join (s.toList.map escapeLiteralChar)

/-- One character of a quoted text. -/
def quoteChar (c : Char) : String :=
  if c == '\x00' then "\\0"
  else if c == '\t' then "\\t"
  else if c == '\r' then "\\r"
  else if c == '\n' then "\\n"
  else if c == '"' then "\\\""
  else if c == '\\' then "\\\\"
  else if isExtending c || isShapeless c then escapeCode c
  else c.toString

/-- A text between double quotes. -/
def quote (s : String) : String :=
  "\"" ++ String.join (s.toList.map quoteChar) ++ "\""

/-- Quoted texts between brackets, with commas. -/
def quoteList (texts : List String) : String :=
  "[" ++ ", ".intercalate (texts.map quote) ++ "]"

/-- A text written `n` times. -/
def repeated (n : Nat) (s : String) : String :=
  String.join (List.replicate n s)

/-- A natural number with at least `width` digits, filled up with zeros. -/
def padded (width n : Nat) : String :=
  let digits := toString n
  repeated (width - digits.length) "0" ++ digits

end Text

end InfraGraph
