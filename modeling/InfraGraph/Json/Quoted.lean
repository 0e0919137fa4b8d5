import InfraGraph.Json.Value

/-!
# Strings in JSON text

What stands between two quotes. A string that is asked for is read, and one that is not is skipped.
Skipping looks at the escapes one by one, so it passes over a half of a surrogate pair; reading
stops there at once. A string that can be read ends where skipping it ends.

The digits of a `\u` escape take up four bytes of the text as it is encoded. If less is left of the
text, it has ended too early; characters of more than one byte count for what they take up, so
`\u12é` is no escape but is not cut short either.

## Main definitions

* `readString` — the content of a string and the text after it.
* `skipString` — the text after a string.
-/

namespace InfraGraph

namespace Json

/-! ## Escapes -/

/-- The value of a hexadecimal digit. -/
def hexDigit? (c : Char) : Option Nat :=
  if '0' ≤ c ∧ c ≤ '9' then some (c.toNat - '0'.toNat)
  else if 'a' ≤ c ∧ c ≤ 'f' then some (c.toNat - 'a'.toNat + 10)
  else if 'A' ≤ c ∧ c ≤ 'F' then some (c.toNat - 'A'.toNat + 10)
  else none

/-- The value of four hexadecimal digits. -/
def hexUnit? (a b c d : Char) : Option Nat := do
  let a ← hexDigit? a
  let b ← hexDigit? b
  let c ← hexDigit? c
  let d ← hexDigit? d
  return ((a * 16 + b) * 16 + c) * 16 + d

/-- The number of bytes some characters take up. -/
def byteLength (text : List Char) : Nat :=
  text.foldl (fun n c => n + c.utf8Size) 0

/-- What is met where fewer than four characters are left for the digits of an escape. -/
def shortUnit (text : List Char) : Fault :=
  if byteLength text < 4 then .ended .string else .malformed

/-- The character a backslash and this character stand for. -/
def shortEscape? : Char → Option Char
  | '"' => some '"'
  | '\\' => some '\\'
  | '/' => some '/'
  | 'b' => some '\x08'
  | 'f' => some '\x0c'
  | 'n' => some '\n'
  | 'r' => some '\r'
  | 't' => some '\t'
  | _ => none

/-- A unit of UTF-16 that comes first in a pair. -/
def isHighSurrogate (n : Nat) : Bool :=
  0xD800 ≤ n && n ≤ 0xDBFF

/-- A unit of UTF-16 that comes second in a pair. -/
def isLowSurrogate (n : Nat) : Bool :=
  0xDC00 ≤ n && n ≤ 0xDFFF

/-- The character a pair of surrogates stands for. -/
def pairedChar (high low : Nat) : Char :=
  Char.ofNat (0x10000 + (high - 0xD800) * 0x400 + (low - 0xDC00))

/-- Characters that a string cannot hold as they are. -/
def isControl (c : Char) : Bool :=
  c.toNat < 0x20

/-! ## Strings -/

/-- The rest of a string after its opening quote, `done` being what was read of it. -/
def readString (done : String) (text : List Char) : Except Fault (String × List Char) :=
  match text with
  | [] => .error (.ended .string)
  | '"' :: rest => .ok (done, rest)
  | '\\' :: 'u' :: a :: b :: c :: d :: rest =>
    match hexUnit? a b c d with
    | none => .error .malformed
    | some unit =>
      if isLowSurrogate unit then .error .malformed
      else if isHighSurrogate unit then
        match rest with
        | '\\' :: 'u' :: e :: f :: g :: h :: rest =>
          match hexUnit? e f g h with
          | none => .error .malformed
          | some low =>
            if isLowSurrogate low then readString (done.push (pairedChar unit low)) rest
            else .error .malformed
        | '\\' :: 'u' :: rest => .error (shortUnit rest)
        | [] => .error (.ended .string)
        | ['\\'] => .error (.ended .string)
        | _ => .error .malformed
      else readString (done.push (Char.ofNat unit)) rest
  | '\\' :: 'u' :: rest => .error (shortUnit rest)
  | ['\\'] => .error (.ended .string)
  | '\\' :: c :: rest =>
    match shortEscape? c with
    | none => .error .malformed
    | some e => readString (done.push e) rest
  | c :: rest => if isControl c then .error .malformed else readString (done.push c) rest
termination_by text.length
decreasing_by all_goals simp; try omega

/-- The text after a string, from the one after its opening quote. -/
def skipString (text : List Char) : Except Fault (List Char) :=
  match text with
  | [] => .error (.ended .string)
  | '"' :: rest => .ok rest
  | '\\' :: 'u' :: a :: b :: c :: d :: rest =>
    match hexUnit? a b c d with
    | none => .error .malformed
    | some _ => skipString rest
  | '\\' :: 'u' :: rest => .error (shortUnit rest)
  | ['\\'] => .error (.ended .string)
  | '\\' :: c :: rest =>
    match shortEscape? c with
    | none => .error .malformed
    | some _ => skipString rest
  | c :: rest => if isControl c then .error .malformed else skipString rest
termination_by text.length
decreasing_by all_goals simp; try omega

end Json

end InfraGraph
