import InfraGraph.Json.Value

/-!
# Numbers in JSON text

A number is kept as an integer where it is written as one and fits a machine word. Any other number
is a float, and of a float only one thing matters here: whether there is one at all.

That question is settled by the way floats are made. Digits go into a significand below `2^64` as
long as they fit, and the digits left over only move the power of ten. The significand and the power
of ten are each rounded to a float, and their product is rounded once more; where it is beyond every
float, the number stands for nothing. Close to the greatest float this is not the same as rounding
the number that was written: `17976931348623158e292` is refused and `179769313486231589e291` is not,
though it is the greater of the two.

## Main definitions

* `NumberText` — the parts of a number as it was written.
* `beyondFloats` — whether a significand and a power of ten make no float.
* `readNumber` — a number and the text after it.
-/

namespace InfraGraph

namespace Json

/-! ## Digits -/

/-- The text from its first character that is no digit on, and the digits before it put after
`done`. -/
def readDigits (done : List Char) : List Char → List Char × List Char
  | [] => (done.reverse, [])
  | c :: rest => if c.isDigit then readDigits (c :: done) rest else (done.reverse, c :: rest)

/-- The number that a number followed by a digit stands for. -/
def appendDigit (n : Nat) (c : Char) : Nat :=
  n * 10 + (c.toNat - '0'.toNat)

/-- The number some decimal digits stand for. -/
def digitsValue (digits : List Char) : Nat :=
  digits.foldl appendDigit 0

/-- Puts digits behind a number as long as it stays below `2^64`, and the digits left over. -/
def packDigits (n : Nat) : List Char → Nat × List Char
  | [] => (n, [])
  | c :: rest =>
    if appendDigit n c < UInt64.size then packDigits (appendDigit n c) rest else (n, c :: rest)

/-! ## Floats -/

/-- The nearest number with 53 binary digits and zeros behind them; of two that are as near, the one
whose last digit is even. Up to `2^1024` these are the floats that are integers. -/
def roundToFloat (n : Nat) : Nat :=
  let unit := Nat.pow 2 (Nat.log2 n + 1 - 53)
  let below := n / unit
  let excess := n % unit
  if unit < 2 * excess || (unit == 2 * excess && below % 2 == 1) then (below + 1) * unit
  else below * unit

/-- The least number that rounds to none of the floats. -/
def floatLimit : Nat :=
  Nat.pow 2 1024 - Nat.pow 2 970

/-- Whether a significand below `2^64` and a power of ten make a number beyond every float. A power
of ten above 308 does so with every significand but zero, one below zero with none. -/
def beyondFloats (significand : Nat) (power : Int) : Bool :=
  match significand, power with
  | 0, _ => false
  | _, .negSucc _ => false
  | _, .ofNat power =>
    308 < power || floatLimit ≤ roundToFloat significand * roundToFloat (Nat.pow 10 power)

/-! ## Numbers -/

/-- The parts of a number as it was written. -/
structure NumberText where
  negative : Bool
  whole : List Char
  /-- The digits after the point, if there is one. -/
  fraction : Option (List Char)
  /-- The power of ten, if one is written. -/
  exponent : Option Int

namespace NumberText

/-- The significand and the power of ten that a float is made of. Digits of the whole part that do
not fit raise the power of ten, digits of the fraction that fit lower it. -/
def scientific (t : NumberText) : Nat × Int :=
  let (significand, unfit) := packDigits 0 t.whole
  let fraction := t.fraction.getD []
  let (significand, unread) := packDigits significand fraction
  let packed := fraction.length - unread.length
  (significand, t.exponent.getD 0 + unfit.length - packed)

/-- What a number stands for if it is no integer. A number beyond every float can be skipped. -/
def float (t : NumberText) : Json :=
  let (significand, power) := t.scientific
  if beyondFloats significand power then .flaw ⟨.malformed, none⟩ else .real

/-- What a number stands for: an integer only where it is written as one, is no negative zero, and
lies between `-2^63` and `2^64 - 1`. -/
def value (t : NumberText) : Json :=
  if t.fraction.isSome || t.exponent.isSome then t.float
  else
    let n := digitsValue t.whole
    if t.negative then
      if n == 0 || -(n : Int) < Int64.minValue.toInt then t.float else .int (-n)
    else if n < UInt64.size then .int n
    else t.float

end NumberText

/-! ## Reading -/

/-- What is met where a number ends before its digits: skipping makes no difference between the end
of the text and a wrong character. -/
def cutNumber : Flaw :=
  ⟨.ended .number, some .malformed⟩

/-- At least one digit; a number that ends before it is cut short, any other character breaks it. -/
def readSomeDigits (text : List Char) : Except Flaw (List Char × List Char) :=
  match readDigits [] text with
  | ([], []) => .error cutNumber
  | ([], _ :: _) => .error (.ofFault .malformed)
  | read => .ok read

/-- The digits behind the letter of an exponent, and its sign. -/
def readPower (text : List Char) : Except Flaw (Int × List Char) :=
  match text with
  | '+' :: text => do
    let (digits, rest) ← readSomeDigits text
    return (digitsValue digits, rest)
  | '-' :: text => do
    let (digits, rest) ← readSomeDigits text
    return (-(digitsValue digits : Int), rest)
  | text => do
    let (digits, rest) ← readSomeDigits text
    return (digitsValue digits, rest)

/-- The exponent of a number, if one is written. -/
def readExponent : List Char → Except Flaw (Option Int × List Char)
  | 'e' :: rest => do
    let (power, rest) ← readPower rest
    return (some power, rest)
  | 'E' :: rest => do
    let (power, rest) ← readPower rest
    return (some power, rest)
  | text => .ok (none, text)

/-- The fraction of a number, if one is written. -/
def readFraction : List Char → Except Flaw (Option (List Char) × List Char)
  | '.' :: rest => do
    let (digits, rest) ← readSomeDigits rest
    return (some digits, rest)
  | text => .ok (none, text)

/-- A number, from its sign or first digit. A first digit `0` is followed by no other. -/
def readNumber (text : List Char) : Except Flaw (Json × List Char) := do
  let (negative, text) :=
    match text with
    | '-' :: rest => (true, rest)
    | _ => (false, text)
  let (whole, text) ← readSomeDigits text
  if whole.head? == some '0' && whole.length > 1 then
    throw (.ofFault .malformed)
  let (fraction, text) ← readFraction text
  let (exponent, text) ← readExponent text
  return (NumberText.value ⟨negative, whole, fraction, exponent⟩, text)

end Json

end InfraGraph
