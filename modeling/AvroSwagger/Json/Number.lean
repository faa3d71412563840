import AvroSwagger.Decimal.Notation

/-!
# AvroSwagger.Json.Number

**The two kinds of JSON numbers, and how a literal becomes one.**

A number is an integer that fits 64 bits, signed or unsigned, or a finite
floating-point number.  A literal without point and exponent is an integer when
it fits; minus zero and everything else is a floating-point number.

A floating-point literal is not rounded once but in steps: its digits are
gathered while they fit 64 bits, that integer is rounded to a floating-point
number, and the result is multiplied or divided by a rounded power of ten.  So
`9007199254740993.0` is `9007199254740994.0`.
-/

namespace AvroSwagger.Json

open AvroSwagger.Decimal

/-! ## §1. Values. -/

/-- The integers that are kept exactly. -/
def FitsWord (n : Int) : Prop := -(twoPow 63 : Int) ≤ n ∧ n < twoPow 64

instance (n : Int) : Decidable (FitsWord n) := inferInstanceAs (Decidable (_ ∧ _))

/-- A JSON number: an exact integer of 64 bits, or a floating-point number. -/
inductive Number where
  | integer (value : Int) (fits : FitsWord value)
  | float (value : Binary64)
  deriving DecidableEq

namespace Number

/-- An integer as a number, if it fits. -/
def ofInt? (n : Int) : Option Number :=
  if h : FitsWord n then some (.integer n h) else none

/-- Equality of numbers: an integer differs from every floating-point number, and the two
floating-point zeros are equal. -/
def sameValue : Number → Number → Bool
  | .integer a _, .integer b _ => a == b
  | .float a, .float b => a.sameValue b
  | _, _ => false

/-- The number's text, floating-point numbers in the given style. -/
def text (style : FloatStyle) : Number → String
  | .integer n _ => toString n
  | .float x => style.text x

end Number

/-- JSON texts write exponents −5 to 15 positionally and sign every other exponent. -/
def floatStyle : FloatStyle := ⟨-5, 15, true⟩

/-! ## §2. Literals. -/

/-- The exponent part of a literal. -/
structure ExponentPart where
  negative : Bool
  digits : List Nat

/-- A number as written: sign, digits before the point, digits after it, exponent. -/
structure Literal where
  negative : Bool
  whole : List Nat
  fraction : Option (List Nat)
  exponent : Option ExponentPart

/-- The value of a decimal digit character. -/
def digit? (c : Char) : Option Nat :=
  if c.isDigit then some (c.toNat - '0'.toNat) else none

/-- Splits off the digits that a text starts with. -/
def spanDigits : List Char → List Nat × List Char
  | [] => ([], [])
  | c :: rest =>
    match digit? c with
    | some d => let (ds, tail) := spanDigits rest; (d :: ds, tail)
    | none => ([], c :: rest)

namespace Literal

/-- The exponent part, if the text starts with one; `none` if it starts badly. -/
def readExponent? : List Char → Option (Option ExponentPart × List Char)
  | c :: rest =>
    if c = 'e' ∨ c = 'E' then
      let (negative, rest) := match rest with
        | '-' :: r => (true, r)
        | '+' :: r => (false, r)
        | r => (false, r)
      match spanDigits rest with
      | ([], _) => none
      | (ds, tail) => some (some ⟨negative, ds⟩, tail)
    else some (none, c :: rest)
  | [] => some (none, [])

/-- The fraction part, if the text starts with one; `none` if no digit follows the point. -/
def readFraction? : List Char → Option (Option (List Nat) × List Char)
  | '.' :: rest =>
    match spanDigits rest with
    | ([], _) => none
    | (ds, tail) => some (some ds, tail)
  | rest => some (none, rest)

/-- Reads a whole text as a literal: no leading zeros, digits on both sides of the point. -/
def ofChars? (text : List Char) : Option Literal := do
  let (negative, rest) := match text with
    | '-' :: r => (true, r)
    | r => (false, r)
  let (whole, rest) := spanDigits rest
  if whole.isEmpty || (whole.head? == some 0 && whole.length != 1) then none
  let (fraction, rest) ← readFraction? rest
  let (exponent, rest) ← readExponent? rest
  if rest.isEmpty then some ⟨negative, whole, fraction, exponent⟩ else none

end Literal

/-! ## §3. From a literal to a number. -/

/-- The greatest unsigned integer of 64 bits. -/
def greatestWord : Nat := twoPow 64 - 1

/-- The greatest exponent that is counted exactly; exponents stop growing there. -/
def greatestExponent : Nat := twoPow 31 - 1

/-- Gathers digits while the number they form fits 64 bits; the second part is what is left
from the first digit that does not fit. -/
def gather (start : Nat) : List Nat → Nat × List Nat
  | [] => (start, [])
  | d :: rest =>
    if start * 10 + d ≤ greatestWord then gather (start * 10 + d) rest else (start, d :: rest)

/-- An integer in the range of a 32-bit exponent, moved to the nearer end when outside. -/
def clampExponent (e : Int) : Int :=
  max (-(greatestExponent : Int) - 1) (min e greatestExponent)

/-- `x · 10 ^ exponent` by one rounded multiplication or division for each factor of at most
`10 ^ 308`; `none` when it grows out of range.  `steps` bounds the number of factors. -/
def scaleByTen? (steps : Nat) (x : Binary64) (exponent : Int) : Option Binary64 := do
  if exponent.natAbs ≤ 308 then
    let power ← Binary64.ofNat? (tenPow exponent.natAbs)
    if 0 ≤ exponent then x.mul? power else x.div? power
  else if x.isZero then some x
  else if 0 ≤ exponent then none
  else match steps with
    | 0 => some (Binary64.zero x.negative)
    | n + 1 =>
      let smaller ← x.div? (← Binary64.ofNat? (tenPow 308))
      scaleByTen? n smaller (exponent + 308)

/-- The floating-point number of gathered digits and a decimal exponent. -/
def floatOfParts? (negative : Bool) (digits : Nat) (exponent : Int) : Option Number := do
  let x ← scaleByTen? 4 (← Binary64.ofNat? digits) exponent
  some (.float (x.withSign negative))

/-- The exponent of a literal; `none` if it has more digits than are counted. -/
def exponentOf? (digits : List Nat) : Option Nat :=
  digits.foldl (fun acc d => acc.bind fun e =>
    if e * 10 + d ≤ greatestExponent then some (e * 10 + d) else none) (some 0)

/-- The number a literal denotes; `none` when it is out of range. -/
def Number.ofLiteral? (l : Literal) : Option Number :=
  let (digits, dropped) := gather 0 l.whole
  match l.fraction, l.exponent, dropped with
  -- an integer literal of at most 64 bits; minus zero is no integer
  | none, none, [] =>
    if !l.negative then Number.ofInt? digits
    else if digits = 0 ∨ twoPow 63 < digits then floatOfParts? true digits 0
    else Number.ofInt? (-(digits : Int))
  | _, _, _ =>
    -- digits behind the point still count while the whole fits 64 bits
    let fraction := l.fraction.getD []
    let (digits, ignored) := gather digits fraction
    let taken := fraction.length - ignored.length
    let start := clampExponent ((dropped.length : Int) - (taken : Int))
    match l.exponent with
    | none => floatOfParts? l.negative digits start
    | some part =>
      match exponentOf? part.digits with
      -- an exponent of that length leaves nothing but zero
      | none =>
        if digits = 0 ∨ part.negative then some (.float (Binary64.zero l.negative)) else none
      | some e =>
        floatOfParts? l.negative digits
          (clampExponent (if part.negative then start - (e : Int) else start + (e : Int)))

end AvroSwagger.Json
