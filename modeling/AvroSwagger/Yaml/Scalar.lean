import AvroSwagger.Json.Basic

/-!
# AvroSwagger.Yaml.Scalar

**What an unquoted YAML scalar means where any value may stand.**

Nothing and `~` are null, `true` and `false` in three spellings are truth
values, digits with an optional base are integers, decimal and scientific
notation are floating-point numbers, and everything else is a string.  Digits
after a leading zero are a string, not a number.
-/

namespace AvroSwagger.Yaml

open AvroSwagger.Decimal

/-- The meaning of an unquoted scalar. -/
inductive Meaning where
  | null
  | bool (value : Bool)
  | int (value : Int)
  | float (value : Binary64)
  /-- An infinity or a value that is no number. -/
  | special
  | text

/-! ## §1. Integers. -/

/-- Splits an optional sign off. -/
def dropSign : List Char → List Char
  | '+' :: rest => rest
  | '-' :: rest => rest
  | text => text

/-- Splits an optional plus sign off. -/
def dropPlus : List Char → List Char
  | '+' :: rest => rest
  | text => text

/-- Whether a text starts with a sign. -/
def isSigned : List Char → Bool
  | '+' :: _ => true
  | '-' :: _ => true
  | _ => false

/-- The value of a digit in bases up to sixteen. -/
def digitValue? (c : Char) : Option Nat :=
  if '0' ≤ c ∧ c ≤ '9' then some (c.toNat - '0'.toNat)
  else if 'a' ≤ c ∧ c ≤ 'f' then some (c.toNat - 'a'.toNat + 10)
  else if 'A' ≤ c ∧ c ≤ 'F' then some (c.toNat - 'A'.toNat + 10)
  else none

/-- The number that digits form in a base; `none` for no digits or a foreign character. -/
def natInBase? (base : Nat) (digits : List Char) : Option Nat :=
  if digits.isEmpty then none
  else digits.foldl (fun acc c => do
    let n ← acc
    let d ← digitValue? c
    if d < base then some (n * base + d) else none) (some 0)

/-- Whether a scalar is, after a sign, several digits with a zero in front. -/
def isPaddedDigits (text : List Char) : Bool :=
  match dropSign text with
  | '0' :: rest => !rest.isEmpty && rest.all Char.isDigit
  | _ => false

/-- An integer without minus sign: decimal, or with one of the prefixes `0x`, `0o`, `0b`. -/
def unsigned? (text : List Char) : Option Nat :=
  let body := dropPlus text
  let based := match body with
    | '0' :: 'x' :: digits => natInBase? 16 digits
    | '0' :: 'o' :: digits => natInBase? 8 digits
    | '0' :: 'b' :: digits => natInBase? 2 digits
    | _ => none
  let value := based.or (if isPaddedDigits text then none else natInBase? 10 body)
  value.filter (· < twoPow 128)

/-- An integer with a minus sign; its magnitude. -/
def negated? (text : List Char) : Option Nat :=
  let based := match text with
    | '-' :: '0' :: 'x' :: digits => natInBase? 16 digits
    | '-' :: '0' :: 'o' :: digits => natInBase? 8 digits
    | '-' :: '0' :: 'b' :: digits => natInBase? 2 digits
    | _ => none
  let value := based.or (match text with
    | '-' :: digits => if isPaddedDigits text then none else natInBase? 10 digits
    | _ => none)
  value.filter (· ≤ twoPow 127)

/-- An integer. -/
def intOf? (text : List Char) : Option Int :=
  ((unsigned? text).map Int.ofNat).or ((negated? text).map fun n => -(n : Int))

/-! ## §2. Floating-point numbers. -/

/-- Digits with an optional point and an optional exponent, at least one digit before or
after the point: the coefficient and the power of ten. -/
def decimal? (text : List Char) : Option (Nat × Int) := do
  let whole := text.takeWhile Char.isDigit
  let rest := text.dropWhile Char.isDigit
  let (fraction, rest) := match rest with
    | '.' :: after => (after.takeWhile Char.isDigit, after.dropWhile Char.isDigit)
    | other => ([], other)
  let coefficient ← natInBase? 10 (whole ++ fraction)
  let scale : Int := -(fraction.length : Int)
  match rest with
  | [] => some (coefficient, scale)
  | c :: after =>
    if c = 'e' ∨ c = 'E' then
      let exponent ← natInBase? 10 (dropSign after)
      some (coefficient, if after.head? = some '-' then scale - exponent else scale + exponent)
    else none

/-- A finite floating-point number, correctly rounded. -/
def finite? (text : List Char) : Option Binary64 := do
  let body := dropPlus text
  if text.head? = some '+' && isSigned body then none
  let (coefficient, exponent) ← decimal? (dropSign body)
  Binary64.ofDecimal? (body.head? = some '-') coefficient exponent

/-- The words for null. -/
def nullWords : List String := ["null", "Null", "NULL", "~"]

/-- The spellings of null, nothing among them. -/
def nullSpellings : List String := "" :: nullWords

/-- Whether a scalar is a word for null. -/
def isNullWord (scalar : String) : Bool := nullWords.contains scalar

/-- The truth value of a scalar. -/
def boolOf? (scalar : String) : Option Bool :=
  if ["true", "True", "TRUE"].contains scalar then some true
  else if ["false", "False", "FALSE"].contains scalar then some false
  else none

/-- The spellings of infinities and of the value that is no number. -/
def specialSpellings : List String :=
  [".inf", ".Inf", ".INF", "+.inf", "+.Inf", "+.INF", "-.inf", "-.Inf", "-.INF",
    ".nan", ".NaN", ".NAN"]

/-! ## §3. The meaning. -/

/-- **The meaning of an unquoted scalar.** -/
def meaning (scalar : String) : Meaning :=
  if nullSpellings.contains scalar then .null
  else
    let text := scalar.toList
    match boolOf? scalar, intOf? text with
    | some b, _ => .bool b
    | none, some n => .int n
    | none, none =>
      if isPaddedDigits text then .text
      else if specialSpellings.contains scalar then .special
      else match finite? text with
        | some x => .float x
        | none => .text

end AvroSwagger.Yaml
