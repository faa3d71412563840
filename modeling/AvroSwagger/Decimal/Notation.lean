import AvroSwagger.Decimal.Shortest

/-!
# AvroSwagger.Decimal.Notation

**How a floating-point number is written out.**

The digits are the shortest that read back; where the point goes, and how an
exponent looks, is the choice of a document format and is collected in one
record, `FloatStyle`.
-/

namespace AvroSwagger.Decimal

/-- A format's choices for writing floating-point numbers. -/
structure FloatStyle where
  /-- The least decimal exponent that is written without exponent part. -/
  leastPositional : Int
  /-- The greatest decimal exponent that is written without exponent part. -/
  greatestPositional : Int
  /-- Whether a positive exponent carries a plus sign. -/
  plusSign : Bool

namespace FloatStyle

/-- The text of a positive decimal whose coefficient has no trailing zero. -/
def magnitudeText (style : FloatStyle) (d : Scaled) : String :=
  let digits := Nat.toDigits 10 d.coefficient
  let exponent : Int := d.exponent + (digits.length : Int) - 1
  if style.leastPositional ≤ exponent ∧ exponent ≤ style.greatestPositional then
    if 0 ≤ d.exponent then
      String.ofList (digits ++ List.replicate d.exponent.toNat '0') ++ ".0"
    else if 0 ≤ exponent then
      let whole := exponent.toNat + 1
      String.ofList (digits.take whole ++ '.' :: digits.drop whole)
    else
      "0." ++ String.ofList (List.replicate (-exponent - 1).toNat '0' ++ digits)
  else
    let mantissa := match digits with
      | [] => ""
      | [c] => String.ofList [c]
      | c :: rest => String.ofList (c :: '.' :: rest)
    let sign := if exponent < 0 then "-" else if style.plusSign then "+" else ""
    mantissa ++ "e" ++ sign ++ toString exponent.natAbs

/-- The text of a finite number: a minus sign if it is negative (zero included), then its
shortest digits; always with a point or an exponent. -/
def text (style : FloatStyle) (x : Binary64) : String :=
  (if x.negative then "-" else "") ++
    (if x.isZero then "0.0" else style.magnitudeText x.shortest)

end FloatStyle

end AvroSwagger.Decimal
