/-!
# AvroSwagger.Decimal.Binary64

**Finite binary floating-point numbers with 53 significant bits, as exact integers.**

A value is a sign and a pair `significand · 2 ^ exponent` in canonical form, so
equality of values is equality of parts (the two zeros apart).  All arithmetic
goes through one rounding, `ofRatio?`: the nearest representable value of a
fraction, ties to the even significand, `none` when that lies beyond the largest
finite value.

Main statement: `roundHalfEven_near`, the rounded quotient is within half a unit.
-/

namespace AvroSwagger.Decimal

/-! ## §1. Powers, and rounding a quotient. -/

/-- A power of two. -/
def twoPow (k : Nat) : Nat := Nat.pow 2 k

/-- A power of ten. -/
def tenPow (k : Nat) : Nat := Nat.pow 10 k

/-- The integer nearest to `num / den`; of two equally near the even one. -/
def roundHalfEven (num den : Nat) : Nat :=
  let quotient := num / den
  let remainder := num % den
  if 2 * remainder > den ∨ (2 * remainder = den ∧ quotient % 2 = 1) then quotient + 1 else quotient

/-- The rounded quotient is within half a unit of the exact one. -/
theorem roundHalfEven_near (num : Nat) {den : Nat} (hden : 0 < den) :
    2 * (roundHalfEven num den * den) ≤ 2 * num + den ∧
      2 * num ≤ 2 * (roundHalfEven num den * den) + den := by
  have hdiv : den * (num / den) + num % den = num := Nat.div_add_mod num den
  have hcomm : num / den * den = den * (num / den) := Nat.mul_comm _ _
  have hmod : num % den < den := Nat.mod_lt _ hden
  unfold roundHalfEven
  simp only []
  split
  · rename_i h
    have hsucc : (num / den + 1) * den = num / den * den + den := Nat.succ_mul _ _
    omega
  · rename_i h
    omega

/-! ## §2. Values. -/

/-- What makes a pair `significand · 2 ^ exponent` the one form of its value: at most 53
bits, an exponent in range, and all 53 bits used unless the exponent is the least one. -/
def Canonical (significand : Nat) (exponent : Int) : Prop :=
  significand < twoPow 53 ∧ -1074 ≤ exponent ∧ exponent ≤ 971 ∧
    (twoPow 52 ≤ significand ∨ exponent = -1074)

instance (significand : Nat) (exponent : Int) : Decidable (Canonical significand exponent) :=
  inferInstanceAs (Decidable (_ ∧ _ ∧ _ ∧ _))

/-- A finite number `± significand · 2 ^ exponent`. -/
structure Binary64 where
  negative : Bool
  significand : Nat
  exponent : Int
  canonical : Canonical significand exponent
  deriving DecidableEq

namespace Binary64

/-- Zero with a sign. -/
def zero (negative : Bool) : Binary64 :=
  ⟨negative, 0, -1074, by decide⟩

/-- Whether the value is one of the two zeros. -/
def isZero (x : Binary64) : Bool := x.significand == 0

/-- The same magnitude with the given sign. -/
def withSign (negative : Bool) (x : Binary64) : Binary64 := { x with negative }

/-- Numeric equality: equal parts, or two zeros of any sign. -/
def sameValue (x y : Binary64) : Bool :=
  (x.isZero && y.isZero) || decide (x = y)

/-- The parts as a value, when they are canonical. -/
def ofParts? (negative : Bool) (significand : Nat) (exponent : Int) : Option Binary64 :=
  if h : Canonical significand exponent then some ⟨negative, significand, exponent, h⟩ else none

/-- The exponent `e` with `2 ^ e ≤ num / den < 2 ^ (e + 1)`, for a positive fraction. -/
def binade (num den : Nat) : Int :=
  let e : Int := (num.log2 : Int) - (den.log2 : Int)
  if den * twoPow e.toNat ≤ num * twoPow (-e).toNat then e else e - 1

/-- The nearest value of `num / den`, ties to the even significand; `none` beyond the
largest finite value. -/
def ofRatio? (negative : Bool) (num den : Nat) : Option Binary64 :=
  if num = 0 then some (zero negative)
  else
    let exponent : Int := max (binade num den - 52) (-1074)
    let significand := roundHalfEven (num * twoPow (-exponent).toNat) (den * twoPow exponent.toNat)
    -- rounding up to a power of two needs one bit more, so the exponent moves instead
    if significand = twoPow 53 then ofParts? negative (twoPow 52) (exponent + 1)
    else ofParts? negative significand exponent

/-! ## §3. Arithmetic with one rounding each. -/

/-- The nearest value of a natural number. -/
def ofNat? (n : Nat) : Option Binary64 := ofRatio? false n 1

/-- The product, rounded once. -/
def mul? (x y : Binary64) : Option Binary64 :=
  let e := x.exponent + y.exponent
  ofRatio? (x.negative != y.negative)
    (x.significand * y.significand * twoPow e.toNat) (twoPow (-e).toNat)

/-- The quotient, rounded once; `none` for a zero divisor. -/
def div? (x y : Binary64) : Option Binary64 :=
  if y.isZero then none
  else
    let e := x.exponent - y.exponent
    ofRatio? (x.negative != y.negative)
      (x.significand * twoPow e.toNat) (y.significand * twoPow (-e).toNat)

/-- The nearest value of `coefficient · 10 ^ exponent`; `none` beyond the largest finite
value.  Powers far outside the range are settled without building them. -/
def ofDecimal? (negative : Bool) (coefficient : Nat) (exponent : Int) : Option Binary64 :=
  if coefficient = 0 then some (zero negative)
  else
    let leading : Int := ((Nat.toDigits 10 coefficient).length : Int) + exponent
    if leading > 310 then none
    else if leading < -330 then some (zero negative)
    else ofRatio? negative (coefficient * tenPow exponent.toNat) (tenPow (-exponent).toNat)

end Binary64

end AvroSwagger.Decimal
