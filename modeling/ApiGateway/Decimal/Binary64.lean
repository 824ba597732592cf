/-! Binary floating point with 53 bits: exact values, and the nearest one to a decimal. -/

namespace ApiGateway.Decimal

def twoTo (n : Nat) : Nat := Nat.pow 2 n

def tenTo (n : Nat) : Nat := Nat.pow 10 n

/-- The value `± mantissa · 2 ^ exponent`. The mantissa stays below `2 ^ 53`, and the exponent is as
small as that and the bound of `-1074` allow, so equal values of one sign are equal structures. -/
structure Binary64 where
  negative : Bool
  mantissa : Nat
  exponent : Int
deriving DecidableEq, Repr

namespace Binary64

def zero (negative : Bool) : Binary64 := ⟨negative, 0, -1074⟩

def roundQuotient (num den : Nat) : Nat :=
  let q := num / den
  let r := num % den
  if 2 * r < den then q
  else if den < 2 * r then q + 1
  else if q % 2 = 0 then q else q + 1

def scaled (num den : Nat) (exponent : Int) : Nat × Nat :=
  (num * twoTo (-exponent).toNat, den * twoTo exponent.toNat)

/-- The exponent that leaves the quotient between `2 ^ 52` and `2 ^ 53`, or the least one. -/
def fittingExponent (num den : Nat) : Int :=
  let guess : Int := (num.log2 : Int) - (den.log2 : Int) - 52
  let (n, d) := scaled num den guess
  max (if n / d < twoTo 52 then guess - 1 else guess) (-1074)

def ofQuotient (negative : Bool) (num den : Nat) : Option Binary64 :=
  if num = 0 then some (zero negative)
  else
    let e := fittingExponent num den
    let (n, d) := scaled num den e
    let m := roundQuotient n d
    let (m, e) := if m = twoTo 53 then (twoTo 52, e + 1) else (m, e)
    if 971 < e then none else some ⟨negative, m, e⟩

def digitCount (n : Nat) : Nat := if n = 0 then 0 else (Nat.toDigits 10 n).length

/-- The value nearest to `± digits · 10 ^ exponent`. Magnitudes far outside the range are settled by
their leading place, without computing the power. -/
def ofDecimal (negative : Bool) (digits : Nat) (exponent : Int) : Option Binary64 :=
  let place := exponent + digitCount digits
  if digits = 0 then some (zero negative)
  else if 400 < place then none
  else if place < -400 then some (zero negative)
  else ofQuotient negative (digits * tenTo exponent.toNat) (tenTo (-exponent).toNat)

end Binary64
end ApiGateway.Decimal
