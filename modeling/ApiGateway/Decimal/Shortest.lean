import ApiGateway.Decimal.Binary64

/-! The shortest decimal of a binary value: the fewest digits that read back, and of those the
nearest. -/

namespace ApiGateway.Decimal

structure Shortest where
  digits : Nat
  exponent : Int

/-- A value with the interval of reals that round to it, over one denominator. -/
structure Target where
  value : Nat
  low : Nat
  high : Nat
  den : Nat
  closed : Bool

/-- Four quarters of the last binary place make room for the half-way points; below a power of two
the lower neighbour is only half as far. -/
def Binary64.target (x : Binary64) : Target :=
  let e := x.exponent - 2
  let up := twoTo e.toNat
  let narrow := x.mantissa = twoTo 52 && -1074 < x.exponent
  { value := 4 * x.mantissa * up
    low := (4 * x.mantissa - (if narrow then 1 else 2)) * up
    high := (4 * x.mantissa + 2) * up
    den := twoTo (-e).toNat
    closed := x.mantissa % 2 = 0 }

def leadingPlace (num den : Nat) : Int :=
  if den ≤ num then (Binary64.digitCount (num / den) : Int) - 1
  else -(Binary64.digitCount ((den - 1) / num) : Int)

def Target.onGrid? (t : Target) (place : Int) : Option Shortest :=
  let lift := tenTo (-place).toNat
  let unit := t.den * tenTo place.toNat
  let k := t.value * lift / unit
  let inside (k : Nat) : Bool :=
    if t.closed then t.low * lift ≤ k * unit && k * unit ≤ t.high * lift
    else t.low * lift < k * unit && k * unit < t.high * lift
  let below := t.value * lift - k * unit
  let above := (k + 1) * unit - t.value * lift
  match inside k, inside (k + 1) with
  | true, true =>
    if below < above || (below = above && k % 2 = 0) then some ⟨k, place⟩
    else some ⟨k + 1, place⟩
  | true, false => some ⟨k, place⟩
  | false, true => some ⟨k + 1, place⟩
  | false, false => none

def Shortest.trim : Nat → Shortest → Shortest
  | 0, s => s
  | fuel + 1, s => if s.digits % 10 = 0 then trim fuel ⟨s.digits / 10, s.exponent + 1⟩ else s

/-- The magnitude of a value other than zero; seventeen digits always suffice. -/
def Binary64.shortest (x : Binary64) : Shortest :=
  let t := x.target
  let lead := leadingPlace t.value t.den
  let found := (List.range 17).findSome? fun (n : Nat) => t.onGrid? (lead - n)
  (found.getD ⟨x.mantissa, x.exponent⟩).trim 17

end ApiGateway.Decimal
