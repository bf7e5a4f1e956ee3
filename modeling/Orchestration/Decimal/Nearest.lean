/-! The binary64 value nearest to a decimal number, ties to the even neighbour. -/
namespace Orchestration.Decimal

def roundEven (num den : Nat) : Nat :=
  let q := num / den
  let twice := 2 * (num % den)
  if twice < den then q
  else if den < twice then q + 1
  else if q % 2 = 0 then q else q + 1

/-- The exponent of the last bit kept of `num / den`: 53 bits in all, but no bit below the
smallest one there is. -/
def lastBit (num den : Nat) : Int :=
  let guess : Int := (Nat.log2 num : Int) - Nat.log2 den - 53
  let fits := num * Nat.pow 2 (-guess).toNat < Nat.pow 2 53 * den * Nat.pow 2 guess.toNat
  max (-1074) (if fits then guess else guess + 1)

def quotientBits (num den : Nat) : Option Nat :=
  let exponent := lastBit num den
  let rounded := roundEven (num * Nat.pow 2 (-exponent).toNat) (den * Nat.pow 2 exponent.toNat)
  let bits := rounded + ((exponent + 1074).toNat) * Nat.pow 2 52
  if bits < 2047 * Nat.pow 2 52 then some bits else none

def nearest (negative : Bool) (coefficient : Nat) (scale : Int) : Option UInt64 :=
  let size := (Nat.toDigits 10 coefficient).length + scale
  let magnitude : Option Nat :=
    if coefficient = 0 || size < -400 then some 0
    else if 400 < size then none
    else quotientBits (coefficient * Nat.pow 10 scale.toNat) (Nat.pow 10 (-scale).toNat)
  magnitude.map fun bits => UInt64.ofNat (bits + if negative then Nat.pow 2 63 else 0)

end Orchestration.Decimal
