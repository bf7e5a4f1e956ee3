/-! The fewest decimal digits that identify a binary64 value, and how they are
laid out. Digits are chosen by exact arithmetic on the bits: for each length the
two neighbours of the value on that decimal grid are tested against the interval
of reals that round to it, and the first grid with a hit wins. -/
namespace Orchestration.Decimal

structure Binary where
  mantissa : Nat
  exponent : Int
  /-- the value below is only half as far away as the value above -/
  narrowBelow : Bool
  deriving DecidableEq, Repr

def Binary.ofBits (bits : UInt64) : Option Binary :=
  let fraction : Nat := bits.toNat % Nat.pow 2 52
  let biased : Nat := bits.toNat / Nat.pow 2 52 % Nat.pow 2 11
  if biased = 2047 then none
  else if biased = 0 then some ⟨fraction, -1074, false⟩
  else some ⟨fraction + Nat.pow 2 52, (biased : Int) - 1075, fraction = 0 && 1 < biased⟩

def isNegative (bits : UInt64) : Bool := Nat.pow 2 63 ≤ bits.toNat

structure Digits where
  coefficient : Nat
  scale : Int
  deriving DecidableEq, Repr

def digitCount (n : Nat) : Nat := (Nat.toDigits 10 n).length

/-- The least `k` with `num / den < 10 ^ k`, for a positive quotient. -/
def magnitude (num den : Nat) : Int :=
  if den ≤ num then digitCount (num / den)
  else
    let inverse := (den + num - 1) / num
    1 - (digitCount (inverse - 1) : Int)

/-- The interval of reals that round to a value, in quarters of its unit:
`low / den` to `high / den` around `middle / den`. -/
structure Interval where
  low : Nat
  middle : Nat
  high : Nat
  den : Nat
  closed : Bool

def Binary.interval (b : Binary) : Interval :=
  let up := Nat.pow 2 (b.exponent - 2).toNat
  { low := (4 * b.mantissa - if b.narrowBelow then 1 else 2) * up
    middle := 4 * b.mantissa * up
    high := (4 * b.mantissa + 2) * up
    den := Nat.pow 2 (2 - b.exponent).toNat
    closed := b.mantissa % 2 = 0 }

def Interval.holds (i : Interval) (n : Nat) (place : Int) : Bool :=
  let left := Nat.pow 10 (-place).toNat
  let right := n * i.den * Nat.pow 10 place.toNat
  if i.closed then i.low * left ≤ right && right ≤ i.high * left
  else i.low * left < right && right < i.high * left

def Interval.nearest (i : Interval) (place : Int) : Option Digits :=
  let left := i.middle * Nat.pow 10 (-place).toNat
  let unit := i.den * Nat.pow 10 place.toNat
  let below := left / unit
  let remainder := left % unit
  match i.holds below place, i.holds (below + 1) place with
  | true, true =>
    some ⟨if 2 * remainder < unit || (2 * remainder = unit && below % 2 = 0) then below else below + 1,
      place⟩
  | true, false => some ⟨below, place⟩
  | false, true => some ⟨below + 1, place⟩
  | false, false => none

def stripZeros : Nat → Digits → Digits
  | 0, d => d
  | fuel + 1, d =>
    if d.coefficient ≠ 0 && d.coefficient % 10 = 0 then
      stripZeros fuel ⟨d.coefficient / 10, d.scale + 1⟩
    else d

def Binary.exact (b : Binary) : Digits :=
  if 0 ≤ b.exponent then ⟨b.mantissa * Nat.pow 2 b.exponent.toNat, 0⟩
  else ⟨b.mantissa * Nat.pow 5 (-b.exponent).toNat, b.exponent⟩

def Binary.shortest (b : Binary) : Digits :=
  let i := b.interval
  let top := magnitude i.middle i.den
  let found := (List.range 17).findSome? fun (n : Nat) => i.nearest (top - 1 - (n : Int))
  stripZeros 20 (found.getD b.exact)

structure Layout where
  lowest : Int
  beyond : Int

def zeros (n : Nat) : String := String.ofList (List.replicate n '0')

def Digits.layout (l : Layout) (d : Digits) : String :=
  let digits := Nat.toDigits 10 d.coefficient
  let first := d.scale + digits.length - 1
  if l.lowest ≤ first && first < l.beyond then
    if 0 ≤ d.scale then String.ofList digits ++ zeros d.scale.toNat ++ ".0"
    else if 0 ≤ first then
      String.ofList (digits.take (first + 1).toNat) ++ "." ++ String.ofList (digits.drop (first + 1).toNat)
    else "0." ++ zeros (-first - 1).toNat ++ String.ofList digits
  else
    let sign := if 0 ≤ first then "+" else "-"
    let fraction := if digits.length = 1 then "" else "." ++ String.ofList (digits.drop 1)
    String.ofList (digits.take 1) ++ fraction ++ "e" ++ sign ++ toString first.natAbs

def text? (l : Layout) (bits : UInt64) : Option String :=
  (Binary.ofBits bits).map fun b =>
    let body := if b.mantissa = 0 then "0.0" else b.shortest.layout l
    if isNegative bits then "-" ++ body else body

end Orchestration.Decimal
