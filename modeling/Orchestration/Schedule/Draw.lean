/-! Unbiased numbers below a bound from random words of 32 bits: a word is scaled
to the bound, and dropped when its low half lies beyond the even part of the range. -/
namespace Orchestration

namespace Draw

def wordSize : Nat := Nat.pow 2 32

/-- The largest low half with which a scaled word is taken: the bound shifted left
until its top bit is the top bit of a word, less one. -/
def zone (bound : Nat) : Nat := bound * Nat.pow 2 (31 - Nat.log2 bound) - 1

def take? (bound word : Nat) : Option Nat :=
  if bound * word % wordSize ≤ zone bound then some (bound * word / wordSize) else none

/-- The first number that the words give; when they run out every further word is 0. -/
def below (bound : Nat) : List Nat → Nat
  | [] => 0
  | word :: rest => (take? bound word).getD (below bound rest)

def rest (bound : Nat) : List Nat → List Nat
  | [] => []
  | word :: rest' => if (take? bound word).isSome then rest' else rest bound rest'

end Draw
end Orchestration
