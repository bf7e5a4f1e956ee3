import Orchestration.Text.Blank

/-! Decimal numerals that have to fit a width. -/
namespace Orchestration.Text

inductive NumeralFault where
  | invalidDigit
  | tooLarge
  deriving DecidableEq, Repr

def NumeralFault.message : NumeralFault → String
  | invalidDigit => "invalid digit found in string"
  | tooLarge => "number too large to fit in target type"

def digitsBelow (limit : Nat) : Nat → List Char → Except NumeralFault Nat
  | n, [] => .ok n
  | n, c :: rest =>
    if c.isDigit then
      let n := 10 * n + (c.toNat - '0'.toNat)
      if n < limit then digitsBelow limit n rest else .error .tooLarge
    else .error .invalidDigit

def numeralBelow (limit : Nat) (text : String) : Except NumeralFault Nat :=
  match trimChars text.toList with
  | [] => .error .invalidDigit
  | ['+'] => .error .invalidDigit
  | '+' :: digits => digitsBelow limit 0 digits
  | digits => digitsBelow limit 0 digits

end Orchestration.Text
