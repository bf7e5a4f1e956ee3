import Orchestration.Decimal.Nearest

/-! What a plain scalar is by its spelling: null, a truth value, an integer, a float or
just a text. -/
namespace Orchestration.Yaml

inductive Plain where
  | null
  | bool (value : Bool)
  | int (value : Int)
  | float (bits : UInt64)
  | text
  deriving DecidableEq, Repr

namespace Plain

def isNull (text : String) : Bool := ["null", "Null", "NULL", "~"].contains text

def bool? (text : String) : Option Bool :=
  if ["true", "True", "TRUE"].contains text then some true
  else if ["false", "False", "FALSE"].contains text then some false
  else none

def digit? (radix : Nat) (c : Char) : Option Nat :=
  let value? :=
    if c.isDigit then some (c.toNat - '0'.toNat)
    else if c.isAlpha then some (c.toLower.toNat - 'a'.toNat + 10)
    else none
  value?.filter (· < radix)

def natural? (radix : Nat) : List Char → Option Nat
  | [] => none
  | digits => digits.foldlM (fun n c => (digit? radix c).map (radix * n + ·)) 0

def marked? : List Char → Option Nat
  | '0' :: 'x' :: digits => natural? 16 digits
  | '0' :: 'o' :: digits => natural? 8 digits
  | '0' :: 'b' :: digits => natural? 2 digits
  | _ => none

def unsigned (cs : List Char) : List Char :=
  match cs with
  | '-' :: rest => rest
  | '+' :: rest => rest
  | _ => cs

def hasLeadingZero (cs : List Char) : Bool :=
  match unsigned cs with
  | '0' :: rest => !rest.isEmpty && rest.all Char.isDigit
  | _ => false

def int? (text : String) : Option Int :=
  let cs := text.toList
  let decimal (digits : List Char) := if hasLeadingZero cs then none else natural? 10 digits
  match cs with
  | '-' :: rest =>
    ((marked? rest <|> decimal rest).filter (· ≤ Nat.pow 2 127)).map fun n => -(n : Int)
  | '+' :: rest => ((marked? rest <|> decimal rest).filter (· < Nat.pow 2 128)).map Int.ofNat
  | _ => ((marked? cs <|> decimal cs).filter (· < Nat.pow 2 128)).map Int.ofNat

def exponent? : List Char → Option Int
  | [] => some 0
  | e :: rest =>
    if e = 'e' || e = 'E' then
      let value := natural? 10 (unsigned rest)
      if rest.head? = some '-' then value.map fun n => -(n : Int) else value.map Int.ofNat
    else none

def decimal? (cs : List Char) : Option UInt64 :=
  let digits := unsigned cs
  let whole := digits.takeWhile Char.isDigit
  let rest := digits.dropWhile Char.isDigit
  let (fraction, rest) := match rest with
    | '.' :: rest => (rest.takeWhile Char.isDigit, rest.dropWhile Char.isDigit)
    | rest => ([], rest)
  match natural? 10 (whole ++ fraction), exponent? rest with
  | some coefficient, some exponent =>
    Decimal.nearest (cs.head? = some '-') coefficient (exponent - fraction.length)
  | _, _ => none

def infinity : UInt64 := 0x7ff0000000000000
def negativeInfinity : UInt64 := 0xfff0000000000000
def notANumber : UInt64 := 0x7ff8000000000000

def float? (text : String) : Option UInt64 :=
  if [".inf", ".Inf", ".INF", "+.inf", "+.Inf", "+.INF"].contains text then some infinity
  else if ["-.inf", "-.Inf", "-.INF"].contains text then some negativeInfinity
  else if [".nan", ".NaN", ".NAN"].contains text then some notANumber
  else decimal? text.toList

def read (text : String) : Plain :=
  if text.isEmpty || isNull text then .null
  else match bool? text with
    | some value => .bool value
    | none => match int? text with
      | some value => .int value
      | none =>
        if hasLeadingZero text.toList then .text
        else match float? text with
          | some bits => .float bits
          | none => .text

end Plain
end Orchestration.Yaml
