/-! The classes of characters that structure a YAML text. -/
namespace Orchestration.Yaml

def isAllowed (c : Char) : Bool :=
  let n := c.toNat
  n = 0x9 || n = 0xa || n = 0xd || (0x20 ≤ n && n ≤ 0x7e) || n = 0x85 ||
    (0xa0 ≤ n && n ≤ 0xd7ff) || (0xe000 ≤ n && n ≤ 0xfffd) || 0x10000 ≤ n

def byteOrderMark : Char := '\ufeff'

def isBreak (c : Char) : Bool :=
  c = '\n' || c = '\r' || c = '\u0085' || c = '\u2028' || c = '\u2029'

def isBlank (c : Char) : Bool := c = ' ' || c = '\t'

def isGap (c : Char) : Bool := isBlank c || isBreak c

/-- What a line break stands for in a scalar: the separators for themselves, others for a
line feed. -/
def breakValue (c : Char) : Char := if c = '\u2028' || c = '\u2029' then c else '\n'

def endsWord : List Char → Bool
  | [] => true
  | c :: _ => isGap c

def isMarker (mark : Char) : List Char → Bool
  | a :: b :: c :: rest => a = mark && b = mark && c = mark && endsWord rest
  | _ => false

def isDocumentMarker (cs : List Char) : Bool := isMarker '-' cs || isMarker '.' cs

def isNameChar (c : Char) : Bool := c.isAlphanum || c = '_' || c = '-'

def isTagChar (verbatim : Bool) (c : Char) : Bool :=
  isNameChar c || ";/?:@&=+$.%!~*'()".toList.contains c || (verbatim && ",[]".toList.contains c)

def flowIndicators : List Char := [',', '[', ']', '\x7b', '\x7d']

def indicators : List Char := "-?:,[]#&*!|>'\"%@`".toList ++ ['\x7b', '\x7d']

def hexValue? (c : Char) : Option Nat :=
  if c.isDigit then some (c.toNat - '0'.toNat)
  else if 'a' ≤ c ∧ c ≤ 'f' then some (c.toNat - 'a'.toNat + 10)
  else if 'A' ≤ c ∧ c ≤ 'F' then some (c.toNat - 'A'.toNat + 10)
  else none

def hexNumber? : Nat → Nat → List Char → Option Nat
  | 0, value, _ => some value
  | n + 1, value, c :: rest =>
    match hexValue? c with
    | some digit => hexNumber? n (16 * value + digit) rest
    | none => none
  | _ + 1, _, [] => none

def charOf? (code : Nat) : Option Char := if code.isValidChar then some (Char.ofNat code) else none

end Orchestration.Yaml
