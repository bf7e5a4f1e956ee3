import Orchestration.Json.Value

/-! Reading one JSON document. A fault names what was wrong and the place where
reading stopped; its line and column are worked out from the text afterwards.
Numbers are integers when they fit in 64 bits, signed or unsigned, and doubles
otherwise; minus zero is a double. -/
namespace Orchestration.Json.Document

inductive Fault where
  | endInValue
  | endInList
  | endInObject
  | endInString
  | expectedColon
  | expectedListCommaOrEnd
  | expectedObjectCommaOrEnd
  | expectedIdent
  | expectedValue
  | invalidEscape
  | invalidNumber
  | numberOutOfRange
  | controlCharacter
  | keyMustBeString
  | loneSurrogate
  | trailingComma
  | trailingCharacters
  | endOfHexEscape
  | tooDeep
  deriving DecidableEq, Repr

def Fault.message : Fault → String
  | endInValue => "EOF while parsing a value"
  | endInList => "EOF while parsing a list"
  | endInObject => "EOF while parsing an object"
  | endInString => "EOF while parsing a string"
  | expectedColon => "expected `:`"
  | expectedListCommaOrEnd => "expected `,` or `]`"
  | expectedObjectCommaOrEnd => "expected `,` or `\x7d`"
  | expectedIdent => "expected ident"
  | expectedValue => "expected value"
  | invalidEscape => "invalid escape"
  | invalidNumber => "invalid number"
  | numberOutOfRange => "number out of range"
  | controlCharacter => "control character (\\u0000-\\u001F) found while parsing a string"
  | keyMustBeString => "key must be a string"
  | loneSurrogate => "lone leading surrogate in hex escape"
  | trailingComma => "trailing comma"
  | trailingCharacters => "trailing characters"
  | endOfHexEscape => "unexpected end of hex escape"
  | tooDeep => "recursion limit exceeded"

/-- Reading stopped `beyond` bytes into the text that was left. -/
structure Stop where
  fault : Fault
  rest : List Char
  beyond : Nat
  deriving DecidableEq, Repr

abbrev Reading (α : Type) := Except Stop (α × List Char)

def here {α : Type} (fault : Fault) (rest : List Char) : Except Stop α := .error ⟨fault, rest, 0⟩

def next {α : Type} (fault : Fault) (rest : List Char) : Except Stop α := .error ⟨fault, rest, 1⟩

def isSpace (c : Char) : Bool := c = ' ' || c = '\n' || c = '\t' || c = '\r'

def skipSpace (cs : List Char) : List Char := cs.dropWhile isSpace

def byteCount (cs : List Char) : Nat := cs.foldl (fun n c => n + c.utf8Size) 0

/-! Numbers -/

def digit? (c : Char) : Option Nat :=
  if '0' ≤ c && c ≤ '9' then some (c.toNat - 48) else none

def widestPower : Nat := 308

/-- The significand scaled by a power of ten in double arithmetic; nothing when it overflows. -/
def scaled : Nat → Float → Int → Option Float
  | 0, f, _ => some f
  | fuel + 1, f, exponent =>
    if exponent.natAbs ≤ widestPower then
      let power := Float.ofScientific 1 false exponent.natAbs
      if 0 ≤ exponent then
        let product := f * power
        if product.isInf then none else some product
      else some (f / power)
    else if f == 0.0 then some f
    else if 0 ≤ exponent then none
    else scaled fuel (f / Float.ofScientific 1 false widestPower) (exponent + widestPower)

def double (positive : Bool) (significand : Nat) (exponent : Int) (rest : List Char) : Reading Json :=
  match scaled 4 significand.toUInt64.toFloat exponent with
  | none => here .numberOutOfRange rest
  | some f => .ok (.float (if positive then f else -f).toBits, rest)

/-- Digits taken into the significand while it fits in 64 bits; the count of them, and
whether the next digit no longer fits. -/
def significandDigits (significand count : Nat) : List Char → Nat × Nat × Bool × List Char
  | [] => (significand, count, false, [])
  | c :: rest =>
    match digit? c with
    | none => (significand, count, false, c :: rest)
    | some d =>
      if significand * 10 + d < Nat.pow 2 64 then significandDigits (significand * 10 + d) (count + 1) rest
      else (significand, count, true, c :: rest)

def isDigit (c : Char) : Bool := (digit? c).isSome

def exponentDigits (value : Nat) : List Char → Option Nat × List Char
  | [] => (some value, [])
  | c :: rest =>
    match digit? c with
    | none => (some value, c :: rest)
    | some d =>
      if value * 10 + d < Nat.pow 2 31 then exponentDigits (value * 10 + d) rest else (none, rest)

def clampExponent (n : Int) : Int := max (-Nat.pow 2 31) (min (Nat.pow 2 31 - 1) n)

def exponentPart (positive : Bool) (significand : Nat) (start : Int) (cs : List Char) : Reading Json :=
  let (up, cs) := match cs with
    | '+' :: rest => (true, rest)
    | '-' :: rest => (false, rest)
    | rest => (true, rest)
  match cs with
  | [] => here .endInValue []
  | c :: rest =>
    match digit? c with
    | none => next .invalidNumber cs
    | some d =>
      match exponentDigits d rest with
      | (some value, rest) =>
        let exponent := clampExponent (if up then start + value else start - value)
        double positive significand exponent rest
      | (none, rest) =>
        if significand ≠ 0 && up then here .numberOutOfRange rest
        else .ok (.float (if positive then 0.0 else -0.0 : Float).toBits, rest.dropWhile isDigit)

def doubleTail (positive : Bool) (significand : Nat) (exponent : Int) : List Char → Reading Json
  | 'e' :: rest => exponentPart positive significand exponent rest
  | 'E' :: rest => exponentPart positive significand exponent rest
  | rest => double positive significand exponent rest

def fractionPart (positive : Bool) (significand : Nat) (before : Int) (cs : List Char) : Reading Json :=
  let (value, count, full, rest) := significandDigits significand 0 cs
  if full then doubleTail positive value (before - count) (rest.dropWhile isDigit)
  else if count = 0 then
    if rest.isEmpty then here .endInValue rest else next .invalidNumber rest
  else doubleTail positive value (before - count) rest

def longTail (positive : Bool) (significand : Nat) (cs : List Char) : Reading Json :=
  let extra := (cs.takeWhile isDigit).length
  match cs.dropWhile isDigit with
  | '.' :: rest => fractionPart positive significand extra rest
  | rest => doubleTail positive significand extra rest

def integerTail (positive : Bool) (significand : Nat) : List Char → Reading Json
  | '.' :: rest => fractionPart positive significand 0 rest
  | 'e' :: rest => exponentPart positive significand 0 rest
  | 'E' :: rest => exponentPart positive significand 0 rest
  | rest =>
    if positive then .ok (.int significand, rest)
    else if significand = 0 || Nat.pow 2 63 < significand then
      .ok (.float (-significand.toUInt64.toFloat).toBits, rest)
    else .ok (.int (-significand), rest)

def number (positive : Bool) : List Char → Reading Json
  | [] => here .endInValue []
  | '0' :: rest =>
    match rest with
    | c :: _ => if isDigit c then next .invalidNumber rest else integerTail positive 0 rest
    | [] => integerTail positive 0 rest
  | c :: rest =>
    match digit? c with
    | none => next .invalidNumber (c :: rest)
    | some d =>
      match significandDigits d 0 rest with
      | (value, _, true, rest) => longTail positive value rest
      | (value, _, false, rest) => integerTail positive value rest

/-! Strings -/

def hexValue? (c : Char) : Option Nat :=
  if '0' ≤ c && c ≤ '9' then some (c.toNat - 48)
  else if 'a' ≤ c && c ≤ 'f' then some (c.toNat - 87)
  else if 'A' ≤ c && c ≤ 'F' then some (c.toNat - 55)
  else none

/-- Four bytes are taken, whatever they are; then they have to be hexadecimal digits. -/
def hexFour (cs : List Char) : Reading Nat :=
  match cs.take 4 |>.mapM hexValue? with
  | some [a, b, c, d] => .ok (((a * 16 + b) * 16 + c) * 16 + d, cs.drop 4)
  | _ => if byteCount cs < 4 then here .endInString [] else .error ⟨.invalidEscape, cs, 4⟩

def isHighSurrogate (n : Nat) : Bool := 0xd800 ≤ n && n ≤ 0xdbff

def isLowSurrogate (n : Nat) : Bool := 0xdc00 ≤ n && n ≤ 0xdfff

def unicodeEscape (cs : List Char) : Reading Char :=
  match hexFour cs with
  | .error e => .error e
  | .ok (high, rest) =>
    if isLowSurrogate high then here .loneSurrogate rest
    else if !isHighSurrogate high then .ok (Char.ofNat high, rest)
    else match rest with
      | [] => here .endInString []
      | '\\' :: [] => here .endInString []
      | '\\' :: 'u' :: rest =>
        match hexFour rest with
        | .error e => .error e
        | .ok (low, rest) =>
          if isLowSurrogate low then
            .ok (Char.ofNat (0x10000 + (high - 0xd800) * 0x400 + (low - 0xdc00)), rest)
          else here .loneSurrogate rest
      | '\\' :: rest => next .endOfHexEscape rest
      | rest => next .endOfHexEscape rest

def escape : List Char → Reading Char
  | [] => here .endInString []
  | 'u' :: rest => unicodeEscape rest
  | '"' :: rest => .ok ('"', rest)
  | '\\' :: rest => .ok ('\\', rest)
  | '/' :: rest => .ok ('/', rest)
  | 'b' :: rest => .ok (Char.ofNat 8, rest)
  | 'f' :: rest => .ok (Char.ofNat 12, rest)
  | 'n' :: rest => .ok ('\n', rest)
  | 'r' :: rest => .ok ('\r', rest)
  | 't' :: rest => .ok ('\t', rest)
  | rest => next .invalidEscape rest

def stringTail (taken : List Char) (cs : List Char) : Nat → Reading String
  | 0 => here .endInString []
  | fuel + 1 =>
    match cs with
    | [] => here .endInString []
    | '"' :: rest => .ok (String.ofList taken.reverse, rest)
    | '\\' :: rest =>
      match escape rest with
      | .error e => .error e
      | .ok (c, rest) => stringTail (c :: taken) rest fuel
    | c :: rest =>
      if c.toNat < 32 then next .controlCharacter cs else stringTail (c :: taken) rest fuel

def string (cs : List Char) : Reading String := stringTail [] cs (cs.length + 1)

/-! Values -/

def literal (value : Json) : List Char → List Char → Reading Json
  | [], cs => .ok (value, cs)
  | _ :: _, [] => here .endInValue []
  | e :: expected, c :: rest =>
    if c = e then literal value expected rest else next .expectedIdent (c :: rest)

def depthLimit : Nat := 128

mutual
def value (room : Nat) (cs : List Char) : Nat → Reading Json
  | 0 => here .tooDeep cs
  | fuel + 1 =>
    match skipSpace cs with
    | [] => here .endInValue []
    | 'n' :: rest => literal .null "ull".toList rest
    | 't' :: rest => literal (.bool true) "rue".toList rest
    | 'f' :: rest => literal (.bool false) "alse".toList rest
    | '-' :: rest => number false rest
    | '"' :: rest => (string rest).map fun (s, rest) => (.str s, rest)
    | '[' :: rest =>
      if room ≤ 1 then next .tooDeep ('[' :: rest) else items (room - 1) [] rest fuel
    | '\x7b' :: rest =>
      if room ≤ 1 then next .tooDeep ('\x7b' :: rest) else members (room - 1) [] rest fuel
    | c :: rest => if isDigit c then number true (c :: rest) else next .expectedValue (c :: rest)
termination_by structural fuel => fuel

/-- The items after an opening bracket; those already read come in reverse. -/
def items (room : Nat) (taken : List Json) (cs : List Char) : Nat → Reading Json
  | 0 => here .tooDeep cs
  | fuel + 1 =>
    match skipSpace cs with
    | [] => here .endInList []
    | ']' :: rest => .ok (.arr taken.reverse, rest)
    | c :: rest =>
      if taken.isEmpty then item room taken (c :: rest) fuel
      else if c = ',' then
        match skipSpace rest with
        | [] => here .endInValue []
        | ']' :: rest => next .trailingComma (']' :: rest)
        | rest => item room taken rest fuel
      else next .expectedListCommaOrEnd (c :: rest)
termination_by structural fuel => fuel

def item (room : Nat) (taken : List Json) (cs : List Char) : Nat → Reading Json
  | 0 => here .tooDeep cs
  | fuel + 1 =>
    match value room cs fuel with
    | .error e => .error e
    | .ok (v, rest) => items room (v :: taken) rest fuel
termination_by structural fuel => fuel

def members (room : Nat) (taken : List (String × Json)) (cs : List Char) : Nat → Reading Json
  | 0 => here .tooDeep cs
  | fuel + 1 =>
    match skipSpace cs with
    | [] => here .endInObject []
    | '\x7d' :: rest => .ok (.obj taken, rest)
    | c :: rest =>
      if taken.isEmpty then
        if c = '"' then member room taken rest fuel else next .keyMustBeString (c :: rest)
      else if c = ',' then
        match skipSpace rest with
        | [] => here .endInValue []
        | '"' :: rest => member room taken rest fuel
        | '\x7d' :: rest => next .trailingComma ('\x7d' :: rest)
        | rest => next .keyMustBeString rest
      else next .expectedObjectCommaOrEnd (c :: rest)
termination_by structural fuel => fuel

def member (room : Nat) (taken : List (String × Json)) (cs : List Char) : Nat → Reading Json
  | 0 => here .tooDeep cs
  | fuel + 1 =>
    match string cs with
    | .error e => .error e
    | .ok (key, rest) =>
      match skipSpace rest with
      | [] => here .endInObject []
      | ':' :: rest =>
        match value room rest fuel with
        | .error e => .error e
        | .ok (v, rest) => members room (Entries.put key v taken) rest fuel
      | rest => next .expectedColon rest
termination_by structural fuel => fuel
end

/-- Lines count from one; the column counts the bytes of the line that were read. -/
def position (line column : Nat) : Nat → List Char → Nat × Nat
  | 0, _ => (line, column)
  | _, [] => (line, column)
  | bytes + 1, c :: rest =>
    if c = '\n' then position (line + 1) 0 bytes rest
    else if c.utf8Size ≤ bytes + 1 then position line (column + c.utf8Size) (bytes + 1 - c.utf8Size) rest
    else (line, column + bytes + 1)

structure Refusal where
  fault : Fault
  line : Nat
  column : Nat
  deriving DecidableEq, Repr

def Refusal.message (r : Refusal) : String :=
  r.fault.message ++ " at line " ++ toString r.line ++ " column " ++ toString r.column

def refusal (all : List Char) (stop : Stop) : Refusal :=
  let total := byteCount all
  let bytes := min total (total - byteCount stop.rest + stop.beyond)
  let (line, column) := position 1 0 bytes all
  ⟨stop.fault, line, column⟩

def parseChars (cs : List Char) : Except Refusal Json :=
  match value depthLimit cs (4 * cs.length + 4) with
  | .error stop => .error (refusal cs stop)
  | .ok (v, rest) =>
    match skipSpace rest with
    | [] => .ok v
    | rest => .error (refusal cs ⟨.trailingCharacters, rest, 1⟩)

def parse (text : String) : Except Refusal Json := parseChars text.toList

end Orchestration.Json.Document
