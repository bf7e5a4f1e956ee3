/-! UTF-8. A character is a first byte, which says what may follow, and up to three
bytes in the ranges it names. -/
namespace Orchestration.Text

structure ByteRange where
  low : UInt8
  high : UInt8
  deriving DecidableEq, Repr

def ByteRange.holds (r : ByteRange) (b : UInt8) : Bool := r.low ≤ b && b ≤ r.high

def continuation : ByteRange := ⟨0x80, 0xbf⟩

/-- The ranges of the bytes after a first byte; overlong forms, surrogates and what lies beyond
the last code point have none. -/
def following? (b : UInt8) : Option (List ByteRange) :=
  if b < 0x80 then some []
  else if b < 0xc2 then none
  else if b < 0xe0 then some [continuation]
  else if b = 0xe0 then some [⟨0xa0, 0xbf⟩, continuation]
  else if b = 0xed then some [⟨0x80, 0x9f⟩, continuation]
  else if b < 0xf0 then some [continuation, continuation]
  else if b = 0xf0 then some [⟨0x90, 0xbf⟩, continuation, continuation]
  else if b < 0xf4 then some [continuation, continuation, continuation]
  else if b = 0xf4 then some [⟨0x80, 0x8f⟩, continuation, continuation]
  else none

/-- Where a text stops being UTF-8, and how many bytes cannot be a character; at its end, a
character may only lack bytes. -/
structure Utf8Fault where
  index : Nat
  length : Option Nat
  deriving DecidableEq, Repr

def Utf8Fault.message (f : Utf8Fault) : String :=
  match f.length with
  | some n =>
    "invalid utf-8 sequence of " ++ toString n ++ " bytes from index " ++ toString f.index
  | none => "incomplete utf-8 byte sequence from index " ++ toString f.index

def utf8FaultFrom (start taken : Nat) : List ByteRange → List UInt8 → Option Utf8Fault
  | [], [] => none
  | _ :: _, [] => some ⟨start, none⟩
  | [], b :: rest =>
    match following? b with
    | none => some ⟨start + taken, some 1⟩
    | some ranges => utf8FaultFrom (start + taken) 1 ranges rest
  | range :: ranges, b :: rest =>
    if range.holds b then utf8FaultFrom start (taken + 1) ranges rest
    else some ⟨start, some taken⟩
termination_by structural _ bytes => bytes

def utf8Fault? (bytes : List UInt8) : Option Utf8Fault := utf8FaultFrom 0 0 [] bytes

def readUtf8 (bytes : ByteArray) : Except Utf8Fault String :=
  match String.fromUTF8? bytes with
  | some text => .ok text
  | none => .error ((utf8Fault? bytes.toList).getD ⟨0, none⟩)

end Orchestration.Text
