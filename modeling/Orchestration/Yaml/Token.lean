import Orchestration.Yaml.Scalar

/-! Tokens of a YAML text and the readers of those that are more than one sign: tags,
anchors, directives. -/
namespace Orchestration.Yaml

inductive Token where
  | versionDirective (major minor : Nat)
  | tagDirective (handle start : String)
  | documentStart
  | documentEnd
  | blockSequenceStart
  | blockMappingStart
  | blockEnd
  | sequenceStart
  | sequenceEnd
  | mappingStart
  | mappingEnd
  | separator
  | entry
  | key
  | value
  | alias (name : String)
  | anchor (name : String)
  | tag (handle suffix : String)
  | scalar (plain : Bool) (text : String)
  deriving DecidableEq, Repr

namespace Token

def octet? : List Char → Option (Nat × List Char)
  | '%' :: a :: b :: rest =>
    match hexValue? a, hexValue? b with
    | some high, some low => some (16 * high + low, rest)
    | _, _ => none
  | _ => none

def leadByte? (byte : Nat) : Option (Nat × Nat) :=
  if byte < 0x80 then some (0, byte)
  else if 0xc0 ≤ byte ∧ byte < 0xe0 then some (1, byte - 0xc0)
  else if 0xe0 ≤ byte ∧ byte < 0xf0 then some (2, byte - 0xe0)
  else if 0xf0 ≤ byte ∧ byte < 0xf8 then some (3, byte - 0xf0)
  else none

def trailBytes? : Nat → Nat → List Char → Option Nat
  | 0, code, _ => some code
  | n + 1, code, cs =>
    match octet? cs with
    | some (byte, rest) =>
      if 0x80 ≤ byte ∧ byte < 0xc0 then trailBytes? n (64 * code + (byte - 0x80)) rest else none
    | none => none

def escaped? (cs : List Char) : Option (Char × Nat) :=
  match octet? cs with
  | none => none
  | some (byte, rest) =>
    match leadByte? byte with
    | none => none
    | some (trail, code) =>
      (trailBytes? trail code rest).map fun code =>
        ((charOf? code).getD '\ufffd', 3 * (trail + 1))

def tagChars (verbatim : Bool) (cs : List Char) : Option (List Char × Nat) :=
  match cs with
  | [] => some ([], 0)
  | c :: rest =>
    if c = '%' then
      match escaped? (c :: rest) with
      | none => none
      | some (decoded, n) =>
        (tagChars verbatim (rest.drop (n - 1))).map fun (more, m) => (decoded :: more, n + m)
    else if isTagChar verbatim c then
      (tagChars verbatim rest).map fun (more, m) => (c :: more, 1 + m)
    else some ([], 0)
termination_by cs.length
decreasing_by
  · simp only [List.length_drop, List.length_cons]; omega
  · simp

def tagRest? (verbatim : Bool) (before : List Char) (c : Cursor) : Option (String × Cursor) :=
  match tagChars verbatim c.rest with
  | none => none
  | some (chars, n) =>
    if before.isEmpty && n = 0 then none
    else some (String.ofList (before.drop 1 ++ chars), c.skip n)

def handle? (c : Cursor) : Option (List Char × Cursor) :=
  match c.rest with
  | '!' :: _ =>
    let (name, c) := (c.skip 1).takeWhile isNameChar
    match c.rest with
    | '!' :: _ => some ('!' :: name ++ ['!'], c.skip 1)
    | _ => some ('!' :: name, c)
  | _ => none

def shorthand? (c : Cursor) : Option (Token × Cursor) :=
  match handle? c with
  | none => none
  | some (handle, c) =>
    if 1 < handle.length && handle.getLast? = some '!' then
      (tagRest? false [] c).map fun (suffix, c) => (.tag (String.ofList handle) suffix, c)
    else
      (tagRest? false handle c).map fun (suffix, c) =>
        (if suffix.isEmpty then Token.tag "" "!" else Token.tag "!" suffix, c)

def verbatim? (c : Cursor) : Option (Token × Cursor) :=
  match tagRest? true [] (c.skip 2) with
  | none => none
  | some (suffix, c) => match c.rest with
    | '>' :: _ => some (.tag "" suffix, c.skip 1)
    | _ => none

def tag? (flow : Bool) (c : Cursor) : Option (Token × Cursor) :=
  let read := match c.rest with
    | '!' :: '<' :: _ => verbatim? c
    | _ => shorthand? c
  match read with
  | none => none
  | some (token, c) =>
    if endsWord c.rest || (flow && c.rest.head? = some ',') then some (token, c) else none

def anchorName? (c : Cursor) : Option (String × Cursor) :=
  let (name, c) := (c.skip 1).takeWhile isNameChar
  let ends := match c.rest with
    | [] => true
    | d :: _ => isGap d || "?:,]%@`".toList.contains d || d = '\x7d'
  if name.isEmpty || !ends then none else some (String.ofList name, c)

def digits? (c : Cursor) : Option (Nat × Cursor) :=
  let (digits, c) := c.takeWhile Char.isDigit
  if digits.isEmpty || 9 < digits.length then none
  else some (digits.foldl (fun n d => 10 * n + (d.toNat - '0'.toNat)) 0, c)

def versionDirective? (c : Cursor) : Option (Token × Cursor) := do
  let (major, c) ← digits? (c.skipWhile isBlank)
  match c.rest with
  | '.' :: _ =>
    let (minor, c) ← digits? (c.skip 1)
    some (.versionDirective major minor, c)
  | _ => none

def tagDirective? (c : Cursor) : Option (Token × Cursor) := do
  let (handle, c) ← handle? (c.skipWhile isBlank)
  if handle ≠ ['!'] && handle.getLast? ≠ some '!' then none
  else
    match c.rest with
    | d :: _ =>
      if isBlank d then
        let (start, c) ← tagRest? true [] (c.skipWhile isBlank)
        if endsWord c.rest then some (.tagDirective (String.ofList handle) start, c) else none
      else none
    | [] => none

def directive? (c : Cursor) : Option (Token × Cursor) := do
  let (name, c) := (c.skip 1).takeWhile isNameChar
  if name.isEmpty || !endsWord c.rest then none
  else
    let (token, c) ←
      if name = "YAML".toList then versionDirective? c
      else if name = "TAG".toList then tagDirective? c
      else none
    let c ← c.endLine?
    some (token, c)

end Token
end Orchestration.Yaml
