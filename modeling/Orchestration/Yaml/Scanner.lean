import Orchestration.Yaml.Token

/-! From text to tokens. Indentation opens and closes blocks. What may turn out to be
a key is remembered with the number of its first token; when its colon comes, the
key token is put there. -/
namespace Orchestration.Yaml

structure PendingKey where
  required : Bool
  number : Nat
  mark : Mark
  deriving DecidableEq, Repr

structure Scanner where
  cursor : Cursor
  indent : Nat
  enclosing : List Nat
  keyAllowed : Bool
  pending : Option PendingKey
  outer : List (Option PendingKey)
  tokens : List Token
  count : Nat
  deriving Repr

namespace Scanner

def start (cs : List Char) : Scanner :=
  let cursor : Cursor := match cs with
    | c :: rest => if c = byteOrderMark then ⟨Mark.start.skip 1, rest⟩ else ⟨.start, cs⟩
    | [] => ⟨.start, []⟩
  ⟨cursor, 0, [], true, none, [], [], 0⟩

def inFlow (s : Scanner) : Bool := !s.outer.isEmpty

def column (s : Scanner) : Nat := s.cursor.mark.column

def push (s : Scanner) (token : Token) : Scanner :=
  { s with tokens := token :: s.tokens, count := s.count + 1 }

def insertAt (s : Scanner) (number : Nat) (token : Token) : Scanner :=
  let later := s.count - number
  { s with
    tokens := s.tokens.take later ++ token :: s.tokens.drop later
    count := s.count + 1 }

def skip (s : Scanner) (n : Nat) : Scanner := { s with cursor := s.cursor.skip n }

/-- Passes white space, comments and line breaks. A new line in a block allows a key; where a key
is allowed, tabs are no white space. -/
def filler (flow : Bool) (keyAllowed : Bool) (mark : Mark) (cs : List Char) : Bool × Cursor :=
  match cs with
  | [] => (keyAllowed, ⟨mark, []⟩)
  | c :: rest =>
    if c = ' ' || (c = '\t' && (flow || !keyAllowed)) then filler flow keyAllowed (mark.skip 1) rest
    else if c = '#' then
      let comment := rest.takeWhile fun d => !isBreak d
      filler flow keyAllowed (mark.skip (1 + comment.length)) (rest.drop comment.length)
    else if isBreak c then
      let n := Cursor.breakLength (c :: rest)
      filler flow (keyAllowed || !flow) (mark.newLine n) ((c :: rest).drop n)
    else (keyAllowed, ⟨mark, c :: rest⟩)
termination_by cs.length
decreasing_by
  · simp
  · simp only [List.length_drop, List.length_cons]; omega
  · exact dropBreakShorter

def toNextToken (s : Scanner) : Scanner :=
  let (keyAllowed, cursor) := filler s.inFlow s.keyAllowed s.cursor.mark s.cursor.rest
  { s with keyAllowed := keyAllowed, cursor := cursor }

def freshKey? (mark : Mark) : Option PendingKey → Option (Option PendingKey)
  | none => some none
  | some key =>
    if key.mark.line < mark.line || key.mark.index + 1024 < mark.index then
      if key.required then none else some none
    else some (some key)

def dropStale? (s : Scanner) : Option Scanner := do
  let pending ← freshKey? s.cursor.mark s.pending
  let outer ← s.outer.mapM (freshKey? s.cursor.mark)
  some { s with pending := pending, outer := outer }

def dropKey? (s : Scanner) : Option Scanner :=
  match s.pending with
  | some key => if key.required then none else some { s with pending := none }
  | none => some s

def saveKey? (s : Scanner) : Option Scanner :=
  if s.keyAllowed then
    s.dropKey?.map fun s =>
      { s with pending := some ⟨!s.inFlow && s.indent = s.column + 1, s.count, s.cursor.mark⟩ }
  else some s

def closeBlocks (margin : Nat) : List Nat → Scanner → Scanner
  | enclosing, s =>
    if s.indent ≤ margin then { s with enclosing := enclosing }
    else match enclosing with
      | [] => { s.push .blockEnd with indent := 0, enclosing := [] }
      | indent :: rest => closeBlocks margin rest { s.push .blockEnd with indent := indent }

def unroll (s : Scanner) (margin : Nat) : Scanner :=
  if s.inFlow then s else closeBlocks margin s.enclosing s

def roll (s : Scanner) (column : Nat) (place : Option Nat) (token : Token) : Scanner :=
  if s.inFlow || column + 1 ≤ s.indent then s
  else
    let s := { s with enclosing := s.indent :: s.enclosing, indent := column + 1 }
    match place with
    | some number => s.insertAt number token
    | none => s.push token

def boundary? (s : Scanner) : Option Scanner :=
  (s.unroll 0).dropKey?.map fun s => { s with keyAllowed := false }

def finish? (s : Scanner) : Option (List Token) := s.boundary?.map (·.tokens.reverse)

def directive? (s : Scanner) : Option Scanner := do
  let s ← s.boundary?
  let (token, cursor) ← Token.directive? s.cursor
  some ({ s with cursor := cursor }.push token)

def documentMarker? (s : Scanner) (token : Token) : Option Scanner :=
  s.boundary?.map fun s => (s.skip 3).push token

def openFlow? (s : Scanner) (token : Token) : Option Scanner :=
  s.saveKey?.map fun s =>
    ({ s with outer := s.pending :: s.outer, pending := none, keyAllowed := true }.skip 1).push token

def closeFlow? (s : Scanner) (token : Token) : Option Scanner :=
  s.dropKey?.map fun s =>
    let s := match s.outer with
      | key :: outer => { s with pending := key, outer := outer }
      | [] => s
    ({ s with keyAllowed := false }.skip 1).push token

def separator? (s : Scanner) : Option Scanner :=
  s.dropKey?.map fun s => ({ s with keyAllowed := true }.skip 1).push .separator

def entry? (s : Scanner) : Option Scanner :=
  if !s.inFlow && !s.keyAllowed then none
  else (s.roll s.column none .blockSequenceStart).dropKey?.map fun s =>
    ({ s with keyAllowed := true }.skip 1).push .entry

def key? (s : Scanner) : Option Scanner :=
  if !s.inFlow && !s.keyAllowed then none
  else (s.roll s.column none .blockMappingStart).dropKey?.map fun s =>
    ({ s with keyAllowed := !s.inFlow }.skip 1).push .key

def value? (s : Scanner) : Option Scanner :=
  match s.pending with
  | some key =>
    let s := (s.insertAt key.number .key).roll key.mark.column (some key.number) .blockMappingStart
    some (({ s with pending := none, keyAllowed := false }.skip 1).push .value)
  | none =>
    if !s.inFlow && !s.keyAllowed then none
    else
      let s := s.roll s.column none .blockMappingStart
      some (({ s with keyAllowed := !s.inFlow }.skip 1).push .value)

def content? (s : Scanner) (read : Cursor → Option (Token × Cursor)) : Option Scanner := do
  let s ← s.saveKey?
  let (token, cursor) ← read s.cursor
  some ({ s with keyAllowed := false, cursor := cursor }.push token)

def blockScalar? (s : Scanner) (literal : Bool) : Option Scanner := do
  let s ← s.dropKey?
  let (text, cursor) ← Yaml.blockScalar? literal s.indent (s.cursor.skip 1)
  some ({ s with keyAllowed := true, cursor := cursor }.push (.scalar false text))

def quotedScalar? (s : Scanner) (double : Bool) : Option Scanner :=
  s.content? fun c =>
    let c := c.skip 1
    (quotedFrom double c.mark [] .none c.rest).map fun (text, c) => (.scalar false text, c)

def plainScalar? (s : Scanner) : Option Scanner := do
  let s ← s.saveKey?
  let plain ← plainFrom s.inFlow s.indent s.cursor.mark [] .none s.cursor.rest
  some ({ s with keyAllowed := plain.broken, cursor := plain.cursor }.push (.scalar true plain.text))

def startsPlain (flow : Bool) (c : Char) (rest : List Char) : Bool :=
  !(isGap c || indicators.contains c) || (c = '-' && !(rest.head?.any isBlank)) ||
    (!flow && (c = '?' || c = ':') && !endsWord rest)

def token? (s : Scanner) (c : Char) (rest : List Char) : Option Scanner :=
  let flow := s.inFlow
  if s.column = 0 && c = '%' then s.directive?
  else if s.column = 0 && isMarker '-' (c :: rest) then s.documentMarker? .documentStart
  else if s.column = 0 && isMarker '.' (c :: rest) then s.documentMarker? .documentEnd
  else if c = '[' then s.openFlow? .sequenceStart
  else if c = '\x7b' then s.openFlow? .mappingStart
  else if c = ']' then s.closeFlow? .sequenceEnd
  else if c = '\x7d' then s.closeFlow? .mappingEnd
  else if c = ',' then s.separator?
  else if c = '-' && endsWord rest then s.entry?
  else if c = '?' && (flow || endsWord rest) then s.key?
  else if c = ':' && (flow || endsWord rest) then s.value?
  else if c = '*' then
    s.content? fun c => (Token.anchorName? c).map fun (name, c) => (.alias name, c)
  else if c = '&' then
    s.content? fun c => (Token.anchorName? c).map fun (name, c) => (.anchor name, c)
  else if c = '!' then s.content? (Token.tag? flow)
  else if c = '|' && !flow then s.blockScalar? true
  else if c = '>' && !flow then s.blockScalar? false
  else if c = '\'' then s.quotedScalar? false
  else if c = '"' then s.quotedScalar? true
  else if startsPlain flow c rest then s.plainScalar?
  else none

/-- Scans to the end; every step takes at least one character. -/
def run : Nat → Scanner → Option (List Token)
  | 0, _ => none
  | fuel + 1, s =>
    match (toNextToken s).dropStale? with
    | none => none
    | some s =>
      let s := s.unroll (s.column + 1)
      match s.cursor.rest with
      | [] => s.finish?
      | c :: rest =>
        match s.token? c rest with
        | none => none
        | some s => run fuel s

end Scanner

def Token.ofChars? (cs : List Char) : Option (List Token) :=
  Scanner.run (cs.length + 1) (.start cs)

end Orchestration.Yaml
