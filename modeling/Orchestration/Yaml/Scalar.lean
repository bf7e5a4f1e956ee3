import Orchestration.Yaml.Cursor

/-! The texts of scalars. Inside plain and quoted scalars a single line break reads as
a blank and further ones stay breaks; blanks around them are dropped. A block scalar
keeps its lines, or folds them, below a common margin. -/
namespace Orchestration.Yaml

inductive Joint where
  | sameLine
  | escaped
  | broken (first : Char)
  deriving DecidableEq, Repr

/-- White space between two words of a scalar; lists hold the last character first. -/
structure Gap where
  blanks : List Char
  joint : Joint
  breaks : List Char
  deriving DecidableEq, Repr

namespace Gap

def none : Gap := ⟨[], .sameLine, []⟩

def escaped : Gap := ⟨[], .escaped, []⟩

def addBlank (g : Gap) (c : Char) : Gap :=
  if g.joint = .sameLine then { g with blanks := c :: g.blanks } else g

def addBreak (g : Gap) (c : Char) : Gap :=
  if g.joint = .sameLine then ⟨[], .broken (breakValue c), []⟩
  else { g with breaks := breakValue c :: g.breaks }

def isBroken (g : Gap) : Bool := g.joint ≠ .sameLine

def reversed (g : Gap) : List Char :=
  match g.joint with
  | .sameLine => g.blanks
  | .escaped => g.breaks
  | .broken first =>
    if first = '\n' then if g.breaks.isEmpty then [' '] else g.breaks
    else g.breaks ++ [first]

end Gap

theorem dropBreakShorter {c : Char} {rest : List Char} :
    ((c :: rest).drop (Cursor.breakLength (c :: rest))).length < (c :: rest).length := by
  have : 1 ≤ Cursor.breakLength (c :: rest) := by unfold Cursor.breakLength; split <;> omega
  simp only [List.length_drop, List.length_cons]
  omega

structure PlainText where
  text : String
  broken : Bool
  cursor : Cursor

def endsPlain (flow : Bool) (c : Char) (rest : List Char) : Bool :=
  (c = ':' && endsWord rest) || (flow && flowIndicators.contains c)

def endsAfterGap (flow : Bool) (margin : Nat) (mark : Mark) (cs : List Char) : Bool :=
  (!flow && mark.column < margin) || (mark.column = 0 && isDocumentMarker cs) || cs.head? = some '#'

/-- Reads on in a plain scalar. `flow` tells whether it stands inside brackets; words of later
lines begin at or after `margin`. -/
def plainFrom (flow : Bool) (margin : Nat) (mark : Mark) (taken : List Char) (gap : Gap)
    (cs : List Char) : Option PlainText :=
  let done : PlainText := ⟨String.ofList taken.reverse, gap.isBroken, ⟨mark, cs⟩⟩
  match cs with
  | [] => some done
  | c :: rest =>
    if isBlank c then
      if c = '\t' && gap.isBroken && mark.column < margin then none
      else plainFrom flow margin (mark.skip 1) taken (gap.addBlank c) rest
    else if isBreak c then
      let n := Cursor.breakLength (c :: rest)
      plainFrom flow margin (mark.newLine n) taken (gap.addBreak c) ((c :: rest).drop n)
    else if gap ≠ .none && endsAfterGap flow margin mark (c :: rest) then some done
    else if flow && c = ':' && (rest.head?.any fun d => d = '?' || flowIndicators.contains d) then
      none
    else if endsPlain flow c rest then some done
    else plainFrom flow margin (mark.skip 1) (c :: (gap.reversed ++ taken)) .none rest
termination_by cs.length
decreasing_by
  · simp
  · exact dropBreakShorter
  · simp

def escape? (letter : Char) (rest : List Char) : Option (Char × Nat) :=
  let coded (n : Nat) : Option (Char × Nat) :=
    ((hexNumber? n 0 rest).bind charOf?).map fun c => (c, n)
  match letter with
  | '0' => some ('\x00', 0)
  | 'a' => some ('\x07', 0)
  | 'b' => some ('\x08', 0)
  | 't' => some ('\t', 0)
  | '\t' => some ('\t', 0)
  | 'n' => some ('\n', 0)
  | 'v' => some ('\x0b', 0)
  | 'f' => some ('\x0c', 0)
  | 'r' => some ('\r', 0)
  | 'e' => some ('\x1b', 0)
  | ' ' => some (' ', 0)
  | '"' => some ('"', 0)
  | '/' => some ('/', 0)
  | '\\' => some ('\\', 0)
  | 'N' => some ('\u0085', 0)
  | '_' => some ('\u00a0', 0)
  | 'L' => some ('\u2028', 0)
  | 'P' => some ('\u2029', 0)
  | 'x' => coded 2
  | 'u' => coded 4
  | 'U' => coded 8
  | _ => none

def quotedFrom (double : Bool) (mark : Mark) (taken : List Char) (gap : Gap) (cs : List Char) :
    Option (String × Cursor) :=
  match cs with
  | [] => none
  | c :: rest =>
    if isBlank c then quotedFrom double (mark.skip 1) taken (gap.addBlank c) rest
    else if isBreak c then
      let n := Cursor.breakLength (c :: rest)
      quotedFrom double (mark.newLine n) taken (gap.addBreak c) ((c :: rest).drop n)
    else if mark.column = 0 && isDocumentMarker (c :: rest) then none
    else
      let taken := gap.reversed ++ taken
      let done := some (String.ofList taken.reverse, (⟨mark.skip 1, rest⟩ : Cursor))
      if double then
        if c = '"' then done
        else if c = '\\' then
          match rest with
          | [] => none
          | letter :: after =>
            if isBreak letter then
              let n := Cursor.breakLength (letter :: after)
              quotedFrom double ((mark.skip 1).newLine n) taken .escaped ((letter :: after).drop n)
            else match escape? letter after with
              | none => none
              | some (value, n) =>
                quotedFrom double (mark.skip (2 + n)) (value :: taken) .none (after.drop n)
        else quotedFrom double (mark.skip 1) (c :: taken) .none rest
      else if c = '\'' then
        match rest with
        | '\'' :: after => quotedFrom double (mark.skip 2) ('\'' :: taken) .none after
        | _ => done
      else quotedFrom double (mark.skip 1) (c :: taken) .none rest
termination_by cs.length
decreasing_by
  · simp
  · exact dropBreakShorter
  · have := @dropBreakShorter letter after; simp only [List.length_cons] at this ⊢; omega
  · simp only [List.length_drop, List.length_cons]; omega
  · simp
  · simp only [List.length_cons]; omega
  · simp

inductive Chomp where
  | strip
  | clip
  | keep
  deriving DecidableEq, Repr

def chompOf? : Char → Option Chomp
  | '+' => some .keep
  | '-' => some .strip
  | _ => none

def stepOf? (c : Char) : Option Nat :=
  if c.isDigit && c ≠ '0' then some (c.toNat - '0'.toNat) else none

def blockHeader? (c : Cursor) : Option (Chomp × Option Nat × Cursor) :=
  match c.rest with
  | a :: b :: _ =>
    match chompOf? a, stepOf? a, chompOf? b, stepOf? b with
    | some chomp, _, _, some step => some (chomp, some step, c.skip 2)
    | some chomp, _, _, none => if b = '0' then none else some (chomp, none, c.skip 1)
    | none, some step, some chomp, _ => some (chomp, some step, c.skip 2)
    | none, some step, none, _ => some (.clip, some step, c.skip 1)
    | none, none, _, _ => if a = '0' then none else some (.clip, none, c)
  | [a] =>
    match chompOf? a, stepOf? a with
    | some chomp, _ => some (chomp, none, c.skip 1)
    | none, some step => some (.clip, some step, c.skip 1)
    | none, none => if a = '0' then none else some (.clip, none, c)
  | [] => some (.clip, none, c)

structure EmptyLines where
  breaks : List Char
  widest : Nat
  cursor : Cursor

/-- Passes empty lines and the indentation of the line after them. Without a margin, which is
then 0, all blanks at the start of a line are indentation. -/
def emptyLines (margin : Nat) (mark : Mark) (widest : Nat) (breaks : List Char) (cs : List Char) :
    Option EmptyLines :=
  match cs with
  | [] => some ⟨breaks, widest, ⟨mark, []⟩⟩
  | c :: rest =>
    let indenting := margin = 0 || mark.column < margin
    if c = ' ' && indenting then
      emptyLines margin (mark.skip 1) (max widest (mark.column + 1)) breaks rest
    else if c = '\t' && indenting then none
    else if isBreak c then
      let n := Cursor.breakLength (c :: rest)
      emptyLines margin (mark.newLine n) widest (breakValue c :: breaks) ((c :: rest).drop n)
    else some ⟨breaks, widest, ⟨mark, c :: rest⟩⟩
termination_by cs.length
decreasing_by
  · simp
  · exact dropBreakShorter

/-- What was read of a block scalar; lists hold the last character first. -/
structure BlockText where
  taken : List Char
  ending : List Char
  empties : List Char
  blankStart : Bool
  cursor : Cursor

namespace BlockText

/-- Puts the breaks before the next line in place: folding turns a single one between two
lines that begin with no blank into a space. -/
def joined (literal : Bool) (b : BlockText) (startsBlank : Bool) : List Char :=
  if !literal && b.ending = ['\n'] && !b.blankStart && !startsBlank then
    if b.empties.isEmpty then ' ' :: b.taken else b.empties ++ b.taken
  else b.empties ++ b.ending ++ b.taken

def lines (literal : Bool) (margin : Nat) : Nat → BlockText → Option BlockText
  | 0, b => some b
  | fuel + 1, b =>
    match b.cursor.rest with
    | [] => some b
    | c :: _ =>
      if b.cursor.mark.column = margin then
        let (line, cursor) := b.cursor.takeWhile fun d => !isBreak d
        let taken := line.reverse ++ b.joined literal (isBlank c)
        let ending := (cursor.rest.head?.map breakValue).toList
        let cursor := cursor.skipBreak
        match emptyLines margin cursor.mark 0 [] cursor.rest with
        | none => none
        | some empties =>
          lines literal margin fuel ⟨taken, ending, empties.breaks, isBlank c, empties.cursor⟩
      else some b

def chomped (chomp : Chomp) (b : BlockText) : String :=
  String.ofList <| List.reverse <| match chomp with
    | .strip => b.taken
    | .clip => b.ending ++ b.taken
    | .keep => b.empties ++ b.ending ++ b.taken

end BlockText

/-- Reads a block scalar from its indicators on; `indent` is the margin of the block around it,
counted from 1, or 0. -/
def blockScalar? (literal : Bool) (indent : Nat) (c : Cursor) : Option (String × Cursor) :=
  match blockHeader? c with
  | none => none
  | some (chomp, step, c) =>
    match c.endLine? with
    | none => none
    | some c =>
      let known := match step with
        | some step => indent - 1 + step
        | none => 0
      match emptyLines known c.mark 0 [] c.rest with
      | none => none
      | some empties =>
        let margin := if known = 0 then max empties.widest (max indent 1) else known
        match BlockText.lines literal margin empties.cursor.rest.length
            ⟨[], [], empties.breaks, false, empties.cursor⟩ with
        | none => none
        | some b => some (b.chomped chomp, b.cursor)

end Orchestration.Yaml
