import Orchestration.Yaml.Character

/-! Where a scan stands: what is left of the text, and how far it has come. -/
namespace Orchestration.Yaml

structure Mark where
  index : Nat
  line : Nat
  column : Nat
  deriving DecidableEq, Repr

namespace Mark

def start : Mark := ⟨0, 0, 0⟩

def skip (m : Mark) (n : Nat) : Mark := ⟨m.index + n, m.line, m.column + n⟩

def newLine (m : Mark) (n : Nat) : Mark := ⟨m.index + n, m.line + 1, 0⟩

end Mark

structure Cursor where
  mark : Mark
  rest : List Char
  deriving DecidableEq, Repr

namespace Cursor

def skip (c : Cursor) (n : Nat) : Cursor := ⟨c.mark.skip n, c.rest.drop n⟩

def takeWhile (c : Cursor) (test : Char → Bool) : List Char × Cursor :=
  let taken := c.rest.takeWhile test
  (taken, c.skip taken.length)

def skipWhile (c : Cursor) (test : Char → Bool) : Cursor := (c.takeWhile test).2

def breakLength : List Char → Nat
  | '\r' :: '\n' :: _ => 2
  | _ => 1

def skipBreak (c : Cursor) : Cursor :=
  match c.rest with
  | [] => c
  | b :: _ =>
    if isBreak b then
      let n := breakLength c.rest
      ⟨c.mark.newLine n, c.rest.drop n⟩
    else c

def skipComment (c : Cursor) : Cursor :=
  match c.rest with
  | '#' :: _ => c.skipWhile fun d => !isBreak d
  | _ => c

def endLine? (c : Cursor) : Option Cursor :=
  let c := (c.skipWhile isBlank).skipComment
  match c.rest with
  | [] => some c
  | b :: _ => if isBreak b then some c.skipBreak else none

end Cursor
end Orchestration.Yaml
