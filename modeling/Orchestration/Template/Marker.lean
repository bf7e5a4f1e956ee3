import Orchestration.Text.Blank

/-! Markers in a text: two opening braces, an expression, two closing braces. An
expression is a dotted path into the run context. -/
namespace Orchestration.Template

def openBrace : Char := '\x7b'
def closeBrace : Char := '\x7d'

def cutPair (c : Char) : List Char → Option (List Char × List Char)
  | a :: b :: rest =>
    if a = c && b = c then some ([], rest)
    else (cutPair c (b :: rest)).map fun (before, after) => (a :: before, after)
  | _ => none

theorem cutPairJoin {c : Char} {cs before after : List Char}
    (h : cutPair c cs = some (before, after)) : cs = before ++ c :: c :: after := by
  induction cs generalizing before with
  | nil => simp [cutPair] at h
  | cons a rest ih =>
    cases rest with
    | nil => simp [cutPair] at h
    | cons b rest =>
      simp only [cutPair] at h
      split at h
      · rename_i same
        simp only [Bool.and_eq_true, decide_eq_true_eq] at same
        simp only [Option.some.injEq, Prod.mk.injEq] at h
        simp [← h.1, h.2, same]
      · simp only [Option.map_eq_some_iff, Prod.mk.injEq] at h
        obtain ⟨⟨x, y⟩, found, hx, hy⟩ := h
        simp only at hx hy
        subst hx hy
        simp [ih found]

def hasPair (c : Char) (cs : List Char) : Bool := (cutPair c cs).isSome

def single? (cs : List Char) : Option (List Char) :=
  match Text.trimChars cs with
  | a :: b :: rest =>
    if a = openBrace && b = openBrace then
      match rest.reverse with
      | y :: z :: inner =>
        if y = closeBrace && z = closeBrace && !hasPair openBrace inner.reverse
            && !hasPair closeBrace inner.reverse then
          some inner.reverse
        else none
      | _ => none
    else none
  | _ => none

def splitDots : List Char → List (List Char)
  | [] => [[]]
  | c :: rest =>
    if c = '.' then [] :: splitDots rest
    else match splitDots rest with
      | [] => [[c]]
      | part :: parts => (c :: part) :: parts

def validSegment (segment : List Char) : Bool :=
  !(segment.contains '\'' && segment.contains '"') && !segment.isEmpty &&
    segment.getLast? ≠ some '\\'

def path? (expression : List Char) : Option (List String) :=
  match (Text.trimChars expression).dropWhile (· = '.') with
  | [] => none
  | path =>
    let segments := splitDots path
    if segments.all validSegment then some (segments.map String.ofList) else none

end Orchestration.Template
