/-! White space is the Unicode property of that name, so a no-break space is
blank and a zero-width space is not. Trimming and splitting work on the
characters of a text; the `String` forms below only wrap them. -/
namespace Orchestration.Text

def blankRanges : List (Nat × Nat) :=
  [(0x9, 0xd), (0x20, 0x20), (0x85, 0x85), (0xa0, 0xa0), (0x1680, 0x1680), (0x2000, 0x200a),
   (0x2028, 0x2029), (0x202f, 0x202f), (0x205f, 0x205f), (0x3000, 0x3000)]

def isBlank (c : Char) : Bool :=
  blankRanges.any fun (lo, hi) => lo ≤ c.toNat && c.toNat ≤ hi

def trimStart (cs : List Char) : List Char := cs.dropWhile isBlank

def trimEnd (cs : List Char) : List Char := (cs.reverse.dropWhile isBlank).reverse

def trimChars (cs : List Char) : List Char := trimEnd (trimStart cs)

def trim (s : String) : String := String.ofList (trimChars s.toList)

def isBlankText (s : String) : Bool := s.toList.all isBlank

def wordsOf (current : List Char) : List Char → List (List Char)
  | [] => if current.isEmpty then [] else [current.reverse]
  | c :: rest =>
    if isBlank c then
      if current.isEmpty then wordsOf [] rest else current.reverse :: wordsOf [] rest
    else wordsOf (c :: current) rest

def words (cs : List Char) : List (List Char) := wordsOf [] cs

def given (value : Option String) : Option String := value.filter fun s => !isBlankText s

end Orchestration.Text
