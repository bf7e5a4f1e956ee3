import Mathlib.Data.List.Infix
import Orchestration.Template.Marker

/-! Markers written around a path, and what is read back from them. Two braces in a row are
found wherever they stand; a text of one marker gives its expression; the names of a path
come back as they were joined, whatever blanks and dots stand before the first. -/
namespace Orchestration

namespace Text

theorem dropWhileAll {p : Char → Bool} {before rest : List Char} (all : ∀ c ∈ before, p c = true)
    (stops : ∀ c, rest.head? = some c → p c = false) : (before ++ rest).dropWhile p = rest := by
  rw [List.dropWhile_append_of_pos all]
  cases rest with
  | nil => rfl
  | cons c more => exact List.dropWhile_cons_of_neg (by simp [stops c rfl])

theorem trimPadded {left middle right : List Char} (blankLeft : ∀ c ∈ left, isBlank c = true)
    (blankRight : ∀ c ∈ right, isBlank c = true)
    (first : ∀ c, middle.head? = some c → isBlank c = false)
    (last : ∀ c, middle.getLast? = some c → isBlank c = false) :
    trimChars (left ++ (middle ++ right)) = middle := by
  cases middle with
  | nil =>
    have blank : ∀ c ∈ left ++ right, isBlank c = true := fun c inside =>
      (List.mem_append.1 inside).elim (blankLeft c) (blankRight c)
    have empty := @dropWhileAll isBlank (left ++ right) [] blank (by simp)
    rw [List.append_nil] at empty
    simp [trimChars, trimStart, trimEnd, empty]
  | cons c more =>
    have start : trimStart (left ++ (c :: more ++ right)) = c :: more ++ right :=
      dropWhileAll blankLeft fun d same => first d (by simpa using same)
    have reversed : ((c :: more) ++ right).reverse = right.reverse ++ (c :: more).reverse :=
      List.reverse_append
    have ending : (right.reverse ++ (c :: more).reverse).dropWhile isBlank = (c :: more).reverse :=
      dropWhileAll (fun d inside => blankRight d (List.mem_reverse.1 inside)) fun d same =>
        last d (by rwa [List.head?_reverse] at same)
    rw [trimChars, start, trimEnd, reversed, ending, List.reverse_reverse]

end Text

namespace Template

theorem hasPairCons (c a b : Char) (rest : List Char) :
    hasPair c (a :: b :: rest) = ((a == c && b == c) || hasPair c (b :: rest)) := by
  by_cases here : a = c ∧ b = c
  · simp [hasPair, cutPair, here]
  · have apart : (decide (a = c) && decide (b = c)) = false := by simpa using here
    have elsewhere : (a == c && b == c) = false := by simpa using here
    simp [hasPair, cutPair, apart, elsewhere]

theorem hasPairIff {c : Char} {cs : List Char} : hasPair c cs = true ↔ [c, c] <:+: cs := by
  induction cs with
  | nil => simp [hasPair, cutPair]
  | cons a rest ih =>
    cases rest with
    | nil =>
      refine iff_of_false (by simp [hasPair, cutPair]) fun inside => ?_
      simpa using inside.length_le
    | cons b rest =>
      rw [hasPairCons, List.infix_cons_iff, ← ih, List.cons_prefix_cons, List.cons_prefix_cons,
        @eq_comm _ c a, @eq_comm _ c b]
      simp

theorem hasPairApart {c d : Char} (different : d ≠ c) (before after : List Char) :
    hasPair c (before ++ d :: after) = (hasPair c before || hasPair c after) := by
  induction before with
  | nil =>
    cases after with
    | nil => simp [hasPair, cutPair]
    | cons b rest => simp [different, hasPair, cutPair]
  | cons a rest ih =>
    cases rest with
    | nil =>
      rw [List.nil_append] at ih
      simp only [List.cons_append, List.nil_append, hasPairCons, ih]
      simp [hasPair, cutPair, different]
    | cons b rest =>
      simp only [List.cons_append] at ih ⊢
      rw [hasPairCons, ih, hasPairCons, Bool.or_assoc]

theorem singleMarker {inner : List Char} (unopened : hasPair openBrace inner = false)
    (unclosed : hasPair closeBrace inner = false) :
    single? ([openBrace, openBrace] ++ inner ++ [closeBrace, closeBrace]) = some inner := by
  have bare : Text.trimChars ([openBrace, openBrace] ++ inner ++ [closeBrace, closeBrace]) =
      [openBrace, openBrace] ++ inner ++ [closeBrace, closeBrace] := by
    have first : ∀ c, ([openBrace, openBrace] ++ inner ++ [closeBrace, closeBrace]).head? = some c →
        Text.isBlank c = false := by
      rintro c ⟨⟩
      decide
    have last : ∀ c, ([openBrace, openBrace] ++ inner ++ [closeBrace, closeBrace]).getLast? = some c →
        Text.isBlank c = false := by
      intro c same
      rw [List.getLast?_append] at same
      cases same
      decide
    simpa using @Text.trimPadded [] _ [] (by simp) (by simp) first last
  rw [single?, bare]
  simp [unopened, unclosed]

theorem splitDotsLast {name : List Char} (undotted : '.' ∉ name) : splitDots name = [name] := by
  induction name with
  | nil => rfl
  | cons c rest ih =>
    obtain ⟨other, later⟩ := not_or.1 (fun inside => undotted (List.mem_cons.2 inside))
    simp [splitDots, Ne.symm other, ih later]

theorem splitDotsNext {name : List Char} (undotted : '.' ∉ name) (rest : List Char) :
    splitDots (name ++ '.' :: rest) = name :: splitDots rest := by
  induction name with
  | nil => simp [splitDots]
  | cons c more ih =>
    obtain ⟨other, later⟩ := not_or.1 (fun inside => undotted (List.mem_cons.2 inside))
    simp [splitDots, Ne.symm other, ih later]

structure Nameable (name : String) : Prop where
  filled : name.toList ≠ []
  undotted : '.' ∉ name.toList
  unopened : ¬ [openBrace, openBrace] <:+: name.toList
  unclosed : ¬ [closeBrace, closeBrace] <:+: name.toList
  quotes : ¬ ('\'' ∈ name.toList ∧ '"' ∈ name.toList)
  unescaped : name.toList.getLast? ≠ some '\\'

theorem Nameable.valid {name : String} (nameable : Nameable name) :
    validSegment name.toList = true := by
  have quotes := nameable.quotes
  simp only [validSegment, Bool.and_eq_true, Bool.not_eq_true',
    Bool.and_eq_false_iff, decide_eq_true_eq, List.isEmpty_eq_false_iff]
  refine ⟨⟨?_, nameable.filled⟩, nameable.unescaped⟩
  by_cases single : '\'' ∈ name.toList
  · exact .inr (by simpa using fun double => quotes ⟨single, double⟩)
  · exact .inl (by simpa using single)

theorem pathPadded {dots path : List Char} (onlyDots : ∀ c ∈ dots, c = '.')
    (first : ∀ c, path.head? = some c → Text.isBlank c = false ∧ c ≠ '.')
    (last : ∀ c, path.getLast? = some c → Text.isBlank c = false) :
    path? ([' '] ++ ((dots ++ path) ++ [' '])) =
      if (splitDots path).all validSegment then some ((splitDots path).map String.ofList)
      else none := by
  have head : ∀ c, (dots ++ path).head? = some c → Text.isBlank c = false := by
    intro c same
    cases dots with
    | nil => exact (first c same).1
    | cons d more =>
      cases same
      rw [onlyDots c List.mem_cons_self]
      decide
  have tail : ∀ c, (dots ++ path).getLast? = some c → Text.isBlank c = false := by
    intro c same
    rw [List.getLast?_append, Option.or_eq_some_iff] at same
    rcases same with own | ⟨-, dot⟩
    · exact last c own
    · rw [onlyDots c (List.mem_of_getLast? dot)]
      decide
  have trimmed : Text.trimChars ([' '] ++ ((dots ++ path) ++ [' '])) = dots ++ path :=
    Text.trimPadded (List.forall_mem_singleton.2 rfl) (List.forall_mem_singleton.2 rfl) head tail
  have undotted : (dots ++ path).dropWhile (· = '.') = path :=
    Text.dropWhileAll (fun c inside => decide_eq_true (onlyDots c inside)) fun c same =>
      decide_eq_false (first c same).2
  rw [path?, trimmed, undotted]
  cases path with
  | nil => rfl
  | cons c rest => rfl

end Template
end Orchestration
