import Orchestration.Proofs.Template.OnePass

/-! A text that is one marker and nothing else, blanks around it apart. The quick test for it
and the cut from left to right see the same texts, but for two kinds: the test refuses an
expression with another opening pair in it, which the cut takes as it is, and it closes a
marker at the last two closing braces, where the cut closes it at the first two. -/
namespace Orchestration

namespace Text

theorem trimInside (cs : List Char) : trimChars cs <:+: cs := by
  have start : trimStart cs <:+ cs := List.dropWhile_suffix isBlank
  have ending : trimEnd (trimStart cs) <+: trimStart cs := by
    have behind : (trimStart cs).reverse.dropWhile isBlank <:+ (trimStart cs).reverse :=
      List.dropWhile_suffix isBlank
    simpa [trimEnd] using List.reverse_prefix.2 behind
  exact ending.isInfix.trans start.isInfix

end Text

namespace Template

theorem pairClosed {c : Char} {cs : List Char} :
    [c, c] <:+: cs ++ [c] ↔ [c, c] <:+: cs ∨ cs.getLast? = some c := by
  rw [List.infix_concat_iff, or_comm, List.suffix_concat_iff, ← List.singleton_suffix_iff_getLast?_eq_some]
  refine or_congr Iff.rfl ⟨fun ending => ?_, fun ending => .inr ⟨[c], rfl, ending⟩⟩
  cases ending with
  | inl empty => cases empty
  | inr ending =>
    obtain ⟨front, same, ending⟩ := ending
    have first : [c] = front := (List.append_inj' same rfl).1
    rwa [first]

theorem wholeCut {cs expression : List Char} :
    Cut cs [.literal [], .marker expression, .literal []] ↔
      cs = (Piece.marker expression).written ∧
        ¬ ([closeBrace, closeBrace] <:+: expression ∨ expression.getLast? = some closeBrace) := by
  rw [← pairClosed]
  constructor
  · intro cut
    generalize pieces : [Piece.literal [], .marker expression, .literal []] = row at cut
    cases cut with
    | rest unclosed => cases pieces
    | marker leftmost nearest more =>
      cases pieces
      cases more with
      | rest unclosed => exact ⟨by simp, nearest⟩
  · intro whole
    obtain ⟨rfl, nearest⟩ := whole
    have empty : Cut [] [.literal []] := .rest fun before inside same _ => by simp at same
    have cut := @Cut.marker [] expression [] _ (by decide) nearest empty
    simpa using cut

theorem fillWhole (context : Json) {cs expression : List Char}
    (cut : Cut cs [.literal [], .marker expression, .literal []]) :
    fill context cs = (lookup context expression).map fun value => (textForm value).toList := by
  obtain ⟨whole, nearest⟩ := wholeCut.1 cut
  rw [← pairClosed] at nearest
  have filled := @fillMarker context [] expression [] (by decide) nearest
  have rest := @fillRest context [] fun before inside same _ => by simp at same
  rw [List.nil_append, List.append_nil, ← whole, rest] at filled
  rw [filled]
  cases lookup context expression with
  | error e => rfl
  | ok value => simp [Except.map]

theorem singleOfCut {cs expression : List Char}
    (cut : Cut (Text.trimChars cs) [.literal [], .marker expression, .literal []]) :
    single? cs = some expression ↔ ¬ [openBrace, openBrace] <:+: expression := by
  obtain ⟨whole, nearest⟩ := wholeCut.1 cut
  rw [not_or] at nearest
  rw [singleIff]
  exact ⟨fun one => one.2.1, fun unopened => ⟨whole, unopened, nearest.1⟩⟩

theorem cutOfSingle {cs expression : List Char} (one : single? cs = some expression)
    (ending : expression.getLast? ≠ some closeBrace) :
    Cut (Text.trimChars cs) [.literal [], .marker expression, .literal []] := by
  obtain ⟨whole, -, unclosed⟩ := singleIff.1 one
  exact wholeCut.2 ⟨whole, not_or.2 ⟨unclosed, ending⟩⟩

theorem renderWhole (context : Json) {text : String} {expression : List Char}
    (one : single? text.toList = some expression) :
    renderText context text = lookup context expression := by
  have opened : hasPair openBrace text.toList = true := by
    obtain ⟨trimmed, -, -⟩ := singleIff.1 one
    have front : [openBrace, openBrace] <:+: Text.trimChars text.toList := by
      rw [trimmed, Piece.written]
      exact ((List.prefix_append _ _).trans (List.prefix_append _ _)).isInfix
    exact hasPairIff.2 (front.trans (Text.trimInside _))
  unfold renderText
  rw [opened, one]
  rfl

/-- A text that the cut, blanks around it apart, finds to be one marker is taken for it unless an
opening pair stands in the expression; and what is taken for a marker whose expression does not end
in a closing brace, the cut finds to be that marker. Then the value that it names stands for the
text that the cut gives, or fails as the cut does. -/
theorem singleAgrees (text : String) :
    (∀ expression, Cut (Text.trimChars text.toList) [.literal [], .marker expression, .literal []] →
      (single? text.toList = some expression ↔ ¬ [openBrace, openBrace] <:+: expression)) ∧
    ∀ expression, single? text.toList = some expression → expression.getLast? ≠ some closeBrace →
      Cut (Text.trimChars text.toList) [.literal [], .marker expression, .literal []] ∧
        ∀ context, renderText context text = lookup context expression ∧
          fill context (Text.trimChars text.toList) =
            (renderText context text).map fun value => (textForm value).toList := by
  refine ⟨fun expression cut => singleOfCut cut, fun expression one ending => ?_⟩
  have cut := cutOfSingle one ending
  refine ⟨cut, fun context => ?_⟩
  have rendered := renderWhole context one
  exact ⟨rendered, by rw [rendered, fillWhole context cut]⟩

/-- Both differences: an opening pair within the expression, and a third closing brace. -/
theorem singleDisagrees :
    (Cut (Text.trimChars "\x7b\x7ba\x7b\x7bb\x7d\x7d".toList)
        [.literal [], .marker "a\x7b\x7bb".toList, .literal []] ∧
      single? "\x7b\x7ba\x7b\x7bb\x7d\x7d".toList = none) ∧
    Cut (Text.trimChars "\x7b\x7ba\x7d\x7d\x7d".toList)
        [.literal [], .marker ['a'], .literal ['\x7d']] ∧
      single? "\x7b\x7ba\x7d\x7d\x7d".toList = some "a\x7d".toList := by
  have opened : Cut (Text.trimChars "\x7b\x7ba\x7b\x7bb\x7d\x7d".toList)
      [.literal [], .marker "a\x7b\x7bb".toList, .literal []] :=
    wholeCut.2 ⟨by decide +kernel, by decide⟩
  have ending : Cut ['\x7d'] [.literal ['\x7d']] := .rest fun before inside same _ => by
    have lengths := congrArg List.length same
    simp at lengths
    omega
  have closed := @Cut.marker [] ['a'] ['\x7d'] _ (by decide) (by decide) ending
  exact ⟨⟨opened, by decide +kernel⟩, closed, by decide +kernel⟩

end Template
end Orchestration
