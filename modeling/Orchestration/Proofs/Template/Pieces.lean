import Mathlib.Data.List.Infix
import Orchestration.Proofs.Template.Marker

/-! A text with markers in it as a row of pieces, cut from left to right: each marker opens at
the leftmost two opening braces and closes at the next two closing ones, and what an opening
pair leaves unclosed is literal. There is one such cut of every text. -/
namespace Orchestration.Template

inductive Piece where
  | literal (cs : List Char)
  | marker (expression : List Char)
  deriving DecidableEq, Repr

def Piece.written : Piece → List Char
  | literal cs => cs
  | marker expression => [openBrace, openBrace] ++ expression ++ [closeBrace, closeBrace]

inductive Cut : List Char → List Piece → Prop where
  | rest {cs} (unclosed : ∀ before inside, cs = before ++ openBrace :: openBrace :: inside →
      ¬ [closeBrace, closeBrace] <:+: inside) : Cut cs [.literal cs]
  | marker {before expression after pieces}
      (leftmost : ¬ [openBrace, openBrace] <:+: before ++ [openBrace])
      (nearest : ¬ [closeBrace, closeBrace] <:+: expression ++ [closeBrace])
      (more : Cut after pieces) :
      Cut (before ++ (Piece.marker expression).written ++ after)
        (.literal before :: .marker expression :: pieces)

theorem cutPairFirst {c : Char} {cs before after : List Char}
    (found : cutPair c cs = some (before, after)) : ¬ [c, c] <:+: before ++ [c] := by
  induction cs generalizing before with
  | nil => simp [cutPair] at found
  | cons a rest ih =>
    cases rest with
    | nil => simp [cutPair] at found
    | cons b rest =>
      simp only [cutPair] at found
      split at found
      · cases found
        intro inside
        have short := inside.length_le
        simp at short
      · rename_i other
        obtain ⟨⟨x, y⟩, later, same⟩ := Option.map_eq_some_iff.1 found
        cases same
        have tail := ih later
        rw [List.cons_append, List.infix_cons_iff, not_or]
        constructor
        · intro first
          obtain ⟨ha, next⟩ := List.cons_prefix_cons.1 first
          have joined := cutPairJoin later
          -- the character after `a` is `b`, whether or not the part before the pair ends here
          have hb : c = b := by
            cases x with
            | nil =>
              simp only [List.nil_append, List.cons.injEq] at joined
              exact joined.1.symm
            | cons d more =>
              simp only [List.cons_append, List.cons.injEq] at joined
              have hd := (List.cons_prefix_cons.1 next).1
              exact hd.trans joined.1.symm
          exact other (by simp [← ha, ← hb])
        · exact tail

theorem cutPairAt {c : Char} {before : List Char} (first : ¬ [c, c] <:+: before ++ [c])
    (after : List Char) : cutPair c (before ++ c :: c :: after) = some (before, after) := by
  induction before with
  | nil => simp [cutPair]
  | cons a rest ih =>
    rw [List.cons_append, List.infix_cons_iff, not_or] at first
    obtain ⟨here, later⟩ := first
    have found := ih later
    cases rest with
    | nil =>
      have other : a ≠ c := by
        rintro rfl
        exact here (List.prefix_refl _)
      simp only [List.cons_append, List.nil_append] at found ⊢
      rw [cutPair, if_neg (by simp [other]), found]
      rfl
    | cons b more =>
      have other : ¬ (a = c ∧ b = c) := by
        rintro ⟨rfl, rfl⟩
        exact here (by simp)
      simp only [List.cons_append] at found ⊢
      rw [cutPair, if_neg (by simpa using other), found]
      rfl

theorem cutPairNone {c : Char} {cs : List Char} : cutPair c cs = none ↔ ¬ [c, c] <:+: cs := by
  rw [← hasPairIff, hasPair, Bool.not_eq_true, Option.isSome_eq_false_iff, Option.isNone_iff_eq_none]

theorem cutPairSuffix {c : Char} {cs before inside : List Char}
    (found : cutPair c cs = some (before, inside)) {other behind : List Char}
    (text : cs = other ++ c :: c :: behind) : behind <:+ inside := by
  have leftmost := cutPairFirst found
  have joined := cutPairJoin found
  have length : before.length ≤ other.length := by
    apply Nat.le_of_not_lt
    intro earlier
    have whole : other ++ [c, c] <+: cs := ⟨behind, by simp [text]⟩
    have front : before ++ [c] <+: cs := ⟨c :: inside, by simp [joined]⟩
    have within := List.prefix_of_prefix_length_le whole front (by simp; omega)
    exact leftmost ((List.infix_append' other [c, c] []).trans (by simpa using within.isInfix))
  have lengths := congrArg List.length (joined.symm.trans text)
  have back : behind <:+ cs := ⟨other ++ [c, c], by simp [text]⟩
  have front : inside <:+ cs := ⟨before ++ [c, c], by simp [joined]⟩
  apply List.suffix_of_suffix_length_le back front
  simp at lengths
  omega

theorem markerWritten (before expression after : List Char) :
    before ++ (Piece.marker expression).written ++ after =
      before ++ openBrace :: openBrace :: (expression ++ closeBrace :: closeBrace :: after) := by
  simp [Piece.written]

theorem cutExists (cs : List Char) : ∃ pieces, Cut cs pieces := by
  induction length : cs.length using Nat.strongRecOn generalizing cs with
  | ind n ih =>
    subst length
    cases opened : cutPair openBrace cs with
    | none =>
      refine ⟨_, .rest fun before inside same _ => ?_⟩
      have absent := cutPairNone.1 opened
      exact absent ⟨before, inside, by simp [same]⟩
    | some cut =>
      obtain ⟨before, inside⟩ := cut
      have text := cutPairJoin opened
      cases closed : cutPair closeBrace inside with
      | none =>
        refine ⟨_, .rest fun before' inside' same marked => ?_⟩
        -- a later opening pair has no more behind it than the leftmost one
        have behind := cutPairSuffix opened same
        exact cutPairNone.1 closed (marked.trans behind.isInfix)
      | some cut =>
        obtain ⟨expression, after⟩ := cut
        have rest := cutPairJoin closed
        have shorter : after.length < cs.length := by
          rw [text, rest]
          simp
          omega
        obtain ⟨pieces, more⟩ := ih after.length shorter after rfl
        rw [text, rest, ← markerWritten]
        exact ⟨_, .marker (cutPairFirst opened) (cutPairFirst closed) more⟩

theorem Cut.written {cs : List Char} {pieces : List Piece} (cut : Cut cs pieces) :
    pieces.flatMap Piece.written = cs := by
  induction cut with
  | rest unclosed => simp [Piece.written]
  | marker leftmost nearest more ih =>
    rw [List.flatMap_cons, List.flatMap_cons, ih, List.append_assoc]
    rfl

def Lone (cs : List Char) : Prop :=
  ∃ inner, Text.trimChars cs = (Piece.marker inner).written ∧
    ¬ [openBrace, openBrace] <:+: inner ∧ ¬ [closeBrace, closeBrace] <:+: inner

theorem singleIff {cs expression : List Char} : single? cs = some expression ↔
    Text.trimChars cs = (Piece.marker expression).written ∧
      ¬ [openBrace, openBrace] <:+: expression ∧ ¬ [closeBrace, closeBrace] <:+: expression := by
  constructor
  · intro one
    unfold single? at one
    split at one
    · rename_i a b rest trimmed
      split at one
      · rename_i opened
        split at one
        · rename_i y z inner behind
          split at one
          · rename_i closed
            cases one
            simp only [Bool.and_eq_true, decide_eq_true_eq, Bool.not_eq_true'] at opened closed
            obtain ⟨rfl, rfl⟩ := opened
            obtain ⟨⟨⟨rfl, rfl⟩, unopened⟩, unclosed⟩ := closed
            have written : rest = inner.reverse ++ [closeBrace, closeBrace] := by
              rw [← List.reverse_reverse rest, behind]
              simp
            refine ⟨by rw [trimmed, written]; rfl, ?_, ?_⟩
            · rw [← hasPairIff, unopened]
              decide
            · rw [← hasPairIff, unclosed]
              decide
          · cases one
        · cases one
      · cases one
    · cases one
  · intro one
    obtain ⟨trimmed, unopened, unclosed⟩ := one
    rw [← hasPairIff, Bool.not_eq_true] at unopened unclosed
    rw [single?, trimmed]
    simp [Piece.written, unopened, unclosed]

theorem loneIff {cs : List Char} : Lone cs ↔ (single? cs).isSome = true := by
  simp only [Lone, Option.isSome_iff_exists, singleIff]

end Orchestration.Template
