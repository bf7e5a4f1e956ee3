import Orchestration.Engine.Local

/-! The keys of a schedule's cron jobs: its id, a mark and a number. A key gives back
both, for the mark does not stand in the number. The text that the keys of an id begin
with also begins every key of an id that goes on after the mark. -/
namespace Orchestration.LocalEngine

def cronKey (id : String) (i : Nat) : String := keyStart id ++ toString i

def Shadows (id other : String) : Prop := (keyStart id).toList <+: other.toList

theorem keyStartChars (id : String) : (keyStart id).toList = id.toList ++ ['#'] := by
  rw [keyStart, String.toList_append]
  rfl

theorem cronKeyChars (id : String) (i : Nat) :
    (cronKey id i).toList = id.toList ++ '#' :: (toString i).toList := by
  rw [cronKey, String.toList_append, keyStartChars, List.append_assoc, List.singleton_append]

theorem numberUnmarked (i : Nat) : '#' ∉ (toString i).toList := by
  intro inside
  rw [Nat.toString_eq_repr, Nat.toList_repr] at inside
  have digit : Char.isDigit '#' := Nat.isDigit_of_mem_toDigits (by decide) (Nat.le_refl 10) inside
  exact absurd digit (by decide)

theorem numberInj {i j : Nat} (same : (toString i).toList = (toString j).toList) : i = j := by
  rw [Nat.toString_eq_repr, Nat.toString_eq_repr, Nat.toList_repr, Nat.toList_repr] at same
  rw [← Nat.ofDigitChars_ten_toDigits (n := i), same, Nat.ofDigitChars_ten_toDigits]

theorem cutAtMark {a b x y : List Char} (left : '#' ∉ x) (right : '#' ∉ y)
    (same : a ++ '#' :: x = b ++ '#' :: y) : a = b ∧ x = y := by
  rcases List.append_eq_append_iff.1 same with ⟨gap, rfl, rest⟩ | ⟨gap, rfl, rest⟩
  · cases gap with
    | nil => simpa using rest
    | cons c gap =>
      have : '#' ∈ x := by
        rw [(List.cons.inj rest).2]
        simp
      exact absurd this left
  · cases gap with
    | nil => simpa [eq_comm] using rest
    | cons c gap =>
      have : '#' ∈ y := by
        rw [(List.cons.inj rest).2]
        simp
      exact absurd this right

theorem cronKeyInj {a b : String} {i j : Nat} (same : cronKey a i = cronKey b j) : a = b ∧ i = j := by
  have chars := congrArg String.toList same
  rw [cronKeyChars, cronKeyChars] at chars
  obtain ⟨ids, numbers⟩ := cutAtMark (numberUnmarked i) (numberUnmarked j) chars
  exact ⟨String.toList_inj.1 ids, numberInj numbers⟩

theorem notShadowsSelf (id : String) : ¬ Shadows id id := by
  intro shadows
  have := shadows.length_le
  rw [keyStartChars, List.length_append, List.length_singleton] at this
  omega

theorem startsCronKey (a b : String) (i : Nat) :
    (keyStart a).toList.isPrefixOf (cronKey b i).toList ↔ a = b ∨ Shadows a b := by
  rw [List.isPrefixOf_iff_prefix, Shadows, keyStartChars, cronKeyChars]
  constructor
  · rintro ⟨rest, same⟩
    rw [List.append_assoc, List.singleton_append] at same
    rcases List.append_eq_append_iff.1 same with ⟨gap, whole, more⟩ | ⟨gap, whole, more⟩
    · cases gap with
      | nil => exact .inl (String.toList_inj.1 (by simpa using whole.symm))
      | cons c gap =>
        obtain ⟨rfl, -⟩ := List.cons.inj more
        exact .inr ⟨gap, by simp [whole]⟩
    · -- the mark of `a` would stand in the number
      cases gap with
      | nil => exact .inl (String.toList_inj.1 (by simpa using whole))
      | cons c gap =>
        have : '#' ∈ (toString i).toList := by
          rw [(List.cons.inj more).2]
          simp
        exact absurd this (numberUnmarked i)
  · rintro (rfl | ⟨rest, same⟩)
    · exact ⟨(toString i).toList, by simp⟩
    · exact ⟨rest ++ '#' :: (toString i).toList, by rw [← same]; simp⟩

end Orchestration.LocalEngine
