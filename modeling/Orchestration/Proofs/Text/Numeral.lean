import Mathlib.Data.Nat.Digits.Defs
import Orchestration.Text.Numeral

/-! Numerals that fit a width: an optional sign, then digits in base ten, as many leading zeros as one
likes. Reading stops at the first digit that does not fit, yet accepts no less than that. -/
namespace Orchestration.Text

def worth (digits : List Char) : Nat :=
  Nat.ofDigits 10 (digits.reverse.map fun c => c.toNat - '0'.toNat)

theorem worthCons (c : Char) (rest : List Char) :
    worth (c :: rest) = worth rest + 10 ^ rest.length * (c.toNat - '0'.toNat) := by
  simp only [worth, List.reverse_cons, List.map_append, List.map_cons, List.map_nil, Nat.ofDigits_append,
    Nat.ofDigits_singleton, List.length_map, List.length_reverse]

def worthAfter (n : Nat) (digits : List Char) : Nat := 10 ^ digits.length * n + worth digits

theorem worthAfterCons (n : Nat) (c : Char) (rest : List Char) :
    worthAfter n (c :: rest) = worthAfter (10 * n + (c.toNat - '0'.toNat)) rest := by
  rw [worthAfter, worthAfter, worthCons, List.length_cons, pow_succ]
  ring

theorem worthAfterLe (n : Nat) (digits : List Char) : n ≤ worthAfter n digits :=
  (Nat.le_mul_of_pos_left n (by positivity)).trans (Nat.le_add_right _ _)

theorem digitsBelowIff (limit : Nat) (digits : List Char) (v : Nat) : ∀ n < limit,
    (digitsBelow limit n digits = .ok v ↔
      (∀ c ∈ digits, c.isDigit = true) ∧ worthAfter n digits = v ∧ v < limit) := by
  -- A number only grows as digits come, so one that is too large on the way stays too large.
  induction digits with
  | nil =>
    intro n below
    have bare : worthAfter n [] = n := by simp [worthAfter, worth]
    rw [digitsBelow, bare, Except.ok.injEq]
    exact ⟨fun same => ⟨nofun, same, same ▸ below⟩, fun ends => ends.2.1⟩
  | cons c rest ih =>
    intro n below
    rw [digitsBelow, worthAfterCons, List.forall_mem_cons]
    by_cases digit : c.isDigit = true
    · rw [if_pos digit]
      dsimp only
      by_cases next : 10 * n + (c.toNat - '0'.toNat) < limit
      · rw [if_pos next, ih _ next, and_iff_right digit]
      · rw [if_neg next]
        refine iff_of_false nofun fun ⟨_, same, fits⟩ => next ?_
        exact (worthAfterLe _ rest).trans_lt (same ▸ fits)
    · rw [if_neg digit]
      exact iff_of_false nofun fun whole => digit whole.1.1

inductive Numeral (raw : String) : Nat → Prop where
  | of {sign digits} (trimmed : trimChars raw.toList = sign ++ digits) (signed : sign = [] ∨ sign = ['+'])
      (some : digits ≠ []) (all : ∀ c ∈ digits, c.isDigit = true) : Numeral raw (worth digits)

theorem digitsNumeral {limit : Nat} (positive : 0 < limit) (digits : List Char) (v : Nat) :
    digitsBelow limit 0 digits = .ok v ↔ (∀ c ∈ digits, c.isDigit = true) ∧ worth digits = v ∧ v < limit := by
  simpa only [worthAfter, mul_zero, zero_add] using digitsBelowIff limit digits v 0 positive

theorem numeralBelowIff {limit : Nat} (positive : 0 < limit) (raw : String) (v : Nat) :
    numeralBelow limit raw = .ok v ↔ Numeral raw v ∧ v < limit := by
  rw [numeralBelow]
  constructor
  · intro read
    split at read
    · cases read
    · cases read
    · rename_i digits more trimmed
      obtain ⟨all, rfl, fits⟩ := (digitsNumeral positive digits v).1 read
      exact ⟨@Numeral.of _ ['+'] digits trimmed (.inr rfl) more all, fits⟩
    · rename_i empty bare signed
      obtain ⟨all, rfl, fits⟩ := (digitsNumeral positive _ v).1 read
      exact ⟨@Numeral.of raw [] _ rfl (.inl rfl) empty all, fits⟩
  · intro whole
    obtain ⟨@⟨sign, digits, trimmed, signed, some, all⟩, fits⟩ := whole
    have read := (digitsNumeral positive digits (worth digits)).2 ⟨all, rfl, fits⟩
    rw [trimmed]
    cases digits with
    | nil => exact absurd rfl some
    | cons c rest =>
      obtain rfl | rfl := signed
      · have plain : c ≠ '+' := by
          intro plus
          subst plus
          exact absurd (all '+' List.mem_cons_self) (by decide)
        rw [List.nil_append]
        split
        · rename_i same
          cases same
        · rename_i same
          exact absurd (List.head_eq_of_cons_eq same) plain
        · rename_i same
          exact absurd (List.head_eq_of_cons_eq same) plain
        · exact read
      · exact read

example : numeralBelow (Nat.pow 2 16) " +0065535 " = .ok 65535 ∧
    numeralBelow (Nat.pow 2 16) "65536" = .error .tooLarge := ⟨rfl, rfl⟩

end Orchestration.Text
