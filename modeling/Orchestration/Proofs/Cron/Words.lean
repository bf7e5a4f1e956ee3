import Orchestration.Cron.Service
import Orchestration.Proofs.Cron.Reading

/-! What becomes of an expression. Seconds are put before it, or not, by the number of its words, but
it is read by its fields, and these need no blanks between them and may have blanks in them. The
two agree where five fields are written as five words and no others are. -/
namespace Orchestration.CronExpression
open Cron

theorem trimmedHead {cs : List Char} {c : Char} (head : (Text.trimChars cs).head? = some c) :
    Text.isBlank c = false := by
  have start : (Text.trimStart cs).head? = some c := by
    have kept : Text.trimChars cs <+: Text.trimStart cs := by
      have suffix := List.dropWhile_suffix Text.isBlank (l := (Text.trimStart cs).reverse)
      rw [← List.reverse_prefix, List.reverse_reverse] at suffix
      exact suffix
    obtain ⟨cut, whole⟩ := kept
    rw [← whole, List.head?_append, head]
    rfl
  have stops := List.head?_dropWhile_not Text.isBlank cs
  rw [Text.trimStart] at start
  rw [start] at stops
  simpa using stops

theorem gapBlank {c : Char} (gap : isGap c = true) : Text.isBlank c = true := by
  simp only [isGap, Bool.or_eq_true, decide_eq_true_eq] at gap
  obtain ((rfl | rfl) | rfl) | rfl := gap <;> decide

theorem trimmedSettled (cron : String) :
    skipGaps (Text.trim cron).toList = (Text.trim cron).toList := by
  rw [Text.trim, String.toList_ofList]
  cases trimmed : Text.trimChars cron.toList with
  | nil => rfl
  | cons c cs =>
    have blank : Text.isBlank c = false := trimmedHead (by rw [trimmed]; rfl)
    refine skipGapsCons ?_ cs
    by_contra gap
    rw [gapBlank (by simpa using gap)] at blank
    cases blank

/-- What a text of so many words is read as. -/
inductive Worded (text : List Char) : Nat → List Field → List Selection → Prop where
  | five {ss} (reads : Reads fiveFields text ss) : Worded text 5 fiveFields ss
  | dated {ss} (reads : Reads datedFields text ss) : Worded text 5 datedFields ss
  | glued {fields ss} (marked : Marked text) (full : fields = sixFields ∨ fields = sevenFields)
      (reads : Reads fields ('0' :: text) ss) : Worded text 5 fields ss
  | full {words fields ss} (counted : words = 6 ∨ words = 7)
      (full : fields = sixFields ∨ fields = sevenFields) (reads : Reads fields text ss) :
      Worded text words fields ss

theorem Worded.form {text : List Char} {words : Nat} {fields : List Field} {ss : List Selection}
    (worded : Worded text words fields ss) :
    fields ∈ forms ∧ List.Forall₂ Within fields ss := by
  cases worded with
  | five reads => exact ⟨by decide, fieldsWithin reads⟩
  | dated reads => exact ⟨by decide, fieldsWithin reads⟩
  | glued marked full reads =>
    obtain rfl | rfl := full
    · exact ⟨by decide, fieldsWithin reads⟩
    · exact ⟨by decide, fieldsWithin reads⟩
  | full counted full reads =>
    obtain rfl | rfl := full
    · exact ⟨by decide, fieldsWithin reads⟩
    · exact ⟨by decide, fieldsWithin reads⟩

theorem Worded.count {text : List Char} {words : Nat} {fields : List Field} {ss : List Selection}
    (worded : Worded text words fields ss) : words = 5 ∨ words = 6 ∨ words = 7 := by
  cases worded with
  | five => exact .inl rfl
  | dated => exact .inl rfl
  | glued => exact .inl rfl
  | full counted => exact .inr counted

theorem zeroWorded {text : List Char} {e : CronExpression} (settled : skipGaps text = text) :
    ofChars ('0' :: ' ' :: text) = some e ↔ ∃ fields ss, Worded text 5 fields ss ∧ Means fields ss e := by
  by_cases marked : Marked text
  · rw [ofCharsGlued marked, ofCharsFull]
    constructor
    · intro read
      obtain ⟨fields, ss, full, reads, means⟩ := read
      exact ⟨fields, ss, .glued marked full reads, means⟩
    · intro read
      obtain ⟨fields, ss, worded, means⟩ := read
      cases worded with
      | five reads => exact absurd marked reads.unmarked
      | dated reads => exact absurd marked reads.unmarked
      | glued marked full reads => exact ⟨fields, ss, full, reads, means⟩
      | full counted => omega
  · rw [ofCharsZero settled marked]
    constructor
    · intro read
      obtain ⟨fields, ss, rfl | rfl, reads, means⟩ := read
      · exact ⟨_, ss, .five reads, means⟩
      · exact ⟨_, ss, .dated reads, means⟩
    · intro read
      obtain ⟨fields, ss, worded, means⟩ := read
      cases worded with
      | five reads => exact ⟨_, ss, .inl rfl, reads, means⟩
      | dated reads => exact ⟨_, ss, .inr rfl, reads, means⟩
      | glued glued => exact absurd glued marked
      | full counted => omega

theorem fullWorded {text : List Char} {words : Nat} {e : CronExpression}
    (counted : words = 6 ∨ words = 7) :
    ofChars text = some e ↔ ∃ fields ss, Worded text words fields ss ∧ Means fields ss e := by
  rw [ofCharsFull]
  constructor
  · intro read
    obtain ⟨fields, ss, full, reads, means⟩ := read
    exact ⟨fields, ss, .full counted full reads, means⟩
  · intro read
    obtain ⟨fields, ss, worded, means⟩ := read
    cases worded with
    | full counted full reads => exact ⟨fields, ss, full, reads, means⟩
    | five => omega
    | dated => omega
    | glued => omega

theorem readNormalized {cron text : String} {e : CronExpression} (normal : normalized cron = .ok text) :
    read cron = .ok e ↔ ofChars text.toList = some e := by
  simp only [read, normal]
  cases ofChars text.toList <;> simp

theorem readWorded {cron : String} {e : CronExpression} : read cron = .ok e ↔
    ∃ fields ss, Worded (Text.trim cron).toList (Text.words (Text.trim cron).toList).length fields ss ∧
      Means fields ss e := by
  generalize counted : (Text.words (Text.trim cron).toList).length = words
  by_cases accepted : words = 5 ∨ words = 6 ∨ words = 7
  · obtain rfl | full := accepted
    · have normal : normalized cron = .ok ("0 " ++ Text.trim cron) := by
        simp only [normalized, counted]
      have zero : ("0 " ++ Text.trim cron).toList = '0' :: ' ' :: (Text.trim cron).toList := by
        rw [String.toList_append]
        rfl
      rw [readNormalized normal, zero, zeroWorded (trimmedSettled cron)]
    · have normal : normalized cron = .ok (Text.trim cron) := by
        obtain rfl | rfl := full <;> simp only [normalized, counted]
      rw [readNormalized normal, fullWorded full]
  · have normal : normalized cron = .error (.cronWordCount cron) := by
      simp only [normalized]
      split
      · exact absurd (by omega) accepted
      · exact absurd (by omega) accepted
      · exact absurd (by omega) accepted
      · rfl
    simp only [read, normal]
    refine iff_of_false nofun fun worded => ?_
    obtain ⟨fields, ss, worded, -⟩ := worded
    exact accepted worded.count

/-! Five fields are told from six and seven by the text, not by its words. -/

variable {text : List Char} {words : Nat} {ss : List Selection}

theorem wordedFive (reads : Reads fiveFields text ss) :
    (∃ fields ss, Worded text words fields ss) ↔ words = 5 := by
  constructor
  · intro worded
    obtain ⟨fields, ts, worded⟩ := worded
    cases worded with
    | five => rfl
    | dated => rfl
    | glued => rfl
    | full counted full others =>
      have same := reads.sameLength others
      obtain rfl | rfl := full <;> cases same
  · intro five
    subst five
    exact ⟨fiveFields, ss, .five reads⟩

theorem wordedFull {fields : List Field} (full : fields = sixFields ∨ fields = sevenFields)
    (reads : Reads fields text ss) : (∃ fields ss, Worded text words fields ss) ↔
      words = 6 ∨ words = 7 ∨ words = 5 ∧ ∃ ss, Reads datedFields text ss := by
  constructor
  · intro worded
    obtain ⟨_, ts, worded⟩ := worded
    cases worded with
    | five others =>
      have same := reads.sameLength others
      obtain rfl | rfl := full <;> cases same
    | dated others => exact .inr (.inr ⟨rfl, ts, others⟩)
    | glued marked => exact absurd marked reads.unmarked
    | full counted => exact counted.imp_right .inl
  · intro accepted
    obtain six | seven | ⟨rfl, ts, others⟩ := accepted
    · exact ⟨fields, ss, .full (.inl six) full reads⟩
    · exact ⟨fields, ss, .full (.inr seven) full reads⟩
    · exact ⟨datedFields, ts, .dated others⟩

theorem wordedOther (unread : ∀ fields ∈ [fiveFields, sixFields, sevenFields], ∀ ss,
    ¬ Reads fields text ss) : (∃ fields ss, Worded text words fields ss) ↔
      words = 5 ∧ ((∃ ss, Reads datedFields text ss) ∨ Marked text ∧
        ∃ fields ss, (fields = sixFields ∨ fields = sevenFields) ∧ Reads fields ('0' :: text) ss) := by
  constructor
  · intro worded
    obtain ⟨fields, ts, worded⟩ := worded
    cases worded with
    | five reads => exact absurd reads (unread _ (by simp) _)
    | dated reads => exact ⟨rfl, .inl ⟨ts, reads⟩⟩
    | glued marked full reads => exact ⟨rfl, .inr ⟨marked, fields, ts, full, reads⟩⟩
    | full counted full reads =>
      obtain rfl | rfl := full <;> exact absurd reads (unread _ (by simp) _)
  · intro accepted
    obtain ⟨rfl, ⟨ts, reads⟩ | ⟨marked, fields, ts, full, reads⟩⟩ := accepted
    · exact ⟨datedFields, ts, .dated reads⟩
    · exact ⟨fields, ts, .glued marked full reads⟩

end Orchestration.CronExpression

namespace Orchestration

/-- A job is built from an expression by its words. Five words are read as five fields, with a year
where there is one, at second 0; a text that begins with a mark goes on from a zero. Six or seven
words are read as six or seven fields. So five fields are accepted if they are five words, six and
seven fields if they are six or seven words or, shifted by one, if they are five words that end in
a year, and else nothing but five words that end so or begin with a mark. -/
theorem CronJob.builtByWords {τ : Type} (key cron : String) (tick : τ) :
    let text := (Text.trim cron).toList
    let words := (Text.words text).length
    let built := CronJob.build key cron tick
    (∀ fields ss, CronExpression.Worded text words fields ss →
      ∃ e, built = .ok ⟨key, e, tick⟩ ∧ e.TicksAt (Cron.Falls fields ss)) ∧
    (∀ ss, Cron.Reads Cron.fiveFields text ss → ((∃ job, built = .ok job) ↔ words = 5)) ∧
    (∀ fields ss, fields = Cron.sixFields ∨ fields = Cron.sevenFields → Cron.Reads fields text ss →
      ((∃ job, built = .ok job) ↔
        words = 6 ∨ words = 7 ∨ words = 5 ∧ ∃ ss, Cron.Reads Cron.datedFields text ss)) ∧
    ((∀ fields ∈ [Cron.fiveFields, Cron.sixFields, Cron.sevenFields], ∀ ss, ¬ Cron.Reads fields text ss) →
      ((∃ job, built = .ok job) ↔ words = 5 ∧ ((∃ ss, Cron.Reads Cron.datedFields text ss) ∨
        Cron.Marked text ∧ ∃ fields ss, (fields = Cron.sixFields ∨ fields = Cron.sevenFields) ∧
          Cron.Reads fields ('0' :: text) ss))) := by
  intro text words built
  have made {fields : List Cron.Field} {ss : List Cron.Selection}
      (worded : CronExpression.Worded text words fields ss) :
      ∃ e, built = .ok ⟨key, e, tick⟩ ∧ e.TicksAt (Cron.Falls fields ss) := by
    obtain ⟨form, within⟩ := worded.form
    obtain ⟨e, means⟩ := CronExpression.meansExists form within.length_eq
    have read : CronExpression.read cron = .ok e := CronExpression.readWorded.2 ⟨fields, ss, worded, means⟩
    refine ⟨e, ?_, CronExpression.meansTicks form within means⟩
    simp only [built, CronJob.build, read, Except.map]
  have accepted : (∃ job, built = .ok job) ↔
      ∃ fields ss, CronExpression.Worded text words fields ss := by
    constructor
    · intro some
      obtain ⟨job, some⟩ := some
      cases read : CronExpression.read cron with
      | error e =>
        simp only [built, CronJob.build, read, Except.map] at some
        cases some
      | ok e =>
        obtain ⟨fields, ss, worded, -⟩ := CronExpression.readWorded.1 read
        exact ⟨fields, ss, worded⟩
    · intro some
      obtain ⟨fields, ss, worded⟩ := some
      obtain ⟨e, some, -⟩ := made worded
      exact ⟨_, some⟩
  refine ⟨fun fields ss => made, fun ss reads => ?_, fun fields ss full reads => ?_, fun unread => ?_⟩
  · exact accepted.trans (CronExpression.wordedFive reads)
  · exact accepted.trans (CronExpression.wordedFull full reads)
  · exact accepted.trans (CronExpression.wordedOther unread)

def everySecond : List Cron.Selection :=
  [[⟨0, 59, 1⟩], [⟨0, 59, 1⟩], [⟨0, 23, 1⟩], [⟨1, 31, 1⟩], [⟨1, 12, 1⟩], [⟨1, 7, 1⟩]]

/-- Five fields in six words are refused, six fields in five words tick at other moments than
theirs, and five words are accepted that are no fields at all. -/
theorem wordsMiscounted :
    (Cron.Reads Cron.fiveFields "1, 5 * * * *".toList
        [[⟨1, 1, 1⟩, ⟨5, 5, 1⟩], [⟨0, 23, 1⟩], [⟨1, 31, 1⟩], [⟨1, 12, 1⟩], [⟨1, 7, 1⟩]] ∧
      (CronJob.build "nightly" "1, 5 * * * *" ()).toOption = none) ∧
    (Cron.Reads Cron.sixFields "** * * * *".toList everySecond ∧
      Cron.Falls Cron.sixFields everySecond 1 ∧
      (CronJob.build "nightly" "** * * * *" ()).toOption.map (·.expression.holds 1) = some false) ∧
    (∀ fields ss, ¬ Cron.Reads fields "-5 ** * * *".toList ss) ∧
      (CronJob.build "nightly" "-5 ** * * *" ()).toOption.isSome = true := by
  refine ⟨⟨by decide +kernel, by decide +kernel⟩, ⟨by decide +kernel, ⟨?_, ?_, ?_⟩, by decide +kernel⟩, ?_,
    by decide +kernel⟩
  · simp only [Cron.sixFields, Cron.fiveFields, everySecond, List.forall₂_cons]
    decide +kernel
  · exact fun absent => absurd (by decide) absent
  · decide +kernel
  · exact fun fields ss reads => reads.unmarked (by decide +kernel)

end Orchestration
