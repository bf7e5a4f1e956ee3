import Orchestration.Proofs.Cron.Fields

/-! How a text is cut into fields. A field ends where its list cannot go on, so a mark, which begins
no field but goes on with one, has to stand apart: a text that begins with a mark has no cut, and
put behind a number it makes the number's list longer. -/
namespace Orchestration.Cron

def Marked (cs : List Char) : Prop := ∃ c ∈ [',', '-', '/'], cs.head? = some c

instance (cs : List Char) : Decidable (Marked cs) := List.decidableBEx _ _

theorem Marked.head {cs : List Char} (marked : Marked cs) : ∃ c rest, cs = c :: rest ∧
    isGap c = false ∧ c.isDigit = false ∧ c.isAlpha = false ∧ c ≠ '*' ∧ c ≠ '?' := by
  obtain ⟨c, mark, head⟩ := marked
  obtain ⟨rest, same⟩ := List.head?_eq_some_iff.1 head
  refine ⟨c, rest, same, ?_⟩
  simp only [List.mem_cons, List.not_mem_nil, or_false] at mark
  obtain rfl | rfl | rfl := mark <;> decide

theorem skipGapsIdem (cs : List Char) : skipGaps (skipGaps cs) = skipGaps cs :=
  List.dropWhile_idempotent ..

theorem skipGapsCons {c : Char} (gap : isGap c = false) (cs : List Char) :
    skipGaps (c :: cs) = c :: cs := by
  simp [skipGaps, gap]

theorem scanWordNone {inside : Char → Bool} {c : Char} (gap : isGap c = false)
    (outside : inside c = false) (cs : List Char) : scanWord inside (c :: cs) = none := by
  simp [scanWord, skipGapsCons gap, outside]

theorem scanItemNone {allowsAny : Bool} {c : Char} (gap : isGap c = false)
    (digit : c.isDigit = false) (alpha : c.isAlpha = false) (star : c ≠ '*')
    (question : allowsAny = true → c ≠ '?') (cs : List Char) : scanItem allowsAny (c :: cs) = none := by
  have number : scanNumber (c :: cs) = none := by simp only [scanNumber, scanWordNone gap digit]
  have name : scanName (c :: cs) = none := by simp only [scanName, scanWordNone gap alpha, Option.map_none]
  have every : scanEvery allowsAny (c :: cs) = none := by simpa [scanEvery, star] using question
  simp [scanItem, scanStepped, scanSpan, scanPair, number, name, every]

theorem scanItemMarked {allowsAny : Bool} {cs : List Char} (marked : Marked cs) :
    scanItem allowsAny cs = none := by
  obtain ⟨c, rest, rfl, gap, digit, alpha, star, question⟩ := marked.head
  exact scanItemNone gap digit alpha star (fun _ => question) rest

theorem scanItemsNone {allowsAny : Bool} {cs : List Char} (none : scanItem allowsAny cs = none) :
    scanItems allowsAny cs = .none := by
  rw [scanItems, none]

theorem skipGapsMarked {cs : List Char} (marked : Marked cs) : skipGaps cs = cs := by
  obtain ⟨c, rest, rfl, gap, -⟩ := marked.head
  exact skipGapsCons gap rest

/-- The lists of a text in turn, each scanned as in a field that may ask for any value: such a field
takes what every other field takes. -/
inductive Cut : List Char → List (List Item) → Prop where
  | done : Cut [] []
  | field {cs items rest more} (scanned : scanItems true (skipGaps cs) = some (items, rest))
      (further : Cut (skipGaps rest) more) : Cut cs (items :: more)

theorem scanItemsNil (allowsAny : Bool) : scanItems allowsAny [] = none := by
  rw [scanItems]
  cases allowsAny <;> rfl

theorem Cut.unique {cs : List Char} {one other : List (List Item)} (first : Cut cs one)
    (second : Cut cs other) : one = other := by
  induction first generalizing other with
  | done =>
    cases second with
    | done => rfl
    | field scanned => cases (scanItemsNil true).symm.trans scanned
  | field scanned further ih =>
    cases second with
    | done => cases (scanItemsNil true).symm.trans scanned
    | field scanned' further' =>
      obtain ⟨rfl, rfl⟩ := Prod.mk.inj (Option.some.inj (scanned.symm.trans scanned'))
      rw [ih further']

theorem Cut.unmarked {cs : List Char} {lists : List (List Item)} (cut : Cut cs lists) : ¬ Marked cs := by
  intro marked
  cases cut with
  | done => simp [Marked] at marked
  | field scanned =>
    rw [skipGapsMarked marked, scanItemsNone (scanItemMarked marked)] at scanned
    cases scanned

theorem scanItemAny {cs rest : List Char} {item : Item} (scanned : scanItem false cs = some (item, rest)) :
    scanItem true cs = some (item, rest) := by
  have every : scanEvery false cs = scanEvery true cs := by
    cases cs with
    | nil => rfl
    | cons c cs =>
      by_cases question : c = '?'
      · subst question
        have refused : scanItem false ('?' :: cs) = none :=
          scanItemNone (by decide) (by decide) (by decide) (by decide) (fun allows => by cases allows) cs
        cases refused.symm.trans scanned
      · simp [scanEvery, question]
  simpa only [scanItem, scanStepped, scanSpan, every] using scanned

theorem scanMarkSome {c : Char} {cs rest : List Char} {u : Unit}
    (mark : scanMark c cs = some (u, rest)) : cs = c :: rest := by
  cases cs with
  | nil => cases mark
  | cons d cs =>
    simp only [scanMark, Option.ite_none_right_eq_some, Option.some.injEq, Prod.mk.injEq] at mark
    rw [mark.1, mark.2.2]

theorem commaMarked {cs rest : List Char} {u : Unit} (comma : scanMark ',' cs = some (u, rest)) :
    Marked cs := by
  rw [scanMarkSome comma]
  exact ⟨',', by simp, rfl⟩

theorem scanItemsAny {cs rest : List Char} {items : List Item}
    (scanned : scanItems false cs = some (items, rest)) (unmarked : ¬ Marked rest) :
    scanItems true cs = some (items, rest) := by
  fun_induction scanItems false cs generalizing items with
  | case1 cs none => cases scanned
  | case2 cs item after first last =>
    cases scanned
    rw [scanItems, scanItemAny first]
    simp only [last]
  | case3 cs item after first u inner comma =>
    -- no item behind the comma: the list ends before it, and what is left begins with a mark
    cases scanned
    exact absurd (commaMarked comma) unmarked
  | case4 cs item after first u inner comma shorter items' last more ih =>
    cases scanned
    rw [scanItems, scanItemAny first]
    simp only [comma, shorter, dite_true, ih more]
  | case5 cs item after first u inner comma =>
    cases scanned
    exact absurd (commaMarked comma) unmarked

theorem cutField {f : Field} {cs rest : List Char} {s : Selection} {lists : List (List Item)}
    (scanned : scanField f cs = some (s, rest)) (further : Cut rest lists) :
    ∃ items, Cut cs (items :: lists) := by
  obtain ⟨items, after, listed, -, rfl⟩ := scanFieldIff.1 scanned
  have unmarked : ¬ Marked after := by
    intro marked
    rw [skipGapsMarked marked] at further
    exact further.unmarked marked
  refine ⟨items, .field ?_ further⟩
  cases allows : f.allowsAny with
  | true => rwa [allows] at listed
  | false =>
    rw [allows] at listed
    exact scanItemsAny listed unmarked

theorem Reads.cut {fs : List Field} {cs : List Char} {ss : List Selection} (reads : Reads fs cs ss) :
    ∃ lists, Cut cs lists ∧ lists.length = fs.length := by
  induction fs generalizing cs ss with
  | nil =>
    cases reads
    exact ⟨[], .done, rfl⟩
  | cons f fs ih =>
    obtain ⟨s, mid, more, first, rest, rfl⟩ := scanFieldsCons.1 reads
    obtain ⟨lists, further, counted⟩ := ih rest
    obtain ⟨items, cut⟩ := cutField first further
    exact ⟨items :: lists, cut, congrArg Nat.succ counted⟩

theorem Reads.sameLength {fs gs : List Field} {cs : List Char} {ss ts : List Selection}
    (one : Reads fs cs ss) (other : Reads gs cs ts) : fs.length = gs.length := by
  obtain ⟨lists, cut, counted⟩ := one.cut
  obtain ⟨lists', cut', counted'⟩ := other.cut
  rw [← counted, ← counted', cut.unique cut']

theorem Reads.unmarked {fs : List Field} {cs : List Char} {ss : List Selection}
    (reads : Reads fs cs ss) : ¬ Marked cs := by
  obtain ⟨lists, cut, -⟩ := reads.cut
  exact cut.unmarked

/-! A zero put before a text. -/

theorem markNone {c : Char} {cs : List Char} (unmarked : ¬ Marked cs) (mark : c ∈ [',', '-', '/']) :
    scanMark c cs = none := by
  cases found : scanMark c cs with
  | none => rfl
  | some row =>
    rw [scanMarkSome found] at unmarked
    exact absurd ⟨c, mark, rfl⟩ unmarked

theorem zeroNumber {rest : List Char} (apart : ∀ c, rest.head? = some c → c.isDigit = false) :
    scanNumber ('0' :: rest) = some (0, skipGaps rest) := by
  have digits : rest.takeWhile Char.isDigit = [] ∧ rest.dropWhile Char.isDigit = rest := by
    cases rest with
    | nil => exact ⟨rfl, rfl⟩
    | cons c rest => simp [apart c rfl]
  have gap : isGap '0' = false := by decide
  have zero : ('0').isDigit = true := by decide
  have value : numeral ['0'] = 0 := by decide
  simp [scanNumber, scanWord, skipGapsCons gap, zero, digits, value]

theorem zeroName (rest : List Char) : scanName ('0' :: rest) = none := by
  rw [scanName, scanWordNone (by decide) (by decide), Option.map_none]

theorem skipBlank (cs : List Char) : skipGaps (' ' :: cs) = skipGaps cs :=
  List.dropWhile_cons_of_pos (by decide)

theorem zeroBlank (cs : List Char) : scanNumber ('0' :: ' ' :: cs) = some (0, skipGaps cs) := by
  have blank : ∀ c, (' ' :: cs).head? = some c → c.isDigit = false := by
    intro c head
    cases head
    decide
  rw [zeroNumber blank, skipBlank]

theorem zeroField {cs : List Char} (unmarked : ¬ Marked (skipGaps cs)) :
    scanField .second ('0' :: ' ' :: cs) = some ([⟨0, 0, 1⟩], skipGaps cs) := by
  have comma : scanMark ',' (skipGaps cs) = none := markNone unmarked (by simp)
  have dash : scanMark '-' (skipGaps cs) = none := markNone unmarked (by simp)
  have slash : scanMark '/' (skipGaps cs) = none := markNone unmarked (by simp)
  have single : scanItems false ('0' :: ' ' :: cs) = some ([.plain (.only 0)], skipGaps cs) := by
    have item : scanItem false ('0' :: ' ' :: cs) = some (.plain (.only 0), skipGaps cs) := by
      simp [scanItem, scanStepped, scanSpan, scanPair, scanEvery, zeroBlank, dash, slash]
    rw [scanItems, item]
    simp only [comma]
  refine scanFieldIff.2 ⟨[.plain (.only 0)], skipGaps cs, ?_, rfl, skipGapsIdem _⟩
  rwa [skipGapsCons (by decide)]

/-! What a scanner leaves is no longer than what it was given. -/

structure Shrinks {α : Type} (p : Scan α) : Prop where
  length : ∀ {cs a rest}, p cs = some (a, rest) → rest.length ≤ cs.length

theorem skipGapsLength (cs : List Char) : (skipGaps cs).length ≤ cs.length :=
  (List.dropWhile_suffix _).length_le

theorem wordShrinks (inside : Char → Bool) : Shrinks (scanWord inside) := by
  refine ⟨fun {cs word rest} scanned => ?_⟩
  simp only [scanWord] at scanned
  split at scanned
  · cases scanned
  · cases scanned
    have inner := (List.dropWhile_suffix inside (l := skipGaps cs)).length_le
    exact (skipGapsLength _).trans (inner.trans (skipGapsLength cs))

theorem numberShrinks : Shrinks scanNumber := by
  refine ⟨fun {cs n rest} scanned => ?_⟩
  simp only [scanNumber] at scanned
  split at scanned
  · rename_i digits after word
    split at scanned
    · cases scanned
      exact (wordShrinks _).length word
    · cases scanned
  · cases scanned

theorem nameShrinks : Shrinks scanName := by
  refine ⟨fun {cs name rest} scanned => ?_⟩
  obtain ⟨⟨letters, after⟩, word, same⟩ := Option.map_eq_some_iff.1 scanned
  cases same
  exact (wordShrinks _).length word

theorem markShrinks (mark : Char) : Shrinks (scanMark mark) := by
  refine ⟨fun {cs u rest} scanned => ?_⟩
  rw [scanMarkSome scanned, List.length_cons]
  exact Nat.le_succ _

theorem everyShrinks (allowsAny : Bool) : Shrinks (scanEvery allowsAny) := by
  refine ⟨fun {cs span rest} scanned => ?_⟩
  cases cs with
  | nil => cases scanned
  | cons c cs =>
    simp only [scanEvery, Option.ite_none_right_eq_some, Option.some.injEq, Prod.mk.injEq] at scanned
    rw [← scanned.2.2, List.length_cons]
    exact Nat.le_succ _

section
variable {α β : Type} {p q : Scan α}

theorem Shrinks.map (shrinks : Shrinks p) (g : α → β) :
    Shrinks fun cs => (p cs).map fun row => (g row.1, row.2) := by
  refine ⟨fun {cs b rest} scanned => ?_⟩
  obtain ⟨⟨a, after⟩, first, same⟩ := Option.map_eq_some_iff.1 scanned
  cases same
  exact shrinks.length first

theorem Shrinks.orElse (first : Shrinks p) (second : Shrinks q) :
    Shrinks fun cs => p cs <|> q cs := by
  refine ⟨fun {cs a rest} scanned => ?_⟩
  simp only [Option.orElse_eq_orElse, Option.orElse_eq_or, Option.or_eq_some_iff] at scanned
  obtain taken | ⟨-, taken⟩ := scanned
  · exact first.length taken
  · exact second.length taken

theorem pairShrinks (shrinks : Shrinks p) (mark : Char) : Shrinks (scanPair p mark) := by
  refine ⟨fun {cs row rest} scanned => ?_⟩
  simp only [scanPair] at scanned
  split at scanned
  · cases scanned
  · rename_i low inner first
    split at scanned
    · cases scanned
    · rename_i u after between
      obtain ⟨⟨high, last⟩, second, same⟩ := Option.map_eq_some_iff.1 scanned
      cases same
      exact (shrinks.length second).trans (((markShrinks mark).length between).trans (shrinks.length first))

end

theorem spanShrinks (allowsAny : Bool) : Shrinks (scanSpan allowsAny) :=
  (everyShrinks allowsAny).orElse <|
    ((pairShrinks numberShrinks '-').map fun pair => Span.between pair.1 pair.2).orElse <|
      (numberShrinks.map Span.only).orElse <|
        (pairShrinks nameShrinks '-').map fun pair => Span.betweenNames pair.1 pair.2

theorem steppedShrinks (allowsAny : Bool) : Shrinks (scanStepped allowsAny) := by
  refine ⟨fun {cs item rest} scanned => ?_⟩
  simp only [scanStepped] at scanned
  split at scanned
  · cases scanned
  · rename_i span inner first
    split at scanned
    · cases scanned
    · rename_i u after between
      obtain ⟨⟨step, last⟩, second, same⟩ := Option.map_eq_some_iff.1 scanned
      cases same
      exact (numberShrinks.length second).trans
        (((markShrinks '/').length between).trans ((spanShrinks allowsAny).length first))

theorem itemShrinks (allowsAny : Bool) : Shrinks (scanItem allowsAny) :=
  (steppedShrinks allowsAny).orElse <|
    ((spanShrinks allowsAny).map Item.plain).orElse (nameShrinks.map Item.named)

theorem scanItemsAlike {allowsAny : Bool} {cs ds : List Char}
    (same : scanItem allowsAny cs = scanItem allowsAny ds) :
    scanItems allowsAny cs = scanItems allowsAny ds := by
  unfold scanItems
  rw [same]
  cases second : scanItem allowsAny ds with
  | none => rfl
  | some row =>
    have first := same.trans second
    obtain ⟨item, rest⟩ := row
    cases comma : scanMark ',' rest with
    | none => simp only [comma]
    | some row =>
      have shorter : row.2.length < cs.length ∧ row.2.length < ds.length := by
        have shrinks := And.intro ((itemShrinks allowsAny).length first) ((itemShrinks allowsAny).length second)
        rwa [scanMarkSome comma, List.length_cons] at shrinks
      simp only [comma, shorter, dite_true]

theorem zeroGlued {cs : List Char} (marked : Marked cs) :
    scanField .second ('0' :: ' ' :: cs) = scanField .second ('0' :: cs) := by
  have apart : ∀ c, cs.head? = some c → c.isDigit = false := by
    intro c head
    obtain ⟨d, rest, rfl, -, digit, -⟩ := marked.head
    cases head
    exact digit
  -- a mark goes on with the zero before it, over the blank between them
  have number : scanNumber ('0' :: ' ' :: cs) = scanNumber ('0' :: cs) := by
    rw [zeroBlank, zeroNumber apart]
  have item : scanItem false ('0' :: ' ' :: cs) = scanItem false ('0' :: cs) := by
    simp [scanItem, scanStepped, scanSpan, scanPair, scanEvery, number, zeroName]
  simp only [scanField, skipGapsCons (show isGap '0' = false by decide), Field.allowsAny,
    scanItemsAlike item]

end Orchestration.Cron
