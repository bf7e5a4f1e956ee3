import Orchestration.Proofs.Template.Leaves
import Orchestration.Proofs.Template.Pieces

/-! Filling a text that is not one marker, piece by piece: the literal pieces as they stand
and, for each marker, the text form of what its expression leads to in the context. What a
marker inserts is not cut again. The first marker whose expression leads nowhere is the
reason when a text cannot be filled. -/
namespace Orchestration.Template

theorem splitDotsEq (cs : List Char) : splitDots cs = cs.splitOn '.' := by
  induction cs with
  | nil => rfl
  | cons c rest ih =>
    rw [splitDots, List.splitOn_cons_eq_if_modifyHead, ih]
    by_cases dot : c = '.'
    · simp [dot]
    · have filled := List.splitOn_ne_nil '.' rest
      cases parts : rest.splitOn '.' with
      | nil => exact absurd parts filled
      | cons part more => simp [dot]

def dotless (expression : List Char) : List Char :=
  (Text.trimChars expression).dropWhile (· = '.')

def segments (expression : List Char) : List (List Char) := (dotless expression).splitOn '.'

def target? (context : Json) (expression : List Char) : Option Json :=
  context.at? ((segments expression).map fun key => .field (String.ofList key))

def Unquotable (segment : List Char) : Prop :=
  segment = [] ∨ ('\'' ∈ segment ∧ '"' ∈ segment) ∨ segment.getLast? = some '\\'

inductive Lost (context : Json) (expression : List Char) : Prop where
  | empty (bare : dotless expression = [])
  | segment {segment} (inside : segment ∈ segments expression) (bad : Unquotable segment)
  | absent (missing : target? context expression = none)

theorem walkAt (context : Json) (names : List String) :
    walk context names = context.at? (names.map .field) := by
  induction names generalizing context with
  | nil => rfl
  | cons name rest ih =>
    unfold walk
    rw [List.map_cons, Json.at?, Json.child?]
    cases context.field? name with
    | none => rfl
    | some child => exact ih child

theorem validSegmentIff {segment : List Char} : validSegment segment = true ↔ ¬ Unquotable segment := by
  unfold validSegment Unquotable
  simp only [Bool.and_eq_true, Bool.not_eq_true', Bool.and_eq_false_iff, List.isEmpty_eq_false_iff,
    List.contains_eq_mem, decide_eq_false_iff_not, decide_eq_true_eq, not_or, ne_eq]
  tauto

theorem pathFound {expression : List Char} (filled : dotless expression ≠ [])
    (quotable : ∀ segment ∈ segments expression, ¬ Unquotable segment) :
    path? expression = some ((segments expression).map String.ofList) := by
  have valid : (splitDots (dotless expression)).all validSegment = true := by
    rw [splitDotsEq, List.all_eq_true]
    exact fun segment inside => validSegmentIff.2 (quotable segment inside)
  unfold path?
  split
  · rename_i bare
    exact absurd bare filled
  · rw [show (Text.trimChars expression).dropWhile (· = '.') = dotless expression from rfl, if_pos valid,
      splitDotsEq]
    rfl

theorem pathMissing {expression : List Char}
    (bad : dotless expression = [] ∨ ∃ segment ∈ segments expression, Unquotable segment) :
    path? expression = none := by
  unfold path?
  split
  · rfl
  · rename_i filled
    rcases bad with bare | ⟨segment, inside, bad⟩
    · exact absurd bare filled
    · refine if_neg fun valid => ?_
      rw [show (Text.trimChars expression).dropWhile (· = '.') = dotless expression from rfl, splitDotsEq,
        List.all_eq_true] at valid
      exact validSegmentIff.1 (valid segment inside) bad

theorem lookupTarget (context : Json) (expression : List Char) :
    (Lost context expression ∧ lookup context expression = .error (unresolved expression)) ∨
      ¬ Lost context expression ∧
        ∃ value, target? context expression = some value ∧ lookup context expression = .ok value := by
  by_cases bad : dotless expression = [] ∨ ∃ segment ∈ segments expression, Unquotable segment
  · refine .inl ⟨?_, ?_⟩
    · rcases bad with bare | ⟨segment, inside, bad⟩
      · exact .empty bare
      · exact .segment inside bad
    · rw [lookup, pathMissing bad]
      rfl
  · simp only [not_or, not_exists, not_and] at bad
    obtain ⟨filled, quotable⟩ := bad
    have walked : (path? expression).bind (walk context) = target? context expression := by
      rw [pathFound filled quotable, Option.bind_some, walkAt, List.map_map]
      rfl
    rw [lookup, walked]
    cases found : target? context expression with
    | none => exact .inl ⟨.absent found, rfl⟩
    | some value =>
      refine .inr ⟨fun lost => ?_, value, rfl, rfl⟩
      cases lost with
      | empty bare => exact filled bare
      | segment inside bad => exact quotable _ inside bad
      | absent missing =>
        rw [missing] at found
        cases found

theorem lookupKept {context value : Json} {expression : List Char}
    (looked : lookup context expression = .ok value) :
    ¬ Lost context expression ∧ target? context expression = some value := by
  cases lookupTarget context expression with
  | inl gone =>
    rw [looked] at gone
    cases gone.2
  | inr found =>
    obtain ⟨kept, other, reached, same⟩ := found
    rw [looked] at same
    cases same
    exact ⟨kept, reached⟩

theorem fillRest (context : Json) {cs : List Char}
    (unclosed : ∀ before inside, cs = before ++ openBrace :: openBrace :: inside →
      ¬ [closeBrace, closeBrace] <:+: inside) : fill context cs = .ok cs := by
  unfold fill
  split
  · rfl
  · rename_i before inside opened
    have absent := cutPairNone.2 (unclosed before inside (cutPairJoin opened))
    split
    · rfl
    · rename_i expression after closed
      rw [absent] at closed
      cases closed

theorem fillMarker (context : Json) {before expression : List Char} (after : List Char)
    (leftmost : ¬ [openBrace, openBrace] <:+: before ++ [openBrace])
    (nearest : ¬ [closeBrace, closeBrace] <:+: expression ++ [closeBrace]) :
    fill context (before ++ (Piece.marker expression).written ++ after) =
      match lookup context expression with
      | .error e => .error e
      | .ok value =>
        (fill context after).map fun rest => before ++ (textForm value).toList ++ rest := by
  rw [markerWritten, fill]
  split
  · rename_i opened
    rw [cutPairAt leftmost] at opened
    cases opened
  · rename_i before' inside opened
    rw [cutPairAt leftmost] at opened
    cases opened
    split
    · rename_i closed
      rw [cutPairAt nearest] at closed
      cases closed
    · rename_i expression' after' closed
      rw [cutPairAt nearest] at closed
      cases closed
      cases lookup context expression with
      | error e => rfl
      | ok value => cases fill context after <;> rfl

inductive Shows (context : Json) : Piece → List Char → Prop where
  | literal {cs} : Shows context (.literal cs) cs
  | marker {expression value} (found : target? context expression = some value) :
      Shows context (.marker expression) (textForm value).toList

structure Stops (context : Json) (pieces : List Piece) (expression : List Char) : Prop where
  lost : Lost context expression
  first : ∃ before after, pieces = before ++ .marker expression :: after ∧
    ∀ earlier, .marker earlier ∈ before → ¬ Lost context earlier

theorem stopsSomewhere {context : Json} {pieces : List Piece} {expression : List Char}
    (inside : .marker expression ∈ pieces) (lost : Lost context expression) :
    ∃ first, Stops context pieces first := by
  induction pieces with
  | nil => cases inside
  | cons piece rest ih =>
    by_cases here : ∃ first, piece = .marker first ∧ Lost context first
    · obtain ⟨first, rfl, lost⟩ := here
      exact ⟨first, lost, [], rest, rfl, by simp⟩
    · have later : .marker expression ∈ rest := by
        cases List.mem_cons.1 inside with
        | inl same => exact absurd ⟨expression, same.symm, lost⟩ here
        | inr later => exact later
      obtain ⟨first, lost, before, after, rfl, clear⟩ := ih later
      refine ⟨first, lost, piece :: before, after, rfl, fun earlier inside => ?_⟩
      cases List.mem_cons.1 inside with
      | inl same => exact fun lost => here ⟨earlier, same.symm, lost⟩
      | inr inside => exact clear earlier inside

theorem Stops.next {context : Json} {literal earlier expression : List Char} {pieces : List Piece}
    (stops : Stops context (.literal literal :: .marker earlier :: pieces) expression) :
    earlier = expression ∨ ¬ Lost context earlier ∧ Stops context pieces expression := by
  obtain ⟨lost, before, after, same, clear⟩ := stops
  cases before with
  | nil => cases same
  | cons first before =>
    cases before with
    | nil =>
      simp only [List.cons_append, List.nil_append, List.cons.injEq, Piece.marker.injEq] at same
      exact .inl same.2.1
    | cons second before =>
      simp only [List.cons_append, List.cons.injEq] at same
      obtain ⟨rfl, rfl, rfl⟩ := same
      refine .inr ⟨clear earlier (by simp), lost, before, after, rfl, fun other inside => ?_⟩
      exact clear other (List.mem_cons_of_mem _ (List.mem_cons_of_mem _ inside))

theorem fillStops {context : Json} {cs expression : List Char} {pieces : List Piece} (cut : Cut cs pieces)
    (stops : Stops context pieces expression) : fill context cs = .error (unresolved expression) := by
  induction cut with
  | @rest cs unclosed =>
    obtain ⟨lost, before, after, same, clear⟩ := stops
    simp [List.cons_eq_append_iff] at same
  | @marker before earlier after pieces leftmost nearest more ih =>
    rw [fillMarker context after leftmost nearest]
    cases lookupTarget context earlier with
    | inl gone =>
      obtain ⟨lost, failed⟩ := gone
      have same : earlier = expression := (stops.next).resolve_right fun later => later.1 lost
      rw [failed, same]
    | inr found =>
      obtain ⟨kept, value, reached, looked⟩ := found
      have later : Stops context pieces expression := by
        cases stops.next with
        | inl same => exact absurd (same ▸ stops.lost) kept
        | inr later => exact later.2
      rw [looked, ih later]
      rfl

theorem fillShows {context : Json} {cs : List Char} {pieces : List Piece} (cut : Cut cs pieces)
    (kept : ∀ expression, .marker expression ∈ pieces → ¬ Lost context expression) :
    ∃ texts, List.Forall₂ (Shows context) pieces texts ∧ fill context cs = .ok texts.flatten := by
  induction cut with
  | @rest cs unclosed => exact ⟨[cs], .cons .literal .nil, by simp [fillRest context unclosed]⟩
  | @marker before expression after pieces leftmost nearest more ih =>
    have filled := fillMarker context after leftmost nearest
    obtain ⟨texts, shows, rest⟩ := ih fun other inside =>
      kept other (List.mem_cons_of_mem _ (List.mem_cons_of_mem _ inside))
    have here := kept expression (by simp)
    obtain ⟨_, value, reached, looked⟩ := (lookupTarget context expression).resolve_left fun gone => here gone.1
    rw [looked, rest] at filled
    refine ⟨before :: (textForm value).toList :: texts, .cons .literal (.cons (.marker reached) shows), ?_⟩
    rw [filled, List.flatten_cons, List.flatten_cons, ← List.append_assoc]
    rfl

theorem renderFilled (context : Json) {text : String} (embedded : ¬ Lone text.toList) :
    renderText context text = (fill context text.toList).map fun cs => .str (String.ofList cs) := by
  unfold renderText
  rw [loneIff, Bool.not_eq_true, Option.isSome_eq_false_iff, Option.isNone_iff_eq_none] at embedded
  rw [embedded]
  split
  · rename_i plain
    have absent : ¬ [openBrace, openBrace] <:+: text.toList := by
      rw [← hasPairIff]
      simpa using plain
    have filled := fillRest context fun before inside (same : text.toList = _) _ =>
      absent ⟨before, inside, by simp [same]⟩
    simp [filled, Except.map]
  · rfl

def quoting : Json :=
  .obj [("a", .obj [("b", .str "\x7b\x7bc\x7d\x7d")]), ("c", .null)]

end Orchestration.Template
