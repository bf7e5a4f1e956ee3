import Orchestration.Proofs.Template.Whole

/-! Filling a value of any depth. The texts of a value are filled one by one, depth first and in
the order of items and fields, each by itself; all else stays, and so does a text in which no
marker is complete. The first text that cannot be filled is the reason when the value cannot
be, and what a marker inserts stands as it does in the context, markers included. -/
namespace Orchestration

namespace Json

mutual
def texts : Json → List String
  | .str text => [text]
  | .arr items => itemTexts items
  | .obj fields => fieldTexts fields
  | .null | .bool _ | .int _ | .float _ => []

def itemTexts : List Json → List String
  | [] => []
  | item :: rest => item.texts ++ itemTexts rest

def fieldTexts : List (String × Json) → List String
  | [] => []
  | (_, value) :: rest => value.texts ++ fieldTexts rest
end

/-- The same value but for its texts, each of which has become what `leaf` says. -/
inductive Refilled (leaf : String → Json → Prop) : Json → Json → Prop where
  | null : Refilled leaf .null .null
  | bool (value) : Refilled leaf (.bool value) (.bool value)
  | int (value) : Refilled leaf (.int value) (.int value)
  | float (bits) : Refilled leaf (.float bits) (.float bits)
  | text {text value} (filled : leaf text value) : Refilled leaf (.str text) value
  | items {items filled} (each : List.Forall₂ (Refilled leaf) items filled) :
      Refilled leaf (.arr items) (.arr filled)
  | fields {fields filled} (keys : filled.map Prod.fst = fields.map Prod.fst)
      (each : List.Forall₂ (Refilled leaf) (fields.map Prod.snd) (filled.map Prod.snd)) :
      Refilled leaf (.obj fields) (.obj filled)

end Json

namespace Template
variable {context : Json}

def Marked (cs : List Char) : Prop :=
  ∃ before inside, cs = before ++ openBrace :: openBrace :: inside ∧ [closeBrace, closeBrace] <:+: inside

theorem Lone.marked {cs : List Char} (lone : Lone cs) : Marked cs := by
  obtain ⟨inner, trimmed, -, -⟩ := lone
  obtain ⟨before, after, whole⟩ := Text.trimInside cs
  rw [trimmed, markerWritten] at whole
  have closed := List.infix_append' inner [closeBrace, closeBrace] after
  exact ⟨before, _, whole.symm, by simpa using closed⟩

theorem renderUnmarked (context : Json) {text : String} (unmarked : ¬ Marked text.toList) :
    renderText context text = .ok (.str text) := by
  have filled := fillRest context fun before inside same closed => unmarked ⟨before, inside, same, closed⟩
  rw [renderFilled context fun lone => unmarked lone.marked, filled]
  simp [Except.map]

/-- What comes of a text: itself, the value that its one marker names, or its pieces with the text
forms of the values that its markers name. -/
inductive Inserted (context : Json) (text : String) : Json → Prop where
  | plain (unmarked : ¬ Marked text.toList) : Inserted context text (.str text)
  | whole {expression value} (marked : Marked text.toList) (one : single? text.toList = some expression)
      (found : target? context expression = some value) : Inserted context text value
  | embedded {pieces shown} (marked : Marked text.toList) (other : single? text.toList = none)
      (cut : Cut text.toList pieces) (shows : List.Forall₂ (Shows context) pieces shown) :
      Inserted context text (.str (String.ofList shown.flatten))

theorem renderTextInserted {text : String} {value : Json}
    (rendered : renderText context text = .ok value) : Inserted context text value := by
  by_cases marked : Marked text.toList
  · cases one : single? text.toList with
    | some expression =>
      rw [renderWhole context one] at rendered
      exact .whole marked one (lookupKept rendered).2
    | none =>
      have other : ¬ Lone text.toList := by simp [loneIff, one]
      rw [renderFilled context other] at rendered
      obtain ⟨pieces, cut⟩ := cutExists text.toList
      have kept : ∀ expression, .marker expression ∈ pieces → ¬ Lost context expression := by
        intro expression inside lost
        obtain ⟨first, stops⟩ := stopsSomewhere inside lost
        rw [fillStops cut stops] at rendered
        cases rendered
      obtain ⟨shown, shows, filled⟩ := fillShows cut kept
      rw [filled] at rendered
      cases rendered
      exact .embedded marked one cut shows
  · rw [renderUnmarked context marked] at rendered
    cases rendered
    exact .plain marked

def Becomes (context : Json) (text : String) (value : Json) : Prop :=
  renderText context text = .ok value ∧ Inserted context text value

def lost? (context : Json) (text : String) : Option Error :=
  match renderText context text with
  | .error e => some e
  | .ok _ => none

theorem lostNone {text : String} :
    lost? context text = none ↔ ∃ value, renderText context text = .ok value := by
  unfold lost?
  cases renderText context text <;> simp

theorem lostSome {text : String} {e : Error} :
    lost? context text = some e ↔ renderText context text = .error e := by
  unfold lost?
  cases renderText context text <;> simp

inductive Swept {α : Type} (context : Json) (texts : List String) (made : α → Prop) :
    Except Error α → Prop where
  | stopped {e} (first : texts.findSome? (lost? context) = some e) : Swept context texts made (.error e)
  | done {result} (clear : texts.findSome? (lost? context) = none) (good : made result) :
      Swept context texts made (.ok result)

namespace Swept
variable {α β γ : Type} {texts more : List String} {made : α → Prop} {others : β → Prop}

theorem map {a : Except Error α} (swept : Swept context texts made a) {f : α → β}
    (good : ∀ x, made x → others (f x)) : Swept context texts others (a.map f) := by
  cases swept with
  | stopped first => exact .stopped first
  | done clear made => exact .done clear (good _ made)

theorem both {a : Except Error α} {b : Except Error β} (first : Swept context texts made a)
    (second : Swept context more others b) {f : α → β → γ} {whole : γ → Prop}
    (good : ∀ x y, made x → others y → whole (f x y)) :
    Swept context (texts ++ more) whole (a.bind fun x => b.map (f x)) := by
  cases first with
  | stopped first => exact .stopped (by rw [List.findSome?_append, first, Option.some_or])
  | done clear made =>
    have rest : (texts ++ more).findSome? (lost? context) = more.findSome? (lost? context) := by
      rw [List.findSome?_append, clear, Option.none_or]
    cases second with
    | stopped later => exact .stopped (rest.trans later)
    | done free others => exact .done (rest.trans free) (good _ _ made others)

end Swept

theorem renderItemsCons (item : Json) (rest : List Json) : renderItems context (item :: rest) =
    (renderValue context item).bind fun filled => (renderItems context rest).map (filled :: ·) := by
  rw [renderItems]
  cases renderValue context item <;> rfl

theorem renderFieldsCons (key : String) (value : Json) (rest : List (String × Json)) :
    renderFields context ((key, value) :: rest) =
      (renderValue context value).bind fun filled => (renderFields context rest).map ((key, filled) :: ·) := by
  rw [renderFields]
  cases renderValue context value <;> rfl

mutual
theorem renderValueSwept : ∀ value : Json,
    Swept context value.texts (Json.Refilled (Becomes context) value) (renderValue context value)
  | .null => .done rfl .null
  | .bool value => .done rfl (.bool value)
  | .int value => .done rfl (.int value)
  | .float bits => .done rfl (.float bits)
  | .str text => by
    rw [renderValue, Json.texts]
    cases rendered : renderText context text with
    | error e => exact .stopped (by simp [lostSome.2 rendered])
    | ok value =>
      refine .done ?_ (.text ⟨rendered, renderTextInserted rendered⟩)
      simp [lostNone.2 ⟨value, rendered⟩]
  | .arr items => by
    rw [renderValue, Json.texts]
    exact (renderItemsSwept items).map fun filled each => .items each
  | .obj fields => by
    rw [renderValue, Json.texts]
    exact (renderFieldsSwept fields).map fun filled each => .fields each.1 each.2

theorem renderItemsSwept : ∀ items : List Json,
    Swept context (Json.itemTexts items) (List.Forall₂ (Json.Refilled (Becomes context)) items)
      (renderItems context items)
  | [] => .done rfl .nil
  | item :: rest => by
    rw [renderItemsCons, Json.itemTexts]
    exact (renderValueSwept item).both (renderItemsSwept rest) fun value filled first each =>
      .cons first each

theorem renderFieldsSwept : ∀ fields : List (String × Json),
    Swept context (Json.fieldTexts fields)
      (fun filled => filled.map Prod.fst = fields.map Prod.fst ∧
        List.Forall₂ (Json.Refilled (Becomes context)) (fields.map Prod.snd) (filled.map Prod.snd))
      (renderFields context fields)
  | [] => .done rfl ⟨rfl, .nil⟩
  | (key, value) :: rest => by
    rw [renderFieldsCons, Json.fieldTexts]
    exact (renderValueSwept value).both (renderFieldsSwept rest) fun filled others first each =>
      ⟨congrArg (key :: ·) each.1, .cons first each.2⟩
end

mutual
theorem renderValueUnmarked : ∀ value : Json, (∀ text ∈ value.texts, ¬ Marked text.toList) →
    renderValue context value = .ok value
  | .null, _ | .bool _, _ | .int _, _ | .float _, _ => rfl
  | .str text, unmarked => renderUnmarked context (unmarked text (by simp [Json.texts]))
  | .arr items, unmarked => by
    rw [renderValue, renderItemsUnmarked items unmarked]
    rfl
  | .obj fields, unmarked => by
    rw [renderValue, renderFieldsUnmarked fields unmarked]
    rfl

theorem renderItemsUnmarked : ∀ items : List Json,
    (∀ text ∈ Json.itemTexts items, ¬ Marked text.toList) → renderItems context items = .ok items
  | [], _ => rfl
  | item :: rest, unmarked => by
    rw [Json.itemTexts, List.forall_mem_append] at unmarked
    rw [renderItemsCons, renderValueUnmarked item unmarked.1, renderItemsUnmarked rest unmarked.2]
    rfl

theorem renderFieldsUnmarked : ∀ fields : List (String × Json),
    (∀ text ∈ Json.fieldTexts fields, ¬ Marked text.toList) → renderFields context fields = .ok fields
  | [], _ => rfl
  | (key, value) :: rest, unmarked => by
    rw [Json.fieldTexts, List.forall_mem_append] at unmarked
    rw [renderFieldsCons, renderValueUnmarked value unmarked.1, renderFieldsUnmarked rest unmarked.2]
    rfl
end

theorem renderPayloadSwept (context fields : Payload) :
    Swept context.toJson fields.toJson.texts
      (fun filled => Json.Refilled (Becomes context.toJson) fields.toJson (Payload.toJson filled))
      (renderPayload context fields) := by
  have swept := @renderValueSwept context.toJson fields.toJson
  rw [← renderPayloadValue] at swept
  cases rendered : renderPayload context fields with
  | error e =>
    rw [rendered] at swept
    cases swept with
    | stopped first => exact .stopped first
  | ok filled =>
    rw [rendered] at swept
    cases swept with
    | done clear good => exact .done clear good

/-- Filling a map goes text by text: it comes out if and only if each text does, with the error of
the first that does not, and it leaves a map without complete markers as it is. -/
theorem renderedTextByText (context fields : Payload) :
    (∀ filled, renderPayload context fields = .ok filled →
      Json.Refilled (Becomes context.toJson) fields.toJson filled.toJson) ∧
    ((∃ filled, renderPayload context fields = .ok filled) ↔
      ∀ text ∈ fields.toJson.texts, ∃ value, renderText context.toJson text = .ok value) ∧
    (∀ e, renderPayload context fields = .error e ↔
      ∃ before text after, fields.toJson.texts = before ++ text :: after ∧
        renderText context.toJson text = .error e ∧
        ∀ earlier ∈ before, ∃ value, renderText context.toJson earlier = .ok value) ∧
    ((∀ text ∈ fields.toJson.texts, ¬ Marked text.toList) → renderPayload context fields = .ok fields) := by
  have swept := renderPayloadSwept context fields
  have first : ∀ e, renderPayload context fields = .error e ↔
      fields.toJson.texts.findSome? (lost? context.toJson) = some e := by
    intro e
    cases rendered : renderPayload context fields with
    | error other =>
      rw [rendered] at swept
      cases swept with
      | stopped first => rw [first]; simp
    | ok filled =>
      rw [rendered] at swept
      cases swept with
      | done clear good => rw [clear]; simp
  refine ⟨fun filled rendered => ?_, ?_, fun e => ?_, fun unmarked => ?_⟩
  · rw [rendered] at swept
    cases swept with
    | done clear good => exact good
  · simp only [← lostNone, ← List.findSome?_eq_none_iff]
    cases rendered : renderPayload context fields with
    | error e => simp [(first e).1 rendered]
    | ok filled =>
      rw [rendered] at swept
      cases swept with
      | done clear good => simp [clear]
  · simp only [first, List.findSome?_eq_some_iff, lostSome, lostNone]
  · have same := renderPayloadValue context fields
    rw [renderValueUnmarked _ unmarked] at same
    cases rendered : renderPayload context fields with
    | error e =>
      rw [rendered] at same
      cases same
    | ok filled =>
      rw [rendered] at same
      simp only [Except.map, Except.ok.injEq, Payload.toJson, Json.obj.injEq] at same
      rw [OrderedMap.entriesEq same]

example : (renderValue (.obj [("a", .obj [("b", .str "\x7b\x7bc\x7d\x7d")]), ("c", .int 1)])
    (.arr [.str "\x7b\x7ba\x7d\x7d", .null, .str "\x7b\x7b c"])).toOption =
      some (.arr [.obj [("b", .str "\x7b\x7bc\x7d\x7d")], .null, .str "\x7b\x7b c"]) := by
  decide +kernel

end Template
end Orchestration
