import Orchestration.Template.Render

/-! Filling a value, told by its leaves. A place is a way down through objects and arrays.
When a value can be filled, each text in it can, and what comes of the text stands in
the same place; when it cannot, the reason is a reference that leads nowhere. -/
namespace Orchestration

namespace Json

inductive Place where
  | field (key : String)
  | item (index : Nat)
  deriving DecidableEq, Repr

def child? : Place → Json → Option Json
  | .field key, value => value.field? key
  | .item index, .arr items => items[index]?
  | .item _, _ => none

def at? : List Place → Json → Option Json
  | [], value => some value
  | place :: rest, value => (value.child? place).bind (at? rest)

end Json

namespace Template
variable {context : Json}

theorem renderFieldsGet {fields rendered : List (String × Json)} {key : String} {value : Json}
    (ok : renderFields context fields = .ok rendered) (found : Entries.get? key fields = some value) :
    ∃ filled, renderValue context value = .ok filled ∧ Entries.get? key rendered = some filled := by
  induction fields generalizing rendered with
  | nil => cases found
  | cons head rest ih =>
    obtain ⟨k, v⟩ := head
    simp only [renderFields] at ok
    cases first : renderValue context v with
    | error e => simp [first] at ok
    | ok w =>
      cases others : renderFields context rest with
      | error e => simp [first, others, Except.map] at ok
      | ok more =>
        simp only [first, others, Except.map, Except.ok.injEq] at ok
        subst ok
        by_cases same : k = key
        · simp only [Entries.get?, same, if_true, Option.some.injEq] at found ⊢
          subst found
          exact ⟨w, first, rfl⟩
        · simp only [Entries.get?, same, if_false] at found ⊢
          exact ih others found

theorem renderItemsGet {items rendered : List Json} {index : Nat} {value : Json}
    (ok : renderItems context items = .ok rendered) (found : items[index]? = some value) :
    ∃ filled, renderValue context value = .ok filled ∧ rendered[index]? = some filled := by
  induction items generalizing rendered index with
  | nil => simp at found
  | cons item rest ih =>
    simp only [renderItems] at ok
    cases first : renderValue context item with
    | error e => simp [first] at ok
    | ok w =>
      cases others : renderItems context rest with
      | error e => simp [first, others, Except.map] at ok
      | ok more =>
        simp only [first, others, Except.map, Except.ok.injEq] at ok
        subst ok
        cases index with
        | zero =>
          cases found
          exact ⟨w, first, rfl⟩
        | succ index =>
          obtain ⟨filled, done, there⟩ := ih others found
          exact ⟨filled, done, there⟩

theorem renderChild {value rendered child : Json} {place : Json.Place}
    (ok : renderValue context value = .ok rendered) (found : value.child? place = some child) :
    ∃ filled, renderValue context child = .ok filled ∧ rendered.child? place = some filled := by
  cases value with
  | arr items =>
    simp only [renderValue] at ok
    cases whole : renderItems context items with
    | error e => simp [whole, Except.map] at ok
    | ok more =>
      simp only [whole, Except.map, Except.ok.injEq] at ok
      subst ok
      cases place with
      | field key => cases found
      | item index => exact renderItemsGet whole found
  | obj fields =>
    simp only [renderValue] at ok
    cases whole : renderFields context fields with
    | error e => simp [whole, Except.map] at ok
    | ok more =>
      simp only [whole, Except.map, Except.ok.injEq] at ok
      subst ok
      cases place with
      | field key => exact renderFieldsGet whole found
      | item index => cases found
  | _ => cases place <;> cases found

theorem renderAt {value rendered leaf : Json} {path : List Json.Place}
    (ok : renderValue context value = .ok rendered) (found : value.at? path = some leaf) :
    ∃ filled, renderValue context leaf = .ok filled ∧ rendered.at? path = some filled := by
  induction path generalizing value rendered with
  | nil =>
    cases found
    exact ⟨rendered, ok, rfl⟩
  | cons place rest ih =>
    obtain ⟨child, here, below⟩ := Option.bind_eq_some_iff.1 found
    obtain ⟨filled, done, there⟩ := renderChild ok here
    obtain ⟨last, ended, place⟩ := ih done below
    exact ⟨last, ended, by rw [Json.at?, there, Option.bind_some, place]⟩

def Unresolved (e : Error) : Prop := ∃ expression, e = .templateResolution expression

theorem lookupError {expression : List Char} {e : Error}
    (bad : lookup context expression = .error e) : Unresolved e := by
  rw [lookup] at bad
  split at bad
  · cases bad
  · cases bad
    exact ⟨_, rfl⟩

theorem fillError {cs : List Char} {e : Error} (bad : fill context cs = .error e) : Unresolved e := by
  fun_induction fill context cs with
  | case1 | case2 | case5 => cases bad
  | case3 _ _ _ _ _ _ _ _ failed =>
    cases bad
    exact lookupError failed
  | case4 _ _ _ _ _ _ _ _ _ _ failed ih =>
    cases bad
    exact ih failed

theorem renderTextError {text : String} {e : Error} (bad : renderText context text = .error e) :
    Unresolved e := by
  rw [renderText] at bad
  split at bad
  · cases bad
  · split at bad
    · exact lookupError bad
    · cases filled : fill context text.toList with
      | ok cs => simp [filled, Except.map] at bad
      | error e =>
        rw [filled] at bad
        cases bad
        exact fillError filled

mutual
theorem renderValueError {e : Error} : ∀ value : Json, renderValue context value = .error e →
    Unresolved e
  | .str text, bad => renderTextError bad
  | .arr items, bad => by
    simp only [renderValue] at bad
    cases whole : renderItems context items with
    | ok more => simp [whole, Except.map] at bad
    | error e =>
      rw [whole] at bad
      cases bad
      exact renderItemsError items whole
  | .obj fields, bad => by
    simp only [renderValue] at bad
    cases whole : renderFields context fields with
    | ok more => simp [whole, Except.map] at bad
    | error e =>
      rw [whole] at bad
      cases bad
      exact renderFieldsError fields whole
  | .null, bad | .bool _, bad | .int _, bad | .float _, bad => by cases bad

theorem renderItemsError {e : Error} : ∀ items : List Json, renderItems context items = .error e →
    Unresolved e
  | [], bad => by cases bad
  | item :: rest, bad => by
    simp only [renderItems] at bad
    cases first : renderValue context item with
    | error e =>
      rw [first] at bad
      cases bad
      exact renderValueError item first
    | ok filled =>
      cases others : renderItems context rest with
      | ok more => simp [first, others, Except.map] at bad
      | error e =>
        rw [first, others] at bad
        cases bad
        exact renderItemsError rest others

theorem renderFieldsError {e : Error} : ∀ fields : List (String × Json),
    renderFields context fields = .error e → Unresolved e
  | [], bad => by cases bad
  | (key, value) :: rest, bad => by
    simp only [renderFields] at bad
    cases first : renderValue context value with
    | error e =>
      rw [first] at bad
      cases bad
      exact renderValueError value first
    | ok filled =>
      cases others : renderFields context rest with
      | ok more => simp [first, others, Except.map] at bad
      | error e =>
        rw [first, others] at bad
        cases bad
        exact renderFieldsError rest others
end

theorem renderPayloadValue (context fields : Payload) :
    (renderPayload context fields).map Payload.toJson = renderValue context.toJson fields.toJson := by
  have whole : renderValue context.toJson fields.toJson =
      (renderFields context.toJson fields.entries).map .obj := by
    rw [Payload.toJson, Payload.toJson, renderValue]
  rw [whole, renderPayload]
  split
  · rename_i e bad
    exact (congrArg (Except.map Json.obj) bad).symm
  · rename_i rendered ok
    exact (congrArg (Except.map Json.obj) ok).symm

end Template
end Orchestration
