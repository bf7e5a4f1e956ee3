import Orchestration.Error
import Orchestration.Json.Text
import Orchestration.Template.Marker

/-! Filling texts from a context. A text that is one marker becomes the value it
names, type included; markers inside a longer text become the text form of their
values. What a marker inserts is not looked at again. -/
namespace Orchestration.Template

def walk (context : Json) : List String → Option Json
  | [] => some context
  | key :: rest =>
    match context.field? key with
    | some child => walk child rest
    | none => none

def unresolved (expression : List Char) : Error :=
  .templateResolution (String.ofList (Text.trimChars expression))

def lookup (context : Json) (expression : List Char) : Except Error Json :=
  match (path? expression).bind (walk context) with
  | some value => .ok value
  | none => .error (unresolved expression)

def textForm : Json → String
  | .str s => s
  | .null => ""
  | other => other.render

def fill (context : Json) (cs : List Char) : Except Error (List Char) :=
  match _first : cutPair openBrace cs with
  | none => .ok cs
  | some (before, inside) =>
    match _second : cutPair closeBrace inside with
    | none => .ok cs
    | some (expression, after) =>
      match lookup context expression with
      | .error e => .error e
      | .ok value =>
        match fill context after with
        | .error e => .error e
        | .ok rest => .ok (before ++ (textForm value).toList ++ rest)
termination_by cs.length
decreasing_by
  rw [cutPairJoin _first, cutPairJoin _second]
  simp; omega

def renderText (context : Json) (text : String) : Except Error Json :=
  if !hasPair openBrace text.toList then .ok (.str text)
  else match single? text.toList with
    | some expression => lookup context expression
    | none => (fill context text.toList).map fun cs => .str (String.ofList cs)

mutual
def renderValue (context : Json) : Json → Except Error Json
  | .str text => renderText context text
  | .arr items => (renderItems context items).map .arr
  | .obj fields => (renderFields context fields).map .obj
  | other => .ok other

def renderItems (context : Json) : List Json → Except Error (List Json)
  | [] => .ok []
  | item :: rest =>
    match renderValue context item with
    | .error e => .error e
    | .ok item => (renderItems context rest).map (item :: ·)

def renderFields (context : Json) : List (String × Json) → Except Error (List (String × Json))
  | [] => .ok []
  | (key, value) :: rest =>
    match renderValue context value with
    | .error e => .error e
    | .ok value => (renderFields context rest).map ((key, value) :: ·)
end

theorem renderFieldsKeys {context : Json} {fields rendered : List (String × Json)}
    (ok : renderFields context fields = .ok rendered) :
    rendered.map Prod.fst = fields.map Prod.fst := by
  induction fields generalizing rendered with
  | nil => simp only [renderFields, Except.ok.injEq] at ok; simp [← ok]
  | cons head rest ih =>
    obtain ⟨key, value⟩ := head
    simp only [renderFields] at ok
    cases hv : renderValue context value with
    | error e => simp [hv] at ok
    | ok v =>
      cases hr : renderFields context rest with
      | error e => simp [hv, hr, Except.map] at ok
      | ok r =>
        simp only [hv, hr, Except.map, Except.ok.injEq] at ok
        simp [← ok, ih hr]

def renderPayload (context fields : Payload) : Except Error Payload :=
  match h : renderFields context.toJson fields.entries with
  | .error e => .error e
  | .ok rendered => .ok ⟨rendered, renderFieldsKeys h ▸ fields.distinct⟩

def payloadOf : Json → Except Error Payload
  | .obj fields => .ok (.ofList fields)
  | .null => .ok .empty
  | other => .error (.invalidInput other.kind)

end Orchestration.Template
