import Orchestration.Json.Text
import Orchestration.Text.Quoted
import Orchestration.Workflow.Reading

/-! Definitions as JSON values, both ways. Written members keep the order of their
declaration and an absent option is left out. Read records may also be arrays,
whose items are the members in that order. -/
namespace Orchestration

def optionField (name : String) (value : Option Json) : List (String × Json) :=
  (value.map fun v => (name, v)).toList

def Step.toJson (s : Step) : Json :=
  .obj ([("name", .str s.name), ("id", .str s.id), ("actionId", .str s.actionId)] ++
    optionField "timeout" (s.timeout.map .str) ++ optionField "with" (s.params.map Payload.toJson))

def Job.toJson (j : Job) : Json :=
  .obj ([("queue", .str j.queue)] ++ optionField "timeout" (j.timeout.map .str) ++
    [("steps", .arr (j.steps.map Step.toJson))])

def CronTrigger.toJson (c : CronTrigger) : Json := .obj [("schedule", .str c.schedule)]

def Triggers.toJson (t : Triggers) : Json :=
  .obj ([("events", .arr (t.events.map .str))] ++ optionField "cron" (t.cron.map CronTrigger.toJson))

def Definition.toJson (d : Definition) : Json :=
  .obj [("name", .str d.name), ("on", d.triggers.toJson),
    ("jobs", .obj (d.jobs.entries.map fun e => (e.1, e.2.toJson)))]

def Summary.toJson (s : Summary) : Json :=
  .obj [("name", .str s.name), ("events", .arr (s.events.map .str)),
    ("schedule", (s.schedule.map Json.str).getD .null), ("jobs", .arr (s.jobs.map .str))]

namespace JsonReader

def found : Json → String
  | .null => "null"
  | .bool b => "boolean `" ++ (Json.bool b).render ++ "`"
  | .int n => "integer `" ++ toString n ++ "`"
  | .float bits => "floating point `" ++ (Json.float bits).render ++ "`"
  | .str s => "string " ++ Text.quoted s
  | .arr _ => "sequence"
  | .obj _ => "map"

def text (expected : String) : Json → Except Misfit String
  | .str s => .ok s
  | other => .error (.invalidType (found other) expected)

def present : Json → Except Misfit (Option Json)
  | .null => .ok none
  | other => .ok (some other)

def items : Json → Except Misfit (List Json)
  | .arr xs => .ok xs
  | other => .error (.invalidType (found other) "a sequence")

def keyed (fields : List (String × Json)) : List (Json × Json) :=
  fields.map fun (key, value) => (.str key, value)

def entries : Json → Except Misfit (List (Json × Json))
  | .obj fields => .ok (keyed fields)
  | other => .error (.invalidType (found other) "a map")

def countText (n : Nat) : String := toString n ++ (if n = 1 then " element" else " elements")

def record (shape : Shape) : Json → Except Misfit (Members Json)
  | .obj fields => .ok ⟨keyed fields, .missingField, none⟩
  | .arr xs =>
    let expected := "struct " ++ shape.name ++ " with " ++ countText shape.fields.length
    .ok ⟨(shape.fields.map Json.str).zip xs,
      fun name => .invalidLength (shape.fields.idxOf name) expected,
      if shape.fields.length < xs.length then
        some (.invalidLength xs.length "fewer elements in array")
      else none⟩
  | other => .error (.invalidType (found other) ("struct " ++ shape.name))

def place : Json → Place
  | .str key => .key key
  | _ => .unnamed

def reader : Reader Json := ⟨text, present, items, record, entries, place, .ok⟩

end JsonReader

def Job.ofJson (j : Json) : Except Error Job :=
  (Job.read JsonReader.reader j).mapError fun f => .json f.misfit.message

def Definition.ofJson (j : Json) : Except Error Definition :=
  (Definition.read JsonReader.reader j).mapError fun f => .json f.misfit.message

end Orchestration
