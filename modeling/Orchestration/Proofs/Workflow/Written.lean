import Orchestration.Http.Service
import Orchestration.Proofs.Collection.OrderedMap
import Orchestration.Proofs.Collection.SortedMap

/-! Definitions as written, read back. The shapes of reading and writing are one each for all
notations, so it is enough that a notation conveys the values themselves: texts, lists and members
as they stand, and every value but null as present. A written definition holds no null of its own;
what is left out is read as absent. -/
namespace Orchestration

def writtenFields {ν : Type} (write : Json → ν) (fields : List (String × Json)) : List (ν × ν) :=
  fields.map fun f => (write (.str f.1), write f.2)

/-- A notation in which JSON values are written so that they are read as they stand. -/
structure Reader.Conveys {ν : Type} (r : Reader ν) (write : Json → ν) : Prop where
  text : ∀ expected s, r.text expected (write (.str s)) = .ok s
  present : ∀ v, v ≠ .null → r.present (write v) = .ok (some (write v))
  items : ∀ vs, r.items (write (.arr vs)) = .ok (vs.map write)
  entries : ∀ fields, r.entries (write (.obj fields)) = .ok (writtenFields write fields)
  record : ∀ shape fields, ∃ missing, r.record shape (write (.obj fields)) =
    .ok ⟨writtenFields write fields, missing, none⟩
  json : ∀ v, r.json (write v) = .ok v

theorem JsonReader.conveys : JsonReader.reader.Conveys fun v => v where
  text _ _ := rfl
  present v there := by cases v <;> first | rfl | exact absurd rfl there
  items vs := by rw [List.map_id']; rfl
  entries _ := rfl
  record _ _ := ⟨.missingField, rfl⟩
  json _ := rfl

theorem withinOk {α : Type} {read : Read α} {a : α} (place : Place) (ok : read = .ok a) :
    within place read = .ok a := by
  rw [ok]
  rfl

theorem onceNew {α β : Type} {name : String} {read : Read α} {a : α} (f : Option α → β)
    (ok : read = .ok a) : (once name none read).map f = .ok (f (some a)) := by
  rw [once, ok]
  rfl

theorem eachBack {α ν : Type} {read : ν → Read α} {write : α → ν} {as : List α}
    (back : ∀ a ∈ as, read (write a) = .ok a) (i : Nat) : Reader.each read i (as.map write) = .ok as := by
  induction as generalizing i with
  | nil => rfl
  | cons a as ih =>
    obtain ⟨first, others⟩ := List.forall_mem_cons.1 back
    simp only [List.map_cons, Reader.each, withinOk _ first, ih others]
    rfl

namespace Reader.Conveys
variable {ν : Type} {r : Reader ν} {write : Json → ν} (conveys : r.Conveys write)
include conveys

theorem string (s : String) : r.string (write (.str s)) = .ok s := by
  rw [Reader.string, conveys.text]
  rfl

theorem optional {α : Type} {read : ν → Read α} {v : Json} {a : α} (place : Place)
    (there : v ≠ .null) (back : read (write v) = .ok a) :
    r.optional place read (write v) = .ok (some a) := by
  rw [Reader.optional, conveys.present v there]
  simp only [withinOk place back]
  rfl

theorem list {α : Type} {read : ν → Read α} {toJson : α → Json} {as : List α}
    (back : ∀ a ∈ as, read (write (toJson a)) = .ok a) :
    r.list read (write (.arr (as.map toJson))) = .ok as := by
  simp only [Reader.list, conveys.items, List.map_map]
  exact eachBack back 0

section
variable {δ α : Type} {expected : String} {take : δ → String → Place → ν → Read δ} {d : δ}

theorem memberTaken {key : String} {v : Json} {rest : List (String × Json)} (next : δ)
    (taken : ∀ place, take d key place (write v) = .ok next) :
    r.eachEntry expected take d (writtenFields write ((key, v) :: rest)) =
      r.eachEntry expected take next (writtenFields write rest) := by
  rw [writtenFields, List.map_cons, Reader.eachEntry, conveys.text]
  simp only [taken]
  rfl

theorem optionTaken {key : String} {toJson : α → Json} (draft : Option (Option α) → δ)
    (taken : ∀ a place, take (draft none) key place (write (toJson a)) = .ok (draft (some (some a))))
    (value : Option α) (rest : List (String × Json)) :
    r.eachEntry expected take (draft none)
        (writtenFields write (optionField key (value.map toJson) ++ rest)) =
      r.eachEntry expected take (draft (value.map some)) (writtenFields write rest) := by
  cases value with
  | none => rfl
  | some a => exact conveys.memberTaken _ (taken a)

theorem membersTaken (d : δ) {key : α → String} {toJson : α → Json} {add : δ → α → δ} {as : List α}
    (taken : ∀ d, ∀ a ∈ as, ∀ place, take d (key a) place (write (toJson a)) = .ok (add d a)) :
    r.eachEntry expected take d (writtenFields write (as.map fun a => (key a, toJson a))) =
      .ok (as.foldl add d) := by
  induction as generalizing d with
  | nil => rfl
  | cons a as ih =>
    rw [List.map_cons, List.foldl_cons, conveys.memberTaken _ (taken d a List.mem_cons_self)]
    exact ih _ fun d a inside => taken d a (List.mem_cons_of_mem _ inside)

theorem struct {shape : Shape} {finish : (String → Misfit) → δ → Except Misfit α}
    {fields : List (String × Json)} {a : α} (next : δ)
    (taken : r.eachEntry "field identifier" take d (writtenFields write fields) = .ok next)
    (finished : ∀ missing, finish missing next = .ok a) :
    r.struct shape d take finish (write (.obj fields)) = .ok a := by
  obtain ⟨missing, record⟩ := conveys.record shape fields
  rw [Reader.struct, record]
  simp only [taken, finished]

end

theorem payload (p : Payload) : payloadRead r (write p.toJson) = .ok p := by
  have taken (d : Payload) : ∀ e ∈ p.entries, ∀ place,
      payloadTake r d e.1 place (write e.2) = .ok (d.insert e.1 e.2) := by
    intro e _ place
    rw [payloadTake, withinOk place (conveys.json e.2)]
    rfl
  have all : r.eachEntry "a string" (payloadTake r) .empty
      (writtenFields write (p.entries.map fun e => (e.1, e.2))) = .ok (OrderedMap.empty.insertAll p.entries) :=
    conveys.membersTaken .empty taken
  rw [List.map_id'] at all
  rw [payloadRead, Payload.toJson, conveys.entries]
  exact all.trans (congrArg Except.ok p.insertAllEmpty)

theorem textWithin (s : String) (place : Place) :
    within place (r.string (write (.str s))) = .ok s := withinOk place (conveys.string s)

theorem optionalText (s : String) (place : Place) :
    r.optional place r.string (write (.str s)) = .ok (some s) :=
  conveys.optional place nofun (conveys.string s)

theorem step (s : Step) : Step.read r (write s.toJson) = .ok s := by
  obtain ⟨name, id, actionId, timeout, params⟩ := s
  have members : (Step.mk name id actionId timeout params).toJson = .obj (("name", .str name) ::
      ("id", .str id) :: ("actionId", .str actionId) :: (optionField "timeout" (timeout.map .str) ++
        (optionField "with" (params.map Payload.toJson) ++ []))) := by
    simp [Step.toJson]
  have paramsTaken (params : Payload) (place : Place) :
      r.optional place (payloadRead r) (write params.toJson) = .ok (some params) :=
    conveys.optional place nofun (conveys.payload params)
  rw [members]
  refine conveys.struct ⟨some name, some id, some actionId, timeout.map some, params.map some⟩
    ?_ fun missing => by cases timeout <;> cases params <;> rfl
  refine (conveys.memberTaken ⟨some name, none, none, none, none⟩ fun place =>
    onceNew _ (conveys.textWithin name place)).trans ?_
  refine (conveys.memberTaken ⟨some name, some id, none, none, none⟩ fun place =>
    onceNew _ (conveys.textWithin id place)).trans ?_
  refine (conveys.memberTaken ⟨some name, some id, some actionId, none, none⟩ fun place =>
    onceNew _ (conveys.textWithin actionId place)).trans ?_
  refine (conveys.optionTaken (StepDraft.mk (some name) (some id) (some actionId) · none)
    (fun timeout place => onceNew _ (conveys.optionalText timeout place)) timeout _).trans ?_
  exact conveys.optionTaken (StepDraft.mk (some name) (some id) (some actionId) (timeout.map some) ·)
    (fun params place => onceNew _ (paramsTaken params place)) params []

theorem job (j : Job) : Job.read r (write j.toJson) = .ok j := by
  obtain ⟨queue, timeout, steps⟩ := j
  refine conveys.struct ⟨some queue, timeout.map some, some steps⟩ ?_
    fun missing => by cases timeout <;> rfl
  rw [List.append_assoc, List.cons_append, List.nil_append]
  refine (conveys.memberTaken ⟨some queue, none, none⟩ fun place =>
    onceNew _ (conveys.textWithin queue place)).trans ?_
  refine (conveys.optionTaken (JobDraft.mk (some queue) · none)
    (fun timeout place => onceNew _ (conveys.optionalText timeout place)) timeout _).trans ?_
  exact conveys.memberTaken (JobDraft.mk (some queue) (timeout.map some) (some steps)) fun place =>
    onceNew _ (withinOk place (conveys.list fun s _ => conveys.step s))

theorem cron (c : CronTrigger) : CronTrigger.read r (write c.toJson) = .ok c := by
  refine conveys.struct (some c.schedule) ?_ fun missing => rfl
  refine conveys.memberTaken (some c.schedule) fun place => ?_
  rw [CronTrigger.take, if_pos rfl, once, conveys.textWithin]
  rfl

theorem triggers (t : Triggers) : Triggers.read r (write t.toJson) = .ok t := by
  obtain ⟨events, cron⟩ := t
  have cronTaken (cron : CronTrigger) (place : Place) :
      r.optional place (CronTrigger.read r) (write cron.toJson) = .ok (some cron) :=
    conveys.optional place nofun (conveys.cron cron)
  refine conveys.struct ⟨some events, cron.map some⟩ ?_ fun missing => by cases cron <;> rfl
  rw [← List.append_nil (_ ++ _), List.append_assoc, List.cons_append, List.nil_append]
  refine (conveys.memberTaken ⟨some events, none⟩ fun place =>
    onceNew _ (withinOk place (conveys.list fun event _ => conveys.string event))).trans ?_
  exact conveys.optionTaken (TriggersDraft.mk (some events) ·)
    (fun cron place => onceNew _ (cronTaken cron place)) cron []

theorem jobs (m : SortedMap Job) :
    jobsRead r (write (.obj (m.entries.map fun e => (e.1, e.2.toJson)))) = .ok m := by
  have taken (d : SortedMap Job) : ∀ e ∈ m.entries, ∀ place,
      jobsTake r d e.1 place (write e.2.toJson) = .ok (d.insert e.1 e.2) := by
    intro e _ place
    rw [jobsTake, withinOk place (conveys.job e.2)]
    rfl
  have all : r.eachEntry "a string" (jobsTake r) .empty
      (writtenFields write (m.entries.map fun e => (e.1, e.2.toJson))) = .ok (SortedMap.ofList m.entries) :=
    conveys.membersTaken .empty taken
  rw [jobsRead, conveys.entries]
  exact all.trans (congrArg Except.ok m.ofListEntries)

theorem definition (d : Definition) : Definition.read r (write d.toJson) = .ok d := by
  obtain ⟨name, triggers, jobs⟩ := d
  refine conveys.struct ⟨some name, some triggers, some jobs⟩ ?_ fun missing => rfl
  refine (conveys.memberTaken ⟨some name, none, none⟩ fun place =>
    onceNew _ (conveys.textWithin name place)).trans ?_
  refine (conveys.memberTaken ⟨some name, some triggers, none⟩ fun place =>
    onceNew _ (withinOk place (conveys.triggers triggers))).trans ?_
  exact conveys.memberTaken (DefinitionDraft.mk (some name) (some triggers) (some jobs)) fun place =>
    onceNew _ (withinOk place (conveys.jobs jobs))

end Reader.Conveys

theorem Definition.ofJsonWritten (d : Definition) : Definition.ofJson d.toJson = .ok d := by
  rw [Definition.ofJson, JsonReader.conveys.definition d]
  rfl

namespace HttpService

structure Reads (request : HttpRequest) (name : String) : Prop where
  got : request.method = "GET"
  placed : ∃ segment, Route.of? request.target = some (.workflow segment) ∧
    Route.decoded segment = .ok name

theorem respondRead {σ η κ : Type} (p : Platform σ η κ) (moment : Nat) {registry : WorkflowRegistry}
    {request : HttpRequest} {d : Definition} (reads : Reads request d.name)
    (loaded : registry.get? d.name = some d) (f : Fleet η κ) :
    respond p moment registry request f = (.json 200 d.toJson, f) := by
  obtain ⟨got, segment, placed, decoded⟩ := reads
  have allowed : (Route.workflow segment).methods.contains "GET" = true := rfl
  have answered : reading registry segment = .json 200 d.toJson := by
    simp only [reading, decoded, loaded]
  simp only [respond, placed, got, allowed, if_true, atRoute, answered]
  rw [if_neg (by decide)]

end HttpService

/-- A definition that is written and read back is the same definition, in every notation that conveys
the values and so as a JSON value; therefore no two are written alike. That value is the body of the
answer to a request for the definition. -/
theorem Definition.readBack (d : Definition) :
    Definition.ofJson d.toJson = .ok d ∧
    (∀ {ν : Type} (r : Reader ν) (write : Json → ν), r.Conveys write →
      Definition.read r (write d.toJson) = .ok d) ∧
    (∀ other : Definition, other.toJson = d.toJson → other = d) ∧
    ∀ {σ η κ : Type} (p : Platform σ η κ) (moment : Nat) (registry : WorkflowRegistry)
      (request : HttpRequest) (f : Fleet η κ), HttpService.Reads request d.name →
      registry.get? d.name = some d →
      HttpService.respond p moment registry request f = (.json 200 d.toJson, f) := by
  refine ⟨d.ofJsonWritten, fun r write conveys => conveys.definition d, fun other same => ?_,
    fun p moment registry request f reads loaded => HttpService.respondRead p moment reads loaded f⟩
  have back := other.ofJsonWritten
  rw [same, d.ofJsonWritten] at back
  exact (Except.ok.inj back).symm

end Orchestration
