import Orchestration.Proofs.Collection.FirstLast
import Orchestration.Proofs.Collection.OrderedMap
import Orchestration.Run.Context

/-! A run context told from outside: by the steps that have completed and what they gave.
The table under `steps` has each id where it first completed, with the outputs it gave
last. The parameters of a step enter its own input only, so nothing here mentions them. -/
namespace Orchestration

structure CompletedStep where
  id : String
  outputs : Payload
  deriving DecidableEq, Repr

namespace CompletedStep

def ids (done : List CompletedStep) : List String := (done.map (·.id)).eraseDups

theorem idsNodup (done : List CompletedStep) : (ids done).Nodup := eraseDupsNodup _

def latest? (done : List CompletedStep) (id : String) : Option Payload :=
  (done.reverse.find? (·.id = id)).map (·.outputs)

def entry (outputs : Payload) : Json := .obj [("outputs", outputs.toJson)]

def table (done : List CompletedStep) : Payload where
  entries := (ids done).map fun id => (id, entry ((latest? done id).getD .empty))
  distinct := by simpa [List.map_map, Function.comp_def] using idsNodup done

theorem idsSnoc (done : List CompletedStep) (s : CompletedStep) :
    ids (done ++ [s]) = if s.id ∈ ids done then ids done else ids done ++ [s.id] := by
  simp only [ids, List.map_append, List.map_cons, List.map_nil, eraseDupsSnoc, List.mem_eraseDups]

theorem latestSnoc (done : List CompletedStep) (s : CompletedStep) (id : String) :
    latest? (done ++ [s]) id = if s.id = id then some s.outputs else latest? done id := by
  by_cases same : s.id = id <;> simp [latest?, same]

theorem latestEqNone {done : List CompletedStep} {id : String} :
    latest? done id = none ↔ id ∉ ids done := by
  simp [latest?, ids]

@[simp] theorem tableKeys (done : List CompletedStep) : (table done).keys = ids done := by
  simp [table, OrderedMap.keys, List.map_map, Function.comp_def]

theorem getMapped {names : List String} {value : String → Json} {id : String} (inside : id ∈ names) :
    Entries.get? id (names.map fun name => (name, value name)) = some (value id) := by
  induction names with
  | nil => simp at inside
  | cons name rest ih =>
    by_cases same : name = id
    · simp [Entries.get?, same]
    · simp only [List.map_cons, Entries.get?, same, if_false]
      exact ih ((List.mem_cons.1 inside).resolve_left (Ne.symm same))

theorem tableGet (done : List CompletedStep) (id : String) :
    (table done).get? id = (latest? done id).map entry := by
  cases found : latest? done id with
  | none =>
    have absent : id ∉ (table done).keys := by simpa using latestEqNone.1 found
    exact OrderedMap.getEqNone.2 absent
  | some outputs =>
    have inside : id ∈ ids done := by
      refine Decidable.not_not.1 fun absent => ?_
      simp [latestEqNone.2 absent] at found
    have value := @getMapped _ (fun id => entry ((latest? done id).getD .empty)) _ inside
    simpa [OrderedMap.get?, table, found] using value

theorem tableSnoc (done : List CompletedStep) (s : CompletedStep) :
    table (done ++ [s]) = (table done).insert s.id (entry s.outputs) := by
  refine OrderedMap.eqOfGet ?_ fun id _ => ?_
  · simp only [tableKeys, OrderedMap.keysInsert, idsSnoc]
  · simp only [OrderedMap.getInsert, tableGet, latestSnoc]
    split <;> rfl

end CompletedStep

namespace RunContext

def after (payload : Payload) (done : List CompletedStep) : RunContext :=
  ⟨payload, CompletedStep.table done, CompletedStep.ids done⟩

theorem afterNone (payload : Payload) : after payload [] = start payload := rfl

theorem recordAfter (payload : Payload) (done : List CompletedStep) (id : String) (outputs : Payload) :
    (after payload done).record id outputs = after payload (done ++ [⟨id, outputs⟩]) := by
  simp only [record, after, CompletedStep.tableSnoc, CompletedStep.idsSnoc, CompletedStep.entry,
    List.contains_iff_mem]

theorem sharedInsert (c : RunContext) : c.shared = c.input.insert "steps" c.steps.toJson := by
  simp only [shared, OrderedMap.mergeAll, List.foldl_cons, List.foldl_nil, OrderedMap.insertAllEmpty]
  rfl

end RunContext

def Step.inputOver (s : Step) (payload steps : Payload) : Except Error Payload :=
  match s.params with
  | none => .ok .empty
  | some params =>
    let seen := [payload, OrderedMap.empty.insert "steps" steps.toJson]
    (Template.renderPayload (.mergeAll seen) params).map fun rendered => .mergeAll (seen ++ [rendered])

theorem Step.inputMerged (s : Step) (c : RunContext) : s.input c = s.inputOver c.input c.steps := by
  cases given : s.params with
  | none => simp only [Step.input, Step.inputOver, given]
  | some params =>
    simp only [Step.input, Step.inputOver, given, RunContext.shared, OrderedMap.mergeAllAgain]

theorem Step.inputAfter (s : Step) (payload : Payload) (done : List CompletedStep) :
    s.input (.after payload done) = s.inputOver payload (CompletedStep.table done) :=
  s.inputMerged (.after payload done)

end Orchestration
