import Orchestration.Proofs.Collection.Merge
import Orchestration.Proofs.Run.Context

/-! What a run gathers, for any row of records. The list of completed ids and the table under
`steps` name the same steps in the same order, the table holds what was recorded last, and the
context that templates are filled from is the payload with that table laid over it. Laying maps
over one another can be done in stages, so the input of a step is one merge of three maps. -/
namespace Orchestration

namespace CompletedStep

def Latest (records : List CompletedStep) (id : String) (outputs : Payload) : Prop :=
  ∃ before after, records = before ++ ⟨id, outputs⟩ :: after ∧ ∀ r ∈ after, r.id ≠ id

theorem latestIff {records : List CompletedStep} {id : String} {outputs : Payload} :
    latest? records id = some outputs ↔ Latest records id outputs := by
  rw [latest?, Option.map_eq_some_iff]
  constructor
  · intro found
    obtain ⟨r, last, rfl⟩ := found
    obtain ⟨before, after, cut, own, others⟩ := findLast.1 last
    obtain rfl : r.id = id := by simpa using own
    exact ⟨before, after, cut, fun s inside => by simpa using others s inside⟩
  · intro found
    obtain ⟨before, after, cut, others⟩ := found
    refine ⟨⟨id, outputs⟩, findLast.2 ⟨before, after, cut, by simp, fun s inside => ?_⟩, rfl⟩
    simpa using others s inside

theorem latestNone {records : List CompletedStep} {id : String} :
    latest? records id = none ↔ ∀ r ∈ records, r.id ≠ id := by
  simp [latest?]

end CompletedStep

namespace RunContext

def recordAll (c : RunContext) (records : List CompletedStep) : RunContext :=
  records.foldl (fun c r => c.record r.id r.outputs) c

theorem recordAllAfter (payload : Payload) (done records : List CompletedStep) :
    (after payload done).recordAll records = after payload (done ++ records) := by
  induction records generalizing done with
  | nil => rw [List.append_nil]; rfl
  | cons r rest ih =>
    have step : (after payload done).recordAll (r :: rest) =
        ((after payload done).record r.id r.outputs).recordAll rest := rfl
    rw [step, recordAfter, ih, List.append_assoc]
    rfl

theorem outputsAfter (payload : Payload) (done : List CompletedStep) (id : String) :
    (after payload done).outputs id = (CompletedStep.latest? done id).map Payload.toJson := by
  have entry : (after payload done).steps.get? id =
      (CompletedStep.latest? done id).map CompletedStep.entry := CompletedStep.tableGet done id
  rw [outputs, entry]
  cases CompletedStep.latest? done id <;> rfl

/-- After any row of records, whatever their ids: the completed ids are those that the table has, each
once and in the order in which they were first recorded; the outputs of an id are those that were
recorded for it last, and there are none only if it was never recorded; and the shared context
has the keys and values of the input as they stand, but the table under `steps`. -/
theorem recordsGathered (input : Payload) (records : List CompletedStep) :
    let c := (start input).recordAll records
    (c.completed.Nodup ∧ c.completed = c.steps.keys ∧ FirstCome (records.map (·.id)) c.completed) ∧
    (∀ id value, c.outputs id = some value ↔
      ∃ outputs, CompletedStep.Latest records id outputs ∧ value = outputs.toJson) ∧
    (∀ id, c.outputs id = none ↔ ∀ r ∈ records, r.id ≠ id) ∧
    (∀ id, c.steps.get? id = (c.outputs id).map fun outputs => .obj [("outputs", outputs)]) ∧
    c.shared.keys = (if "steps" ∈ input.keys then input.keys else input.keys ++ ["steps"]) ∧
    (∀ key, key ≠ "steps" → c.shared.get? key = input.get? key) ∧
    c.shared.get? "steps" = some c.steps.toJson := by
  intro c
  have told : c = after input records := recordAllAfter input [] records
  rw [told]
  have first := eraseDupsFirstCome (records.map (·.id))
  refine ⟨⟨first.nodup, (CompletedStep.tableKeys records).symm, first⟩, fun id value => ?_, fun id => ?_,
    fun id => ?_, ?_, fun key apart => ?_, ?_⟩
  · rw [outputsAfter, Option.map_eq_some_iff]
    simp only [CompletedStep.latestIff, eq_comm (a := value)]
  · rw [outputsAfter, Option.map_eq_none_iff]
    exact CompletedStep.latestNone
  · rw [outputsAfter, Option.map_map]
    exact CompletedStep.tableGet records id
  · rw [sharedInsert, OrderedMap.keysInsert]
    rfl
  · rw [sharedInsert, OrderedMap.getInsert, if_neg (Ne.symm apart)]
    rfl
  · rw [sharedInsert, OrderedMap.getInsert, if_pos rfl]

end RunContext

namespace Payload
open OrderedMap (mergeAll LastGives)

/-- Merging two rows of maps and then their merges is merging all at once, the order of keys
included: a key has the value of the last map with it and the place of the first, and no other
keys come in. A map without entries changes nothing on either side, and neither does the map
itself. So it makes no difference to the input of a step whether its context was merged before. -/
theorem mergedInStages :
    mergeAll [] = (.empty : Payload) ∧
    (∀ xs ys : List Payload, mergeAll (xs ++ ys) = mergeAll [mergeAll xs, mergeAll ys]) ∧
    (∀ (maps : List Payload) (key : String) (value : Json),
      (mergeAll maps).get? key = some value ↔ LastGives maps key value) ∧
    (∀ maps : List Payload, FirstCome (maps.flatMap (·.keys)) (mergeAll maps).keys) ∧
    (∀ m : Payload, mergeAll [.empty, m] = m ∧ mergeAll [m, .empty] = m ∧ mergeAll [m, m] = m) ∧
    ∀ (s : Step) (c : RunContext), s.input c = match s.params with
      | none => .ok .empty
      | some params => (Template.renderPayload c.shared params).map fun rendered =>
          mergeAll [c.input, OrderedMap.empty.insert "steps" c.steps.toJson, rendered] := by
  refine ⟨rfl, OrderedMap.mergeAllAppend, fun maps key value => OrderedMap.getMergeAllIff, fun maps => ?_,
    fun m => ⟨m.mergeEmptyLeft, m.mergeEmptyRight, m.mergeSelf⟩, fun s c => ?_⟩
  · exact firstComeIff.2 (OrderedMap.keysMergeAll maps)
  · rw [s.inputMerged, Step.inputOver]
    cases s.params <;> rfl

end Payload
end Orchestration
