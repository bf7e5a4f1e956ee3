import Orchestration.Proofs.Run.Walk
import Orchestration.Proofs.Template.Leaves
import Orchestration.Proofs.Template.Marker

/-! References from one step to another. A parameter that is one marker over a path into
`steps` stands for what the named step gave last under the key, type included; it leads
nowhere when there is no such output, whatever the payload of the run holds. -/
namespace Orchestration

namespace Template

def reference (dotted : Bool) (id key : String) : String :=
  "\x7b\x7b " ++ (if dotted then "." else "") ++ "steps." ++ id ++ ".outputs." ++ key ++ " \x7d\x7d"

def referencePath (id key : String) : List Char :=
  "steps".toList ++ '.' :: (id.toList ++ '.' :: ("outputs".toList ++ '.' :: key.toList))

def referenceInner (dotted : Bool) (id key : String) : List Char :=
  [' '] ++ (((if dotted then ['.'] else []) ++ referencePath id key) ++ [' '])

theorem referenceChars (dotted : Bool) (id key : String) :
    (reference dotted id key).toList =
      [openBrace, openBrace] ++ referenceInner dotted id key ++ [closeBrace, closeBrace] := by
  cases dotted <;>
    simp [reference, referenceInner, referencePath, String.toList_append, openBrace, closeBrace]

section
variable {id key : String} (nameable : Nameable id) (keyed : Nameable key)
include nameable keyed

theorem referencePairless (dotted : Bool) {c : Char} (brace : c = openBrace ∨ c = closeBrace) :
    hasPair c (referenceInner dotted id key) = false := by
  have plain (name : String) (fit : Nameable name) : hasPair c name.toList = false := by
    rw [← Bool.not_eq_true, hasPairIff]
    rcases brace with rfl | rfl
    · exact fit.unopened
    · exact fit.unclosed
  have blank : ' ' ≠ c := by rcases brace with rfl | rfl <;> decide
  have dot : '.' ≠ c := by rcases brace with rfl | rfl <;> decide
  have steps : hasPair c "steps".toList = false := by rcases brace with rfl | rfl <;> decide
  have outputs : hasPair c "outputs".toList = false := by rcases brace with rfl | rfl <;> decide
  have none : hasPair c [] = false := rfl
  have path : hasPair c (referencePath id key) = false := by
    rw [referencePath, hasPairApart dot, hasPairApart dot, hasPairApart dot, steps, outputs,
      plain id nameable, plain key keyed]
    rfl
  have dots : hasPair c ((if dotted then ['.'] else []) ++ referencePath id key) = false := by
    cases dotted with
    | false => exact path
    | true =>
      have marked := hasPairApart dot [] (referencePath id key)
      rw [none, path] at marked
      exact marked
  have ended := hasPairApart blank ((if dotted then ['.'] else []) ++ referencePath id key) []
  rw [dots, none] at ended
  have padded := hasPairApart blank []
    (((if dotted then ['.'] else []) ++ referencePath id key) ++ [' '])
  rw [none, ended] at padded
  exact padded

theorem referenceSplit :
    splitDots (referencePath id key) = ["steps".toList, id.toList, "outputs".toList, key.toList] := by
  rw [referencePath, splitDotsNext (by decide), splitDotsNext nameable.undotted,
    splitDotsNext (by decide), splitDotsLast keyed.undotted]

theorem referenceNames (dotted : Bool)
    (ends : ∀ c, key.toList.getLast? = some c → Text.isBlank c = false) :
    path? (referenceInner dotted id key) = some ["steps", id, "outputs", key] := by
  have dots : ∀ c ∈ (if dotted then ['.'] else []), c = '.' := by cases dotted <;> simp
  have first : ∀ c, (referencePath id key).head? = some c → Text.isBlank c = false ∧ c ≠ '.' := by
    rintro c ⟨⟩
    decide
  have last : ∀ c, (referencePath id key).getLast? = some c → Text.isBlank c = false := by
    intro c same
    refine ends c ?_
    have filled := List.getLast?_eq_some_getLast keyed.filled
    simpa [referencePath, List.getLast?_append, List.getLast?_cons, filled] using same
  rw [referenceInner, pathPadded dots first last, referenceSplit nameable keyed]
  have valid : ∀ name ∈ ["steps".toList, id.toList, "outputs".toList, key.toList],
      validSegment name = true := by
    simp only [List.forall_mem_cons, nameable.valid, keyed.valid, List.not_mem_nil, false_implies,
      implies_true, and_true, true_and]
    decide
  rw [if_pos (List.all_eq_true.2 valid)]
  simp only [List.map_cons, List.map_nil, String.ofList_toList]

theorem renderReference (context : Json) (dotted : Bool)
    (ends : ∀ c, key.toList.getLast? = some c → Text.isBlank c = false) :
    (∀ value, walk context ["steps", id, "outputs", key] = some value →
        renderText context (reference dotted id key) = .ok value) ∧
      (walk context ["steps", id, "outputs", key] = none →
        ∃ e, renderText context (reference dotted id key) = .error e) := by
  have single := singleMarker (referencePairless nameable keyed dotted (.inl rfl))
    (referencePairless nameable keyed dotted (.inr rfl))
  have opened : hasPair openBrace (reference dotted id key).toList = true := by
    rw [referenceChars, hasPairIff, List.append_assoc]
    exact List.infix_append' [] _ _
  have looked : renderText context (reference dotted id key) =
      lookup context (referenceInner dotted id key) := by
    rw [renderText, opened, referenceChars, single]
    rfl
  rw [looked, lookup, referenceNames nameable keyed dotted ends, Option.bind_some]
  refine ⟨fun value found => by rw [found], fun missing => ?_⟩
  rw [missing]
  exact ⟨_, rfl⟩

end

end Template

namespace CompletedStep

def recorded? (done : List CompletedStep) (id key : String) : Option Json :=
  (latest? done id).bind (·.get? key)

theorem walkRecorded {context : Payload} {done : List CompletedStep}
    (shared : context.get? "steps" = some (table done).toJson) (id key : String) :
    Template.walk context.toJson ["steps", id, "outputs", key] = recorded? done id key := by
  have steps : context.toJson.field? "steps" = some (table done).toJson := shared
  have step : (table done).toJson.field? id = (latest? done id).map entry := tableGet done id
  simp only [Template.walk, steps, step, recorded?]
  cases latest? done id with
  | none => rfl
  | some outputs =>
    have own : (entry outputs).field? "outputs" = some outputs.toJson := rfl
    have field : outputs.toJson.field? key = outputs.get? key := rfl
    simp only [Option.map_some, own, field, Option.bind_some]
    cases outputs.get? key <;> rfl

end CompletedStep

namespace Step
open Template

def seen (payload : Payload) (done : List CompletedStep) : List Payload :=
  [payload, OrderedMap.empty.insert "steps" (CompletedStep.table done).toJson]

theorem seenSteps (payload : Payload) (done : List CompletedStep) :
    (OrderedMap.mergeAll (seen payload done)).get? "steps" =
      some (CompletedStep.table done).toJson := by
  rw [seen, ← List.singleton_append, OrderedMap.getMergeLast, OrderedMap.getInsert, if_pos rfl]
  rfl

theorem inputFilled {s : Step} {payload params : Payload} (given : s.params = some params)
    (done : List CompletedStep) :
    s.input (.after payload done) =
      (renderPayload (.mergeAll (seen payload done)) params).map fun rendered =>
        .mergeAll (seen payload done ++ [rendered]) := by
  rw [inputAfter, inputOver, given]
  rfl

theorem overlaid {rendered : Payload} {payloads : List Payload} {path : List Json.Place} {value : Json}
    (place : rendered.toJson.at? path = some value) (deep : path ≠ []) :
    (Payload.toJson (.mergeAll (payloads ++ [rendered]))).at? path = some value := by
  cases path with
  | nil => exact absurd rfl deep
  | cons first rest =>
    obtain ⟨child, here, below⟩ := Option.bind_eq_some_iff.1 place
    cases first with
    | item index => cases here
    | field key =>
      have own : (OrderedMap.mergeAll (payloads ++ [rendered])).get? key = some child := by
        have found : rendered.get? key = some child := here
        rw [OrderedMap.getMergeLast, found]
        rfl
      exact Option.bind_eq_some_iff.2 ⟨child, own, below⟩

theorem inputReference {s : Step} {payload params : Payload} {path : List Json.Place}
    {id key : String} {dotted : Bool} (given : s.params = some params)
    (asks : params.toJson.at? path = some (.str (reference dotted id key))) (nameable : Nameable id)
    (keyed : Nameable key) (ends : ∀ c, key.toList.getLast? = some c → Text.isBlank c = false)
    (done : List CompletedStep) :
    (∀ value, CompletedStep.recorded? done id key = some value →
        ∀ input, s.input (.after payload done) = .ok input → input.toJson.at? path = some value) ∧
      (CompletedStep.recorded? done id key = none →
        ∃ expression, s.input (.after payload done) = .error (.templateResolution expression)) := by
  have shared := CompletedStep.walkRecorded (seenSteps payload done) id key
  obtain ⟨reads, fails⟩ := renderReference nameable keyed
    (Payload.toJson (.mergeAll (seen payload done))) dotted ends
  rw [shared] at reads fails
  have whole := renderPayloadValue (.mergeAll (seen payload done)) params
  rw [inputFilled given done]
  cases rendered : renderPayload (.mergeAll (seen payload done)) params with
  | error e =>
    rw [rendered] at whole
    obtain ⟨expression, rfl⟩ := renderValueError _ whole.symm
    refine ⟨fun value found input ok => ?_, fun _ => ⟨expression, rfl⟩⟩
    cases ok
  | ok filled =>
    rw [rendered] at whole
    obtain ⟨leaf, read, place⟩ := renderAt whole.symm asks
    rw [renderValue] at read
    refine ⟨fun value found input ok => ?_, fun missing => ?_⟩
    · cases ok
      rw [reads value found] at read
      cases read
      refine overlaid place fun root => ?_
      rw [root] at asks
      cases asks
    · obtain ⟨e, bad⟩ := fails missing
      rw [read] at bad
      cases bad

end Step

namespace CompiledJob
open Template

/-- In every run a reference to an output of a step reads what the last completed step of that id
gave under the key, and fails its own step when there is none. -/
theorem outputsReachable {σ τ : Type} (integrations : List (Integration σ)) (name : String) (job : Job)
    (j : CompiledJob σ) (compiled : compile name job (.ofIntegrations integrations) = .ok j)
    (call : ActivityCall → τ → Except Error Payload × τ) (input : Json) (t : τ) (payload : Payload)
    (given : payloadOf input = .ok payload) :
    let run := execute j (recording call) input (t, [])
    let done := completedIn job.steps run.2.2
    Ran name job payload [] job.steps done run.2.2 run.1 ∧
      ∀ i s params path id key dotted, job.steps[i]? = some s → i ≤ done.length →
        s.params = some params → params.toJson.at? path = some (.str (reference dotted id key)) →
        Nameable id → Nameable key → (∀ c, key.toList.getLast? = some c → Text.isBlank c = false) →
        (∀ value, CompletedStep.recorded? (done.take i) id key = some value →
            ∀ made, s.input (.after payload (done.take i)) = .ok made →
              made.toJson.at? path = some value ∧
                ∃ x, run.2.2[i]? = some x ∧ x.call.input = made) ∧
          (CompletedStep.recorded? (done.take i) id key = none →
            run.2.2.length = i ∧ ∃ expression, run.1 = .error (.stepExecutionFailed name s.id
              (CompletedStep.ids done) (.templateResolution expression))) := by
  intro run done
  have ran : Ran name job payload [] job.steps done run.2.2 run.1 := executeRan compiled call given t
  refine ⟨ran, fun i s params path id key dotted step reached own asks nameable keyed ends => ?_⟩
  obtain ⟨called, stopped⟩ := ran.reached step reached
  simp only [List.nil_append, Step.callAfter, ← Step.inputAfter] at called stopped
  obtain ⟨reads, fails⟩ := Step.inputReference own asks nameable keyed ends (done.take i)
  refine ⟨fun value found made ok => ?_, fun missing => ?_⟩
  · rw [ok] at called
    obtain ⟨answer, logged⟩ := called _ rfl
    exact ⟨reads value found made ok, _, logged, rfl⟩
  · obtain ⟨expression, bad⟩ := fails missing
    rw [bad] at stopped
    obtain ⟨-, count, ended⟩ := stopped _ rfl
    exact ⟨count, expression, ended⟩

/-! A job whose two first steps share an id with a quote in it; the third refers to what they gave,
deep inside its parameters, and the fourth to a step that the payload alone knows. -/

def quoting : Job where
  queue := ""
  timeout := none
  steps :=
    [⟨"", "say \"hi\"", "test:create", none, none⟩,
     ⟨"", "say \"hi\"", "test:create", none, none⟩,
     ⟨"", "b", "test:create", none,
       some (.ofList [("x", .arr [.null, .str (reference true "say \"hi\"" "id")])])⟩,
     ⟨"", "c", "test:create", none, some (.ofList [("y", .str (reference false "gone" "id"))])⟩]

def quotingCompiled : CompiledJob Unit where
  name := "quoting"
  queue := ""
  steps := quoting.steps.map fun s => ⟨s, ⟨"test", "create"⟩, .standard none⟩
  actions := .ofIntegrations [probe]

def forgedPayload : Payload :=
  .ofList [("steps", .obj [("gone", .obj [("outputs", .obj [("id", .int 7)])])])]

def forged : Json := forgedPayload.toJson

instance (name : String) : Decidable (Nameable name) :=
  decidable_of_iff (name.toList ≠ [] ∧ '.' ∉ name.toList ∧ ¬ [openBrace, openBrace] <:+: name.toList ∧
    ¬ [closeBrace, closeBrace] <:+: name.toList ∧ ¬ ('\'' ∈ name.toList ∧ '"' ∈ name.toList) ∧
      name.toList.getLast? ≠ some '\\')
    ⟨fun ⟨a, b, c, d, e, f⟩ => ⟨a, b, c, d, e, f⟩, fun ⟨a, b, c, d, e, f⟩ => ⟨a, b, c, d, e, f⟩⟩

theorem outputsReachableQuoting :
    compile "quoting" quoting (.ofIntegrations [probe]) = .ok quotingCompiled ∧
      payloadOf forged = .ok forgedPayload ∧
      (let run := execute quotingCompiled (recording counting) forged (0, [])
      (∃ x, run.2.2[2]? = some x ∧ x.call.input.toJson.at? [.field "x", .item 1] = some (.int 1)) ∧
        run.2.2.length = 3 ∧ ∃ expression, run.1 = .error (.stepExecutionFailed "quoting" "c"
          ["say \"hi\"", "b"] (.templateResolution expression))) := by
  have compiled : compile "quoting" quoting (.ofIntegrations [probe]) = .ok quotingCompiled := rfl
  have given : payloadOf forged = .ok forgedPayload := rfl
  have ends : ∀ c, "id".toList.getLast? = some c → Text.isBlank c = false := by
    rintro c ⟨⟩
    decide
  have done : completedIn quoting.steps
      (execute quotingCompiled (recording counting) forged (0, [])).2.2 =
        [⟨"say \"hi\"", .ofList [("id", .int 0)]⟩, ⟨"say \"hi\"", .ofList [("id", .int 1)]⟩,
          ⟨"b", .ofList [("id", .int 2)]⟩] := by decide +kernel
  obtain ⟨-, refers⟩ := outputsReachable [probe] "quoting" quoting quotingCompiled compiled counting
    forged 0 forgedPayload given
  rw [done] at refers
  refine ⟨compiled, given, ?_, ?_⟩
  · obtain ⟨reads, -⟩ := refers 2 _ _ [.field "x", .item 1] "say \"hi\"" "id" true rfl (by decide) rfl
      rfl (by decide) (by decide) ends
    obtain ⟨place, x, logged, same⟩ := reads (.int 1) rfl (.ofList
      [("steps", .obj [("say \"hi\"", .obj [("outputs", .obj [("id", .int 1)])])]),
        ("x", .arr [.null, .int 1])]) rfl
    exact ⟨x, logged, same ▸ place⟩
  · obtain ⟨-, fails⟩ := refers 3 _ _ [.field "y"] "gone" "id" false rfl (by decide) rfl rfl (by decide)
      (by decide) ends
    obtain ⟨count, expression, failed⟩ := fails rfl
    exact ⟨count, expression, failed⟩

end CompiledJob
end Orchestration
