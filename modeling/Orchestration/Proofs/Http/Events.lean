import Orchestration.Http.Service
import Orchestration.Proofs.Dispatch.Trigger

/-! What is answered to an event. A body that is no JSON document is refused before anything is
asked of the platform; any other makes one attempt for each job that listens, and the answer tells
of every attempt once. A dispatch fails in no other way than by failures of its jobs. -/
namespace Orchestration.HttpService

inductive Carries (body : String) : Json → Prop where
  | blank (empty : Text.isBlankText body = true) : Carries body (.obj [])
  | document {payload} (written : Text.isBlankText body = false)
      (read : Json.Document.parse body = .ok payload) : Carries body payload

def Unreadable (body : String) : Prop :=
  Text.isBlankText body = false ∧ ∃ refusal, Json.Document.parse body = .error refusal

theorem bodyPayloadOk {body : String} {payload : Json} :
    bodyPayload body = .ok payload ↔ Carries body payload := by
  constructor
  · intro ok
    simp only [bodyPayload] at ok
    split at ok
    · rename_i empty
      cases ok
      exact .blank empty
    · rename_i written
      cases read : Json.Document.parse body with
      | error refusal =>
        rw [read] at ok
        cases ok
      | ok value =>
        rw [read] at ok
        cases ok
        exact .document (Bool.eq_false_iff.2 written) read
  · intro carries
    cases carries with
    | blank empty => simp only [bodyPayload, empty, if_true]
    | document written read =>
      simp only [bodyPayload, written, read]
      rfl

theorem bodyPayloadError {body : String} {response : HttpResponse}
    (refused : bodyPayload body = .error response) : Unreadable body ∧ response.status = 400 := by
  simp only [bodyPayload] at refused
  split at refused
  · cases refused
  · rename_i written
    cases read : Json.Document.parse body with
    | ok value =>
      rw [read] at refused
      cases refused
    | error refusal =>
      rw [read] at refused
      cases refused
      exact ⟨⟨Bool.eq_false_iff.2 written, refusal, read⟩, rfl⟩

theorem Carries.readable {body : String} {payload : Json} (carries : Carries body payload) :
    ¬ Unreadable body := by
  intro carries
  obtain ⟨written, refusal, failed⟩ := carries
  cases carries with
  | blank empty => cases empty.symm.trans written
  | document _ read => cases read.symm.trans failed

section
variable {σ η κ : Type} (p : Platform σ η κ) (moment : Nat)

def allStarted (event : String) (handles : List RunHandle) : HttpResponse :=
  .json 202 (.obj [("event", .str event), ("triggeredAt", .str (Calendar.timestamp moment)),
    ("started", .arr (handles.map fun handle => .obj [("workflowId", .str handle.workflowId),
      ("runId", .str (p.runText handle.run)), ("queue", .str handle.queue)]))])

def someFailed (event : String) (succeeded : List String) (failures : List (JobFailure Error)) :
    HttpResponse :=
  .json 422 (.obj [("event", .str event), ("triggeredAt", .str (Calendar.timestamp moment)),
    ("started", .arr (succeeded.map .str)),
    ("failures", .arr (failures.map fun failure => .obj [("workflow", .str failure.workflow),
      ("job", .str failure.job), ("error", .str failure.error.message)]))])

/-- What an event and its payload lead to: one attempt for each job of each definition that lists
the event, in order, and an answer that parts them all. -/
def Dispatched (definitions : List Definition) (event : String) (payload : Json) (f : Fleet η κ)
    (asked : List (Request η)) (g : Fleet η κ) (response : HttpResponse) : Prop :=
  ∃ blocks answers handles succeeded failures,
    Dispatcher.Attempts g.clients.clients payload f.clients.queueName
      (Dispatcher.listening definitions event) blocks answers ∧
    asked = blocks.flatten ∧
    Outcome.Parted (Dispatcher.listening definitions event) answers handles succeeded failures ∧
    (answers = handles.map .ok ∧ response = allStarted p moment event handles ∨
      (∃ e, .error e ∈ answers) ∧ response = someFailed moment event succeeded failures)

theorem triggerWatched (r : WorkflowRegistry) (event body : String) (f : Fleet η κ) :
    let noted := trigger p.watched moment r event body ⟨f.clients, f.state, []⟩
    let plain := trigger p moment r event body f
    noted.1 = plain.1 ∧ noted.2.plain = plain.2 := by
  simp only [trigger]
  cases bodyPayload body with
  | error response => exact ⟨rfl, rfl⟩
  | ok payload =>
    obtain ⟨answers, fleet⟩ := Dispatcher.startAllPlainly p Request.of payload
      (Dispatcher.listening r.definitions event) ⟨f.clients, f.state, []⟩
    simp only [Dispatcher.triggerSweep, answers]
    exact ⟨rfl, fleet⟩

theorem triggerRefused {r : WorkflowRegistry} {event body : String} {response : HttpResponse}
    (refused : bodyPayload body = .error response) (f : Fleet η κ) :
    trigger p moment r event body f = (response, f) := by
  simp only [trigger, refused]

theorem triggerDispatched (r : WorkflowRegistry) (event : String) {body : String} {payload : Json}
    (carries : Carries body payload) (f : Fleet η κ) :
    let noted := trigger p.watched moment r event body ⟨f.clients, f.state, []⟩
    Dispatched p moment r.definitions event payload f noted.2.state.2 noted.2.plain noted.1 := by
  obtain ⟨blocks, record, -, attempts⟩ := Dispatcher.sweepAttempts p payload f.clients.queueName
    (Dispatcher.listening r.definitions event) ⟨f.clients, f.state, []⟩ rfl
  simp only [trigger, bodyPayloadOk.2 carries, Dispatcher.triggerSweep]
  obtain ⟨handles, succeeded, failures, parted, -, concluded⟩ := Outcome.concludeParted
    (sweepLength (fun l => Dispatcher.startJob p.watched payload l.name l.job)
      (Dispatcher.listening r.definitions event) ⟨f.clients, f.state, []⟩).symm
  refine ⟨blocks, _, handles, succeeded, failures, attempts, record, parted, ?_⟩
  rw [concluded]
  by_cases none : failures = []
  · exact .inl ⟨parted.allOk.1 none, by rw [if_pos none]; rfl⟩
  · exact .inr ⟨parted.someError none, by rw [if_neg none]; rfl⟩

/-- A request that is passed on to be dispatched, with the texts of its event and its body. Longer
bodies and other bytes are refused on the way. -/
structure Delivers (request : HttpRequest) (event body : String) : Prop where
  posted : request.method = "POST"
  placed : ∃ segment, Route.of? request.target = some (.event segment) ∧
    Route.decoded segment = .ok event
  fits : request.body.size ≤ bodyLimit
  text : request.body = body.toUTF8

theorem readWritten (text : String) : Text.readUtf8 text.toUTF8 = .ok text := by
  have valid : text.toUTF8.IsValidUTF8 := text.isValidUTF8
  simp only [Text.readUtf8, String.fromUTF8?, dif_pos valid]
  rfl

theorem respondDelivered (r : WorkflowRegistry) {request : HttpRequest} {event body : String}
    (delivers : Delivers request event body) (f : Fleet η κ) :
    respond p moment r request f = trigger p moment r event body f := by
  obtain ⟨posted, ⟨segment, placed, decoded⟩, fits, text⟩ := delivers
  have taken : bodyText request.body = .ok body := by
    rw [bodyText, if_neg (Nat.not_lt.2 fits), text, readWritten]
    rfl
  have read : eventOf segment request.body = .ok (event, body) := by
    rw [eventOf, decoded, taken]
    rfl
  have answered : atRoute p moment r (.event segment) request.body f = trigger p moment r event body f := by
    simp only [atRoute, postEvent, read]
  have allowed : (Route.event segment).methods.contains "POST" = true := rfl
  simp only [respond, placed, posted, allowed, if_true, answered]
  rw [if_neg (by decide)]

/-- Whatever stands in an event and its body: the answer is a refusal exactly when the body is
something but no document, and then nothing has been asked for and nothing is changed. Otherwise
every job that listens has had its one attempt with the payload, and the answer tells of all of them.
No dispatch fails as a whole. Requests to the place of an event are answered so. -/
theorem eventAnswered (r : WorkflowRegistry) (event body : String) (f : Fleet η κ) :
    let noted := trigger p.watched moment r event body ⟨f.clients, f.state, []⟩
    let plain := trigger p moment r event body f
    (noted.1 = plain.1 ∧ noted.2.plain = plain.2) ∧
    (plain.1.status = 400 ↔ Unreadable body) ∧
    (Unreadable body → noted.2.state.2 = [] ∧ plain.2 = f) ∧
    (¬ Unreadable body → ∃ payload, Carries body payload ∧
      Dispatched p moment r.definitions event payload f noted.2.state.2 plain.2 plain.1) ∧
    plain.1.status ≠ 500 ∧
    ∀ request, Delivers request event body → respond p moment r request f = plain := by
  intro noted plain
  have watched : noted.1 = plain.1 ∧ noted.2.plain = plain.2 := triggerWatched p moment r event body f
  have routed : ∀ request, Delivers request event body → respond p moment r request f = plain :=
    fun request delivers => respondDelivered p moment r delivers f
  cases read : bodyPayload body with
  | error response =>
    obtain ⟨unreadable, status⟩ := bodyPayloadError read
    have refused : plain = (response, f) := triggerRefused p moment read f
    have silent : noted.2.state.2 = [] := congrArg (·.2.state.2) (triggerRefused p.watched moment read _)
    rw [refused] at routed watched ⊢
    exact ⟨watched, iff_of_true status unreadable, fun _ => ⟨silent, rfl⟩,
      fun readable => absurd unreadable readable, by rw [status]; decide, routed⟩
  | ok payload =>
    have carries := bodyPayloadOk.1 read
    have dispatched := triggerDispatched p moment r event carries f
    have status : plain.1.status = 202 ∨ plain.1.status = 422 := by
      obtain ⟨blocks, answers, handles, succeeded, failures, -, -, -, told⟩ := dispatched
      obtain ⟨-, same⟩ | ⟨-, same⟩ := told
      · exact .inl (watched.1 ▸ congrArg HttpResponse.status same)
      · exact .inr (watched.1 ▸ congrArg HttpResponse.status same)
    refine ⟨watched, iff_of_false (by omega) carries.readable, fun unreadable => ?_, fun _ => ?_,
      by omega, routed⟩
    · exact absurd unreadable carries.readable
    · exact ⟨payload, carries, watched.1 ▸ watched.2 ▸ dispatched⟩

end
end Orchestration.HttpService
