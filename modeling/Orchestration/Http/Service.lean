import Orchestration.Calendar.Timestamp
import Orchestration.Dispatch.Dispatcher
import Orchestration.Http.Message
import Orchestration.Http.Route
import Orchestration.Json.Document
import Orchestration.Text.Utf8
import Orchestration.Workflow.Encoding
import Orchestration.Workflow.Registry

/-! The service over HTTP: events start runs, and the loaded workflows can be listed
and read. -/
namespace Orchestration.HttpService

def bodyLimit : Nat := 2 * 1024 * 1024

def unreadableName (name : String) : HttpResponse :=
  .text 400 ("Invalid URL: Invalid UTF-8 in " ++ "`" ++ name ++ "`")

def bodyText (body : ByteArray) : Except HttpResponse String :=
  if bodyLimit < body.size then
    .error (.text 413 "Failed to buffer the request body: length limit exceeded")
  else (Text.readUtf8 body).mapError fun fault =>
    .text 400 ("Request body didn't contain valid UTF-8: " ++ fault.message)

def bodyPayload (body : String) : Except HttpResponse Json :=
  if Text.isBlankText body then .ok (.obj [])
  else (Json.Document.parse body).mapError fun refusal =>
    .refused 400 ("invalid JSON body: " ++ refusal.message)

def listing (r : WorkflowRegistry) : HttpResponse :=
  .json 200 (.obj [("workflows", .arr (r.definitions.map fun d => d.summary.toJson))])

def reading (r : WorkflowRegistry) (segment : String) : HttpResponse :=
  match Route.decoded segment with
  | .error _ => unreadableName "name"
  | .ok name =>
    match r.get? name with
    | some d => .json 200 d.toJson
    | none => .bare 404

section
variable {σ η κ : Type} (p : Platform σ η κ) (moment : Nat)

def startedJson (handle : RunHandle) : Json :=
  .obj [("workflowId", .str handle.workflowId), ("runId", .str (p.runText handle.run)),
    ("queue", .str handle.queue)]

def failureJson (failure : JobFailure Error) : Json :=
  .obj [("workflow", .str failure.workflow), ("job", .str failure.job),
    ("error", .str failure.error.message)]

def eventAnswer (event : String) : Except Error (List RunHandle) → HttpResponse
  | .ok handles =>
    .json 202 (.obj (common ++ [("started", .arr (handles.map (startedJson p)))]))
  | .error (.dispatch succeeded failures) =>
    .json 422 (.obj (common ++ [("started", .arr (succeeded.map .str)),
      ("failures", .arr (failures.map failureJson))]))
  | .error e => .refused 500 e.message
where
  common : List (String × Json) :=
    [("event", .str event), ("triggeredAt", .str (Calendar.timestamp moment))]

def trigger (r : WorkflowRegistry) (event body : String) (f : Fleet η κ) :
    HttpResponse × Fleet η κ :=
  match bodyPayload body with
  | .error response => (response, f)
  | .ok payload =>
    let (result, f) := Dispatcher.trigger p r.definitions event payload f
    (eventAnswer p moment event result, f)

def eventOf (segment : String) (body : ByteArray) : Except HttpResponse (String × String) := do
  let event ← (Route.decoded segment).mapError fun _ => unreadableName "event_id"
  let text ← bodyText body
  pure (event, text)

def postEvent (r : WorkflowRegistry) (segment : String) (body : ByteArray) (f : Fleet η κ) :
    HttpResponse × Fleet η κ :=
  match eventOf segment body with
  | .error response => (response, f)
  | .ok (event, text) => trigger p moment r event text f

def atRoute (r : WorkflowRegistry) (route : Route) (body : ByteArray) (f : Fleet η κ) :
    HttpResponse × Fleet η κ :=
  match route with
  | .health => (.text 200 "ok", f)
  | .event id => postEvent p moment r id body f
  | .workflows => (listing r, f)
  | .workflow name => (reading r name, f)

def respond (r : WorkflowRegistry) (request : HttpRequest) (f : Fleet η κ) :
    HttpResponse × Fleet η κ :=
  let (response, f) := match Route.of? request.target with
    | none => (HttpResponse.bare 404, f)
    | some route =>
      if route.methods.contains request.method then atRoute p moment r route request.body f
      else (.notAllowed route.methods, f)
  (if request.method = "HEAD" then response.withoutBody else response, f)

end

end Orchestration.HttpService
