import Orchestration.Integration.Basic
import Orchestration.Json.Document
import Orchestration.Json.Text

/-! Channels and messages over the Slack Web API. Every verb checks its fields
before anything is sent, sends one request, and succeeds only when the reply says
so in both its status and its body. -/
namespace Orchestration.Slack

structure Settings where
  token : String
  teamId : String
  baseUrl : String
  deriving DecidableEq, Repr

def apiBase : String := "https://slack.com/api"

def trimSlashes (url : String) : String :=
  String.ofList (url.toList.reverse.dropWhile (· = '/')).reverse

def Settings.standard (token teamId : String) : Settings := ⟨token, teamId, apiBase⟩

def Settings.at (s : Settings) (url : String) : Settings := { s with baseUrl := trimSlashes url }

structure Request where
  url : String
  token : String
  body : Json
  deriving DecidableEq, Repr

/-- A body that broke off or is no text comes with what is said of it. -/
inductive Body where
  | text (content : String)
  | unreadable (account : String)
  deriving DecidableEq, Repr

def Body.read : Body → Except String Json
  | .text content =>
    (Json.Document.parse content).mapError fun refusal =>
      "error decoding response body: " ++ refusal.message
  | .unreadable account => .error account

structure Reply where
  status : Nat
  body : Body
  deriving DecidableEq, Repr

structure Unsent where
  url : String
  fault : SystemFault
  deriving DecidableEq, Repr

def Unsent.message (u : Unsent) : String :=
  "error sending request for url (" ++ u.url ++ "): error trying to connect: tcp connect error: " ++
    u.fault.message

abbrev Exchange (σ : Type) := Request → σ → Except Unsent Reply × σ

def reason : Nat → String
  | 100 => "Continue"
  | 101 => "Switching Protocols"
  | 102 => "Processing"
  | 200 => "OK"
  | 201 => "Created"
  | 202 => "Accepted"
  | 203 => "Non Authoritative Information"
  | 204 => "No Content"
  | 205 => "Reset Content"
  | 206 => "Partial Content"
  | 207 => "Multi-Status"
  | 208 => "Already Reported"
  | 226 => "IM Used"
  | 300 => "Multiple Choices"
  | 301 => "Moved Permanently"
  | 302 => "Found"
  | 303 => "See Other"
  | 304 => "Not Modified"
  | 305 => "Use Proxy"
  | 307 => "Temporary Redirect"
  | 308 => "Permanent Redirect"
  | 400 => "Bad Request"
  | 401 => "Unauthorized"
  | 402 => "Payment Required"
  | 403 => "Forbidden"
  | 404 => "Not Found"
  | 405 => "Method Not Allowed"
  | 406 => "Not Acceptable"
  | 407 => "Proxy Authentication Required"
  | 408 => "Request Timeout"
  | 409 => "Conflict"
  | 410 => "Gone"
  | 411 => "Length Required"
  | 412 => "Precondition Failed"
  | 413 => "Payload Too Large"
  | 414 => "URI Too Long"
  | 415 => "Unsupported Media Type"
  | 416 => "Range Not Satisfiable"
  | 417 => "Expectation Failed"
  | 418 => "I'm a teapot"
  | 421 => "Misdirected Request"
  | 422 => "Unprocessable Entity"
  | 423 => "Locked"
  | 424 => "Failed Dependency"
  | 426 => "Upgrade Required"
  | 428 => "Precondition Required"
  | 429 => "Too Many Requests"
  | 431 => "Request Header Fields Too Large"
  | 451 => "Unavailable For Legal Reasons"
  | 500 => "Internal Server Error"
  | 501 => "Not Implemented"
  | 502 => "Bad Gateway"
  | 503 => "Service Unavailable"
  | 504 => "Gateway Timeout"
  | 505 => "HTTP Version Not Supported"
  | 506 => "Variant Also Negotiates"
  | 507 => "Insufficient Storage"
  | 508 => "Loop Detected"
  | 510 => "Not Extended"
  | 511 => "Network Authentication Required"
  | _ => "<unknown status code>"

def statusText (status : Nat) : String := toString status ++ " " ++ reason status

def isSuccess (status : Nat) : Bool := 200 ≤ status && status < 300

def accept (action : Action) (method : String) (reply : Reply) : Except Error Json :=
  match reply.body.read with
  | .error account => .error (.ofAction action (method ++ " returned invalid JSON: " ++ account))
  | .ok body =>
    if isSuccess reply.status && body.field? "ok" = some (.bool true) then .ok body
    else
      let cause := ((body.field? "error").bind Json.text?).getD "unknown_error"
      .error (.ofAction action
        (method ++ " failed (status " ++ statusText reply.status ++ "): " ++ cause))

section
variable {σ : Type} (exchange : Exchange σ) (settings : Settings) (action : Action)

def call (method : String) (body : Json) (s : σ) : Except Error Json × σ :=
  match exchange ⟨settings.baseUrl ++ "/" ++ method, settings.token, body⟩ s with
  | (.error unsent, s) =>
    (.error (.ofAction action (method ++ " request failed: " ++ unsent.message)), s)
  | (.ok reply, s) => (accept action method reply, s)

def channelId (body : Json) : Except Error Payload :=
  match (body.field? "channel").bind (·.field? "id") with
  | some (.str id) => .ok (OrderedMap.empty.insert "channelId" (.str id))
  | _ => .error (.ofAction action "response did not contain a channel id")

def createChannel (input : Payload) (s : σ) : Except Error Payload × σ :=
  match requiredText action input "channelName" with
  | .error e => (.error e, s)
  | .ok name =>
    let body := Json.obj [("name", .str name), ("is_private", .bool true),
      ("team_id", .str settings.teamId)]
    match call exchange settings action "conversations.create" body s with
    | (.error e, s) => (.error e, s)
    | (.ok body, s) => (channelId action body, s)

def userIds (input : Payload) : Except Error (List String) :=
  let invalid := Error.ofAction action "invalid type for field: userIds"
  match input.get? "userIds" with
  | none => .error (.ofAction action "missing required field: userIds")
  | some .null => .error (.ofAction action "missing required field: userIds")
  | some (.arr items) =>
    match items.mapM Json.text? with
    | some ids => .ok ids
    | none => .error invalid
  | some _ => .error invalid

def addUsers (input : Payload) (s : σ) : Except Error Payload × σ :=
  match requiredText action input "channelId" with
  | .error e => (.error e, s)
  | .ok channel =>
    match userIds action input with
    | .error e => (.error e, s)
    | .ok ids =>
      let body := Json.obj [("channel", .str channel), ("users", .str (",".intercalate ids))]
      match call exchange settings action "conversations.invite" body s with
      | (.error e, s) => (.error e, s)
      | (.ok _, s) => (.ok .empty, s)

def sendMessage (input : Payload) (s : σ) : Except Error Payload × σ :=
  match requiredText action input "channelId" with
  | .error e => (.error e, s)
  | .ok channel =>
    match requiredText action input "message" with
    | .error e => (.error e, s)
    | .ok message =>
      let body := Json.obj [("channel", .str channel), ("text", .str message)]
      match call exchange settings action "chat.postMessage" body s with
      | (.error e, s) => (.error e, s)
      | (.ok _, s) => (.ok .empty, s)

def performNow (input : Payload) (s : σ) : Except Error Payload × σ :=
  if action.verb = "create-channel" then createChannel exchange settings action input s
  else if action.verb = "add-users-to-channel" then addUsers exchange settings action input s
  else if action.verb = "send-message" then sendMessage exchange settings action input s
  else (.error (unsupported action), s)

end

def integration {σ : Type} (exchange : Exchange σ) (settings : Settings) : Integration σ :=
  { id := "slack"
    verbs := ["create-channel", "send-message", "add-users-to-channel"]
    perform := fun action input s =>
      let (result, s) := performNow exchange settings action input s
      (.now result, s) }

end Orchestration.Slack
