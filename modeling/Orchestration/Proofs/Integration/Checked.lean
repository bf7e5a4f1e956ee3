import Orchestration.Integration.Slack

/-! What a verb does with its input and with the reply that it gets. Whether anything is sent is
decided by the input alone: the first field that is not as it has to be is named, and nothing is
sent; with all fields in place one request goes out that carries them. The verb then succeeds on
those replies that agree in status and body, and on no others. -/
namespace Orchestration.Slack

inductive Form where
  | text
  | texts
  deriving DecidableEq, Repr

inductive Form.Fits : Form → Json → Prop where
  | text {s : String} : Fits .text (.str s)
  | texts {ids : List String} : Fits .texts (.arr (ids.map .str))

theorem Form.Fits.something {form : Form} {value : Json} (fits : form.Fits value) : value ≠ .null := by
  cases fits <;> exact Json.noConfusion

structure Field where
  name : String
  form : Form
  deriving DecidableEq, Repr

inductive Verb where
  | createChannel
  | addUsers
  | sendMessage
  deriving DecidableEq, Repr

namespace Verb

def name : Verb → String
  | createChannel => "create-channel"
  | addUsers => "add-users-to-channel"
  | sendMessage => "send-message"

def method : Verb → String
  | createChannel => "conversations.create"
  | addUsers => "conversations.invite"
  | sendMessage => "chat.postMessage"

def fields : Verb → List Field
  | createChannel => [⟨"channelName", .text⟩]
  | addUsers => [⟨"channelId", .text⟩, ⟨"userIds", .texts⟩]
  | sendMessage => [⟨"channelId", .text⟩, ⟨"message", .text⟩]

theorem nameInjective {verb other : Verb} (same : verb.name = other.name) : verb = other := by
  cases verb <;> cases other <;> simp [name] at same ⊢

end Verb

namespace Field
variable (input : Payload)

def Sound (field : Field) : Prop := ∃ value, input.get? field.name = some value ∧ field.form.Fits value

inductive Complaint (field : Field) : String → Prop where
  | missing (nothing : input.get? field.name = none ∨ input.get? field.name = some .null) :
      Complaint field ("missing required field: " ++ field.name)
  | mistyped {value} (given : input.get? field.name = some value) (something : value ≠ .null)
      (unfit : ¬ field.form.Fits value) : Complaint field ("invalid type for field: " ++ field.name)

inductive Taken {α : Type} (written : α → Json) (action : Action) (field : Field) :
    Except Error α → Prop where
  | value {a} (given : input.get? field.name = some (written a)) : Taken written action field (.ok a)
  | refused {reason} (complaint : Complaint input field reason) :
      Taken written action field (.error (.actionFailed action.text reason))

variable {input}

theorem Complaint.unsound {field : Field} {reason : String} (complaint : Complaint input field reason) :
    ¬ Sound input field := by
  intro sound
  obtain ⟨value, given, fits⟩ := sound
  cases complaint with
  | missing nothing =>
    obtain none | null := nothing
    · cases none.symm.trans given
    · exact fits.something (Option.some.inj (given.symm.trans null))
  | mistyped other _ unfit =>
    cases other.symm.trans given
    exact unfit fits

end Field

def Fit (action : Action) (input : Payload) : Prop :=
  ∃ verb : Verb, action.verb = verb.name ∧ ∀ field ∈ verb.fields, Field.Sound input field

inductive Refused (action : Action) (input : Payload) : Error → Prop where
  | unsupported (other : ∀ verb : Verb, action.verb ≠ verb.name) :
      Refused action input (.actionFailed action.text ("unsupported action: " ++ action.verb))
  | field {verb : Verb} {before field after reason} (named : action.verb = verb.name)
      (order : verb.fields = before ++ field :: after) (sound : ∀ f ∈ before, Field.Sound input f)
      (first : Field.Complaint input field reason) : Refused action input (.actionFailed action.text reason)

def Settings.post (settings : Settings) (verb : Verb) (fields : List (String × Json)) : Request :=
  ⟨settings.baseUrl ++ "/" ++ verb.method, settings.token, .obj fields⟩

inductive Asks (settings : Settings) (input : Payload) : Verb → Request → Prop where
  | createChannel {name} (named : input.get? "channelName" = some (.str name)) :
      Asks settings input .createChannel (settings.post .createChannel
        [("name", .str name), ("is_private", .bool true), ("team_id", .str settings.teamId)])
  | addUsers {channel} {ids : List String} (placed : input.get? "channelId" = some (.str channel))
      (users : input.get? "userIds" = some (.arr (ids.map .str))) :
      Asks settings input .addUsers (settings.post .addUsers
        [("channel", .str channel), ("users", .str (",".intercalate ids))])
  | sendMessage {channel message} (placed : input.get? "channelId" = some (.str channel))
      (written : input.get? "message" = some (.str message)) :
      Asks settings input .sendMessage (settings.post .sendMessage
        [("channel", .str channel), ("text", .str message)])

structure Agrees (reply : Reply) (body : Json) : Prop where
  document : ∃ content, reply.body = .text content ∧ Json.Document.parse content = .ok body
  success : 200 ≤ reply.status ∧ reply.status < 300
  ok : body.field? "ok" = some (.bool true)

inductive Granted (reply : Reply) : Verb → Payload → Prop where
  | createChannel {body channel id} (agrees : Agrees reply body)
      (made : body.field? "channel" = some channel) (named : channel.field? "id" = some (.str id)) :
      Granted reply .createChannel (.ofList [("channelId", .str id)])
  | addUsers {body} (agrees : Agrees reply body) : Granted reply .addUsers .empty
  | sendMessage {body} (agrees : Agrees reply body) : Granted reply .sendMessage .empty

theorem Refused.unfit {action : Action} {input : Payload} {e : Error} (refused : Refused action input e) :
    ¬ Fit action input := by
  intro fit
  obtain ⟨verb, named, sound⟩ := fit
  cases refused with
  | unsupported other => exact other verb named
  | @field own before field after reason same order _ first =>
    cases Verb.nameInjective (same.symm.trans named)
    exact first.unsound (sound field (by rw [order]; simp))

theorem Asks.sound {settings : Settings} {input : Payload} {verb : Verb} {request : Request}
    (asks : Asks settings input verb request) : ∀ field ∈ verb.fields, Field.Sound input field := by
  cases asks with
  | createChannel named =>
    exact List.forall_mem_singleton.2 ⟨_, named, .text⟩
  | addUsers placed users =>
    exact List.forall_mem_cons.2 ⟨⟨_, placed, .text⟩, List.forall_mem_singleton.2 ⟨_, users, .texts⟩⟩
  | sendMessage placed written =>
    exact List.forall_mem_cons.2 ⟨⟨_, placed, .text⟩, List.forall_mem_singleton.2 ⟨_, written, .text⟩⟩

section
variable (settings : Settings) (action : Action) (input : Payload)

theorem requiredTextTaken (name : String) :
    Field.Taken input .str action ⟨name, .text⟩ (requiredText action input name) := by
  rw [requiredText]
  split
  case h_1 none => exact .refused (.missing (.inl none))
  case h_2 null => exact .refused (.missing (.inr null))
  case h_3 text => exact .value text
  case h_4 value null text given =>
    refine .refused (.mistyped given null fun fits => ?_)
    cases fits
    exact text _ rfl

theorem textRead {value : Json} {s : String} : value.text? = some s ↔ value = .str s := by
  cases value <;> simp [Json.text?]

theorem textsRead {items : List Json} {ids : List String} :
    items.mapM Json.text? = some ids ↔ items = ids.map .str := by
  induction items generalizing ids with
  | nil => cases ids <;> simp
  | cons item rest ih =>
    simp only [List.mapM_cons, bind, Option.bind_eq_some_iff, textRead, ih, pure, Option.some.injEq]
    constructor
    · intro read
      obtain ⟨id, rfl, more, rfl, rfl⟩ := read
      rfl
    · intro written
      obtain ⟨id, more, rfl, rfl, rfl⟩ := List.map_eq_cons_iff.1 written.symm
      exact ⟨id, rfl, more, rfl, rfl⟩

theorem userIdsTaken : Field.Taken input (fun ids : List String => .arr (ids.map .str)) action
    ⟨"userIds", .texts⟩ (userIds action input) := by
  rw [userIds]
  split
  case h_1 none => exact .refused (.missing (.inl none))
  case h_2 null => exact .refused (.missing (.inr null))
  case h_3 items given =>
    split
    case h_1 ids read =>
      obtain rfl := textsRead.1 read
      exact .value given
    case h_2 unread =>
      refine .refused (.mistyped given Json.noConfusion fun fits => ?_)
      cases fits
      cases unread.symm.trans (textsRead.2 rfl)
  case h_4 value null list given =>
    refine .refused (.mistyped given null fun fits => ?_)
    cases fits
    exact list _ rfl

def Verb.request : Verb → Except Error Request
  | .createChannel =>
    (requiredText action input "channelName").map fun name =>
      settings.post .createChannel
        [("name", .str name), ("is_private", .bool true), ("team_id", .str settings.teamId)]
  | .addUsers => do
    let channel ← requiredText action input "channelId"
    let ids ← userIds action input
    pure (settings.post .addUsers [("channel", .str channel), ("users", .str (",".intercalate ids))])
  | .sendMessage => do
    let channel ← requiredText action input "channelId"
    let message ← requiredText action input "message"
    pure (settings.post .sendMessage [("channel", .str channel), ("text", .str message)])

inductive Requested (verb : Verb) : Except Error Request → Prop where
  | refused {before field after reason} (order : verb.fields = before ++ field :: after)
      (sound : ∀ f ∈ before, Field.Sound input f) (first : Field.Complaint input field reason) :
      Requested verb (.error (.actionFailed action.text reason))
  | made {request} (asks : Asks settings input verb request) : Requested verb (.ok request)

end

theorem requestedInChannel {α : Type} {settings : Settings} {action : Action} {input : Payload}
    {verb : Verb} {second : Field} {written : α → Json} {read : Except Error α}
    {build : String → α → Request}
    (order : verb.fields = [⟨"channelId", .text⟩, second]) (taken : second.Taken input written action read)
    (asks : ∀ {channel a}, input.get? "channelId" = some (.str channel) →
      input.get? second.name = some (written a) → Asks settings input verb (build channel a)) :
    Requested settings action input verb (do
      let channel ← requiredText action input "channelId"
      let a ← read
      pure (build channel a)) := by
  have placed := requiredTextTaken action input "channelId"
  generalize requiredText action input "channelId" = channel at placed ⊢
  cases placed with
  | refused complaint => exact .refused (order.trans (List.nil_append _).symm) nofun complaint
  | value given =>
    have sound : ∀ f ∈ [(⟨"channelId", .text⟩ : Field)], f.Sound input :=
      List.forall_mem_singleton.2 ⟨_, given, .text⟩
    cases taken with
    | refused complaint => exact .refused (order.trans List.singleton_append.symm) sound complaint
    | value other => exact .made (asks given other)

theorem requestRequested (settings : Settings) (action : Action) (input : Payload) (verb : Verb) :
    Requested settings action input verb (verb.request settings action input) := by
  cases verb with
  | createChannel =>
    have named := requiredTextTaken action input "channelName"
    rw [Verb.request]
    generalize requiredText action input "channelName" = name at named ⊢
    cases named with
    | value given => exact .made (.createChannel given)
    | refused complaint => exact .refused (List.nil_append [_]).symm nofun complaint
  | addUsers => exact requestedInChannel rfl (userIdsTaken action input) .addUsers
  | sendMessage => exact requestedInChannel rfl (requiredTextTaken action input "message") .sendMessage

/-! The reply -/

theorem bodyRead {given : Body} {body : Json} : given.read = .ok body ↔
    ∃ content, given = .text content ∧ Json.Document.parse content = .ok body := by
  cases given with
  | unreadable account => simp [Body.read]
  | text content =>
    cases parsed : Json.Document.parse content with
    | error refusal =>
      have unread : (Body.text content).read = .error ("error decoding response body: " ++ refusal.message) := by
        rw [Body.read, parsed]
        rfl
      simp [unread, parsed]
    | ok value =>
      have read : (Body.text content).read = .ok value := by
        rw [Body.read, parsed]
        rfl
      simp [read, parsed]

section
variable {action : Action} {method : String} {reply : Reply} {verb : Verb}

theorem acceptAgrees {body : Json} : accept action method reply = .ok body ↔ Agrees reply body := by
  constructor
  · intro accepted
    rw [accept] at accepted
    cases read : reply.body.read with
    | error account =>
      rw [read] at accepted
      cases accepted
    | ok value =>
      rw [read] at accepted
      dsimp only at accepted
      split at accepted
      case isTrue well =>
        cases accepted
        simp only [isSuccess, Bool.and_eq_true, decide_eq_true_eq] at well
        exact ⟨bodyRead.1 read, well.1, well.2⟩
      case isFalse => cases accepted
  · intro agrees
    simp [accept, bodyRead.2 agrees.document, isSuccess, agrees.success, agrees.ok]

theorem acceptRefused {e : Error} (refused : accept action method reply = .error e) :
    ∃ reason, e = .actionFailed action.text reason := by
  rw [accept] at refused
  split at refused
  · cases refused
    exact ⟨_, rfl⟩
  · split at refused <;> cases refused
    exact ⟨_, rfl⟩

def asked (action : Action) (method : String) : Except Unsent Reply → Except Error Json
  | .error unsent => .error (.ofAction action (method ++ " request failed: " ++ unsent.message))
  | .ok reply => accept action method reply

def Verb.output (action : Action) (body : Json) : Verb → Except Error Payload
  | .createChannel => channelId action body
  | .addUsers => .ok .empty
  | .sendMessage => .ok .empty

def conclude (action : Action) (verb : Verb) (answer : Except Unsent Reply) : Except Error Payload :=
  match asked action verb.method answer with
  | .error e => .error e
  | .ok body => verb.output action body

theorem askedAgrees {answer : Except Unsent Reply} {body : Json} :
    asked action method answer = .ok body ↔ ∃ reply, answer = .ok reply ∧ Agrees reply body := by
  cases answer with
  | error unsent => simp [asked]
  | ok reply => simp [asked, acceptAgrees]

theorem outputGranted {body : Json} {output : Payload} (agrees : Agrees reply body)
    (given : verb.output action body = .ok output) : Granted reply verb output := by
  cases verb with
  | createChannel =>
    rw [Verb.output, channelId] at given
    split at given
    case h_1 id found =>
      cases given
      obtain ⟨channel, made, named⟩ := Option.bind_eq_some_iff.1 found
      exact .createChannel agrees made named
    case h_2 => cases given
  | addUsers =>
    cases given
    exact .addUsers agrees
  | sendMessage =>
    cases given
    exact .sendMessage agrees

theorem outputRefused {body : Json} {e : Error} (refused : verb.output action body = .error e) :
    ∃ reason, e = .actionFailed action.text reason := by
  cases verb with
  | createChannel =>
    rw [Verb.output, channelId] at refused
    split at refused <;> cases refused
    exact ⟨_, rfl⟩
  | addUsers => cases refused
  | sendMessage => cases refused

theorem Granted.output {output : Payload} (granted : Granted reply verb output) :
    ∃ body, Agrees reply body ∧ verb.output action body = .ok output := by
  cases granted with
  | @createChannel body channel id agrees made named =>
    have found : (body.field? "channel").bind (·.field? "id") = some (.str id) :=
      Option.bind_eq_some_iff.2 ⟨channel, made, named⟩
    refine ⟨body, agrees, ?_⟩
    rw [Verb.output, channelId, found]
    rfl
  | @addUsers body agrees => exact ⟨body, agrees, rfl⟩
  | @sendMessage body agrees => exact ⟨body, agrees, rfl⟩

theorem concludeGranted {answer : Except Unsent Reply} {output : Payload} :
    conclude action verb answer = .ok output ↔ ∃ reply, answer = .ok reply ∧ Granted reply verb output := by
  constructor
  · intro given
    rw [conclude] at given
    split at given
    case h_1 => cases given
    case h_2 body accepted =>
      obtain ⟨reply, answered, agrees⟩ := askedAgrees.1 accepted
      exact ⟨reply, answered, outputGranted agrees given⟩
  · intro granted
    obtain ⟨reply, answered, granted⟩ := granted
    obtain ⟨body, agrees, given⟩ := granted.output
    rw [conclude, askedAgrees.2 ⟨reply, answered, agrees⟩]
    exact given

theorem concludeRefused {answer : Except Unsent Reply} {e : Error}
    (refused : conclude action verb answer = .error e) : ∃ reason, e = .actionFailed action.text reason := by
  rw [conclude] at refused
  split at refused
  case h_1 other unmade =>
    cases refused
    cases answer with
    | error unsent =>
      cases unmade
      exact ⟨_, rfl⟩
    | ok reply => exact acceptRefused unmade
  case h_2 => exact outputRefused refused

end

section
variable {σ : Type} (exchange : Exchange σ) (settings : Settings) (action : Action) (input : Payload)

theorem callConclude (verb : Verb) (fields : List (String × Json)) (s : σ) :
    (match call exchange settings action verb.method (.obj fields) s with
      | (.error e, s) => (.error e, s)
      | (.ok body, s) => (verb.output action body, s)) =
    (conclude action verb (exchange (settings.post verb fields) s).1,
      (exchange (settings.post verb fields) s).2) := by
  have made : call exchange settings action verb.method (.obj fields) s =
      (asked action verb.method (exchange (settings.post verb fields) s).1,
        (exchange (settings.post verb fields) s).2) := by
    rw [call, ← Settings.post]
    rcases exchange (settings.post verb fields) s with ⟨answer, t⟩
    cases answer <;> rfl
  rw [made, conclude]
  cases asked action verb.method (exchange (settings.post verb fields) s).1 <;> rfl

theorem performNowVerb {verb : Verb} (named : action.verb = verb.name) (s : σ) :
    performNow exchange settings action input s =
      match verb.request settings action input with
      | .error e => (.error e, s)
      | .ok request => (conclude action verb (exchange request s).1, (exchange request s).2) := by
  cases verb with
  | createChannel =>
    have text : action.verb = "create-channel" := named
    simp only [performNow, text, if_true, createChannel, Verb.request]
    cases requiredText action input "channelName" with
    | error e => rfl
    | ok name => exact callConclude exchange settings action .createChannel _ s
  | addUsers =>
    have text : action.verb = "add-users-to-channel" := named
    simp only [performNow, text, String.reduceEq, if_false, if_true, addUsers, Verb.request]
    cases requiredText action input "channelId" with
    | error e => rfl
    | ok channel =>
    cases userIds action input with
    | error e => rfl
    | ok ids => exact callConclude exchange settings action .addUsers _ s
  | sendMessage =>
    have text : action.verb = "send-message" := named
    simp only [performNow, text, String.reduceEq, if_false, if_true, sendMessage, Verb.request]
    cases requiredText action input "channelId" with
    | error e => rfl
    | ok channel =>
    cases requiredText action input "message" with
    | error e => rfl
    | ok message => exact callConclude exchange settings action .sendMessage _ s

theorem performNowOther (other : ∀ verb : Verb, action.verb ≠ verb.name) (s : σ) :
    performNow exchange settings action input s = (.error (unsupported action), s) := by
  have first : action.verb ≠ "create-channel" := other .createChannel
  have second : action.verb ≠ "add-users-to-channel" := other .addUsers
  have third : action.verb ≠ "send-message" := other .sendMessage
  rw [performNow, if_neg first, if_neg second, if_neg third]

inductive Staged : Prop where
  | refused {e} (refused : Refused action input e)
      (always : ∀ {σ : Type} (exchange : Exchange σ) (s : σ),
        performNow exchange settings action input s = (.error e, s))
  | sent {verb request} (named : action.verb = verb.name) (asks : Asks settings input verb request)
      (always : ∀ {σ : Type} (exchange : Exchange σ) (s : σ), performNow exchange settings action input s =
        (conclude action verb (exchange request s).1, (exchange request s).2))

theorem performNowStaged : Staged settings action input := by
  -- The fields are read without the exchange, so these cases serve every exchange at once.
  by_cases known : ∃ verb : Verb, action.verb = verb.name
  · obtain ⟨verb, named⟩ := known
    have requested := requestRequested settings action input verb
    cases made : verb.request settings action input with
    | error e =>
      rw [made] at requested
      cases requested with
      | refused order sound first =>
        refine .refused (.field named order sound first) fun exchange s => ?_
        rw [performNowVerb exchange settings action input named, made]
    | ok request =>
      rw [made] at requested
      cases requested with
      | made asks =>
        refine .sent named asks fun exchange s => ?_
        rw [performNowVerb exchange settings action input named, made]
  · have other : ∀ verb : Verb, action.verb ≠ verb.name := fun verb named => known ⟨verb, named⟩
    exact .refused (.unsupported other) fun exchange s =>
      performNowOther exchange settings action input other s

theorem verbsAdvertised (name : String) :
    name ∈ (integration exchange settings).verbs ↔ ∃ verb : Verb, name = verb.name := by
  constructor
  · intro inside
    have listed : name = "create-channel" ∨ name = "send-message" ∨ name = "add-users-to-channel" := by
      simpa [integration] using inside
    obtain rfl | rfl | rfl := listed
    · exact ⟨.createChannel, rfl⟩
    · exact ⟨.sendMessage, rfl⟩
    · exact ⟨.addUsers, rfl⟩
  · intro there
    obtain ⟨verb, rfl⟩ := there
    cases verb <;> simp [integration, Verb.name]

def recording : Exchange (σ × List Request) := fun request (s, log) =>
  ((exchange request s).1, (exchange request s).2, log ++ [request])

/-- Whatever the action, its input and the server: with a verb that there is not, or a field that is
missing, null or of another form, nothing is sent and the first such field is named. Otherwise
one request is sent, which carries the fields, and the verb succeeds exactly on a reply that is
a document with a true `ok` under a status of success, and for a new channel has its id, which
is the output; any other answer fails under this action. -/
theorem checkedBeforeSending (s : σ) :
    let noted := (integration (recording exchange) settings).perform action input (s, [])
    let plain := (integration exchange settings).perform action input s
    (noted.1 = plain.1 ∧ noted.2.1 = plain.2) ∧
    (action.verb ∈ (integration exchange settings).verbs ↔ ∃ verb : Verb, action.verb = verb.name) ∧
    (¬ Fit action input → noted.2.2 = [] ∧ plain.2 = s ∧
      ∃ e, plain.1.result = .error e ∧ Refused action input e) ∧
    (Fit action input → ∃ verb request, action.verb = verb.name ∧ Asks settings input verb request ∧
      noted.2.2 = [request] ∧ plain.2 = (exchange request s).2 ∧
      (∀ output, plain.1.result = .ok output ↔
        ∃ reply, (exchange request s).1 = .ok reply ∧ Granted reply verb output) ∧
      ∀ e, plain.1.result = .error e → ∃ reason, e = .actionFailed action.text reason) := by
  intro noted plain
  have advertised := verbsAdvertised exchange settings action.verb
  cases performNowStaged settings action input with
  | @refused e refused always =>
    have told : noted = (.now (.error e), s, []) ∧ plain = (.now (.error e), s) := by
      simp only [noted, plain, integration, always, and_self]
    obtain ⟨first, second⟩ := told
    rw [first, second]
    refine ⟨⟨rfl, rfl⟩, advertised, fun _ => ?_, fun fit => absurd fit refused.unfit⟩
    exact ⟨rfl, rfl, e, rfl, refused⟩
  | @sent verb request named asks always =>
    have told :
        noted = (.now (conclude action verb (exchange request s).1), (exchange request s).2, [request]) ∧
        plain = (.now (conclude action verb (exchange request s).1), (exchange request s).2) := by
      simp only [noted, plain, integration, always, recording, List.nil_append, and_self]
    obtain ⟨first, second⟩ := told
    rw [first, second]
    refine ⟨⟨rfl, rfl⟩, advertised, fun unfit => absurd ⟨verb, named, asks.sound⟩ unfit, fun _ => ?_⟩
    exact ⟨verb, request, named, asks, rfl, rfl, fun output => concludeGranted, fun e => concludeRefused⟩

end
end Orchestration.Slack
