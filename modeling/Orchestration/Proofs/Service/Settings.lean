import Orchestration.Proofs.Text.Numeral
import Orchestration.Service.Config

/-! What comes of the settings of a service. Every field takes the text or the number of its own
setting, and its default where nothing is given; the numbers that are not given well and half of the
Slack settings are refused, in the order in which they are read. -/
namespace Orchestration

namespace Config

def documented : List String :=
  ["STEPLINE_HOST", "STEPLINE_PORT", "STEPLINE_WORKFLOWS_DIR", "STEPLINE_CLIENT_HOST_PORT",
    "STEPLINE_CLIENT_NAMESPACE", "STEPLINE_CLIENT_DEFAULT_QUEUE", "STEPLINE_CLIENT_CONNECT_ATTEMPTS",
    "STEPLINE_CLIENT_CONNECT_DELAY_SECS", "STEPLINE_CLIENT_TLS_ROOT_CA", "STEPLINE_CLIENT_TLS_ROOT_CA_FILE",
    "STEPLINE_CLIENT_TLS_CERT", "STEPLINE_CLIENT_TLS_CERT_FILE", "STEPLINE_CLIENT_TLS_KEY",
    "STEPLINE_CLIENT_TLS_KEY_FILE", "STEPLINE_CLIENT_TLS_SERVER_NAME", "SLACK_TOKEN", "SLACK_TEAM_ID"]

def numbers : List (String × Nat) :=
  [("STEPLINE_PORT", Nat.pow 2 16), ("STEPLINE_CLIENT_CONNECT_ATTEMPTS", Nat.pow 2 32),
    ("STEPLINE_CLIENT_CONNECT_DELAY_SECS", Nat.pow 2 64)]

section
variable (lookup : String → Option String)

structure Given (key raw : String) : Prop where
  set : lookup key = some raw
  written : Text.isBlankText raw = false

def Unset (key : String) : Prop := ∀ raw, ¬ Given lookup key raw

inductive Takes {α : Type} (key : String) (means : String → α → Prop) (default : α) : α → Prop where
  | given {raw a} (given : Given lookup key raw) (reads : means raw a) : Takes key means default a
  | unset (blank : Unset lookup key) : Takes key means default default

def Says (key default : String) : String → Prop := Takes lookup key Eq default

def Keeps (key : String) : Option String → Prop := Takes lookup key (fun raw kept => kept = some raw) none

def Counts (key : String) (limit default : Nat) : Nat → Prop :=
  Takes lookup key (fun raw n => Text.Numeral raw n ∧ n < limit) default

def Fits (key : String) (limit : Nat) : Prop :=
  ∀ raw, Given lookup key raw → ∃ n, Text.Numeral raw n ∧ n < limit

def SlackPaired : Prop := Unset lookup "SLACK_TOKEN" ↔ Unset lookup "SLACK_TEAM_ID"

structure TlsFollows (o : TlsOptions) : Prop where
  rootCa : Keeps lookup "STEPLINE_CLIENT_TLS_ROOT_CA" o.rootCa
  rootCaFile : Keeps lookup "STEPLINE_CLIENT_TLS_ROOT_CA_FILE" o.rootCaFile
  cert : Keeps lookup "STEPLINE_CLIENT_TLS_CERT" o.cert
  certFile : Keeps lookup "STEPLINE_CLIENT_TLS_CERT_FILE" o.certFile
  key : Keeps lookup "STEPLINE_CLIENT_TLS_KEY" o.key
  keyFile : Keeps lookup "STEPLINE_CLIENT_TLS_KEY_FILE" o.keyFile
  serverName : Keeps lookup "STEPLINE_CLIENT_TLS_SERVER_NAME" o.serverName

structure Follows (c : Config) : Prop where
  host : Says lookup "STEPLINE_HOST" "0.0.0.0" c.host
  port : Counts lookup "STEPLINE_PORT" (Nat.pow 2 16) 3004 c.port
  workflowsDir : Says lookup "STEPLINE_WORKFLOWS_DIR" ".stepline" c.workflowsDir
  hostPort : Says lookup "STEPLINE_CLIENT_HOST_PORT" "127.0.0.1:7233" c.client.hostPort
  space : Says lookup "STEPLINE_CLIENT_NAMESPACE" "default" c.client.space
  defaultQueue : Says lookup "STEPLINE_CLIENT_DEFAULT_QUEUE" "default" c.client.defaultQueue
  connectAttempts : Counts lookup "STEPLINE_CLIENT_CONNECT_ATTEMPTS" (Nat.pow 2 32) 5 c.client.connectAttempts
  connectDelay : ∃ secs, Counts lookup "STEPLINE_CLIENT_CONNECT_DELAY_SECS" (Nat.pow 2 64) 5 secs ∧
    c.client.connectDelay = .ofSecs secs
  tls : TlsFollows lookup c.client.tls
  slack : ∀ s, c.slack = some s ↔ Given lookup "SLACK_TOKEN" s.token ∧ Given lookup "SLACK_TEAM_ID" s.teamId
  slackPaired : SlackPaired lookup

/-- What is wrong first. -/
inductive Violation : Error → Prop where
  | number {earlier key limit later raw} {fault : Text.NumeralFault}
      (order : numbers = earlier ++ (key, limit) :: later)
      (before : ∀ entry ∈ earlier, Fits lookup entry.1 entry.2) (given : Given lookup key raw)
      (unfit : ¬ Fits lookup key limit) :
      Violation (.config (key ++ " has invalid value '" ++ raw ++ "': " ++ fault.message))
  | slack (before : ∀ entry ∈ numbers, Fits lookup entry.1 entry.2) (unpaired : ¬ SlackPaired lookup) :
      Violation (.config "SLACK_TOKEN and SLACK_TEAM_ID must be set together")

variable {lookup}

theorem settingGiven {key raw : String} : setting lookup key = some raw ↔ Given lookup key raw := by
  rw [setting, Text.given, Option.filter_eq_some_iff, Bool.not_eq_true']
  exact ⟨fun given => ⟨given.1, given.2⟩, fun given => ⟨given.set, given.written⟩⟩

theorem settingUnset {key : String} : setting lookup key = none ↔ Unset lookup key := by
  simp only [Option.eq_none_iff_forall_ne_some, ne_eq, settingGiven, Unset]

theorem takesIff {α : Type} {key : String} {means : String → α → Prop} {default a : α} :
    Takes lookup key means default a ↔
      match setting lookup key with
      | some raw => means raw a
      | none => a = default := by
  constructor
  · intro taken
    cases taken with
    | given given reads =>
      rw [settingGiven.2 given]
      exact reads
    | unset unset => rw [settingUnset.2 unset]
  · intro taken
    split at taken
    · rename_i raw given
      exact .given (settingGiven.1 given) taken
    · rename_i unset
      exact taken ▸ .unset (settingUnset.1 unset)

theorem saysIff {key default value : String} :
    Says lookup key default value ↔ (setting lookup key).getD default = value := by
  rw [Says, takesIff]
  cases setting lookup key with
  | none => exact eq_comm
  | some raw => rfl

theorem keepsIff {key : String} {value : Option String} :
    Keeps lookup key value ↔ setting lookup key = value := by
  rw [Keeps, takesIff]
  cases setting lookup key <;> exact eq_comm

theorem numberIff {key : String} {limit default n : Nat} (positive : 0 < limit) :
    number lookup key limit default = .ok n ↔ Counts lookup key limit default n := by
  rw [number, Counts, takesIff]
  cases setting lookup key with
  | none => simp only [Except.ok.injEq, eq_comm]
  | some raw =>
    dsimp only
    rw [← Text.numeralBelowIff positive]
    cases Text.numeralBelow limit raw <;> simp [Except.mapError]

theorem fitsIff {key : String} {limit default : Nat} :
    (∃ n, Counts lookup key limit default n) ↔ Fits lookup key limit := by
  simp only [Counts, takesIff]
  cases given : setting lookup key with
  | none => exact iff_of_true ⟨default, rfl⟩ fun raw other => absurd other (settingUnset.1 given raw)
  | some raw =>
    have here := settingGiven.1 given
    refine ⟨fun fits other there => ?_, fun fits => fits raw here⟩
    cases here.set.symm.trans there.set
    exact fits

theorem Violation.ofNumber (earlier : List (String × Nat)) {later : List (String × Nat)} {key : String}
    {limit default : Nat} {e : Error} (order : numbers = earlier ++ (key, limit) :: later)
    (before : ∀ entry ∈ earlier, Fits lookup entry.1 entry.2) (positive : 0 < limit)
    (fails : Config.number lookup key limit default = .error e) : Violation lookup e := by
  have unfit : ¬ Fits lookup key limit := by
    intro fits
    obtain ⟨n, counts⟩ := fitsIff.2 fits
    cases fails.symm.trans ((numberIff positive).2 counts)
  rw [Config.number] at fails
  split at fails
  · cases fails
  · rename_i raw given
    generalize Text.numeralBelow limit raw = numeral at fails
    cases numeral with
    | ok n => cases fails
    | error fault =>
      cases fails
      exact .number order before (settingGiven.1 given) unfit

theorem slackIff {slack : Option SlackConfig} : slackSettings lookup = .ok slack ↔
    (∀ s, slack = some s ↔ Given lookup "SLACK_TOKEN" s.token ∧ Given lookup "SLACK_TEAM_ID" s.teamId) ∧
    SlackPaired lookup := by
  simp only [slackSettings, SlackPaired, ← settingUnset, ← settingGiven]
  cases setting lookup "SLACK_TOKEN" with
  | none =>
    cases setting lookup "SLACK_TEAM_ID" with
    | none => simp [eq_comm, Option.eq_none_iff_forall_ne_some]
    | some teamId => simp
  | some token =>
    cases setting lookup "SLACK_TEAM_ID" with
    | none => simp
    | some teamId =>
      refine ⟨fun same => ⟨fun s => ?_, by simp⟩, fun told => ?_⟩
      · cases same
        cases s
        simp
      · rw [(told.1 ⟨token, teamId⟩).2 ⟨rfl, rfl⟩]

theorem slackError {e : Error} (fails : slackSettings lookup = .error e) : ¬ SlackPaired lookup ∧
    .config "SLACK_TOKEN and SLACK_TEAM_ID must be set together" = e := by
  rw [SlackPaired, ← settingUnset, ← settingUnset]
  rw [slackSettings] at fails
  cases token : setting lookup "SLACK_TOKEN" <;> cases teamId : setting lookup "SLACK_TEAM_ID" <;>
    simp_all

theorem TlsFollows.tls {o : TlsOptions} (follows : TlsFollows lookup o) : Config.tls lookup = o := by
  rw [Config.tls, keepsIff.1 follows.rootCa, keepsIff.1 follows.rootCaFile, keepsIff.1 follows.cert,
    keepsIff.1 follows.certFile, keepsIff.1 follows.key, keepsIff.1 follows.keyFile,
    keepsIff.1 follows.serverName]

theorem Follows.load {c : Config} (follows : Follows lookup c) : Config.load lookup = .ok c := by
  obtain ⟨secs, counted, delay⟩ := follows.connectDelay
  have port : number lookup "STEPLINE_PORT" (Nat.pow 2 16) standard.port = .ok c.port :=
    (numberIff (by decide)).2 follows.port
  have attempts : number lookup "STEPLINE_CLIENT_CONNECT_ATTEMPTS" (Nat.pow 2 32)
      standard.client.connectAttempts = .ok c.client.connectAttempts :=
    (numberIff (by decide)).2 follows.connectAttempts
  have wait : number lookup "STEPLINE_CLIENT_CONNECT_DELAY_SECS" (Nat.pow 2 64)
      standard.client.connectDelay.secs = .ok secs := (numberIff (by decide)).2 counted
  have slack := slackIff.2 ⟨follows.slack, follows.slackPaired⟩
  have host : (setting lookup "STEPLINE_HOST").getD standard.host = c.host := saysIff.1 follows.host
  have workflowsDir : (setting lookup "STEPLINE_WORKFLOWS_DIR").getD standard.workflowsDir = c.workflowsDir :=
    saysIff.1 follows.workflowsDir
  have hostPort : (setting lookup "STEPLINE_CLIENT_HOST_PORT").getD standard.client.hostPort =
      c.client.hostPort := saysIff.1 follows.hostPort
  have space : (setting lookup "STEPLINE_CLIENT_NAMESPACE").getD standard.client.space = c.client.space :=
    saysIff.1 follows.space
  have defaultQueue : (setting lookup "STEPLINE_CLIENT_DEFAULT_QUEUE").getD standard.client.defaultQueue =
      c.client.defaultQueue := saysIff.1 follows.defaultQueue
  rw [Config.load, port, attempts, wait, slack, follows.tls.tls, host, workflowsDir, hostPort, space,
    defaultQueue]
  simp only [bind, Except.bind, pure, Except.pure, ← delay]

theorem numbersFit : (∀ entry ∈ numbers, Fits lookup entry.1 entry.2) ↔
    Fits lookup "STEPLINE_PORT" (Nat.pow 2 16) ∧
    Fits lookup "STEPLINE_CLIENT_CONNECT_ATTEMPTS" (Nat.pow 2 32) ∧
    Fits lookup "STEPLINE_CLIENT_CONNECT_DELAY_SECS" (Nat.pow 2 64) := by
  rw [numbers, List.forall_mem_cons, List.forall_mem_cons, List.forall_mem_singleton]

theorem Follows.fits {c : Config} (follows : Follows lookup c) :
    ∀ entry ∈ numbers, Fits lookup entry.1 entry.2 := by
  obtain ⟨secs, delay, -⟩ := follows.connectDelay
  exact numbersFit.2 ⟨fitsIff.1 ⟨_, follows.port⟩, fitsIff.1 ⟨_, follows.connectAttempts⟩, fitsIff.1 ⟨_, delay⟩⟩

inductive Taken (lookup : String → Option String) : Except Error Config → Prop where
  | whole {c} (follows : Follows lookup c) : Taken lookup (.ok c)
  | refused {e} (violation : Violation lookup e) : Taken lookup (.error e)

theorem loadTaken (lookup : String → Option String) : Taken lookup (load lookup) := by
  rw [load]
  cases port : number lookup "STEPLINE_PORT" (Nat.pow 2 16) standard.port with
  | error e => exact .refused (.ofNumber [] rfl nofun (by decide) port)
  | ok port' =>
  have port := (numberIff (by decide)).1 port
  have portFits := fitsIff.1 ⟨_, port⟩
  cases attempts : number lookup "STEPLINE_CLIENT_CONNECT_ATTEMPTS" (Nat.pow 2 32)
      standard.client.connectAttempts with
  | error e =>
    exact .refused (.ofNumber (numbers.take 1) rfl (List.forall_mem_singleton.2 portFits) (by decide) attempts)
  | ok attempts' =>
  have attempts := (numberIff (by decide)).1 attempts
  have attemptsFit := fitsIff.1 ⟨_, attempts⟩
  cases delay : number lookup "STEPLINE_CLIENT_CONNECT_DELAY_SECS" (Nat.pow 2 64)
      standard.client.connectDelay.secs with
  | error e =>
    have before : ∀ entry ∈ numbers.take 2, Fits lookup entry.1 entry.2 :=
      List.forall_mem_cons.2 ⟨portFits, List.forall_mem_singleton.2 attemptsFit⟩
    exact .refused (.ofNumber (numbers.take 2) rfl before (by decide) delay)
  | ok secs =>
  have delay := (numberIff (by decide)).1 delay
  cases slack : slackSettings lookup with
  | error e =>
    obtain ⟨unpaired, rfl⟩ := slackError slack
    exact .refused (.slack (numbersFit.2 ⟨portFits, attemptsFit, fitsIff.1 ⟨_, delay⟩⟩) unpaired)
  | ok slack' =>
  obtain ⟨told, paired⟩ := slackIff.1 slack
  exact .whole
    { host := saysIff.2 rfl
      port := port
      workflowsDir := saysIff.2 rfl
      hostPort := saysIff.2 rfl
      space := saysIff.2 rfl
      defaultQueue := saysIff.2 rfl
      connectAttempts := attempts
      connectDelay := ⟨secs, delay, rfl⟩
      tls := ⟨keepsIff.2 rfl, keepsIff.2 rfl, keepsIff.2 rfl, keepsIff.2 rfl, keepsIff.2 rfl, keepsIff.2 rfl,
        keepsIff.2 rfl⟩
      slack := told
      slackPaired := paired }

theorem Violation.unsound {e : Error} (violation : Violation lookup e) :
    ¬ ((∀ entry ∈ numbers, Fits lookup entry.1 entry.2) ∧ SlackPaired lookup) := by
  intro sound
  obtain ⟨fits, paired⟩ := sound
  cases violation with
  | @number earlier key limit later _ _ order _ _ unfit =>
    have listed : (key, limit) ∈ numbers := by
      rw [order]
      exact List.mem_append_right _ List.mem_cons_self
    exact unfit (fits _ listed)
  | slack before unpaired => exact unpaired paired

/-- The configuration that comes of any settings. It is there exactly when each of the three numbers
fits or is not given, and the two Slack settings are given together; it is the one that follows the
settings field by field. All else is refused for what is wrong first. Only the documented settings
count, and a text of blanks counts for none. -/
theorem loadsSettings (lookup : String → Option String) :
    ((∃ c, load lookup = .ok c) ↔
      (∀ entry ∈ numbers, Fits lookup entry.1 entry.2) ∧ SlackPaired lookup) ∧
    (∀ c, load lookup = .ok c ↔ Follows lookup c) ∧
    (∀ e, load lookup = .error e → Violation lookup e) ∧
    ∀ other : String → Option String,
      (∀ key ∈ documented, ∀ raw, Given other key raw ↔ Given lookup key raw) →
      load other = load lookup := by
  have taken := loadTaken lookup
  refine ⟨?_, fun c => ⟨fun loaded => ?_, Follows.load⟩, fun e refused => ?_, fun other alike => ?_⟩
  · generalize load lookup = result at taken
    cases taken with
    | @whole c follows => exact iff_of_true ⟨c, rfl⟩ ⟨follows.fits, follows.slackPaired⟩
    | refused violation =>
      refine iff_of_false (fun loaded => ?_) violation.unsound
      obtain ⟨c, same⟩ := loaded
      cases same
  · rw [loaded] at taken
    cases taken with
    | whole follows => exact follows
  · rw [refused] at taken
    cases taken with
    | refused violation => exact violation
  · have same : ∀ key ∈ documented, setting other key = setting lookup key := fun key listed =>
      Option.ext fun raw => settingGiven.trans ((alike key listed raw).trans settingGiven.symm)
    simp only [documented, List.forall_mem_cons] at same
    simp only [load, number, tls, slackSettings, same]

end

end Config
end Orchestration
