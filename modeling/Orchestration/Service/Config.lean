import Orchestration.Client.Options
import Orchestration.Text.Numeral

/-! The configuration of a service, from named settings. A setting that is unset or
blank takes its default; texts are kept as given, numbers are read. -/
namespace Orchestration

structure SlackConfig where
  token : String
  teamId : String
  deriving DecidableEq, Repr

def SlackConfig.redacted (s : SlackConfig) : String :=
  "SlackConfig \x7b token: \"<redacted>\", team_id: " ++ Text.quoted s.teamId ++ " \x7d"

structure Config where
  host : String
  port : Nat
  workflowsDir : String
  client : ClientOptions
  slack : Option SlackConfig
  deriving DecidableEq, Repr

namespace Config

def standard : Config := ⟨"0.0.0.0", 3004, ".stepline", .standard, none⟩

def bindAddress (c : Config) : String := c.host ++ ":" ++ toString c.port

section
variable (lookup : String → Option String)

def setting (key : String) : Option String := Text.given (lookup key)

def number (key : String) (limit standard : Nat) : Except Error Nat :=
  match setting lookup key with
  | none => .ok standard
  | some raw => (Text.numeralBelow limit raw).mapError fun fault =>
    .config (key ++ " has invalid value '" ++ raw ++ "': " ++ fault.message)

def tls : TlsOptions :=
  { rootCa := setting lookup "STEPLINE_CLIENT_TLS_ROOT_CA"
    rootCaFile := setting lookup "STEPLINE_CLIENT_TLS_ROOT_CA_FILE"
    cert := setting lookup "STEPLINE_CLIENT_TLS_CERT"
    certFile := setting lookup "STEPLINE_CLIENT_TLS_CERT_FILE"
    key := setting lookup "STEPLINE_CLIENT_TLS_KEY"
    keyFile := setting lookup "STEPLINE_CLIENT_TLS_KEY_FILE"
    serverName := setting lookup "STEPLINE_CLIENT_TLS_SERVER_NAME" }

def slackSettings : Except Error (Option SlackConfig) :=
  match setting lookup "SLACK_TOKEN", setting lookup "SLACK_TEAM_ID" with
  | some token, some teamId => .ok (some ⟨token, teamId⟩)
  | none, none => .ok none
  | _, _ => .error (.config "SLACK_TOKEN and SLACK_TEAM_ID must be set together")

def load : Except Error Config := do
  let port ← number lookup "STEPLINE_PORT" (Nat.pow 2 16) standard.port
  let attempts ← number lookup "STEPLINE_CLIENT_CONNECT_ATTEMPTS" (Nat.pow 2 32)
    standard.client.connectAttempts
  let delay ← number lookup "STEPLINE_CLIENT_CONNECT_DELAY_SECS" (Nat.pow 2 64)
    standard.client.connectDelay.secs
  let slack ← slackSettings lookup
  pure
    { host := (setting lookup "STEPLINE_HOST").getD standard.host
      port := port
      workflowsDir := (setting lookup "STEPLINE_WORKFLOWS_DIR").getD standard.workflowsDir
      client :=
        { hostPort := (setting lookup "STEPLINE_CLIENT_HOST_PORT").getD standard.client.hostPort
          space := (setting lookup "STEPLINE_CLIENT_NAMESPACE").getD standard.client.space
          defaultQueue := (setting lookup "STEPLINE_CLIENT_DEFAULT_QUEUE").getD
            standard.client.defaultQueue
          connectAttempts := attempts
          connectDelay := .ofSecs delay
          tls := tls lookup }
      slack := slack }

end

end Config
end Orchestration
