import Orchestration.Client.Tls

/-! How engines are reached. -/
namespace Orchestration

structure ClientOptions where
  hostPort : String
  space : String
  defaultQueue : String
  connectAttempts : Nat
  connectDelay : Duration
  tls : TlsOptions
  deriving DecidableEq, Repr, Inhabited

def ClientOptions.standard : ClientOptions :=
  ⟨"127.0.0.1:7233", "default", "default", 5, .ofSecs 5, .none⟩

end Orchestration
