import Orchestration.Error
import Orchestration.Text.Blank
import Orchestration.Text.Quoted

/-! Material for mutual TLS. Each piece is given inline or as a file, never both;
the certificate and its key come together and in the same way. -/
namespace Orchestration

structure TlsOptions where
  rootCa : Option String
  rootCaFile : Option String
  cert : Option String
  certFile : Option String
  key : Option String
  keyFile : Option String
  serverName : Option String
  deriving DecidableEq, Repr, Inhabited

def TlsOptions.none : TlsOptions :=
  ⟨Option.none, Option.none, Option.none, Option.none, Option.none, Option.none, Option.none⟩

structure TlsMaterial where
  clientCert : ByteArray
  clientKey : ByteArray
  rootCa : Option ByteArray
  serverName : Option String

inductive TlsSource where
  | text (value : String)
  | file (path : String)
  deriving DecidableEq, Repr

namespace TlsSource

def pick (piece : String) (value path : Option String) : Except Error (Option TlsSource) :=
  match Text.given value, path.filter fun p => !p.isEmpty with
  | some _, some _ => .error (.config (piece ++ " is set both inline and as a file; choose one"))
  | some value, none => .ok (some (.text value))
  | none, some path => .ok (some (.file path))
  | none, none => .ok none

def isFile : TlsSource → Bool
  | text _ => false
  | file _ => true

def load (read : String → Except SystemFault ByteArray) (piece : String) :
    TlsSource → Except Error ByteArray
  | text value => .ok value.toUTF8
  | file path => (read path).mapError fun fault =>
    .config ("unable to read " ++ piece ++ " from " ++ path ++ ": " ++ fault.message)

end TlsSource

namespace TlsMaterial

def sizeText (bytes : ByteArray) : String := Text.quoted (toString bytes.size ++ " bytes")

def optionText (value : Option String) : String :=
  match value with
  | none => "None"
  | some text => "Some(" ++ text ++ ")"

def redacted (m : TlsMaterial) : String :=
  "TlsMaterial \x7b client_cert: " ++ sizeText m.clientCert ++ ", client_key: \"<redacted>\"" ++
    ", root_ca: " ++ optionText (m.rootCa.map sizeText) ++
    ", server_name: " ++ optionText (m.serverName.map Text.quoted) ++ " \x7d"

end TlsMaterial

namespace TlsOptions

def certName : String := "client certificate"
def keyName : String := "client key"
def rootName : String := "root CA"

def resolve (o : TlsOptions) (read : String → Except SystemFault ByteArray) :
    Except Error (Option TlsMaterial) := do
  let cert ← TlsSource.pick certName o.cert o.certFile
  let key ← TlsSource.pick keyName o.key o.keyFile
  let root ← TlsSource.pick rootName o.rootCa o.rootCaFile
  match cert, key with
  | Option.none, Option.none => pure Option.none
  | some cert, some key =>
    if cert.isFile ≠ key.isFile then
      throw (.config "specify both client certificate and key as files or both inline")
    else
      let clientCert ← cert.load read certName
      let clientKey ← key.load read keyName
      let rootCa ← match root with
        | some root => (root.load read rootName).map some
        | Option.none => pure Option.none
      pure (some ⟨clientCert, clientKey, rootCa, (Text.given o.serverName).map Text.trim⟩)
  | _, _ => throw (.config "client certificate and key must be configured together")

end TlsOptions
end Orchestration
