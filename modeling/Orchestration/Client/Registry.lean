import Orchestration.Collection.SortedMap
import Orchestration.Engine.Platform

/-! Connections by queue. A queue is dialed until a connection is there, and never
again; the default queue with several attempts, others with one. -/
namespace Orchestration

structure Machine where
  process : String
  host : String
  deriving DecidableEq, Repr

def Machine.hostName (setting file : Option String) : String :=
  (((setting <|> file).map Text.trim).filter fun name => !name.isEmpty).getD "localhost"

structure ClientRegistry (η : Type) where
  options : ClientOptions
  tls : Option TlsMaterial
  machine : Machine
  clients : SortedMap η

structure Fleet (η κ : Type) where
  clients : ClientRegistry η
  state : κ

namespace ClientRegistry
variable {η : Type}

def ofOptions (options : ClientOptions) (machine : Machine)
    (read : String → Except SystemFault ByteArray) : Except Error (ClientRegistry η) :=
  if Text.isBlankText options.defaultQueue then .error .blankDefaultQueue
  else (options.tls.resolve read).map fun tls => ⟨options, tls, machine, .empty⟩

def defaultQueue (r : ClientRegistry η) : String := r.options.defaultQueue

def queueName (r : ClientRegistry η) (queue : String) : String :=
  if Text.isBlankText queue then r.defaultQueue else queue

def settingsFor (r : ClientRegistry η) (queue : String) : ConnectionSettings :=
  { hostPort := r.options.hostPort
    space := r.options.space
    identity := r.machine.process ++ "@" ++ r.machine.host ++ "@" ++ queue
    queue := queue
    tls := r.tls }

def get? (r : ClientRegistry η) (queue : String) : Option η := r.clients.get? (r.queueName queue)

def connectedQueues (r : ClientRegistry η) : List String := r.clients.keys

def store (r : ClientRegistry η) (queue : String) (client : η) : ClientRegistry η :=
  { r with clients := r.clients.insert queue client }

end ClientRegistry

namespace Fleet
variable {σ η κ : Type} (p : Platform σ η κ)

def dial (settings : ConnectionSettings) (delay : Duration) : Nat → κ → Except Error η × κ
  | 0, k => p.connect settings k
  | more + 1, k =>
    match p.connect settings k with
    | (.ok client, k) => (.ok client, k)
    | (.error _, k) => dial settings delay more (p.pause delay k)

def connect (f : Fleet η κ) (queue : String) (attempts : Nat) : Except Error η × Fleet η κ :=
  match dial p (f.clients.settingsFor queue) f.clients.options.connectDelay (attempts - 1) f.state with
  | (.ok client, k) => (.ok client, ⟨f.clients.store queue client, k⟩)
  | (.error e, k) => (.error (.connectionFailed queue attempts e.message), ⟨f.clients, k⟩)

def getOrCreate (f : Fleet η κ) (queue : String) : Except Error η × Fleet η κ :=
  let queue := f.clients.queueName queue
  match f.clients.get? queue with
  | some client => (.ok client, f)
  | none => f.connect p queue 1

def ensureDefault (f : Fleet η κ) : Except Error η × Fleet η κ :=
  let queue := f.clients.defaultQueue
  match f.clients.get? queue with
  | some client => (.ok client, f)
  | none => f.connect p queue (max 1 f.clients.options.connectAttempts)

end Fleet
end Orchestration
