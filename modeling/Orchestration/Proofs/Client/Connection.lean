import Orchestration.Client.Registry
import Orchestration.Proofs.Collection.SortedMap

/-! Connections as they are kept. A held connection answers without a dial; a queue that
is not connected is dialed once, and only a dial that succeeds changes the registry.
`Grows` is what every use of a registry does to it: nothing that is held is replaced. -/
namespace Orchestration

namespace ClientRegistry
variable {η : Type}

theorem queueNameAgain (r : ClientRegistry η) (queue : String) :
    r.queueName (r.queueName queue) = r.queueName queue := by
  by_cases blank : Text.isBlankText queue = true
  · by_cases default : Text.isBlankText r.defaultQueue = true <;> simp [queueName, blank, default]
  · simp [queueName, blank]

theorem getNamed (r : ClientRegistry η) (queue : String) : r.get? (r.queueName queue) = r.get? queue :=
  congrArg r.clients.get? (r.queueNameAgain queue)

structure Grows (a b : ClientRegistry η) : Prop where
  options : b.options = a.options
  tls : b.tls = a.tls
  machine : b.machine = a.machine
  kept : ∀ queue client, a.clients.get? queue = some client → b.clients.get? queue = some client

theorem Grows.refl (r : ClientRegistry η) : Grows r r := ⟨rfl, rfl, rfl, fun _ _ held => held⟩

theorem Grows.trans {a b c : ClientRegistry η} (first : Grows a b) (second : Grows b c) : Grows a c :=
  ⟨second.options.trans first.options, second.tls.trans first.tls,
    second.machine.trans first.machine,
    fun queue client held => second.kept queue client (first.kept queue client held)⟩

theorem Grows.queueName {a b : ClientRegistry η} (grows : Grows a b) (queue : String) :
    b.queueName queue = a.queueName queue := by
  simp only [ClientRegistry.queueName, defaultQueue, grows.options]

theorem Grows.get {a b : ClientRegistry η} (grows : Grows a b) {queue : String} {client : η}
    (held : a.get? queue = some client) : b.get? queue = some client := by
  rw [get?, grows.queueName]
  exact grows.kept _ _ held

theorem Grows.settingsFor {a b : ClientRegistry η} (grows : Grows a b) (queue : String) :
    b.settingsFor queue = a.settingsFor queue := by
  simp only [ClientRegistry.settingsFor, grows.options, grows.tls, grows.machine]

theorem storeGrows {r : ClientRegistry η} {queue : String} (fresh : r.clients.get? queue = none)
    (client : η) : Grows r (r.store queue client) := by
  refine ⟨rfl, rfl, rfl, fun other held found => ?_⟩
  have different : queue ≠ other := by
    intro same
    rw [same, found] at fresh
    cases fresh
  exact (SortedMap.getInsertOther r.clients client different).trans found

end ClientRegistry

namespace Fleet
variable {σ η κ : Type} {p : Platform σ η κ}

theorem getOrCreateHeld {f : Fleet η κ} {queue : String} {client : η}
    (held : f.clients.clients.get? (f.clients.queueName queue) = some client) :
    f.getOrCreate p queue = (.ok client, f) := by
  simp only [getOrCreate, ClientRegistry.get?, ClientRegistry.queueNameAgain, held]

theorem getOrCreateDial {f : Fleet η κ} {queue : String}
    (fresh : f.clients.clients.get? (f.clients.queueName queue) = none) :
    f.getOrCreate p queue =
      match p.connect (f.clients.settingsFor (f.clients.queueName queue)) f.state with
      | (.ok client, k) => (.ok client, ⟨f.clients.store (f.clients.queueName queue) client, k⟩)
      | (.error e, k) =>
        (.error (.connectionFailed (f.clients.queueName queue) 1 e.message), ⟨f.clients, k⟩) := by
  rcases answered : p.connect (f.clients.settingsFor (f.clients.queueName queue)) f.state with
    ⟨e | client, k⟩ <;>
  simp only [getOrCreate, ClientRegistry.get?, ClientRegistry.queueNameAgain, fresh, connect,
    Nat.sub_self, dial, answered]

theorem getOrCreateGrows (p : Platform σ η κ) (f : Fleet η κ) (queue : String) :
    f.clients.Grows (f.getOrCreate p queue).2.clients ∧
      ∀ client, (f.getOrCreate p queue).1 = .ok client →
        (f.getOrCreate p queue).2.clients.clients.get? (f.clients.queueName queue) = some client := by
  cases known : f.clients.clients.get? (f.clients.queueName queue) with
  | some client =>
    rw [getOrCreateHeld known]
    refine ⟨.refl _, fun other same => ?_⟩
    cases Except.ok.inj same
    exact known
  | none =>
    rw [getOrCreateDial known]
    rcases p.connect (f.clients.settingsFor (f.clients.queueName queue)) f.state with ⟨e | client, k⟩
    · refine ⟨.refl _, fun other same => ?_⟩
      cases same
    · refine ⟨ClientRegistry.storeGrows known client, fun other same => ?_⟩
      cases Except.ok.inj same
      exact SortedMap.getInsertSelf _ _ _

theorem getOrCreateFailed {f g : Fleet η κ} {queue : String} {e : Error}
    (failed : f.getOrCreate p queue = (.error e, g)) :
    f.clients.get? queue = none ∧
      ∃ reason, e = .connectionFailed (f.clients.queueName queue) 1 reason := by
  cases known : f.clients.clients.get? (f.clients.queueName queue) with
  | some client =>
    rw [getOrCreateHeld known] at failed
    cases failed
  | none =>
    rw [getOrCreateDial known] at failed
    rcases answered : p.connect (f.clients.settingsFor (f.clients.queueName queue)) f.state with
      ⟨fault | client, k⟩
    · rw [answered] at failed
      cases failed
      exact ⟨known, fault.message, rfl⟩
    · rw [answered] at failed
      cases failed

end Fleet
end Orchestration
