import Orchestration.Proofs.Host.Reachable

/-! The procedures of a host's engines: which calls change them, and what a start makes of them.
Dials, activities and starts leave all of them as they are; registering a procedure changes
what one engine finds under one name. -/
namespace Orchestration

variable {σ : Type}

namespace Host

def serving (h : Host σ) (n : Nat) (name : String) : Option (CompiledJob σ) :=
  (h.engine n).procedures.get? name

theorem servingRegistered {h : Host σ} {number : Nat} (inside : number < h.engines.length)
    (name : String) (job : CompiledJob σ) (n : Nat) (other : String) :
    (h.changeEngine number (·.registerProcedure name job)).serving n other =
      if number = n ∧ name = other then some job else h.serving n other := by
  rw [serving, engineChanged]
  by_cases here : number = n
  · subst here
    simp only [inside, and_self, if_true, true_and, LocalEngine.registerProcedure, SortedMap.getInsert]
    rfl
  · rw [if_neg fun both => here both.1, if_neg fun both => here both.1]
    rfl

theorem servingChanged (h : Host σ) (change : LocalEngine σ → LocalEngine σ)
    (same : ∀ e, (change e).procedures = e.procedures) (number n : Nat) (name : String) :
    (h.changeEngine number change).serving n name = h.serving n name := by
  rw [serving, engineChanged]
  split
  · rw [same]
    rfl
  · rfl

theorem connectEngine (h : Host σ) (settings : ConnectionSettings) (n : Nat) :
    (h.connect settings).2.engine n = h.engine n := by
  simp only [connect]
  split
  · rfl
  · rfl
  · exact acceptEngine _ n

theorem connectReady (h : Host σ) (settings : ConnectionSettings) :
    (h.connect settings).2.ready = h.ready := by
  simp only [connect]
  split
  · rfl
  · rfl
  · simp only [accept]
    split <;> rfl

inductive Begun (h : Host σ) (engine : Nat) (procedure : String) (input : Json) :
    Except Error RunHandle → List (RunTask σ) → Prop where
  | unknown (absent : h.serving engine procedure = none) :
      Begun h engine procedure input (.error (.procedureNotRegistered procedure)) []
  | running {job handle} (found : h.serving engine procedure = some job) :
      Begun h engine procedure input (.ok handle) [⟨engine, handle.run, job, .fresh input⟩]

theorem startRunBegun (runText : RunId → String) (h : Host σ) (engine : Nat)
    (procedure queue : String) (input : Json) :
    ∃ queued, (h.startRun runText engine procedure queue input).2.ready = h.ready ++ queued ∧
      (∀ n name, (h.startRun runText engine procedure queue input).2.serving n name = h.serving n name) ∧
      Begun h engine procedure input (h.startRun runText engine procedure queue input).1 queued := by
  cases found : h.serving engine procedure with
  | none =>
    have refused : h.startRun runText engine procedure queue input =
        (.error (.procedureNotRegistered procedure), h) := by
      rw [serving] at found
      simp only [startRun, LocalEngine.procedure, found]
    rw [refused]
    exact ⟨[], (List.append_nil _).symm, fun n name => rfl, .unknown found⟩
  | some job =>
    have started : h.startRun runText engine procedure queue input =
        (.ok ⟨procedure ++ "-" ++ runText ⟨h.started⟩, ⟨h.started⟩, queue⟩,
          { h.changeEngine engine (·.track ⟨h.started⟩) with
            started := h.started + 1
            ready := h.ready ++ [⟨engine, ⟨h.started⟩, job, .fresh input⟩] }) := by
      rw [serving] at found
      simp only [startRun, LocalEngine.procedure, found]
    rw [started]
    have tracked := servingChanged h (·.track ⟨h.started⟩) (fun _ => rfl) engine
    exact ⟨_, rfl, tracked, .running found⟩

end Host

namespace Fleet

theorem getOrCreateServing (runText : RunId → String) (f : Fleet Connection (Host σ)) (queue : String) :
    (∀ n name, (f.getOrCreate (Host.platform runText) queue).2.state.serving n name =
        f.state.serving n name) ∧
      (f.getOrCreate (Host.platform runText) queue).2.state.ready = f.state.ready := by
  cases known : f.clients.clients.get? (f.clients.queueName queue) with
  | some client =>
    rw [getOrCreateHeld known]
    exact ⟨fun n name => rfl, rfl⟩
  | none =>
    have engine := Host.connectEngine f.state (f.clients.settingsFor (f.clients.queueName queue))
    have ready := Host.connectReady f.state (f.clients.settingsFor (f.clients.queueName queue))
    rw [getOrCreateDial known]
    simp only [Host.platform]
    rcases answered : f.state.connect (f.clients.settingsFor (f.clients.queueName queue)) with
      ⟨e | client, k⟩ <;>
    · rw [answered] at engine ready
      exact ⟨fun n name => congrArg (fun e => e.procedures.get? name) (engine n), ready⟩

end Fleet
end Orchestration
