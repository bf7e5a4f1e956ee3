import Orchestration.Host.Platform

/-! What time, runs and dials do to the engines of a host: engines may be added, none goes
away, and of every engine all but its runs and the state of its cron jobs stays as it is. -/
namespace Orchestration

universe u

variable {σ : Type} {α : Type u}

namespace LocalEngine

def tables (e : LocalEngine σ) : SortedMap (CompiledJob σ) × SortedMap ScheduleDescription :=
  (e.procedures, e.schedules)

/-- Something to be seen of an engine in which neither its runs nor its cron jobs show. -/
class Calm (see : LocalEngine σ → α) : Prop where
  runs : ∀ e runs, see { e with runs := runs } = see e
  cron : ∀ e cron, see { e with cron := cron } = see e

instance : Calm (schedules : LocalEngine σ → _) := ⟨fun _ _ => rfl, fun _ _ => rfl⟩

instance : Calm (tables : LocalEngine σ → _) := ⟨fun _ _ => rfl, fun _ _ => rfl⟩

end LocalEngine

namespace Host

structure Keeps (see : LocalEngine σ → α) (h h' : Host σ) : Prop where
  shared : h'.shared = h.shared
  count : h.engines.length ≤ h'.engines.length
  seen : ∀ n, see (h'.engine n) = see (h.engine n)

theorem engineChanged (h : Host σ) (number n : Nat) (change : LocalEngine σ → LocalEngine σ) :
    (h.changeEngine number change).engine n =
      if number = n ∧ n < h.engines.length then change (h.engine n) else h.engine n := by
  simp only [engine, changeEngine, List.getElem?_modify]
  by_cases inside : n < h.engines.length
  · by_cases here : number = n <;> simp [here, inside]
  · simp [inside]

theorem engineBeyond {h : Host σ} {n : Nat} (beyond : h.engines.length ≤ n) : h.engine n = .empty := by
  rw [engine, List.getElem?_eq_none beyond]
  rfl

theorem startEngine (shared : Bool) (outages : SortedMap Outage) (moment : Nat) (services : σ) (n : Nat) :
    (Host.start shared outages moment services).engine n = .empty := by
  cases shared <;> cases n <;> rfl

theorem acceptEngine (h : Host σ) (n : Nat) : h.accept.2.engine n = h.engine n := by
  simp only [accept]
  split
  · rfl
  · simp only [engine]
    rcases Nat.lt_trichotomy n h.engines.length with inside | last | beyond
    · rw [List.getElem?_append_left inside]
    · -- the new engine is as empty as one that is not there
      subst last
      simp
    · rw [List.getElem?_eq_none (by simp; omega), List.getElem?_eq_none (by omega)]

theorem engineCancelled {h : Host σ} {run : RunId} (tracked : h.engines.any (·.runs.contains run) = true)
    (n : Nat) : (h.cancel run).2.engine n = (h.engine n).untrack run := by
  simp only [cancel, if_pos tracked, engine, List.getElem?_map]
  cases h.engines[n]? <;> rfl

namespace Keeps
open LocalEngine

variable {see : LocalEngine σ → α}

theorem refl (h : Host σ) : Keeps see h h := ⟨rfl, Nat.le_refl _, fun _ => rfl⟩

theorem trans {a b c : Host σ} (first : Keeps see a b) (second : Keeps see b c) : Keeps see a c :=
  ⟨second.shared.trans first.shared, Nat.le_trans first.count second.count,
    fun n => (second.seen n).trans (first.seen n)⟩

theorem ofEngines {h h' : Host σ} (shared : h'.shared = h.shared) (engines : h'.engines = h.engines) :
    Keeps see h h' := by
  refine ⟨shared, Nat.le_of_eq (congrArg List.length engines.symm), fun n => ?_⟩
  simp only [engine, engines]

theorem changeEngine (h : Host σ) (number : Nat) (change : LocalEngine σ → LocalEngine σ)
    (same : ∀ e, see (change e) = see e) : Keeps see h (h.changeEngine number change) := by
  refine ⟨rfl, Nat.le_of_eq (List.length_modify ..).symm, fun n => ?_⟩
  rw [engineChanged]
  split
  · exact same _
  · rfl

theorem tried (h : Host σ) (number : Nat) (result : Except Error (LocalEngine σ))
    (same : ∀ e, result = .ok e → see e = see (h.engine number)) :
    Keeps see h (h.tryEngine number result).2 := by
  cases result with
  | error e => exact refl h
  | ok e =>
    refine ⟨rfl, Nat.le_of_eq (List.length_modify ..).symm, fun n => ?_⟩
    rw [tryEngine, engineChanged]
    split
    · rename_i here
      rw [← here.1, same e rfl]
    · rfl

theorem foldl {β : Type} {f : Host σ → β → Host σ} (step : ∀ h b, Keeps see h (f h b)) (bs : List β)
    (h : Host σ) : Keeps see h (bs.foldl f h) := by
  induction bs generalizing h with
  | nil => exact refl h
  | cons b rest ih => exact (step h b).trans (ih (f h b))

theorem wake (h : Host σ) (instant : Duration) : Keeps see h (h.wake instant) := ofEngines rfl rfl

theorem accept (h : Host σ) : Keeps see h h.accept.2 := by
  refine ⟨?_, ?_, fun n => congrArg see (acceptEngine h n)⟩
  · simp only [Host.accept]
    split <;> rfl
  · simp only [Host.accept]
    split <;> simp

theorem connect (h : Host σ) (settings : ConnectionSettings) : Keeps see h (h.connect settings).2 := by
  simp only [Host.connect]
  split
  · exact ofEngines rfl rfl
  · exact ofEngines rfl rfl
  · have noted : Keeps see h (h.noteDial settings.queue true) := ofEngines rfl rfl
    exact noted.trans (accept _)

variable [Calm see]

theorem settle (h : Host σ) (t : RunTask σ) (polled : Polled σ) : Keeps see h (h.settle t polled) := by
  cases polled with
  | ended report =>
    have untracked : Keeps see h _ := changeEngine h t.engine (·.untrack t.run) fun e => Calm.runs e _
    exact untracked.trans (ofEngines rfl rfl)
  | asleep wait task => exact ofEngines rfl rfl

theorem poll (h : Host σ) (t : RunTask σ) : Keeps see h (h.poll t) := by
  have served (services : σ) : Keeps see h { h with services := services } := ofEngines rfl rfl
  exact (served _).trans (settle _ t _)

theorem drain (h : Host σ) : Keeps see h h.drain := by
  have taken : Keeps see h { h with ready := [] } := ofEngines rfl rfl
  exact taken.trans (foldl poll h.ready _)

theorem runBefore (instant : Duration) (fuel : Nat) (h : Host σ) :
    Keeps see h (runBefore instant fuel h) := by
  induction fuel generalizing h with
  | zero => exact refl h
  | succ fuel ih =>
    simp only [Host.runBefore]
    split
    · exact drain h
    · split
      · exact (drain h).trans ((wake _ _).trans (ih _))
      · exact drain h

theorem pass (span : Duration) (h : Host σ) : Keeps see h (h.pass span) := by
  simp only [Host.pass]
  split
  · exact refl h
  · exact (runBefore _ _ _).trans (wake _ _)

theorem awaitFor (run : RunId) (fuel : Nat) (h : Host σ) : Keeps see h (awaitFor run fuel h).2 := by
  induction fuel generalizing h with
  | zero => exact refl h
  | succ fuel ih =>
    simp only [Host.awaitFor]
    split
    · exact refl h
    · split
      · exact drain h
      · exact (drain h).trans ((wake _ _).trans (ih _))
      · exact drain h

theorem finishWithin (fuel : Nat) (h : Host σ) : Keeps see h (finishWithin fuel h) := by
  induction fuel generalizing h with
  | zero => exact refl h
  | succ fuel ih =>
    simp only [Host.finishWithin]
    split
    · exact drain h
    · exact (drain h).trans ((wake _ _).trans (ih _))

theorem startRun (runText : RunId → String) (h : Host σ) (number : Nat) (procedure queue : String)
    (input : Json) : Keeps see h (h.startRun runText number procedure queue input).2 := by
  simp only [Host.startRun]
  split
  · exact refl h
  · have tracked : Keeps see h _ := changeEngine h number (·.track ⟨h.started⟩) fun e => Calm.runs e _
    exact tracked.trans (ofEngines rfl rfl)

theorem cancel (h : Host σ) (run : RunId) : Keeps see h (h.cancel run).2 := by
  by_cases tracked : h.engines.any (·.runs.contains run) = true
  · refine ⟨?_, ?_, fun n => ?_⟩
    · rw [Host.cancel, if_pos tracked]
    · rw [Host.cancel, if_pos tracked]
      exact Nat.le_of_eq (List.length_map _).symm
    · rw [engineCancelled tracked]
      exact Calm.runs _ _
  · rw [show h.cancel run = (false, h) from if_neg tracked]
    exact refl h

theorem fire (runText : RunId → String) (number : Nat) (h : Host σ) (id : String) :
    Keeps see h (fire runText number h id) := by
  simp only [Host.fire]
  split
  · exact refl h
  · exact startRun ..

theorem tickEngine (runText : RunId → String) (h : Host σ) (number : Nat) :
    Keeps see h (tickEngine runText h number) := by
  have ticked : Keeps see h _ := changeEngine h number
    (fun e => { e with cron := ((h.engine number).cron.advance h.second).2 }) fun e => Calm.cron e _
  exact ticked.trans (foldl (fire runText number) _ _)

theorem advance (runText : RunId → String) (moment : Nat) (h : Host σ) :
    Keeps see h (h.advance runText moment) := by
  have moved : Keeps see h { h with moment := moment } := ofEngines rfl rfl
  exact moved.trans ((foldl (tickEngine runText) _ _).trans (finishWithin _ _))

theorem dial (runText : RunId → String) (settings : ConnectionSettings) (delay : Duration)
    (more : Nat) (h : Host σ) :
    Keeps see h (Fleet.dial (platform runText) settings delay more h).2 := by
  induction more generalizing h with
  | zero => exact connect h settings
  | succ more ih =>
    have dialed : Keeps see h ((platform runText).connect settings h).2 := connect h settings
    simp only [Fleet.dial]
    rcases answered : (platform runText).connect settings h with ⟨_ | client, k⟩
    · rw [answered] at dialed
      exact dialed.trans ((pass delay k).trans (ih _))
    · rw [answered] at dialed
      exact dialed

end Keeps
end Host
end Orchestration
