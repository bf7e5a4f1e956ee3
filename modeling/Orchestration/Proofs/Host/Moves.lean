import Mathlib.Logic.Relation
import Orchestration.Proofs.Host.Reachable

/-! What can happen on a host, one thing at a time: any task that can go on does so, time or the
calendar moves on, and engines are asked for something. Whatever a host does at once comes
to a row of such moves, so what every move keeps is kept at every point in between. -/
namespace Orchestration

variable {σ : Type}

namespace Host

def queue (h : Host σ) (ready : List (RunTask σ)) : Host σ := { h with ready := ready }

inductive Move (runText : RunId → String) (h : Host σ) : Host σ → Prop where
  | registerProcedure (number name job) :
      Move runText h (h.changeEngine number (·.registerProcedure name job))
  | registerActivity (number name handler) :
      Move runText h (h.changeEngine number (·.registerActivity name handler))
  | startRun (number procedure queue input) :
      Move runText h (h.startRun runText number procedure queue input).2
  | createSchedule (number id cron action) :
      Move runText h (h.tryEngine number ((h.engine number).createSchedule h.second id cron action)).2
  | updateSchedule (number id change) :
      Move runText h (h.tryEngine number ((h.engine number).updateSchedule h.second id change)).2
  | shutdown (number) : Move runText h (h.changeEngine number (·.shutdown))
  | cron (number service) : Move runText h (h.changeEngine number fun e => { e with cron := service })
  | cancel (run) : Move runText h (h.cancel run).2
  | poll {before t after} (queued : h.ready = before ++ t :: after) :
      Move runText h ((h.queue (before ++ after)).poll t)
  | wake (instant) : Move runText h (h.wake instant)
  | date (moment) : Move runText h { h with moment := moment }
  | connect (settings) : Move runText h (h.connect settings).2

def Moves (runText : RunId → String) : Host σ → Host σ → Prop :=
  Relation.ReflTransGen (Move runText)

namespace Moves
variable {runText : RunId → String}

theorem refl (h : Host σ) : Moves runText h h := Relation.ReflTransGen.refl

theorem one {h k : Host σ} (move : Move runText h k) : Moves runText h k := .single move

theorem trans {a b c : Host σ} (first : Moves runText a b) (second : Moves runText b c) :
    Moves runText a c :=
  Relation.ReflTransGen.trans first second

theorem foldl {α : Type} {f : Host σ → α → Host σ} (step : ∀ h a, Moves runText h (f h a)) (as : List α)
    (h : Host σ) : Moves runText h (as.foldl f h) := by
  induction as generalizing h with
  | nil => exact refl h
  | cons a rest ih => exact (step h a).trans (ih (f h a))

theorem pollQueue (h : Host σ) (t : RunTask σ) (ready : List (RunTask σ)) :
    (h.queue ready).poll t = (h.poll t).queue ready := by
  simp only [Host.poll, queue, engine]
  rcases t.poll _ h.services with ⟨report | ⟨wait, task⟩, services⟩ <;> rfl

theorem drain (h : Host σ) : Moves runText h h.drain := by
  have polls (tasks : List (RunTask σ)) (h : Host σ) :
      Moves runText (h.queue tasks) (tasks.foldl Host.poll (h.queue [])) := by
    induction tasks generalizing h with
    | nil => exact refl _
    | cons t rest ih =>
      have front : (h.queue (t :: rest)).ready = [] ++ t :: rest := rfl
      have first : Move runText (h.queue (t :: rest)) ((h.queue rest).poll t) := .poll front
      rw [pollQueue] at first
      rw [List.foldl_cons, pollQueue]
      exact (one first).trans (ih (h.poll t))
  exact polls h.ready h

theorem runBefore (instant : Duration) (fuel : Nat) (h : Host σ) :
    Moves runText h (runBefore instant fuel h) := by
  induction fuel generalizing h with
  | zero => exact refl h
  | succ fuel ih =>
    simp only [Host.runBefore]
    split
    · exact drain h
    · split
      · exact (drain h).trans ((one (.wake _)).trans (ih _))
      · exact drain h

theorem pass (span : Duration) (h : Host σ) : Moves runText h (h.pass span) := by
  simp only [Host.pass]
  split
  · exact refl h
  · exact (runBefore _ _ _).trans (one (.wake _))

theorem awaitFor (run : RunId) (fuel : Nat) (h : Host σ) : Moves runText h (awaitFor run fuel h).2 := by
  induction fuel generalizing h with
  | zero => exact refl h
  | succ fuel ih =>
    simp only [Host.awaitFor]
    split
    · exact refl h
    · split
      · exact drain h
      · exact (drain h).trans ((one (.wake _)).trans (ih _))
      · exact drain h

theorem finishWithin (fuel : Nat) (h : Host σ) : Moves runText h (finishWithin fuel h) := by
  induction fuel generalizing h with
  | zero => exact refl h
  | succ fuel ih =>
    simp only [Host.finishWithin]
    split
    · exact drain h
    · exact (drain h).trans ((one (.wake _)).trans (ih _))

theorem fire (number : Nat) (h : Host σ) (id : String) : Moves runText h (fire runText number h id) := by
  simp only [Host.fire]
  split
  · exact refl h
  · exact one (.startRun ..)

theorem tickEngine (h : Host σ) (number : Nat) : Moves runText h (tickEngine runText h number) :=
  (one (.cron number _)).trans (foldl (fire number) _ _)

theorem advance (moment : Nat) (h : Host σ) : Moves runText h (h.advance runText moment) :=
  (one (.date moment)).trans ((foldl tickEngine _ _).trans (finishWithin _ _))

theorem dial (settings : ConnectionSettings) (delay : Duration) (more : Nat) (h : Host σ) :
    Moves runText h (Fleet.dial (platform runText) settings delay more h).2 := by
  induction more generalizing h with
  | zero => exact one (.connect settings)
  | succ more ih =>
    have dialed : Moves runText h ((platform runText).connect settings h).2 := one (.connect settings)
    simp only [Fleet.dial]
    rcases answered : (platform runText).connect settings h with ⟨_ | client, k⟩
    · rw [answered] at dialed
      exact dialed.trans ((pass delay k).trans (ih _))
    · rw [answered] at dialed
      exact dialed

end Moves

theorem Step.moves {runText : RunId → String} {h k : Host σ} (step : Step runText h k) :
    Moves runText h k := by
  cases step with
  | registerProcedure c name job => exact .one (.registerProcedure c.engine name job)
  | registerActivity c name handler => exact .one (.registerActivity c.engine name handler)
  | startRun c procedure queue input => exact .one (.startRun c.engine procedure queue input)
  | createSchedule c id cron action => exact .one (.createSchedule c.engine id cron action)
  | updateSchedule c id change => exact .one (.updateSchedule c.engine id change)
  | shutdown number => exact .one (.shutdown number)
  | cancel run => exact .one (.cancel run)
  | await run => exact .awaitFor run _ _
  | pass span => exact .pass span _
  | drain => exact .drain _
  | finish => exact .finishWithin _ _
  | advance moment => exact .advance moment _

end Host

namespace Fleet
variable {runText : RunId → String} {f : Fleet Connection (Host σ)} {h : Host σ}

theorem Sound.move (sound : f.Sound) (move : Host.Move runText f.state h) : Sound ⟨f.clients, h⟩ := by
  cases move with
  | registerProcedure number name job => exact sound.keeps (.changeEngine _ number _ fun _ => rfl)
  | registerActivity number name handler => exact sound.keeps (.changeEngine _ number _ fun _ => rfl)
  | startRun number procedure queue input => exact sound.keeps (.startRun ..)
  | createSchedule number id cron action =>
    exact sound.tried number id fun e made => LocalEngine.createEffect made
  | updateSchedule number id change =>
    exact sound.tried number id fun e made => LocalEngine.updateEffect made
  | shutdown number => exact sound.keeps (.changeEngine _ number _ fun _ => rfl)
  | cron number service => exact sound.keeps (.changeEngine _ number _ fun _ => rfl)
  | cancel run => exact sound.keeps (.cancel _ run)
  | @poll before t after queued =>
    have taken : Host.Keeps LocalEngine.schedules f.state (f.state.queue (before ++ after)) :=
      .ofEngines rfl rfl
    exact sound.keeps (taken.trans (.poll _ t))
  | wake instant => exact sound.keeps (.wake _ instant)
  | date moment => exact sound.keeps (.ofEngines rfl rfl)
  | connect settings => exact sound.keeps (.connect _ settings)

end Fleet
end Orchestration
