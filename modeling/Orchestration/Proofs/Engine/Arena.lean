import Mathlib.Data.Set.Card
import Orchestration.Proofs.Engine.Life

/-! Many runs on one engine at once. Starts, tasks and cancellations of different runs take their
steps in any order, each step whole; seen from one run, a course of all of them is a life. -/
namespace Orchestration

variable {σ : Type}

/-- An engine with the tasks of all runs that were ever made on it. -/
structure Arena (σ : Type) where
  engine : LocalEngine σ
  services : σ
  threads : RunId → Option (Thread σ)

def Thread.abort (t : Thread σ) : Thread σ :=
  match t.phase with
  | .going _ => { t with phase := .going .cancelled }
  | .closed _ => t

namespace Arena

def put (a : Arena σ) (run : RunId) (t : Thread σ) : Arena σ :=
  { a with threads := Function.update a.threads run (some t) }

def cancel (a : Arena σ) (run : RunId) : Bool × Arena σ :=
  if a.engine.runs.contains run then
    (true, { a with
      engine := a.engine.untrack run
      threads := Function.update a.threads run ((a.threads run).map Thread.abort) })
  else (false, a)

/-- Starting a run takes three steps, each of which may come late; a task goes a leg only once its
gate is open, and its last leg takes it off the table and reports, all at once. -/
inductive Step (a : Arena σ) : Event σ → Arena σ → Prop where
  | spawn {procedure job} (found : a.engine.procedure procedure = .ok job) {run}
      (new : a.threads run = none) (input) :
      Step a (.spawned run job input) (a.put run ⟨job, .spawned, .going (.fresh input)⟩)
  | track {run job phase} (here : a.threads run = some ⟨job, .spawned, phase⟩) :
      Step a (.tracked run)
        ({ a with engine := a.engine.track run }.put run ⟨job, .tracked, phase⟩)
  | gate {run job phase} (here : a.threads run = some ⟨job, .tracked, phase⟩) :
      Step a (.opened run) (a.put run ⟨job, .opened, phase⟩)
  | go {run job stage leg wait paused} (here : a.threads run = some ⟨job, .opened, .going stage⟩)
      (goes : job.leg a.engine.activities a.services stage = some leg)
      (pauses : leg.burst = .paused wait paused) :
      Step a (.went run leg.ask)
        ({ a with services := leg.services }.put run ⟨job, .opened, .going (.paused paused)⟩)
  | finish {run job stage leg outcome} (here : a.threads run = some ⟨job, .opened, .going stage⟩)
      (goes : job.leg a.engine.activities a.services stage = some leg)
      (ends : leg.burst = .finished outcome) :
      Step a (.ended run leg.ask (outcome.map fun _ => ()))
        ({ a with engine := a.engine.untrack run, services := leg.services }.put run
          ⟨job, .opened, .closed (.settled (outcome.map fun _ => ()))⟩)
  | cancel (run) : Step a (.cancelled run (a.cancel run).1) (a.cancel run).2
  | drop {run job entry} (here : a.threads run = some ⟨job, entry, .going .cancelled⟩) :
      Step a (.dropped run) (a.put run ⟨job, entry, .closed .dropped⟩)

structure Aside (a b : Arena σ) : Prop where
  runs : b.engine.runs = a.engine.runs
  threads : b.threads = a.threads

inductive Course (start : Arena σ) : List (Event σ) → Arena σ → Prop where
  | start : Course start [] start
  | step {log a e b} (before : Course start log a) (step : Step a e b) : Course start (log ++ [e]) b
  | aside {log a b} (before : Course start log a) (aside : Aside a b) : Course start log b

structure Idle (a : Arena σ) : Prop where
  runs : a.engine.runs = []
  threads : ∀ run, a.threads run = none

def own (run : RunId) (log : List (Event σ)) : List (Event σ) := log.filter (·.run = run)

theorem ownSnoc (run : RunId) (log : List (Event σ)) (e : Event σ) :
    own run (log ++ [e]) = if e.run = run then own run log ++ [e] else own run log := by
  by_cases here : e.run = run <;> simp [own, here]

structure Sound (log : List (Event σ)) (a : Arena σ) : Prop where
  distinct : a.engine.runs.Nodup
  table : ∀ run, run ∈ a.engine.runs ↔ (a.threads run).any Thread.active = true
  lives : ∀ run, Life run (own run log) (a.threads run)

theorem Sound.next {log : List (Event σ)} {a b : Arena σ} {e : Event σ} (sound : a.Sound log)
    (distinct : b.engine.runs.Nodup)
    (others : ∀ run, e.run ≠ run →
      b.threads run = a.threads run ∧ (run ∈ b.engine.runs ↔ run ∈ a.engine.runs))
    (table : e.run ∈ b.engine.runs ↔ (b.threads e.run).any Thread.active = true)
    (life : Life e.run (own e.run log ++ [e]) (b.threads e.run)) : b.Sound (log ++ [e]) := by
  refine ⟨distinct, fun run => ?_, fun run => ?_⟩
  · by_cases here : e.run = run
    · exact here ▸ table
    · rw [(others run here).2, (others run here).1, sound.table]
  · rw [ownSnoc]
    split
    · rename_i here
      exact here ▸ life
    · rename_i here
      rw [(others run here).1]
      exact sound.lives run

theorem memUntrack {e : LocalEngine σ} {run other : RunId} :
    other ∈ (e.untrack run).runs ↔ other ∈ e.runs ∧ other ≠ run := by
  simp [LocalEngine.untrack]

theorem memTrack {e : LocalEngine σ} {run other : RunId} :
    other ∈ (e.track run).runs ↔ other ∈ e.runs ∨ other = run := by
  simp [LocalEngine.track]

theorem putOwn (a : Arena σ) (run : RunId) (t : Thread σ) : (a.put run t).threads run = some t :=
  Function.update_self ..

theorem putOther (a : Arena σ) {run other : RunId} (t : Thread σ) (apart : run ≠ other) :
    (a.put run t).threads other = a.threads other :=
  Function.update_of_ne apart.symm ..

theorem Sound.put {log : List (Event σ)} {a : Arena σ} (sound : a.Sound log) (e : Event σ)
    {engine : LocalEngine σ} {services : σ} {t : Thread σ} (distinct : engine.runs.Nodup)
    (others : ∀ run, e.run ≠ run → (run ∈ engine.runs ↔ run ∈ a.engine.runs))
    (table : e.run ∈ engine.runs ↔ t.active = true)
    (life : Life e.run (own e.run log ++ [e]) (some t)) :
    Sound (log ++ [e]) (Arena.put ⟨engine, services, a.threads⟩ e.run t) := by
  refine sound.next distinct (fun run apart => ⟨putOther _ t apart, others run apart⟩) ?_ ?_
  · rw [putOwn]
    exact table
  · rw [putOwn]
    exact life

theorem cancelHit {a : Arena σ} {run : RunId} {job : CompiledJob σ} {entry : Entry} {stage : RunStage σ}
    (tracked : run ∈ a.engine.runs) (here : a.threads run = some ⟨job, entry, .going stage⟩) :
    a.cancel run = (true, Arena.put ⟨a.engine.untrack run, a.services, a.threads⟩ run
      ⟨job, entry, .going .cancelled⟩) := by
  rw [cancel, if_pos (List.contains_iff_mem.2 tracked), here]
  rfl

theorem Sound.active {log : List (Event σ)} {a : Arena σ} (sound : a.Sound log) {run : RunId}
    {t : Thread σ} (here : a.threads run = some t) : run ∈ a.engine.runs ↔ t.active = true := by
  rw [sound.table, here, Option.any_some]

theorem Sound.life {log : List (Event σ)} {a : Arena σ} (sound : a.Sound log) {run : RunId}
    {t : Option (Thread σ)} (here : a.threads run = t) : Life run (own run log) t :=
  here ▸ sound.lives run

theorem Sound.track {log : List (Event σ)} {a : Arena σ} (sound : a.Sound log) {run : RunId}
    {job : CompiledJob σ} {phase : Phase σ} (here : a.threads run = some ⟨job, .spawned, phase⟩) :
    Sound (log ++ [.tracked run])
      ({ a with engine := a.engine.track run }.put run ⟨job, .tracked, phase⟩) := by
  have absent : run ∉ a.engine.runs := by
    rw [sound.active here]
    exact Bool.false_ne_true
  have waits : phase.active = true := (sound.life here).spawnedActive _ _ rfl
  refine sound.put (.tracked run) ?_ (fun other apart => ?_) ?_ (.tracked (sound.life here))
  · exact List.nodup_append.2 ⟨sound.distinct, List.nodup_singleton _, fun x inside y last => by
      rw [List.mem_singleton] at last
      exact fun same => absent (last ▸ same ▸ inside)⟩
  · rw [memTrack]
    exact or_iff_left apart.symm
  · rw [memTrack]
    exact iff_of_true (.inr rfl) waits

theorem Sound.untrack {log : List (Event σ)} {a : Arena σ} (sound : a.Sound log) (e : Event σ)
    {services : σ} {t : Thread σ} (inactive : t.active = false)
    (life : Life e.run (own e.run log ++ [e]) (some t)) :
    Sound (log ++ [e]) (Arena.put ⟨a.engine.untrack e.run, services, a.threads⟩ e.run t) := by
  refine sound.put e (sound.distinct.filter _) (fun other apart => ?_) ?_ life
  · rw [memUntrack]
    exact and_iff_left apart.symm
  · rw [memUntrack, inactive]
    exact iff_of_false (fun both => both.2 rfl) Bool.false_ne_true

theorem Sound.cancel {log : List (Event σ)} {a : Arena σ} (sound : a.Sound log) (run : RunId) :
    Sound (log ++ [.cancelled run (a.cancel run).1]) (a.cancel run).2 := by
  by_cases tracked : run ∈ a.engine.runs
  · obtain ⟨⟨job, entry, stage | report⟩, here, active⟩ :=
      (Option.any_eq_true _ _).1 ((sound.table run).1 tracked)
    · rw [cancelHit tracked here]
      have inactive : Thread.active ⟨job, entry, .going (.cancelled : RunStage σ)⟩ = false := by
        simp [Thread.active, Phase.active]
      exact sound.untrack (.cancelled run true) inactive (.cancelled (sound.life here) active)
    · simp [Thread.active, Phase.active] at active
  · have missed : a.cancel run = (false, a) :=
      if_neg fun known => tracked (List.contains_iff_mem.1 known)
    rw [missed]
    have absent : (a.threads run).any Thread.active = false := by
      rw [sound.table, Bool.not_eq_true] at tracked
      exact tracked
    exact sound.next sound.distinct (fun other _ => ⟨rfl, .rfl⟩) (sound.table run)
      (.missed (sound.lives run) absent)

theorem Step.sound {log : List (Event σ)} {a b : Arena σ} {e : Event σ} (sound : a.Sound log)
    (step : Step a e b) : b.Sound (log ++ [e]) := by
  cases step with
  | @spawn procedure job found run new input =>
    have unknown : run ∉ a.engine.runs := by
      rw [sound.table, new]
      exact Bool.false_ne_true
    exact sound.put (.spawned run job input) sound.distinct (fun other _ => .rfl)
      (iff_of_false unknown Bool.false_ne_true) (.spawned (sound.life new))
  | track here => exact sound.track here
  | @gate run job phase here =>
    have tracked := sound.active here
    exact sound.put (.opened run) sound.distinct (fun other _ => .rfl) tracked (.opened (sound.life here))
  | @go run job stage leg wait paused here goes pauses =>
    have active : run ∈ a.engine.runs := by
      rw [sound.active here]
      cases stage with
      | cancelled => cases goes
      | _ => rfl
    exact sound.put (.went run leg.ask) sound.distinct (fun other _ => .rfl) (iff_of_true active rfl)
      (.went (sound.life here) goes pauses)
  | @finish run job stage leg outcome here goes ends =>
    exact sound.untrack (.ended run leg.ask _) rfl (.ended (sound.life here) goes ends)
  | cancel run => exact sound.cancel run
  | @drop run job entry here =>
    have cancelled : run ∉ a.engine.runs := by
      rw [sound.active here]
      simp [Thread.active, Phase.active]
    exact sound.put (.dropped run) sound.distinct (fun other _ => .rfl)
      (iff_of_false cancelled (by simp [Thread.active, Phase.active])) (.dropped (sound.life here))

end Arena
end Orchestration
