import Orchestration.Proofs.Host.Procedures

/-! The ticks of an engine's cron jobs. A tick reads its schedule as it stands then, and starts a
run of what the engine finds under the name of the procedure, if it finds anything. Ticks leave
schedules and procedures alone, so each due job ticks as if it were the first. -/
namespace Orchestration.Host

variable {σ : Type} {h k : Host σ}

namespace Keeps

theorem serving (keeps : Keeps LocalEngine.tables h k) (n : Nat) (name : String) :
    k.serving n name = h.serving n name :=
  congrArg (fun tables => tables.1.get? name) (keeps.seen n)

theorem tick (keeps : Keeps LocalEngine.tables h k) (n : Nat) (id : String) :
    (k.engine n).tick? id = (h.engine n).tick? id :=
  congrArg (fun tables => (tables.2.get? id).map (·.action)) (keeps.seen n)

end Keeps

/-- Which runs a tick leaves ready to go, by what the engine keeps under the id of the schedule and
under the name of its procedure. -/
inductive Ticked (h : Host σ) (n : Nat) (id : String) : List (RunTask σ) → Prop where
  | unscheduled (gone : (h.engine n).tick? id = none) : Ticked h n id []
  | unserved {action} (scheduled : (h.engine n).tick? id = some action)
      (absent : h.serving n action.procedure = none) : Ticked h n id []
  | started {action job run} (scheduled : (h.engine n).tick? id = some action)
      (found : h.serving n action.procedure = some job) :
      Ticked h n id [⟨n, run, job, .fresh action.input⟩]

theorem Ticked.before {n : Nat} {id : String} {block : List (RunTask σ)}
    (keeps : Keeps LocalEngine.tables h k) (ticked : Ticked k n id block) : Ticked h n id block := by
  cases ticked with
  | unscheduled gone => exact .unscheduled ((keeps.tick n id).symm.trans gone)
  | unserved scheduled absent =>
    exact .unserved ((keeps.tick n id).symm.trans scheduled) ((keeps.serving n _).symm.trans absent)
  | started scheduled found =>
    exact .started ((keeps.tick n id).symm.trans scheduled) ((keeps.serving n _).symm.trans found)

variable (runText : RunId → String)

theorem fireTicked (n : Nat) (h : Host σ) (id : String) :
    ∃ block, (fire runText n h id).ready = h.ready ++ block ∧ Ticked h n id block := by
  simp only [fire]
  cases scheduled : (h.engine n).tick? id with
  | none => exact ⟨[], (List.append_nil _).symm, .unscheduled scheduled⟩
  | some action =>
    obtain ⟨queued, ready, -, begun⟩ :=
      startRunBegun runText h n action.procedure action.queue action.input
    refine ⟨queued, ready, ?_⟩
    generalize (h.startRun runText n action.procedure action.queue action.input).1 = answer at begun
    cases begun with
    | unknown absent => exact .unserved scheduled absent
    | running found => exact .started scheduled found

theorem fireUnserved {n : Nat} {id : String} {action : ScheduleAction}
    (scheduled : (h.engine n).tick? id = some action) (absent : h.serving n action.procedure = none) :
    fire runText n h id = h := by
  rw [serving] at absent
  simp only [fire, scheduled, startRun, LocalEngine.procedure, absent]

theorem firesTicked (n : Nat) (ids : List String) (h : Host σ) :
    ∃ blocks, (ids.foldl (fire runText n) h).ready = h.ready ++ blocks.flatten ∧
      List.Forall₂ (Ticked h n) ids blocks := by
  induction ids generalizing h with
  | nil => exact ⟨[], (List.append_nil _).symm, .nil⟩
  | cons id rest ih =>
    obtain ⟨block, ready, ticked⟩ := fireTicked runText n h id
    obtain ⟨blocks, left, others⟩ := ih (fire runText n h id)
    have kept : Keeps LocalEngine.tables h (fire runText n h id) := .fire runText n h id
    refine ⟨block :: blocks, ?_, .cons ticked (others.imp fun id block ticked => ticked.before kept)⟩
    rw [List.foldl_cons, left, ready, List.flatten_cons, List.append_assoc]

def due (h : Host σ) (n : Nat) : List (CronJob String) := ((h.engine n).cron.advance h.second).1

theorem tickEngineTicked (n : Nat) (h : Host σ) :
    ∃ blocks, (tickEngine runText h n).ready = h.ready ++ blocks.flatten ∧
      List.Forall₂ (fun job block => Ticked h n job.tick block) (h.due n) blocks := by
  obtain ⟨blocks, ready, ticked⟩ := firesTicked runText n ((h.due n).map (·.tick))
    (h.changeEngine n fun e => { e with cron := ((h.engine n).cron.advance h.second).2 })
  have kept : Keeps LocalEngine.tables h _ := .changeEngine h n
    (fun e => { e with cron := ((h.engine n).cron.advance h.second).2 }) fun _ => rfl
  rw [List.forall₂_map_left_iff] at ticked
  exact ⟨blocks, ready, ticked.imp fun job block ticked => ticked.before kept⟩

end Orchestration.Host
