import Orchestration.Host.Basic

/-! Time on a host. Tasks that can go on do so before time passes; then the clock jumps
to the next instant at which a task is due. -/
namespace Orchestration.Host
variable {σ : Type}

def drain (h : Host σ) : Host σ := h.ready.foldl poll { h with ready := [] }

def wake (h : Host σ) (instant : Duration) : Host σ :=
  { h with
    clock := instant
    ready := h.ready ++ (h.sleeping.takeWhile (·.due.nanos ≤ instant.nanos)).map (·.task)
    sleeping := h.sleeping.dropWhile (·.due.nanos ≤ instant.nanos) }

def nextDue (h : Host σ) : Option Duration := h.sleeping.head?.map (·.due)

/-- More instants at which tasks are due than can be met before all have ended. -/
def patience (h : Host σ) : Nat :=
  h.ready.foldr (fun t waits => t.waits + waits) 0 +
    h.sleeping.foldr (fun s waits => s.task.waits + waits) 0 + 1

def runBefore (instant : Duration) : Nat → Host σ → Host σ
  | 0, h => h
  | fuel + 1, h =>
    let h := h.drain
    match h.nextDue with
    | none => h
    | some due => if due.nanos < instant.nanos then runBefore instant fuel (h.wake due) else h

/-- Lets time pass. What is due at the end of it can go on, but has not. -/
def pass (span : Duration) (h : Host σ) : Host σ :=
  if span = .zero then h
  else
    let instant : Duration := ⟨h.clock.nanos + span.nanos⟩
    (runBefore instant h.patience h).wake instant

def awaitFor (run : RunId) : Nat → Host σ → Report × Host σ
  | 0, h => (.dropped, h)
  | fuel + 1, h =>
    match h.report? run with
    | some report => (report, h)
    | none =>
      let h := h.drain
      match h.report? run, h.nextDue with
      | some report, _ => (report, h)
      | none, some due => awaitFor run fuel (h.wake due)
      | none, none => (.dropped, h)

def await (run : RunId) (h : Host σ) : Report × Host σ := awaitFor run h.patience h

def finishWithin : Nat → Host σ → Host σ
  | 0, h => h
  | fuel + 1, h =>
    let h := h.drain
    match h.nextDue with
    | none => h
    | some due => finishWithin fuel (h.wake due)

def finish (h : Host σ) : Host σ := finishWithin h.patience h

def fire (runText : RunId → String) (engine : Nat) (h : Host σ) (id : String) : Host σ :=
  match (h.engine engine).tick? id with
  | none => h
  | some action => (h.startRun runText engine action.procedure action.queue action.input).2

def tickEngine (runText : RunId → String) (h : Host σ) (engine : Nat) : Host σ :=
  let (jobs, cron) := (h.engine engine).cron.advance h.second
  (jobs.map (·.tick)).foldl (fire runText engine)
    (h.changeEngine engine fun e => { e with cron := cron })

def advance (runText : RunId → String) (moment : Nat) (h : Host σ) : Host σ :=
  ((List.range h.engines.length).foldl (tickEngine runText) { h with moment := moment }).finish

end Orchestration.Host
