import Orchestration.Dispatch.Dispatcher
import Orchestration.Proofs.Host.Reachable
import Orchestration.Proofs.Schedule.Drawn

/-! Putting one schedule in place on a host. Creating and updating come to the same: the
answer depends on the spec alone, and one description is written, on the engine behind
the queue, which is all that changes. -/
namespace Orchestration
open CronExpression

variable {σ : Type}

namespace ScheduleSpec

def verdict (s : ScheduleSpec) : Except Error Unit :=
  if s.preserve then .ok () else (CronExpression.read s.expression).map fun _ => ()

def description (s : ScheduleSpec) (name : String) (action : ScheduleAction)
    (stored : Option ScheduleDescription) : ScheduleDescription :=
  { id := name
    expressions :=
      if s.preserve then (stored.map (·.expressions)).getD [s.expression] else [s.expression]
    action := action }

def settle (s : ScheduleSpec) (name : String) (action : ScheduleAction)
    (stored : Option ScheduleDescription) : Option ScheduleDescription :=
  match s.verdict with
  | .ok () => some (s.description name action stored)
  | .error _ => stored

theorem verdictCases {s : ScheduleSpec} (sound : s.Sound) :
    (s.verdict = .ok () ∧ Readable s.expression) ∨
      ∃ e, s.verdict = .error e ∧ s.preserve = false ∧ CronExpression.read s.expression = .error e := by
  cases kept : s.preserve with
  | true => exact .inl ⟨by simp [verdict, kept], sound kept⟩
  | false =>
    cases read : CronExpression.read s.expression with
    | ok expression => exact .inl ⟨by simp [verdict, kept, read, Except.map], expression, read⟩
    | error e => exact .inr ⟨e, by simp [verdict, kept, read, Except.map], rfl, rfl⟩

theorem Alike.verdict {s t : ScheduleSpec} (alike : s.Alike t) : t.verdict = s.verdict := by
  simp only [ScheduleSpec.verdict, alike.preserve]
  cases kept : s.preserve with
  | true => simp only [if_true]
  | false => rw [alike.expression kept]

end ScheduleSpec

namespace LocalEngine

inductive Settles (e : LocalEngine σ) (s : ScheduleSpec) (name : String) (action : ScheduleAction) :
    Except Error (LocalEngine σ) → Prop where
  | put {e'} (fine : s.verdict = .ok ())
      (stored : e'.schedules =
        e.schedules.insert name (s.description name action (e.schedules.get? name))) :
      Settles e s name action (.ok e')
  | refused {err} (bad : s.verdict = .error err) : Settles e s name action (.error err)

theorem createSettles {e : LocalEngine σ} {s : ScheduleSpec} {name : String} (sound : s.Sound)
    (absent : e.schedules.get? name = none) (moment : Nat) (action : ScheduleAction) :
    Settles e s name action (e.createSchedule moment name s.expression action) := by
  simp only [createSchedule, SortedMap.containsEq, absent, Option.isSome_none, Bool.false_eq_true,
    if_false]
  rcases ScheduleSpec.verdictCases sound with ⟨fine, readable⟩ | ⟨err, bad, -, read⟩
  · obtain ⟨wired, registered⟩ := registerReadable e moment name readable
    obtain ⟨_, _, rfl⟩ := registerCronBuilt registered
    rw [registered]
    refine .put fine ?_
    simp [absent, ScheduleSpec.description]
  · rw [registerUnreadable e moment name read]
    exact .refused bad

theorem updateSettles {e : LocalEngine σ} {s : ScheduleSpec} {name : String}
    {current : ScheduleDescription} (sound : s.Sound) (readable : e.AllReadable)
    (stored : e.schedules.get? name = some current) (moment : Nat) (action : ScheduleAction) :
    Settles e s name action (e.updateSchedule moment name (Dispatcher.revise s action)) := by
  have expressions : (Dispatcher.revise s action current).expressions =
      if s.preserve then current.expressions else [s.expression] := rfl
  simp only [updateSchedule, stored]
  by_cases same : (Dispatcher.revise s action current).expressions = current.expressions
  · rw [if_pos same]
    rcases ScheduleSpec.verdictCases sound with ⟨fine, -⟩ | ⟨err, -, loose, read⟩
    · refine .put fine ?_
      rw [stored]
      rfl
    · -- a stored expression can be read, so this one is not refused
      have inside : s.expression ∈ current.expressions := by
        rw [← same, expressions]
        simp [loose]
      obtain ⟨expression, fine⟩ := readable name current stored _ inside
      rw [read] at fine
      cases fine
  · rw [if_neg same]
    have loose : s.preserve = false := by
      cases kept : s.preserve with
      | true => exact absurd (by rw [expressions, if_pos kept]) same
      | false => rfl
    have single : (Dispatcher.revise s action current).expressions = [s.expression] := by
      rw [expressions, loose]
      rfl
    simp only [single]
    rcases ScheduleSpec.verdictCases sound with ⟨fine, fit⟩ | ⟨err, bad, -, read⟩
    · obtain ⟨wired, registered⟩ := registerReadable e moment name fit
      obtain ⟨_, _, rfl⟩ := registerCronBuilt registered
      rw [registered]
      refine .put fine ?_
      rw [stored, ScheduleSpec.description, loose]
      rfl
    · rw [registerUnreadable e moment name read]
      exact .refused bad

end LocalEngine

namespace Fleet

def stored (f : Fleet Connection (Host σ)) (n : Nat) (id : String) : Option ScheduleDescription :=
  (f.state.engine n).schedules.get? id

theorem connectAnswers {h : Host σ} {settings : ConnectionSettings} {c : Connection}
    (ok : (h.connect settings).1 = .ok c) :
    h.outages.get? settings.queue = none ∨ h.outages.get? settings.queue = some (.first 0) := by
  simp only [Host.connect] at ok
  cases outage : h.outages.get? settings.queue with
  | none => exact .inl rfl
  | some o =>
    rw [outage] at ok
    cases o with
    | lasting => cases ok
    | first dials =>
      cases dials with
      | zero => exact .inr rfl
      | succ more => cases ok

theorem connectOk {h : Host σ} {settings : ConnectionSettings}
    (answers : h.outages.get? settings.queue = none ∨
      h.outages.get? settings.queue = some (.first 0)) :
    ∃ c k, h.connect settings = (.ok c, k) ∧ k.outages = h.outages := by
  have accepted : h.connect settings =
      (.ok (h.noteDial settings.queue true).accept.1, (h.noteDial settings.queue true).accept.2) := by
    rcases answers with clear | spent
    · simp only [Host.connect, clear]
    · simp only [Host.connect, spent]
  refine ⟨_, _, accepted, ?_⟩
  simp only [Host.accept]
  split <;> rfl

def Reaches (f : Fleet Connection (Host σ)) (queue : String) : Prop :=
  (∃ c, f.clients.get? queue = some c) ∨
    f.state.outages.get? (f.clients.queueName queue) = none ∨
    f.state.outages.get? (f.clients.queueName queue) = some (.first 0)

theorem reachesOf {f : Fleet Connection (Host σ)} {runText : RunId → String} {queue : String}
    {c : Connection} (connects : (f.getOrCreate (Host.platform runText) queue).1 = .ok c) :
    f.Reaches queue := by
  cases known : f.clients.clients.get? (f.clients.queueName queue) with
  | some client => exact .inl ⟨client, known⟩
  | none =>
    rw [getOrCreateDial known] at connects
    rcases answered : (Host.platform runText).connect
      (f.clients.settingsFor (f.clients.queueName queue)) f.state with ⟨e | client, k⟩
    · rw [answered] at connects
      cases connects
    · exact .inr (connectAnswers (congrArg Prod.fst answered))

theorem getOrCreateReaches {f : Fleet Connection (Host σ)} (sound : f.Sound)
    (runText : RunId → String) {queue : String} (reaches : f.Reaches queue) :
    ∃ c g, f.getOrCreate (Host.platform runText) queue = (.ok c, g) ∧ g.Sound ∧
      f.clients.Grows g.clients ∧ g.clients.get? queue = some c ∧
      Host.Keeps LocalEngine.schedules f.state g.state ∧ g.state.outages = f.state.outages := by
  have safe := sound.getOrCreate runText queue
  obtain ⟨grows, held⟩ := getOrCreateGrows (Host.platform runText) f queue
  cases known : f.clients.clients.get? (f.clients.queueName queue) with
  | some client =>
    exact ⟨client, f, getOrCreateHeld known, sound, .refl _, known, .refl _, rfl⟩
  | none =>
    have answers := reaches.resolve_left (by simp [ClientRegistry.get?, known])
    obtain ⟨c, k, answered, outages⟩ :=
      @connectOk _ f.state (f.clients.settingsFor (f.clients.queueName queue)) answers
    have kept : Host.Keeps LocalEngine.schedules f.state _ :=
      .connect f.state (f.clients.settingsFor (f.clients.queueName queue))
    have dialed : f.getOrCreate (Host.platform runText) queue =
        (.ok c, ⟨f.clients.store (f.clients.queueName queue) c, k⟩) := by
      rw [getOrCreateDial known]
      simp only [Host.platform, answered]
    rw [dialed] at safe grows held
    rw [answered] at kept
    refine ⟨c, _, dialed, safe, grows, ?_, kept, outages⟩
    rw [ClientRegistry.get?, grows.queueName]
    exact held c rfl

end Fleet

namespace Dispatcher
open Fleet

structure Placed (f g : Fleet Connection (Host σ)) (s : ScheduleSpec) (name queue : String) : Prop where
  grows : f.clients.Grows g.clients
  outages : g.state.outages = f.state.outages
  stored : ∃ c, g.clients.get? queue = some c ∧ ∀ n id, g.stored n id =
    if c.engine = n ∧ name = id then
      s.settle name ⟨name, f.clients.queueName queue, .null⟩ (f.stored n id)
    else f.stored n id

theorem triedAnswer {h : Host σ} {number : Nat} {s : ScheduleSpec} {name : String}
    {action : ScheduleAction} {result : Except Error (LocalEngine σ)}
    (settles : (h.engine number).Settles s name action result) :
    (h.tryEngine number result).1 = s.verdict := by
  cases settles with
  | put fine stored => exact fine.symm
  | refused bad => exact bad.symm

theorem triedStored {h : Host σ} {number : Nat} {s : ScheduleSpec} {name : String}
    {action : ScheduleAction} {result : Except Error (LocalEngine σ)}
    (settles : (h.engine number).Settles s name action result)
    (inside : number < h.engines.length) (n : Nat) (id : String) :
    ((h.tryEngine number result).2.engine n).schedules.get? id =
      if number = n ∧ name = id then s.settle name action ((h.engine n).schedules.get? id)
      else (h.engine n).schedules.get? id := by
  cases settles with
  | @put e' fine stored =>
    simp only [Host.tryEngine, Host.engineChanged, ScheduleSpec.settle, fine]
    by_cases here : number = n
    · subst here
      simp only [inside, and_self, if_true, true_and, stored, SortedMap.getInsert]
      split
      · rename_i same
        rw [same]
      · rfl
    · simp only [here, false_and, if_false]
  | refused bad => simp only [Host.tryEngine, ScheduleSpec.settle, bad, ite_self]

-- creating and updating alike end in one result for the engine behind the queue
theorem upsertTries {f g : Fleet Connection (Host σ)} {runText : RunId → String} {c : Connection}
    {s : ScheduleSpec} {job : Job} (safe : g.Sound) (fit : s.Sound) (name : String)
    (connected : f.getOrCreate (Host.platform runText) (f.clients.queueName job.queue) = (.ok c, g)) :
    ∃ result,
      (g.state.engine c.engine).Settles s name ⟨name, f.clients.queueName job.queue, .null⟩ result ∧
      (∀ e, result = .ok e → LocalEngine.Effect (g.state.engine c.engine) name e) ∧
      upsert (Host.platform runText) s name job f =
        ((g.state.tryEngine c.engine result).1, ⟨g.clients, (g.state.tryEngine c.engine result).2⟩) := by
  simp only [upsert, connected]
  simp only [Host.platform]
  cases stored : (g.state.engine c.engine).schedules.get? name with
  | none =>
    exact ⟨_, LocalEngine.createSettles fit stored _ _, fun e => LocalEngine.createEffect, rfl⟩
  | some current =>
    exact ⟨_, LocalEngine.updateSettles fit (safe.readable _) stored _ _,
      fun e => LocalEngine.updateEffect, rfl⟩

theorem upsertPlaced {f : Fleet Connection (Host σ)} (sound : f.Sound) (runText : RunId → String)
    {s : ScheduleSpec} (fit : s.Sound) (name : String) {job : Job} (reaches : f.Reaches job.queue) :
    let out := upsert (Host.platform runText) s name job f
    out.1 = s.verdict ∧ out.2.Sound ∧ Placed f out.2 s name job.queue := by
  have again : f.Reaches (f.clients.queueName job.queue) := by
    simpa only [Reaches, ClientRegistry.get?, ClientRegistry.queueNameAgain] using reaches
  obtain ⟨c, g, connected, safe, grows, held, kept, outages⟩ := getOrCreateReaches sound runText again
  obtain ⟨result, settles, made, out⟩ := upsertTries safe fit name connected
  have holds : g.clients.get? job.queue = some c := by
    rw [← held, ClientRegistry.get?, ClientRegistry.get?, ← grows.queueName,
      ClientRegistry.queueNameAgain]
  have same : (g.state.tryEngine c.engine result).2.outages = g.state.outages := by
    cases result <;> rfl
  rw [out]
  refine ⟨triedAnswer settles, safe.tried c.engine name made, grows, same.trans outages, c, holds, ?_⟩
  intro n id
  have stored := triedStored settles (safe.held _ c holds) n id
  rw [kept.seen] at stored
  exact stored

end Dispatcher
end Orchestration
