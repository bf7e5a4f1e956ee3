import Orchestration.Proofs.Dispatch.Upsert
import Orchestration.Proofs.Worker.Latest

/-! A worker on a host whose one engine serves every queue and answers every dial. All connections
lead home to that engine, so it finds under a name the job registered last under it, whatever
the queues of the jobs; and until schedules are put in place there are none. -/
namespace Orchestration

variable {σ : Type} (runText : RunId → String)

namespace Fleet

structure Home (f : Fleet Connection (Host σ)) : Prop where
  shared : f.state.shared = true
  clear : f.state.outages = .empty
  leads : ∀ queue c, f.clients.clients.get? queue = some c → c.engine = 0
  bare : ∀ n, (f.state.engine n).schedules = .empty

namespace Home
variable {f : Fleet Connection (Host σ)}

theorem start {clients : ClientRegistry Connection} (fresh : clients.clients = .empty) (moment : Nat)
    (services : σ) : Home ⟨clients, .start true .empty moment services⟩ := by
  refine ⟨rfl, rfl, fun queue c held => ?_, fun n => by rw [Host.startEngine]; rfl⟩
  rw [fresh] at held
  cases held

theorem keeps (home : f.Home) {h : Host σ} (kept : Host.Keeps LocalEngine.schedules f.state h)
    (outages : h.outages = f.state.outages) : Home ⟨f.clients, h⟩ :=
  ⟨kept.shared.trans home.shared, outages.trans home.clear, home.leads,
    fun n => (kept.seen n).trans (home.bare n)⟩

theorem store (home : f.Home) (queue : String) {c : Connection} (leads : c.engine = 0) :
    Home ⟨f.clients.store queue c, f.state⟩ := by
  refine ⟨home.shared, home.clear, fun other d held => ?_, home.bare⟩
  simp only [ClientRegistry.store, SortedMap.getInsert] at held
  split at held
  · cases held
    exact leads
  · exact home.leads other d held

theorem reaches (home : f.Home) (queue : String) : f.Reaches queue := by
  refine .inr (.inl ?_)
  rw [home.clear]
  rfl

theorem connects (home : f.Home) (queue : String) (attempts : Nat) :
    ∃ c k, f.state.connect (f.clients.settingsFor queue) = (.ok c, k) ∧ c.engine = 0 ∧
      k.outages = f.state.outages ∧
      f.connect (Host.platform runText) queue attempts = (.ok c, ⟨f.clients.store queue c, k⟩) := by
  obtain ⟨c, k, answered, outages⟩ := @connectOk _ f.state (f.clients.settingsFor queue)
    (.inl (by rw [home.clear]; rfl))
  have dialed (more : Nat) : dial (Host.platform runText) (f.clients.settingsFor queue)
      f.clients.options.connectDelay more f.state = (.ok c, k) := by
    cases more with
    | zero => exact answered
    | succ more =>
      rw [dial]
      simp only [Host.platform, answered]
  refine ⟨c, k, answered, ?_, outages, by rw [connect, dialed]⟩
  simp only [Host.connect, home.clear, SortedMap.getEmpty, Host.accept, Host.noteDial, home.shared,
    if_true] at answered
  cases answered
  rfl

theorem connect (home : f.Home) (queue : String) (attempts : Nat) :
    (f.connect (Host.platform runText) queue attempts).2.Home := by
  obtain ⟨c, k, answered, leads, outages, connected⟩ := home.connects runText queue attempts
  have kept : Host.Keeps LocalEngine.schedules f.state _ :=
    .connect f.state (f.clients.settingsFor queue)
  rw [answered] at kept
  rw [connected]
  exact (home.keeps kept outages).store queue leads

theorem getOrCreate (home : f.Home) (queue : String) :
    (f.getOrCreate (Host.platform runText) queue).2.Home := by
  simp only [Fleet.getOrCreate]
  split
  · exact home
  · exact home.connect runText _ 1

end Home
end Fleet

namespace Registration
variable {runText} {plan : WorkerPlan σ} {actions : ActionRegistry σ}

theorem enlistHome (client : Connection) (names : List String) {f : Fleet Connection (Host σ)}
    (home : f.Home) :
    Fleet.Home ⟨f.clients, enlist (Host.platform runText) actions client names f.state⟩ := by
  induction names generalizing f with
  | nil => exact home
  | cons name rest ih =>
    rw [enlist]
    cases actions.resolve name with
    | error e => exact ih home
    | ok handler =>
      have kept : Host.Keeps LocalEngine.schedules f.state _ :=
        .changeEngine f.state client.engine (·.registerActivity name handler) fun _ => rfl
      exact ih (home.keeps kept rfl)

theorem Taken.home {queue : String} {l : ListedJob} {r next : Registration Connection (Host σ)}
    {answer : Except Error (Registrant σ Connection)} (home : r.fleet.Home)
    (taken : Taken (Host.platform runText) plan actions queue l r answer next) : next.fleet.Home := by
  have reached := home.getOrCreate runText queue
  cases taken with
  | invalid bad => exact home
  | cut failed =>
    rw [failed] at reached
    exact reached
  | @filed j client fleet filed fine connected lists =>
    rw [connected] at reached
    have enlisted := @enlistHome _ runText actions client (r.newcomers queue l.job.actionIds) _ reached
    have kept : Host.Keeps LocalEngine.schedules _ _ :=
      .changeEngine (enlist (Host.platform runText) actions client
        (r.newcomers queue l.job.actionIds) fleet.state) client.engine
        (·.registerProcedure l.name j) fun _ => rfl
    exact enlisted.keeps kept rfl

theorem Pass.home {queueOf : ListedJob → String} {jobs : List ListedJob}
    {r last : Registration Connection (Host σ)} {answers : List (Except Error (Registrant σ Connection))}
    (home : r.fleet.Home)
    (pass : Pass (Host.platform runText) plan actions queueOf jobs r answers last) : last.fleet.Home := by
  induction pass with
  | nil => exact home
  | cons head tail ih => exact ih (head.home home)

end Registration

theorem Registrant.latestHome {registrants : List (Registrant σ Connection)}
    (home : ∀ g ∈ registrants, g.client.engine = 0) (name : String) :
    (∃ last, latest registrants 0 name = some last) ↔
      ∃ r ∈ registrants.map Registrant.record, r.job = name := by
  constructor
  · rintro ⟨last, found⟩
    obtain ⟨inside, -, named⟩ := latestMem found
    exact ⟨last.record, List.mem_map_of_mem inside, named⟩
  · rintro ⟨r, inside, rfl⟩
    obtain ⟨g, made, rfl⟩ := List.mem_map.1 inside
    obtain ⟨last, found⟩ := latestSome made
    rw [home g made] at found
    exact ⟨last, found⟩

theorem WorkerPlan.buildHome {plan : WorkerPlan σ} {f built : Fleet Connection (Host σ)} (home : f.Home)
    (sound : f.Sound) (unserved : ∀ name, f.state.serving 0 name = none) {worker : Worker σ}
    (ok : plan.build (Host.platform runText) f = (.ok worker, built)) :
    ∃ (answers : List (Except Error (Registrant σ Connection))) (registrants : _) (names : List String),
      Outcome.Parted plan.listed answers registrants names worker.rejected ∧
      worker.registered = registrants.map Registrant.record ∧
      List.Forall₂ (fun l answer => ∀ g, answer = .ok g → g.listed = l ∧ g.client.engine = 0 ∧
        g.job.Runs l.job) plan.listed answers ∧
      built.Home ∧ built.Sound ∧
      ∀ name, built.state.serving 0 name = (Registrant.latest registrants 0 name).map (·.job) := by
  obtain ⟨answers, registrants, names, last, pass, parted, registered, fleet⟩ :=
    plan.buildOk (congrArg Prod.fst ok)
  obtain rfl : built = last.fleet := (congrArg Prod.snd ok).symm.trans fleet
  have named (l : ListedJob) := plan.queueForNamed f.clients l.job
  have settled := pass.home home
  obtain ⟨safe, serving⟩ := pass.serving sound
  rw [parted.results] at serving
  refine ⟨answers, registrants, names, parted, registered, (pass.held named).imp fun l a filed g same => ?_,
    settled, safe, fun name => ?_⟩
  · obtain ⟨listed, -, compiled, held⟩ := filed g same
    exact ⟨listed, settled.leads _ _ held, compiled.runs⟩
  · rw [serving, Host.servingAfter, unserved, Option.or_none]

end Orchestration
