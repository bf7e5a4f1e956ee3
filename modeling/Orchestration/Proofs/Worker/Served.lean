import Orchestration.Proofs.Host.Served
import Orchestration.Proofs.Run.Compile
import Orchestration.Proofs.Worker.Latest

/-! What the runs of registered jobs look up. A worker registers all activities of a job before the
job itself, on the engine behind one connection for each queue, and no engine forgets an
activity: whatever happens on the host later, a run of the job finds every action it calls. -/
namespace Orchestration

variable {σ : Type} {runText : RunId → String}

namespace Fleet

theorem connectMoves (f : Fleet Connection (Host σ)) (queue : String) (attempts : Nat) :
    Host.Moves runText f.state (f.connect (Host.platform runText) queue attempts).2.state := by
  have dialed := @Host.Moves.dial _ runText (f.clients.settingsFor queue) f.clients.options.connectDelay
    (attempts - 1) f.state
  simp only [connect]
  rcases answered : dial (Host.platform runText) (f.clients.settingsFor queue)
    f.clients.options.connectDelay (attempts - 1) f.state with ⟨e | client, k⟩ <;>
  · rw [answered] at dialed
    exact dialed

theorem getOrCreateMoves (f : Fleet Connection (Host σ)) (queue : String) :
    Host.Moves runText f.state (f.getOrCreate (Host.platform runText) queue).2.state := by
  simp only [getOrCreate]
  split
  · exact .refl _
  · exact connectMoves f _ 1

theorem ensureDefaultMoves (f : Fleet Connection (Host σ)) :
    Host.Moves runText f.state (f.ensureDefault (Host.platform runText)).2.state := by
  simp only [ensureDefault]
  split
  · exact .refl _
  · exact connectMoves f _ _

end Fleet

def Registrant.Served (g : Registrant σ Connection) (h : Host σ) : Prop :=
  ∀ s ∈ g.job.steps, s.Served g.job (h.engine g.client.engine).activities

theorem Registrant.Served.retains {g : Registrant σ Connection} {h k : Host σ} (served : g.Served h)
    (retains : h.Retains k) : g.Served k := by
  intro s inside
  obtain ⟨known, handler, own, there⟩ := served s inside
  obtain ⟨later, still⟩ := retains _ _ handler there
  exact ⟨known, later, own, still⟩

namespace Registration

theorem compileKnown {plan : WorkerPlan σ} {integrations : List (Integration σ)} {l : ListedJob}
    {j : CompiledJob σ} (made : compile plan (.ofIntegrations integrations) l.name l.job = .ok j) :
    ∀ s ∈ j.steps, ∃ known, j.actions.lookup s.action = some known ∧ known.action.text = s.action.text := by
  have keyed := ActionRegistry.ofIntegrationsKeyed integrations
  obtain ⟨c, compiled, given⟩ := compilePlain plan _ made
  obtain ⟨-, own, steps⟩ := CompiledJob.compileOk compiled
  obtain ⟨-, -, served⟩ := CompiledJob.compileStepsServed steps
  have known : ∀ s ∈ c.steps, ∃ known, c.actions.lookup s.action = some known ∧
      known.action.text = s.action.text := by
    intro s inside
    obtain ⟨known, found⟩ := served s inside
    exact ⟨known, own ▸ found, keyed.lookupText found⟩
  obtain rfl | ⟨attempts, timeout, rfl⟩ := given
  · exact known
  · intro s inside
    obtain ⟨before, own, rfl⟩ := List.mem_map.1 inside
    exact known before own

variable {plan : WorkerPlan σ} {actions : ActionRegistry σ}

theorem enlistMoves (client : Connection) (names : List String) (h : Host σ) :
    Host.Moves runText h (enlist (Host.platform runText) actions client names h) := by
  induction names generalizing h with
  | nil => exact .refl h
  | cons name rest ih =>
    rw [enlist]
    cases actions.resolve name with
    | error e => exact ih h
    | ok handler =>
      have first : Host.Moves runText h ((Host.platform runText).registerActivity client name handler h) :=
        .one (.registerActivity client.engine name handler)
      exact first.trans (ih _)

theorem Taken.moves {queue : String} {l : ListedJob} {r next : Registration Connection (Host σ)}
    {answer : Except Error (Registrant σ Connection)}
    (taken : Taken (Host.platform runText) plan actions queue l r answer next) :
    Host.Moves runText r.fleet.state next.fleet.state := by
  have reached := @Fleet.getOrCreateMoves _ runText r.fleet queue
  cases taken with
  | invalid bad => exact .refl _
  | cut failed valid =>
    rw [failed] at reached
    exact reached
  | @filed j client fleet filed fine connected lists =>
    rw [connected] at reached
    have enlisted := @enlistMoves _ runText actions client (r.newcomers queue l.job.actionIds) fleet.state
    exact (reached.trans enlisted).trans (.one (.registerProcedure client.engine l.name j))

theorem Pass.moves {queueOf : ListedJob → String} {jobs : List ListedJob}
    {r last : Registration Connection (Host σ)} {answers : List (Except Error (Registrant σ Connection))}
    (pass : Pass (Host.platform runText) plan actions queueOf jobs r answers last) :
    Host.Moves runText r.fleet.state last.fleet.state := by
  induction pass with
  | nil => exact .refl _
  | cons head tail ih => exact head.moves.trans ih

def Stocked (r : Registration Connection (Host σ)) : Prop :=
  ∀ queue, ∀ name ∈ r.servedOn queue, ∃ client handler, r.fleet.clients.get? queue = some client ∧
    (r.fleet.state.engine client.engine).activities.get? name = some handler

theorem enlistKnown {client : Connection} {names : List String} {h : Host σ}
    (inside : client.engine < h.engines.length)
    (served : ∀ name ∈ names, ∃ handler, actions.resolve name = .ok handler) :
    ∀ name ∈ names, ∃ handler,
      ((enlist (Host.platform runText) actions client names h).engine client.engine).activities.get? name =
        some handler := by
  induction names generalizing h with
  | nil => exact fun name none => nomatch none
  | cons name rest ih =>
    obtain ⟨⟨handler, found⟩, others⟩ := List.forall_mem_cons.1 served
    rw [enlist, found]
    have there : ((Host.platform runText).registerActivity client name handler h).engines.length =
        h.engines.length := List.length_modify ..
    refine List.forall_mem_cons.2 ⟨?_, ih (there ▸ inside) others⟩
    have moves := @enlistMoves _ runText actions client rest
      ((Host.platform runText).registerActivity client name handler h)
    refine moves.keeps.1 client.engine name handler ?_
    simp only [Host.platform, Host.engineChanged, inside, and_self, if_true,
      LocalEngine.registerActivity, SortedMap.getInsertSelf]

theorem Stocked.next {r next : Registration Connection (Host σ)} (stocked : r.Stocked)
    (grows : r.fleet.clients.Grows next.fleet.clients) (retains : r.fleet.state.Retains next.fleet.state)
    (added : ∀ queue, ∀ name ∈ next.servedOn queue, name ∈ r.servedOn queue ∨
      ∃ client handler, next.fleet.clients.get? queue = some client ∧
        (next.fleet.state.engine client.engine).activities.get? name = some handler) : next.Stocked := by
  intro queue name inside
  rcases added queue name inside with before | new
  · obtain ⟨client, handler, held, known⟩ := stocked queue name before
    obtain ⟨later, still⟩ := retains _ _ handler known
    exact ⟨client, later, grows.get held, still⟩
  · exact new

theorem Stocked.serves {integrations : List (Integration σ)} {r : Registration Connection (Host σ)}
    {g : Registrant σ Connection} (stocked : r.Stocked)
    (held : r.fleet.clients.get? g.queue = some g.client)
    (fine : Compiled plan (.ofIntegrations integrations) g.listed g.job)
    (listed : ∀ name ∈ g.listed.job.actionIds, name ∈ r.servedOn g.queue) : g.Served r.fleet.state := by
  intro s used
  obtain ⟨known, own, text⟩ := compileKnown fine.made s used
  obtain ⟨holder, handler, holds, there⟩ :=
    stocked g.queue s.action.text (listed _ (fine.runs.names used))
  cases holds.symm.trans held
  exact ⟨known, handler, own, text ▸ there⟩

theorem Taken.stocked {integrations : List (Integration σ)} {queue : String} {l : ListedJob}
    {r next : Registration Connection (Host σ)} {answer : Except Error (Registrant σ Connection)}
    (named : r.fleet.clients.queueName queue = queue) (sound : r.fleet.Sound) (stocked : r.Stocked)
    (taken : Taken (Host.platform runText) plan (.ofIntegrations integrations) queue l r answer next) :
    next.Stocked ∧ ∀ g, answer = .ok g → g.Served next.fleet.state := by
  have grows := taken.grows
  have retains := taken.moves.keeps.1
  have stood (g : Registrant σ Connection) (ok : answer = .ok g) := (ok ▸ taken).held named
  have safe := sound.getOrCreate runText queue
  obtain ⟨-, holds⟩ := Fleet.getOrCreateGrows (Host.platform runText) r.fleet queue
  cases taken with
  | invalid bad => exact ⟨stocked, fun g same => nomatch same⟩
  | cut failed valid =>
    exact ⟨stocked.next grows retains fun other name inside => .inl inside, fun g same => nomatch same⟩
  | @filed j client fleet filed fine connected lists =>
    obtain ⟨-, -, -, held⟩ := stood _ rfl
    rw [connected] at safe holds
    have inside : client.engine < fleet.state.engines.length := safe.held _ client (holds client rfl)
    have filing := @Host.Move.registerProcedure _ runText
      (enlist (Host.platform runText) (.ofIntegrations integrations) client
        (r.newcomers queue l.job.actionIds) fleet.state) client.engine l.name j
    have new : ∀ name ∈ r.newcomers queue l.job.actionIds, ∃ handler,
        (((Host.platform runText).registerProcedure client l.name j
          (enlist (Host.platform runText) (.ofIntegrations integrations) client
            (r.newcomers queue l.job.actionIds) fleet.state)).engine client.engine).activities.get? name =
            some handler := by
      intro name fresh
      obtain ⟨handler, known⟩ := @enlistKnown _ runText _ client _ fleet.state inside
        (fun name fresh => fine.served name (List.mem_filter.1 fresh).1) name fresh
      exact filing.retains _ _ handler known
    have next := stocked.next grows retains fun other name inside => by
      rw [servedOn, lists] at inside
      split at inside
      · rename_i here
        subst here
        refine (List.mem_append.1 inside).imp_right fun fresh => ?_
        obtain ⟨handler, known⟩ := new name fresh
        exact ⟨client, handler, held, known⟩
      · exact .inl inside
    refine ⟨next, fun g same => ?_⟩
    cases same
    refine next.serves held fine fun name listed => ?_
    rw [servedOn, lists, if_pos rfl]
    by_cases before : name ∈ r.servedOn queue
    · exact List.mem_append_left _ before
    · exact List.mem_append_right _ (List.mem_filter.2 ⟨listed, by simpa using before⟩)

theorem Pass.stocked {integrations : List (Integration σ)} {queueOf : ListedJob → String}
    {jobs : List ListedJob} {r last : Registration Connection (Host σ)}
    {answers : List (Except Error (Registrant σ Connection))}
    (named : ∀ l, r.fleet.clients.queueName (queueOf l) = queueOf l) (sound : r.fleet.Sound)
    (stocked : r.Stocked)
    (pass : Pass (Host.platform runText) plan (.ofIntegrations integrations) queueOf jobs r answers last) :
    ∀ g, .ok g ∈ answers → g.Served last.fleet.state := by
  induction pass with
  | nil => exact fun g none => nomatch none
  | cons head tail ih =>
    obtain ⟨still, served⟩ := head.stocked (named _) sound stocked
    have rest := ih (fun l => by rw [head.grows.queueName, named]) (head.serving sound).1 still
    intro g inside
    rcases List.mem_cons.1 inside with same | later
    · exact (served g same.symm).retains tail.moves.keeps.1
    · exact rest g later

end Registration
end Orchestration
