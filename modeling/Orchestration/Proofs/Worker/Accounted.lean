import Orchestration.Proofs.Worker.Turns

/-! A worker's account of its jobs. Each gets one turn, and what the turns ask for comes to the
procedures of the jobs that are registered and their activities, each activity once for a
queue and before any procedure that uses it. -/
namespace Orchestration

variable {σ η κ : Type}

def Note.Registers (client : η) (name queue : String) : Note σ η → Prop
  | .dial reached _ => reached = queue
  | .activity asked _ _ => asked = client
  | .procedure asked called _ => asked = client ∧ called = name
  | .start .. => False
  | .create .. => False
  | .update .. => False

namespace Registration
variable {plan : WorkerPlan σ} {clients : ClientRegistry η}
  {queueOf : ListedJob → String} {queue name : String}

theorem enlistingMem {client : η} {names : List String} {actions : ActionRegistry σ}
    {handler : ActionHandler σ} (found : actions.resolve name = .ok handler) (inside : name ∈ names) :
    .activity client name handler ∈ enlisting actions client names := by
  refine List.mem_filterMap.2 ⟨name, inside, ?_⟩
  rw [found]
  rfl

theorem Turn.enlistsMem {l : ListedJob} {earlier : List String}
    {answer : Except Error (Registrant σ η)} {own : List (Note σ η)}
    (turn : Turn plan clients queue l earlier answer own)
    (inside : name ∈ own.filterMap Note.enlists?) :
    ∃ client handler, clients.get? queue = some client ∧
      (ActionRegistry.ofIntegrations plan.integrations).resolve name = .ok handler ∧
      .activity client name handler ∈ own := by
  rw [turn.enlists] at inside
  cases turn with
  | invalid first => cases inside
  | cut valid => cases inside
  | @filed j client dials valid compiled held dialed =>
    have fresh : name ∈ l.job.actionIds.filter fun name => !earlier.contains name := by
      simpa [Except.toOption] using inside
    obtain ⟨handler, found⟩ := compiled.served name (List.mem_filter.1 fresh).1
    have noted : .activity client name handler ∈ enlisting _ client _ := enlistingMem found fresh
    exact ⟨client, handler, held, found, List.mem_append_left _ (List.mem_append_right _ noted)⟩

theorem enlistedMem {jobs : List ListedJob} {blocks : List (List (Note σ η))}
    (inside : name ∈ enlisted queueOf queue jobs blocks) :
    ∃ (i : Nat) (l : ListedJob) (own : List (Note σ η)), jobs[i]? = some l ∧
      blocks[i]? = some own ∧ queueOf l = queue ∧ name ∈ own.filterMap Note.enlists? := by
  obtain ⟨⟨l, own⟩, paired, brought⟩ := List.mem_flatMap.1 inside
  obtain ⟨i, at_i⟩ := List.mem_iff_getElem?.1 paired
  obtain ⟨job, block⟩ := List.getElem?_zip_eq_some.1 at_i
  by_cases here : queueOf l = queue
  · rw [if_pos here] at brought
    exact ⟨i, l, own, job, block, here, brought⟩
  · rw [if_neg here] at brought
    cases brought

theorem enlistedNoted {jobs : List ListedJob} {blocks : List (List (Note σ η))}
    (turns : ∀ (i : Nat) (l : ListedJob) (own : List (Note σ η)), jobs[i]? = some l →
      blocks[i]? = some own → ∃ earlier answer, Turn plan clients (queueOf l) l earlier answer own)
    (inside : name ∈ enlisted queueOf queue jobs blocks) :
    ∃ client handler, clients.get? queue = some client ∧
      (ActionRegistry.ofIntegrations plan.integrations).resolve name = .ok handler ∧
      .activity client name handler ∈ blocks.flatten := by
  obtain ⟨i, l, own, job, block, rfl, brought⟩ := enlistedMem inside
  obtain ⟨earlier, answer, turn⟩ := turns i l own job block
  obtain ⟨client, handler, held, found, noted⟩ := turn.enlistsMem brought
  exact ⟨client, handler, held, found, List.mem_flatten.2 ⟨own, List.mem_of_getElem? block, noted⟩⟩

/-- The turns of all jobs, in order, and what they come to. -/
structure Accounted (plan : WorkerPlan σ) (clients : ClientRegistry η)
    (queueOf : ListedJob → String) (jobs : List ListedJob)
    (answers : List (Except Error (Registrant σ η))) (registrants : List (Registrant σ η))
    (blocks : List (List (Note σ η))) : Prop where
  count : blocks.length = jobs.length
  turns : ∀ (i : Nat) (l : ListedJob), jobs[i]? = some l →
    ∃ answer own, answers[i]? = some answer ∧ blocks[i]? = some own ∧
      Turn plan clients (queueOf l) l
        (enlisted queueOf (queueOf l) (jobs.take i) (blocks.take i)) answer own ∧
      ((∃ e, answer = .error e) ↔
        (∃ s ∈ l.job.steps, ¬ s.Offered plan.integrations) ∨ ∃ fault, .dial (queueOf l) (some fault) ∈ own)
  procedures : blocks.flatten.filterMap Note.files? =
    registrants.map fun g => (g.client, g.listed.name, g.job)
  distinct : ∀ queue, (enlisted queueOf queue jobs blocks).Nodup
  activities : ∀ queue name, name ∈ enlisted queueOf queue jobs blocks ↔
    ∃ g ∈ registrants, g.queue = queue ∧ ∃ s ∈ g.listed.job.steps, s.actionId = name
  before : ∀ (i : Nat) (l : ListedJob) (g : Registrant σ η), jobs[i]? = some l →
    answers[i]? = some (.ok g) →
    ∃ front, blocks[i]? = some (front ++ [.procedure g.client l.name g.job]) ∧
      ∀ s ∈ l.job.steps, ∃ handler,
        (ActionRegistry.ofIntegrations plan.integrations).resolve s.actionId = .ok handler ∧
        .activity g.client s.actionId handler ∈ (blocks.take i).flatten ++ front

theorem Pass.accounted {p : Platform σ η κ} {jobs : List ListedJob}
    {f : Fleet η (κ × List (Note σ η))} {last : Registration η (κ × List (Note σ η))}
    {answers : List (Except Error (Registrant σ η))} {registrants : List (Registrant σ η)}
    {names : List String} {rejected : List (JobFailure Error)}
    (named : ∀ l, f.clients.queueName (queueOf l) = queueOf l)
    (pass : Pass p.noted plan (.ofIntegrations plan.integrations) queueOf jobs ⟨f, .empty, [], []⟩
      answers last)
    (parted : Outcome.Parted jobs answers registrants names rejected) :
    ∃ blocks, last.fleet.state.2 = f.state.2 ++ blocks.flatten ∧
      Accounted plan last.fleet.clients queueOf jobs answers registrants blocks := by
  obtain ⟨blocks, count, record, served, filed, turns⟩ := pass.turns named
  have clean (queue : String) :
      servedOn ⟨f, .empty, [], []⟩ queue = [] := rfl
  simp only [clean, List.nil_append] at served turns
  refine ⟨blocks, record, count, fun i l inside => ?_, ?_, fun queue => ?_, fun queue name => ?_,
    fun i l g inside answered => ?_⟩
  · obtain ⟨answer, own, answered, listed, turn⟩ := turns i l inside
    exact ⟨answer, own, answered, listed, turn, turn.rejectedIff⟩
  · rw [filed, parted.results]
  · rw [← served]
    exact pass.servedNodup queue List.nodup_nil
  · rw [← served, pass.servedMem, clean]
    simp only [List.not_mem_nil, false_or, parted.okMem, Job.memActionIds]
  · obtain ⟨answer, own, same, listed, turn⟩ := turns i l inside
    cases same.symm.trans answered
    cases turn with
    | @filed j client dials valid compiled held dialed =>
      refine ⟨_, listed, fun s inside => ?_⟩
      have used : s.actionId ∈ l.job.actionIds := Job.memActionIds.2 ⟨s, inside, rfl⟩
      by_cases earlier : s.actionId ∈ enlisted queueOf (queueOf l) (jobs.take i) (blocks.take i)
      · -- brought by the turn of an earlier job of the queue, on the connection that is still held
        have sooner {α : Type} {xs : List α} {k : Nat} {x : α} (taken : (xs.take i)[k]? = some x) :
            xs[k]? = some x := by
          rw [List.getElem?_take] at taken
          split at taken
          · exact taken
          · cases taken
        have turned (k : Nat) (other : ListedJob) (block : List (Note σ η))
            (job : (jobs.take i)[k]? = some other) (taken : (blocks.take i)[k]? = some block) :
            ∃ earlier answer, Turn plan last.fleet.clients (queueOf other) other earlier answer block := by
          obtain ⟨answer, _, -, listed, turn⟩ := turns k other (sooner job)
          cases listed.symm.trans (sooner taken)
          exact ⟨_, answer, turn⟩
        obtain ⟨holder, handler, holds, found, noted⟩ := enlistedNoted turned earlier
        cases holds.symm.trans held
        exact ⟨handler, found, List.mem_append_left _ noted⟩
      · obtain ⟨handler, found⟩ := compiled.served s.actionId used
        have fresh : s.actionId ∈ l.job.actionIds.filter fun name =>
            !(enlisted queueOf (queueOf l) (jobs.take i) (blocks.take i)).contains name :=
          List.mem_filter.2 ⟨used, by simpa using earlier⟩
        have noted : .activity client s.actionId handler ∈ enlisting _ client _ := enlistingMem found fresh
        exact ⟨handler, found, List.mem_append_right _ (List.mem_append_right _ noted)⟩

theorem Accounted.refused {jobs : List ListedJob} {answers : List (Except Error (Registrant σ η))}
    {registrants : List (Registrant σ η)} {blocks : List (List (Note σ η))}
    (accounted : Accounted plan clients queueOf jobs answers registrants blocks)
    (failed : ∀ answer ∈ answers, ∃ e, answer = .error e) :
    ∀ note ∈ blocks.flatten, ∃ queue fault, note = .dial queue (some fault) := by
  intro note inside
  obtain ⟨block, listed, noted⟩ := List.mem_flatten.1 inside
  obtain ⟨i, below, at_i⟩ := List.mem_iff_getElem.1 listed
  rw [accounted.count] at below
  obtain ⟨answer, own, answered, same, turn, -⟩ := accounted.turns i _ (List.getElem?_eq_getElem below)
  rw [List.getElem?_eq_getElem (by rwa [accounted.count]), at_i] at same
  cases same
  obtain ⟨e, rfl⟩ := failed answer (List.mem_of_getElem? answered)
  rcases turn.bare with rfl | ⟨fault, rfl⟩
  · cases noted
  · exact ⟨_, fault, List.mem_singleton.1 noted⟩

/-- Where a job stands once it is registered: its procedure and all its activities are on the
connection that is held for its queue. -/
structure Stands (actions : ActionRegistry σ) (clients : ClientRegistry η) (l : ListedJob) (queue : String)
    (g : Registrant σ η) (earlier own : List (Note σ η)) : Prop where
  listed : g.listed = l
  queued : g.queue = queue
  held : clients.get? queue = some g.client
  runs : g.job.Runs l.job
  procedure : .procedure g.client l.name g.job ∈ own
  activities : ∀ s ∈ l.job.steps, ∃ handler, actions.resolve s.actionId = .ok handler ∧
    .activity g.client s.actionId handler ∈ earlier ++ own
  only : ∀ note ∈ own, note.Registers g.client l.name queue

theorem Accounted.stands {jobs : List ListedJob} {answers : List (Except Error (Registrant σ η))}
    {registrants : List (Registrant σ η)} {blocks : List (List (Note σ η))}
    (accounted : Accounted plan clients queueOf jobs answers registrants blocks) {i : Nat} {l : ListedJob}
    {g : Registrant σ η} (inside : jobs[i]? = some l) (answered : answers[i]? = some (.ok g)) :
    ∃ own, blocks[i]? = some own ∧ Stands (.ofIntegrations plan.integrations) clients l (queueOf l) g
      (blocks.take i).flatten own := by
  obtain ⟨front, listed, before⟩ := accounted.before i l g inside answered
  obtain ⟨answer, own, same, block, turn, -⟩ := accounted.turns i l inside
  cases same.symm.trans answered
  have whole : own = front ++ [.procedure g.client l.name g.job] :=
    Option.some.inj (block.symm.trans listed)
  have brought : ∀ s ∈ l.job.steps, ∃ handler,
      (ActionRegistry.ofIntegrations plan.integrations).resolve s.actionId = .ok handler ∧
      .activity g.client s.actionId handler ∈ (blocks.take i).flatten ++ own := by
    intro s used
    obtain ⟨handler, found, noted⟩ := before s used
    rw [whole, ← List.append_assoc]
    exact ⟨handler, found, List.mem_append_left _ noted⟩
  clear whole listed
  cases turn with
  | @filed j client dials valid compiled held dialed =>
    refine ⟨_, block, rfl, rfl, held, compiled.runs, by simp, brought, fun note noted => ?_⟩
    simp only [List.mem_append, List.mem_singleton] at noted
    obtain (reached | filed) | rfl := noted
    · obtain rfl | rfl := dialed
      · cases reached
      · cases List.mem_singleton.1 reached
        rfl
    · obtain ⟨name, -, found⟩ := List.mem_filterMap.1 filed
      obtain ⟨handler, -, rfl⟩ := Option.map_eq_some_iff.1 found
      rfl
    · exact ⟨rfl, rfl⟩

end Registration

namespace WorkerPlan

theorem buildRefused {p : Platform σ η κ} {plan : WorkerPlan σ} {f : Fleet η κ} {e : Error}
    (refused : (plan.build p f).1 = .error e) {α : Type} (see : κ → α)
    (still : ∀ settings k fault k', p.connect settings k = (.error fault, k') → see k' = see k) :
    (plan.build p f).2.clients = f.clients ∧ see (plan.build p f).2.state = see f.state := by
  obtain ⟨answers, registrants, names, rejected, last, pass, parted, answer, fleet⟩ :=
    plan.buildPass p f
  rw [answer] at refused
  rw [fleet]
  by_cases all : registrants = [] ∧ rejected ≠ []
  · exact pass.refused (parted.allErrors.1 all.1) see still
  · rw [if_neg all] at refused
    cases refused

theorem buildRefusedEngines {runText : RunId → String} {plan : WorkerPlan σ}
    {f : Fleet Connection (Host σ)} {e : Error}
    (refused : (plan.build (Host.platform runText) f).1 = .error e) :
    (plan.build (Host.platform runText) f).2.clients = f.clients ∧
      (plan.build (Host.platform runText) f).2.state.engines = f.state.engines := by
  refine buildRefused refused Host.engines fun settings h fault h' failed => ?_
  simp only [Host.platform, Host.connect] at failed
  split at failed <;> cases failed <;> rfl

/-- Every job of every definition gets one turn, in order, and is registered or rejected by it; a
build fails when there are jobs and none is registered, and then it has done nothing but
dial in vain. -/
theorem everyJobAccounted (p : Platform σ η κ) (plan : WorkerPlan σ) (f : Fleet η κ) :
    let built := plan.build p.noted f.noted
    Plainly built (plan.build p f) ∧
    ∃ (answers : List (Except Error (Registrant σ η))) (registrants : List (Registrant σ η))
      (names : List String) (rejected : List (JobFailure Error)) (blocks : List (List (Note σ η))),
      Outcome.Parted plan.listed answers registrants names rejected ∧
      built.1 = (if registrants = [] ∧ rejected ≠ [] then
          .error (.noJobsRegistered (rejected.map (·.error)))
        else .ok ⟨plan.queueOn f.clients, .ofIntegrations plan.integrations,
          registrants.map Registrant.record, rejected⟩) ∧
      built.2.state.2 = blocks.flatten ∧
      Registration.Accounted plan built.2.clients
        (fun l => plan.queueFor f.clients l.job) plan.listed answers registrants blocks ∧
      ((∃ e, built.1 = .error e) ↔
        plan.listed ≠ [] ∧ ∀ answer ∈ answers, ∃ e, answer = .error e) ∧
      ∀ e, built.1 = .error e →
        (∃ errors, e = .noJobsRegistered errors ∧ answers = errors.map .error) ∧
        built.2.clients = f.clients ∧
        (∀ note ∈ built.2.state.2, ∃ queue fault, note = .dial queue (some fault)) ∧
        ∀ (α : Type) (see : κ → α),
          (∀ settings k fault k', p.connect settings k = (.error fault, k') → see k' = see k) →
          see built.2.state.1 = see f.state := by
  intro built
  obtain ⟨answers, registrants, names, rejected, last, pass, parted, answer, fleet⟩ :=
    plan.buildPass p.noted f.noted
  obtain ⟨blocks, record, accounted⟩ := pass.accounted (fun l => plan.queueForNamed f.clients l.job) parted
  have notes : built.2.state.2 = blocks.flatten := by
    rw [show built.2 = last.fleet from fleet, record]
    rfl
  have jobs : registrants = [] → (rejected ≠ [] ↔ plan.listed ≠ []) := by
    rintro rfl
    rw [← List.length_pos_iff, ← List.length_pos_iff, parted.lengths, List.length_nil, Nat.zero_add]
  have failed : (∃ e, built.1 = .error e) ↔ registrants = [] ∧ rejected ≠ [] := by
    rw [show built.1 = _ from answer]
    by_cases all : registrants = [] ∧ rejected ≠ []
    · rw [if_pos all]
      exact ⟨fun _ => all, fun _ => ⟨_, rfl⟩⟩
    · rw [if_neg all]
      constructor
      · rintro ⟨e, same⟩
        cases same
      · exact fun bad => absurd bad all
  have plainly : Plainly built (plan.build p f) := plan.buildPlainly p Note.of f
  refine ⟨plainly, answers, registrants, names, rejected, blocks, parted, answer, notes, ?_, ?_,
    fun e refused => ⟨?_, ?_, ?_, fun α see still => ?_⟩⟩
  · rw [show built.2 = last.fleet from fleet]
    exact accounted
  · rw [failed, ← parted.allErrors]
    constructor
    · rintro ⟨unmade, bad⟩
      exact ⟨(jobs unmade).1 bad, unmade⟩
    · rintro ⟨there, unmade⟩
      exact ⟨unmade, (jobs unmade).2 there⟩
  · obtain ⟨unmade, bad⟩ := failed.1 ⟨e, refused⟩
    rw [show built.1 = _ from answer, if_pos ⟨unmade, bad⟩] at refused
    cases refused
    exact ⟨_, rfl, parted.noneOk.1 unmade⟩
  · have apart := (buildRefused (plainly.1.symm.trans refused) (fun _ => ()) fun _ _ _ _ _ => rfl).1
    rw [← plainly.2] at apart
    exact apart
  · rw [notes]
    exact accounted.refused (parted.allErrors.1 (failed.1 ⟨e, refused⟩).1)
  · have left := (buildRefused (plainly.1.symm.trans refused) see still).2
    rw [← plainly.2] at left
    exact left

end WorkerPlan
end Orchestration
