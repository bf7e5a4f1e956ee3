import Orchestration.Proofs.Run.Compile
import Orchestration.Proofs.Worker.Noted

/-! What a worker asks for on account of each job, note by note. A job that is set aside leaves
at most a dial that failed. A job that is registered brings those of its activities that no
job of its queue has brought before, and then its procedure. -/
namespace Orchestration

variable {σ η κ : Type}

def Note.enlists? : Note σ η → Option String
  | .activity _ name _ => some name
  | _ => none

def Note.files? : Note σ η → Option (η × String × CompiledJob σ)
  | .procedure client name job => some (client, name, job)
  | _ => none

section
variable (p : Platform σ η κ)

inductive Connects (f : Fleet η (κ × List (Note σ η))) (queue : String) :
    Except Error η × Fleet η (κ × List (Note σ η)) → List (Note σ η) → Prop where
  | held {client} (known : f.clients.get? queue = some client) : Connects f queue (.ok client, f) []
  | dialed {client k} (fresh : f.clients.get? queue = none)
      (answered : p.connect (f.clients.settingsFor (f.clients.queueName queue)) f.state.1 =
        (.ok client, k)) :
      Connects f queue
        (.ok client, ⟨f.clients.store (f.clients.queueName queue) client, k,
          f.state.2 ++ [.dial (f.clients.queueName queue) none]⟩)
        [.dial (f.clients.queueName queue) none]
  | failed {fault k} (fresh : f.clients.get? queue = none)
      (answered : p.connect (f.clients.settingsFor (f.clients.queueName queue)) f.state.1 =
        (.error fault, k)) :
      Connects f queue
        (.error (.connectionFailed (f.clients.queueName queue) 1 fault.message), ⟨f.clients, k,
          f.state.2 ++ [.dial (f.clients.queueName queue) (some fault)]⟩)
        [.dial (f.clients.queueName queue) (some fault)]

theorem getOrCreateConnects (f : Fleet η (κ × List (Note σ η))) (queue : String) :
    ∃ own, Connects p f queue (f.getOrCreate p.noted queue) own := by
  cases known : f.clients.clients.get? (f.clients.queueName queue) with
  | some client =>
    rw [Fleet.getOrCreateHeld known]
    exact ⟨[], .held known⟩
  | none =>
    rw [Fleet.getOrCreateDial known]
    rcases answered : p.connect (f.clients.settingsFor (f.clients.queueName queue)) f.state.1 with
      ⟨fault | client, k⟩
    · simp only [Platform.recorded, Note.of, answered]
      exact ⟨_, .failed known answered⟩
    · simp only [Platform.recorded, Note.of, answered]
      exact ⟨_, .dialed known answered⟩

end

namespace Registration

section
variable (actions : ActionRegistry σ)

def enlisting (client : η) (names : List String) : List (Note σ η) :=
  names.filterMap fun name => (actions.resolve name).toOption.map fun handler =>
    .activity client name handler

theorem enlistNoted (p : Platform σ η κ) (client : η) (names : List String) (s : κ × List (Note σ η)) :
    (enlist p.noted actions client names s).2 = s.2 ++ enlisting actions client names := by
  induction names generalizing s with
  | nil => exact (List.append_nil _).symm
  | cons name rest ih =>
    rw [enlist, enlisting, List.filterMap_cons]
    cases actions.resolve name with
    | error e => exact ih s
    | ok handler =>
      refine (ih _).trans ?_
      simp only [Platform.recorded, Note.of, Except.toOption, Option.map_some, List.append_assoc,
        List.singleton_append, enlisting]

theorem enlistingNames (client : η) {names : List String}
    (served : ∀ name ∈ names, ∃ handler, actions.resolve name = .ok handler) :
    (enlisting actions client names).filterMap Note.enlists? = names := by
  induction names with
  | nil => rfl
  | cons name rest ih =>
    obtain ⟨⟨handler, found⟩, later⟩ := List.forall_mem_cons.1 served
    have first : enlisting (η := η) actions client (name :: rest) =
        .activity client name handler :: enlisting actions client rest := by
      rw [enlisting, List.filterMap_cons, found]
      rfl
    rw [first]
    exact congrArg (name :: ·) (ih later)

theorem enlistingFiles (client : η) (names : List String) :
    (enlisting actions client names).filterMap Note.files? = [] := by
  rw [enlisting, List.filterMap_filterMap]
  refine List.filterMap_eq_nil_iff.2 fun name _ => ?_
  cases actions.resolve name <;> rfl

end

/-- What the turn of one job comes to, and all that is asked for in it. `earlier` are the
activities that jobs of its queue have brought before. -/
inductive Turn (plan : WorkerPlan σ) (clients : ClientRegistry η) (queue : String) (l : ListedJob)
    (earlier : List String) : Except Error (Registrant σ η) → List (Note σ η) → Prop where
  | invalid {before s after e}
      (first : CompiledJob.FirstOffence plan.integrations l.name l.job.steps before s after e) :
      Turn plan clients queue l earlier (.error e) []
  | cut {fault : Error} (valid : ∀ s ∈ l.job.steps, s.Offered plan.integrations) :
      Turn plan clients queue l earlier (.error (.connectionFailed queue 1 fault.message))
        [.dial queue (some fault)]
  | filed {j client dials} (valid : ∀ s ∈ l.job.steps, s.Offered plan.integrations)
      (compiled : Compiled plan (.ofIntegrations plan.integrations) l j)
      (held : clients.get? queue = some client)
      (dialed : dials = [] ∨ dials = [.dial queue none]) :
      Turn plan clients queue l earlier (.ok ⟨l, queue, client, j⟩)
        (dials ++ enlisting (.ofIntegrations plan.integrations) client
          (l.job.actionIds.filter fun name => !earlier.contains name) ++
          [.procedure client l.name j])

namespace Turn
variable {plan : WorkerPlan σ} {clients after : ClientRegistry η} {queue : String}
  {l : ListedJob} {earlier : List String} {answer : Except Error (Registrant σ η)}
  {own : List (Note σ η)}

theorem grows (turn : Turn plan clients queue l earlier answer own)
    (grows : clients.Grows after) : Turn plan after queue l earlier answer own := by
  cases turn with
  | invalid first => exact .invalid first
  | cut valid => exact .cut valid
  | filed valid compiled held dialed => exact .filed valid compiled (grows.get held) dialed

theorem rejectedIff (turn : Turn plan clients queue l earlier answer own) :
    (∃ e, answer = .error e) ↔
      (∃ s ∈ l.job.steps, ¬ s.Offered plan.integrations) ∨ ∃ fault, .dial queue (some fault) ∈ own := by
  cases turn with
  | @invalid before s after e first =>
    have inside : s ∈ l.job.steps := by
      rw [first.cut]
      simp
    have absent : ¬ s.Offered plan.integrations := fun offered =>
      CompiledJob.offeredNot offered e first.offends
    exact ⟨fun _ => .inl ⟨s, inside, absent⟩, fun _ => ⟨e, rfl⟩⟩
  | @cut fault valid => exact ⟨fun _ => .inr ⟨fault, List.mem_singleton_self _⟩, fun _ => ⟨_, rfl⟩⟩
  | @filed j client dials valid compiled held dialed =>
    constructor
    · rintro ⟨e, same⟩
      cases same
    · rintro (⟨s, inside, absent⟩ | ⟨fault, inside⟩)
      · exact absurd (valid s inside) absent
      · rcases dialed with rfl | rfl <;> simp [enlisting] at inside

theorem bare {e : Error} (turn : Turn plan clients queue l earlier (.error e) own) :
    own = [] ∨ ∃ fault, own = [.dial queue (some fault)] := by
  cases turn with
  | invalid first => exact .inl rfl
  | @cut fault valid => exact .inr ⟨fault, rfl⟩

theorem files (turn : Turn plan clients queue l earlier answer own) :
    own.filterMap Note.files? =
      answer.toOption.toList.map fun g => (g.client, g.listed.name, g.job) := by
  cases turn with
  | invalid first => rfl
  | cut valid => rfl
  | filed valid compiled held dialed =>
    have dialing : ∀ dials : List (Note σ η), dials = [] ∨ dials = [.dial queue none] →
        dials.filterMap Note.files? = [] := by
      rintro dials (rfl | rfl) <;> rfl
    rw [List.filterMap_append, List.filterMap_append, dialing _ dialed, enlistingFiles]
    rfl

theorem enlists (turn : Turn plan clients queue l earlier answer own) :
    own.filterMap Note.enlists? = answer.toOption.toList.flatMap fun g =>
      g.listed.job.actionIds.filter fun name => !earlier.contains name := by
  cases turn with
  | invalid first => rfl
  | cut valid => rfl
  | @filed j client dials valid compiled held dialed =>
    have dialing : dials.filterMap Note.enlists? = [] := by
      rcases dialed with rfl | rfl <;> rfl
    have served : ∀ name ∈ l.job.actionIds.filter fun name => !earlier.contains name,
        ∃ handler, (ActionRegistry.ofIntegrations plan.integrations).resolve name = .ok handler :=
      fun name inside => compiled.served name (List.mem_filter.1 inside).1
    rw [List.filterMap_append, List.filterMap_append, dialing, enlistingNames _ client served]
    simp [Except.toOption, Note.enlists?]

end Turn

section
variable {p : Platform σ η κ} {plan : WorkerPlan σ}

theorem compileFirst {l : ListedJob} {e : Error} {integrations : List (Integration σ)}
    (bad : compile plan (.ofIntegrations integrations) l.name l.job = .error e) :
    ∃ before s after, CompiledJob.FirstOffence integrations l.name l.job.steps before s after e :=
  CompiledJob.compileError.1 (compileRefused plan _ bad)

theorem compileValid {l : ListedJob} {j : CompiledJob σ} {integrations : List (Integration σ)}
    (made : compile plan (.ofIntegrations integrations) l.name l.job = .ok j) :
    ∀ s ∈ l.job.steps, s.Offered integrations := by
  obtain ⟨c, compiled, -⟩ := compilePlain plan _ made
  exact CompiledJob.compileOffered.1 ⟨c, compiled⟩

theorem Taken.turn {queue : String} {l : ListedJob}
    {r next : Registration η (κ × List (Note σ η))} {answer : Except Error (Registrant σ η)}
    (named : r.fleet.clients.queueName queue = queue)
    (taken : Taken p.noted plan (.ofIntegrations plan.integrations) queue l r answer next) :
    ∃ own, next.fleet.state.2 = r.fleet.state.2 ++ own ∧
      Turn plan next.fleet.clients queue l (r.servedOn queue) answer own ∧
      ∀ other, next.servedOn other =
        r.servedOn other ++ if queue = other then own.filterMap Note.enlists? else [] := by
  have stood (g : Registrant σ η) (ok : answer = .ok g) := (ok ▸ taken).held named
  obtain ⟨dials, connects⟩ := getOrCreateConnects p r.fleet queue
  cases taken with
  | invalid bad =>
    obtain ⟨before, s, after, first⟩ := compileFirst bad
    exact ⟨[], (List.append_nil _).symm, .invalid first, fun other => by simp [servedOn]⟩
  | cut failed valid =>
    obtain ⟨j, made⟩ := valid
    rw [failed] at connects
    cases connects with
    | @failed fault k fresh answered =>
      rw [named]
      refine ⟨[.dial queue (some fault)], rfl, .cut (compileValid made), fun other => ?_⟩
      simp [servedOn, Note.enlists?]
  | @filed j client fleet filed fine connected lists =>
    obtain ⟨-, -, -, held⟩ := stood _ rfl
    have valid := compileValid fine.made
    have reached : fleet.state.2 = r.fleet.state.2 ++ dials ∧ (dials = [] ∨ dials = [.dial queue none]) := by
      rw [connected] at connects
      cases connects with
      | held known => exact ⟨(List.append_nil _).symm, .inl rfl⟩
      | dialed fresh answered =>
        rw [named]
        exact ⟨rfl, .inr rfl⟩
    have turn : Turn plan _ queue l (r.servedOn queue) _ _ := .filed valid fine held reached.2
    refine ⟨_, ?_, turn, fun other => ?_⟩
    · rw [← List.append_assoc, ← List.append_assoc, ← reached.1]
      simp only [Platform.recorded, Note.of]
      exact congrArg (· ++ _) (enlistNoted _ p client _ fleet.state)
    · rw [turn.enlists, servedOn, lists]
      by_cases here : queue = other
      · subst here
        rw [if_pos rfl, if_pos rfl]
        simp [Except.toOption, newcomers]
      · rw [if_neg here, if_neg here, List.append_nil]

def enlisted (queueOf : ListedJob → String) (queue : String) (jobs : List ListedJob)
    (blocks : List (List (Note σ η))) : List String :=
  (jobs.zip blocks).flatMap fun turn =>
    if queueOf turn.1 = queue then turn.2.filterMap Note.enlists? else []

theorem Pass.turns {queueOf : ListedJob → String} {jobs : List ListedJob} {r last : Registration η (κ × List (Note σ η))}
    {answers : List (Except Error (Registrant σ η))}
    (named : ∀ l, r.fleet.clients.queueName (queueOf l) = queueOf l)
    (pass : Pass p.noted plan (.ofIntegrations plan.integrations) queueOf jobs r answers last) :
    ∃ blocks : List (List (Note σ η)), blocks.length = jobs.length ∧
      last.fleet.state.2 = r.fleet.state.2 ++ blocks.flatten ∧
      (∀ queue, last.servedOn queue = r.servedOn queue ++ enlisted queueOf queue jobs blocks) ∧
      blocks.flatten.filterMap Note.files? =
        (answers.filterMap Except.toOption).map (fun g => (g.client, g.listed.name, g.job)) ∧
      ∀ (i : Nat) (l : ListedJob), jobs[i]? = some l →
        ∃ answer own, answers[i]? = some answer ∧ blocks[i]? = some own ∧
          Turn plan last.fleet.clients (queueOf l) l
            (r.servedOn (queueOf l) ++ enlisted queueOf (queueOf l) (jobs.take i) (blocks.take i))
            answer own := by
  induction pass with
  | nil =>
    refine ⟨[], rfl, (List.append_nil _).symm, fun queue => ?_, rfl, fun i l inside => by simp at inside⟩
    exact (List.append_nil _).symm
  | @cons l jobs r answer next answers last head tail ih =>
    obtain ⟨own, record, turn, serves⟩ := head.turn (named l)
    obtain ⟨blocks, count, records, served, filed, turns⟩ := ih fun other => by
      rw [head.grows.queueName]
      exact named other
    refine ⟨own :: blocks, congrArg Nat.succ count, ?_, fun queue => ?_, ?_, fun i other inside => ?_⟩
    · rw [records, record, List.flatten_cons, List.append_assoc]
    · rw [served, serves, List.append_assoc]
      rfl
    · rw [List.flatten_cons, List.filterMap_append, turn.files, filed]
      cases answer <;> rfl
    · cases i with
      | zero =>
        cases inside
        refine ⟨answer, own, rfl, rfl, ?_⟩
        have first := turn.grows tail.grows
        simpa [enlisted] using first
      | succ i =>
        obtain ⟨answer, block, answered, listed, later⟩ := turns i other inside
        refine ⟨answer, block, answered, listed, ?_⟩
        rw [serves, List.append_assoc] at later
        exact later

theorem Taken.servedMem {actions : ActionRegistry σ} {queue : String} {l : ListedJob}
    {r next : Registration η κ} {answer : Except Error (Registrant σ η)}
    (taken : Taken p plan actions queue l r answer next) {other name : String} :
    name ∈ next.servedOn other ↔ name ∈ r.servedOn other ∨
      ∃ g, answer = .ok g ∧ g.queue = other ∧ name ∈ g.listed.job.actionIds := by
  cases taken with
  | invalid bad => simp [servedOn]
  | cut failed valid => simp [servedOn]
  | @filed j client fleet filed fine connected lists =>
    rw [servedOn, lists]
    by_cases here : queue = other
    · subst here
      rw [if_pos rfl]
      by_cases known : name ∈ r.servedOn queue <;> simp [newcomers, known]
    · simp [here]

theorem Taken.servedNodup {actions : ActionRegistry σ} {queue : String} {l : ListedJob}
    {r next : Registration η κ} {answer : Except Error (Registrant σ η)}
    (taken : Taken p plan actions queue l r answer next) (other : String)
    (distinct : (r.servedOn other).Nodup) : (next.servedOn other).Nodup := by
  cases taken with
  | invalid bad => exact distinct
  | cut failed valid => exact distinct
  | @filed j client fleet filed fine connected lists =>
    rw [servedOn, lists]
    split
    · rename_i here
      subst here
      refine List.nodup_append.2 ⟨distinct, l.job.actionIdsNodup.filter _, ?_⟩
      rintro name known other fresh rfl
      simp only [newcomers, List.mem_filter, Bool.not_eq_true', List.contains_eq_mem,
        decide_eq_false_iff_not] at fresh
      exact fresh.2 known
    · exact distinct

theorem Pass.servedMem {actions : ActionRegistry σ} {queueOf : ListedJob → String}
    {jobs : List ListedJob} {r last : Registration η κ} {answers : List (Except Error (Registrant σ η))}
    (pass : Pass p plan actions queueOf jobs r answers last) {queue name : String} :
    name ∈ last.servedOn queue ↔ name ∈ r.servedOn queue ∨
      ∃ g, .ok g ∈ answers ∧ g.queue = queue ∧ name ∈ g.listed.job.actionIds := by
  induction pass with
  | nil => simp
  | @cons l jobs r answer next answers last head tail ih =>
    rw [ih, head.servedMem]
    constructor
    · rintro ((before | ⟨g, rfl, named, used⟩) | ⟨g, inside, named, used⟩)
      · exact .inl before
      · exact .inr ⟨g, List.mem_cons_self, named, used⟩
      · exact .inr ⟨g, List.mem_cons_of_mem _ inside, named, used⟩
    · rintro (before | ⟨g, inside, named, used⟩)
      · exact .inl (.inl before)
      · rcases List.mem_cons.1 inside with same | later
        · exact .inl (.inr ⟨g, same.symm, named, used⟩)
        · exact .inr ⟨g, later, named, used⟩

theorem Pass.servedNodup {actions : ActionRegistry σ} {queueOf : ListedJob → String}
    {jobs : List ListedJob} {r last : Registration η κ} {answers : List (Except Error (Registrant σ η))}
    (pass : Pass p plan actions queueOf jobs r answers last) (queue : String)
    (distinct : (r.servedOn queue).Nodup) : (last.servedOn queue).Nodup := by
  induction pass with
  | nil => exact distinct
  | cons head tail ih => exact ih (head.servedNodup queue distinct)

theorem Taken.refused {actions : ActionRegistry σ} {queue : String} {l : ListedJob}
    {r next : Registration η κ} {e : Error} (taken : Taken p plan actions queue l r (.error e) next)
    {α : Type} (see : κ → α) (still : ∀ settings k fault k',
      p.connect settings k = (.error fault, k') → see k' = see k) :
    next.fleet.clients = r.fleet.clients ∧ see next.fleet.state = see r.fleet.state := by
  cases taken with
  | invalid bad => exact ⟨rfl, rfl⟩
  | @cut _ fleet failed valid =>
    obtain ⟨apart, -⟩ := Fleet.getOrCreateFailed failed
    rw [Fleet.getOrCreateDial apart] at failed
    rcases answered : p.connect (r.fleet.clients.settingsFor (r.fleet.clients.queueName queue))
      r.fleet.state with ⟨fault | client, k⟩
    · rw [answered] at failed
      cases failed
      exact ⟨rfl, still _ _ _ _ answered⟩
    · rw [answered] at failed
      cases failed

theorem Pass.refused {actions : ActionRegistry σ} {queueOf : ListedJob → String}
    {jobs : List ListedJob} {r last : Registration η κ} {answers : List (Except Error (Registrant σ η))}
    (pass : Pass p plan actions queueOf jobs r answers last)
    (failed : ∀ answer ∈ answers, ∃ e, answer = .error e) {α : Type} (see : κ → α)
    (still : ∀ settings k fault k', p.connect settings k = (.error fault, k') → see k' = see k) :
    last.fleet.clients = r.fleet.clients ∧ see last.fleet.state = see r.fleet.state := by
  induction pass with
  | nil => exact ⟨rfl, rfl⟩
  | cons head tail ih =>
    obtain ⟨⟨e, rfl⟩, later⟩ := List.forall_mem_cons.1 failed
    obtain ⟨same, seen⟩ := head.refused see still
    obtain ⟨sames, seens⟩ := ih later
    exact ⟨sames.trans same, seens.trans seen⟩

end
end Registration
end Orchestration
