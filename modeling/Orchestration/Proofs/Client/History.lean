import Orchestration.Proofs.Client.Recorded

/-! What a registry answers over a whole history of calls. Everything that is asked of the
platform to connect a queue is written down: each dial with its settings and its answer, and
each pause. A queue that was once answered with a connection is answered with that one from
then on, and is not dialed again. -/
namespace Orchestration

variable {σ η κ : Type}

inductive Contact (η : Type) where
  | dial (settings : ConnectionSettings) (answer : Except Error η)
  | pause (span : Duration)

def Contact.of : Platform.Call σ η → List (Contact η)
  | .connect settings answer => [.dial settings answer]
  | .pause span => [.pause span]
  | _ => []

abbrev Platform.traced (p : Platform σ η κ) : Platform σ η (κ × List (Contact η)) :=
  p.recorded Contact.of

namespace Fleet

inductive Call where
  | get (queue : String)
  | getOrCreate (queue : String)
  | ensureDefault
  deriving DecidableEq, Repr

def Call.queue (r : ClientRegistry η) : Call → String
  | .get queue => r.queueName queue
  | .getOrCreate queue => r.queueName queue
  | .ensureDefault => r.defaultQueue

def answer (p : Platform σ η κ) : Call → Fleet η κ → Except Error (Option η) × Fleet η κ
  | .get queue, f => (.ok (f.clients.get? queue), f)
  | .getOrCreate queue, f =>
    let (result, g) := f.getOrCreate p queue
    (result.map some, g)
  | .ensureDefault, f =>
    let (result, g) := f.ensureDefault p
    (result.map some, g)

def answers (p : Platform σ η κ) :
    List Call → Fleet η κ → List (Except Error (Option η)) × Fleet η κ
  | [], f => ([], f)
  | call :: rest, f =>
    let (reply, g) := f.answer p call
    let (replies, h) := answers p rest g
    (reply :: replies, h)

structure Turn (η : Type) where
  call : Call
  before : ClientRegistry η
  contacts : List (Contact η)
  reply : Except Error (Option η)
  after : ClientRegistry η

def turn (p : Platform σ η κ) (call : Call) (f : Fleet η κ) : Turn η × Fleet η κ :=
  let (reply, g) := answer p.traced call ⟨f.clients, f.state, []⟩
  (⟨call, f.clients, g.state.2, reply, g.clients⟩, ⟨g.clients, g.state.1⟩)

def turns (p : Platform σ η κ) : List Call → Fleet η κ → List (Turn η) × Fleet η κ
  | [], f => ([], f)
  | call :: rest, f =>
    let (first, g) := f.turn p call
    let (more, h) := turns p rest g
    (first :: more, h)

def missed (r : ClientRegistry η) (queue : String) (failures : List Error) : List (Contact η) :=
  failures.flatMap fun e => [.dial (r.settingsFor queue) (.error e), .pause r.options.connectDelay]

/-- One call, by what is connected when it comes and how the dials end. -/
inductive Served : Turn η → Prop where
  | held {r call client} (known : r.clients.get? (call.queue r) = some client) :
      Served ⟨call, r, [], .ok (some client), r⟩
  | absent {r queue} (fresh : r.clients.get? (r.queueName queue) = none) :
      Served ⟨.get queue, r, [], .ok none, r⟩
  | dialed {r queue client} (fresh : r.clients.get? (r.queueName queue) = none) :
      Served ⟨.getOrCreate queue, r, [.dial (r.settingsFor (r.queueName queue)) (.ok client)],
        .ok (some client), r.store (r.queueName queue) client⟩
  | refused {r queue e} (fresh : r.clients.get? (r.queueName queue) = none) :
      Served ⟨.getOrCreate queue, r, [.dial (r.settingsFor (r.queueName queue)) (.error e)],
        .error (.connectionFailed (r.queueName queue) 1 e.message), r⟩
  | joined {r failures client} (fresh : r.clients.get? r.defaultQueue = none)
      (within : failures.length < max 1 r.options.connectAttempts) :
      Served ⟨.ensureDefault, r,
        missed r r.defaultQueue failures ++ [.dial (r.settingsFor r.defaultQueue) (.ok client)],
        .ok (some client), r.store r.defaultQueue client⟩
  | exhausted {r failures last} (fresh : r.clients.get? r.defaultQueue = none)
      (all : failures.length + 1 = max 1 r.options.connectAttempts) :
      Served ⟨.ensureDefault, r,
        missed r r.defaultQueue failures ++ [.dial (r.settingsFor r.defaultQueue) (.error last)],
        .error (.connectionFailed r.defaultQueue (max 1 r.options.connectAttempts) last.message), r⟩

theorem ensureDefaultHeld {p : Platform σ η κ} {f : Fleet η κ} {client : η}
    (held : f.clients.clients.get? f.clients.defaultQueue = some client) :
    f.ensureDefault p = (.ok client, f) := by
  simp only [ensureDefault, ClientRegistry.get?, ClientRegistry.queueName, ite_self, held]

theorem ensureDefaultDial {p : Platform σ η κ} {f : Fleet η κ}
    (fresh : f.clients.clients.get? f.clients.defaultQueue = none) :
    f.ensureDefault p =
      match dial p (f.clients.settingsFor f.clients.defaultQueue) f.clients.options.connectDelay
        (max 1 f.clients.options.connectAttempts - 1) f.state with
      | (.ok client, k) => (.ok client, ⟨f.clients.store f.clients.defaultQueue client, k⟩)
      | (.error e, k) => (.error (.connectionFailed f.clients.defaultQueue
          (max 1 f.clients.options.connectAttempts) e.message), ⟨f.clients, k⟩) := by
  rcases answered : dial p (f.clients.settingsFor f.clients.defaultQueue) f.clients.options.connectDelay
    (max 1 f.clients.options.connectAttempts - 1) f.state with ⟨e | client, k⟩ <;>
  simp only [ensureDefault, ClientRegistry.get?, ClientRegistry.queueName, ite_self, fresh, connect,
    answered]

section
variable (p : Platform σ η κ)

theorem dialTraced (r : ClientRegistry η) (queue : String) (more : Nat) (k : κ)
    (seen : List (Contact η)) :
    (∃ failures client left, failures.length ≤ more ∧
      dial p.traced (r.settingsFor queue) r.options.connectDelay more (k, seen) = (.ok client, left,
        seen ++ (missed r queue failures ++ [.dial (r.settingsFor queue) (.ok client)]))) ∨
      ∃ failures last left, failures.length = more ∧
        dial p.traced (r.settingsFor queue) r.options.connectDelay more (k, seen) = (.error last, left,
          seen ++ (missed r queue failures ++ [.dial (r.settingsFor queue) (.error last)])) := by
  induction more generalizing k seen with
  | zero =>
    cases answered : p.connect (r.settingsFor queue) k with
    | mk result left =>
      rw [dial, @recordedConnect _ _ _ _ p _ _ (k, seen) _ _ answered]
      cases result with
      | ok client => exact .inl ⟨[], client, left, Nat.le_refl 0, rfl⟩
      | error last => exact .inr ⟨[], last, left, rfl, rfl⟩
  | succ more ih =>
    cases answered : p.connect (r.settingsFor queue) k with
    | mk result left =>
      rw [dial, @recordedConnect _ _ _ _ p _ _ (k, seen) _ _ answered]
      cases result with
      | ok client => exact .inl ⟨[], client, left, Nat.zero_le _, rfl⟩
      | error e =>
        have paused : p.traced.pause r.options.connectDelay
            (left, seen ++ [.dial (r.settingsFor queue) (.error e)]) =
              (p.pause r.options.connectDelay left, seen ++ missed r queue [e]) := by
          simp [Platform.recorded, Contact.of, missed]
        simp only [Contact.of, paused]
        cases ih (p.pause r.options.connectDelay left) (seen ++ missed r queue [e]) with
        | inl found =>
          obtain ⟨failures, client, left, within, found⟩ := found
          refine .inl ⟨e :: failures, client, left, Nat.succ_le_succ within, ?_⟩
          rw [found]
          simp [missed]
        | inr missing =>
          obtain ⟨failures, last, left, all, missing⟩ := missing
          refine .inr ⟨e :: failures, last, left, congrArg Nat.succ all, ?_⟩
          rw [missing]
          simp [missed]

theorem answerPlainly {ν : Type} (write : Platform.Call σ η → List ν) (call : Call)
    (f : Fleet η (κ × List ν)) :
    Plainly (f.answer (p.recorded write) call) (f.plain.answer p call) := by
  cases call with
  | get queue => exact ⟨rfl, rfl⟩
  | getOrCreate queue =>
    obtain ⟨answer, left⟩ := getOrCreatePlainly p write f queue
    exact ⟨congrArg (Except.map some) answer, left⟩
  | ensureDefault =>
    obtain ⟨answer, left⟩ := ensureDefaultPlainly p write f
    exact ⟨congrArg (Except.map some) answer, left⟩

theorem turnsPlain (calls : List Call) (f : Fleet η κ) :
    ((turns p calls f).1.map Turn.reply, (turns p calls f).2) = answers p calls f := by
  induction calls generalizing f with
  | nil => rfl
  | cons call rest ih =>
    obtain ⟨reply, left⟩ := answerPlainly p Contact.of call f.noted
    have later := ih (f.turn p call).2
    have same : (f.turn p call).2 = (f.answer p call).2 := left
    rw [same] at later
    simp only [turns, answers, List.map_cons, same]
    rw [← later]
    exact congrArg (fun r => (r :: _, _)) reply

theorem getServed (queue : String) (f : Fleet η κ) : Served (f.turn p (.get queue)).1 := by
  cases known : f.clients.get? queue with
  | none =>
    have same : (f.turn p (.get queue)).1 = ⟨.get queue, f.clients, [], .ok none, f.clients⟩ := by
      simp only [turn, answer, known]
    rw [same]
    exact .absent known
  | some client =>
    have same : (f.turn p (.get queue)).1 =
        ⟨.get queue, f.clients, [], .ok (some client), f.clients⟩ := by
      simp only [turn, answer, known]
    rw [same]
    exact .held known

theorem getOrCreateServed (queue : String) (f : Fleet η κ) :
    Served (f.turn p (.getOrCreate queue)).1 := by
  cases known : f.clients.clients.get? (f.clients.queueName queue) with
  | some client =>
    have held := @getOrCreateHeld _ _ _ p.traced ⟨f.clients, f.state, []⟩ _ _ known
    simp only [turn, answer, held]
    exact .held known
  | none =>
    have dialed := @getOrCreateDial _ _ _ p.traced ⟨f.clients, f.state, []⟩ _ known
    cases answered : p.connect (f.clients.settingsFor (f.clients.queueName queue)) f.state with
    | mk result left =>
      rw [@recordedConnect _ _ _ _ p _ _ (f.state, []) _ _ answered] at dialed
      simp only [turn, answer, dialed]
      cases result with
      | ok client => exact .dialed known
      | error e => exact .refused known

theorem ensureDefaultServed (f : Fleet η κ) : Served (f.turn p .ensureDefault).1 := by
  cases known : f.clients.clients.get? f.clients.defaultQueue with
  | some client =>
    have held := @ensureDefaultHeld _ _ _ p.traced ⟨f.clients, f.state, []⟩ _ known
    simp only [turn, answer, held]
    exact .held known
  | none =>
    have dialed := @ensureDefaultDial _ _ _ p.traced ⟨f.clients, f.state, []⟩ known
    cases dialTraced p f.clients f.clients.defaultQueue (max 1 f.clients.options.connectAttempts - 1)
        f.state [] with
    | inl found =>
      obtain ⟨failures, client, left, within, found⟩ := found
      rw [found] at dialed
      simp only [turn, answer, dialed]
      exact .joined known (by omega)
    | inr missing =>
      obtain ⟨failures, last, left, all, missing⟩ := missing
      rw [missing] at dialed
      simp only [turn, answer, dialed]
      exact .exhausted known (by omega)

theorem turnServed (call : Call) (f : Fleet η κ) : Served (f.turn p call).1 := by
  cases call with
  | get queue => exact getServed p queue f
  | getOrCreate queue => exact getOrCreateServed p queue f
  | ensureDefault => exact ensureDefaultServed p f

end

theorem Call.queueGrows {a b : ClientRegistry η} (grows : a.Grows b) (call : Call) :
    call.queue b = call.queue a := by
  cases call with
  | get queue => exact grows.queueName queue
  | getOrCreate queue => exact grows.queueName queue
  | ensureDefault => exact congrArg ClientOptions.defaultQueue grows.options

namespace Served
variable {t : Turn η}

theorem grows (served : Served t) : t.before.Grows t.after := by
  cases served with
  | held known => exact .refl _
  | absent fresh => exact .refl _
  | dialed fresh => exact ClientRegistry.storeGrows fresh _
  | refused fresh => exact .refl _
  | joined fresh within => exact ClientRegistry.storeGrows fresh _
  | exhausted fresh all => exact .refl _

theorem unchanged (served : Served t) (nothing : ∀ client, t.reply ≠ .ok (some client)) :
    t.after = t.before := by
  cases served with
  | held known => rfl
  | absent fresh => rfl
  | dialed fresh => exact absurd rfl (nothing _)
  | refused fresh => rfl
  | joined fresh within => exact absurd rfl (nothing _)
  | exhausted fresh all => rfl

theorem connected (served : Served t) {client : η} (answered : t.reply = .ok (some client)) :
    t.after.clients.get? (t.call.queue t.before) = some client := by
  cases served with
  | held known =>
    cases answered
    exact known
  | absent fresh => cases answered
  | dialed fresh =>
    cases answered
    exact SortedMap.getInsertSelf _ _ _
  | refused fresh => cases answered
  | joined fresh within =>
    cases answered
    exact SortedMap.getInsertSelf _ _ _
  | exhausted fresh all => cases answered

theorem again (served : Served t) {client : η}
    (known : t.before.clients.get? (t.call.queue t.before) = some client) :
    t.reply = .ok (some client) ∧ t.contacts = [] := by
  cases served with
  | held other =>
    cases known.symm.trans other
    exact ⟨rfl, rfl⟩
  | absent fresh => cases fresh.symm.trans known
  | dialed fresh => cases fresh.symm.trans known
  | refused fresh => cases fresh.symm.trans known
  | joined fresh within => cases fresh.symm.trans known
  | exhausted fresh all => cases fresh.symm.trans known

theorem dials (served : Served t) {settings : ConnectionSettings} {answer : Except Error η}
    (dialed : .dial settings answer ∈ t.contacts) :
    settings = t.before.settingsFor (t.call.queue t.before) := by
  have missing : ∀ (r : ClientRegistry η) queue failures, .dial settings answer ∈ missed r queue failures →
      settings = r.settingsFor queue := by
    intro r queue failures inside
    obtain ⟨e, -, inside⟩ := List.mem_flatMap.1 inside
    simp only [List.mem_cons, Contact.dial.injEq, reduceCtorEq, List.not_mem_nil, or_false] at inside
    exact inside.1
  cases served with
  | held known => cases dialed
  | absent fresh => cases dialed
  | dialed fresh => exact (Contact.dial.inj (List.mem_singleton.1 dialed)).1
  | refused fresh => exact (Contact.dial.inj (List.mem_singleton.1 dialed)).1
  | joined fresh within =>
    cases List.mem_append.1 dialed with
    | inl inside => exact missing _ _ _ inside
    | inr last => exact (Contact.dial.inj (List.mem_singleton.1 last)).1
  | exhausted fresh all =>
    cases List.mem_append.1 dialed with
    | inl inside => exact missing _ _ _ inside
    | inr last => exact (Contact.dial.inj (List.mem_singleton.1 last)).1

end Served

section
variable (p : Platform σ η κ)

theorem turnsServed {r : ClientRegistry η} (calls : List Call) {f : Fleet η κ} (grown : r.Grows f.clients)
    {t : Turn η} (inside : t ∈ (turns p calls f).1) : Served t ∧ r.Grows t.before := by
  induction calls generalizing f with
  | nil => cases inside
  | cons call rest ih =>
    have served := turnServed p call f
    have further : r.Grows (f.turn p call).2.clients := grown.trans served.grows
    cases List.mem_cons.1 inside with
    | inl same => exact same ▸ ⟨served, grown⟩
    | inr later => exact ih further later

theorem turnsKeep {r : ClientRegistry η} (calls : List Call) (f : Fleet η κ) (grown : r.Grows f.clients) :
    (turns p calls f).1.Pairwise fun turn next => ∀ client, turn.reply = .ok (some client) →
      next.call.queue r = turn.call.queue r → next.reply = .ok (some client) ∧ next.contacts = [] := by
  induction calls generalizing f with
  | nil => exact .nil
  | cons call rest ih =>
    have served := turnServed p call f
    refine .cons (fun next later client answered same => ?_) (ih _ (grown.trans served.grows))
    obtain ⟨nextServed, grew⟩ := turnsServed p rest (.refl (f.turn p call).1.after) later
    have held := grew.kept _ _ (served.connected answered)
    apply nextServed.again
    have queue : next.call.queue next.before = (f.turn p call).1.call.queue (f.turn p call).1.before := by
      rw [Call.queueGrows ((grown.trans served.grows).trans grew), same]
      exact (Call.queueGrows grown _).symm
    rw [queue]
    exact held

theorem turnsJoined (calls : List Call) (f : Fleet η κ) :
    f.clients :: (turns p calls f).1.map Turn.after =
      (turns p calls f).1.map Turn.before ++ [(turns p calls f).2.clients] := by
  induction calls generalizing f with
  | nil => rfl
  | cons call rest ih => exact congrArg (f.clients :: ·) (ih (f.turn p call).2)

/-- Over any history of calls, each call is served by what the calls before it have connected:
a connection once answered for a queue is answered for it ever after, without a dial. -/
theorem answeredOnceForAll (f : Fleet η κ) (calls : List Call) :
    (turns p calls f).1.map Turn.call = calls ∧
      ((turns p calls f).1.map Turn.reply, (turns p calls f).2) = answers p calls f ∧
      f.clients :: (turns p calls f).1.map Turn.after =
        (turns p calls f).1.map Turn.before ++ [(turns p calls f).2.clients] ∧
      (∀ turn ∈ (turns p calls f).1, Served turn ∧
        ((∀ client, turn.reply ≠ .ok (some client)) → turn.after = turn.before) ∧
        ∀ settings answer, .dial settings answer ∈ turn.contacts →
          settings = f.clients.settingsFor (turn.call.queue f.clients) ∧
            settings.queue = turn.call.queue f.clients) ∧
      (turns p calls f).1.Pairwise fun turn next => ∀ client, turn.reply = .ok (some client) →
        (next.call.queue f.clients = turn.call.queue f.clients →
          next.reply = .ok (some client) ∧ next.contacts = []) ∧
        ∀ settings answer, .dial settings answer ∈ next.contacts →
          settings.queue ≠ turn.call.queue f.clients := by
  have settled : ∀ turn ∈ (turns p calls f).1, Served turn ∧
      ((∀ client, turn.reply ≠ .ok (some client)) → turn.after = turn.before) ∧
      ∀ settings answer, .dial settings answer ∈ turn.contacts →
        settings = f.clients.settingsFor (turn.call.queue f.clients) ∧
          settings.queue = turn.call.queue f.clients := by
    intro turn inside
    obtain ⟨served, grown⟩ := turnsServed p calls (.refl f.clients) inside
    refine ⟨served, served.unchanged, fun settings answer dialed => ?_⟩
    have same := served.dials dialed
    rw [Call.queueGrows grown, grown.settingsFor] at same
    exact ⟨same, congrArg ConnectionSettings.queue same⟩
  refine ⟨?_, turnsPlain p calls f, turnsJoined p calls f, settled, ?_⟩
  · clear settled
    induction calls generalizing f with
    | nil => rfl
    | cons call rest ih => exact congrArg (call :: ·) (ih (f.turn p call).2)
  · have kept := turnsKeep p calls f (.refl _)
    refine kept.imp_of_mem fun _ later keeps client answered => ?_
    refine ⟨keeps client answered, fun settings answer dialed same => ?_⟩
    have queue := ((settled _ later).2.2 settings answer dialed).2
    have silent := (keeps client answered (queue.symm.trans same)).2
    rw [silent] at dialed
    cases dialed

end

end Fleet
end Orchestration
