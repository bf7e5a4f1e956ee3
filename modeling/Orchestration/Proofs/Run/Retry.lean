import Orchestration.Proofs.Collection.SortedMap
import Orchestration.Proofs.Run.Replay

/-! A call of an activity from its look-up to its result. The bursts of a run make their calls
one after another, and between the attempts at a call the others act on the services; put
together again, a call invokes its handler with one input, up to the first attempt that
succeeds or the last one that is allowed. -/
namespace Orchestration

variable {σ : Type}

structure Invocation where
  input : Payload
  answer : Answer

def ActionHandler.noted (handler : ActionHandler σ) : ActionHandler (σ × List Invocation) where
  action := handler.action
  integration :=
    ⟨handler.integration.id, handler.integration.verbs, fun action input (s, log) =>
      let (answer, s) := handler.integration.perform action input s
      (answer, s, log ++ [⟨input, answer⟩])⟩

def Attempts.ahead : Attempts → Nat
  | .settled _ => 0
  | .waiting _ _ left => left + 1

namespace ActivityCall

theorem attemptsAhead (c : ActivityCall) (handler : ActionHandler σ) (left : Nat) (last : Error)
    (s : σ) : (c.attempts handler left last s).1.ahead ≤ left := by
  induction left generalizing last s with
  | zero => exact Nat.le_refl 0
  | succ left ih =>
    rcases answered : c.attempt handler s with ⟨⟨wait, result⟩, after⟩
    simp only [attempts, answered]
    split
    · cases result with
      | ok output => exact Nat.zero_le _
      | error e => exact Nat.le_succ_of_le (ih e after)
    · exact Nat.le_refl _

theorem afterWaitAhead (c : ActivityCall) (handler : ActionHandler σ) (result : Except Error Payload)
    (left : Nat) (s : σ) : (c.afterWait handler result left s).1.ahead ≤ left := by
  cases result with
  | ok output => exact Nat.zero_le _
  | error e => exact c.attemptsAhead handler left e s

section
variable (c : ActivityCall) (activities : SortedMap (ActionHandler σ)) (handler : ActionHandler σ)
  (others : σ → σ)

def outlast : Attempts × σ → Except Error Payload × σ
  | (.settled result, s) => (result, s)
  -- while the attempt takes time, the others act on the services
  | (.waiting _ result left, s) => outlast (c.afterWait handler result left (others s))
termination_by out => out.1.ahead
decreasing_by exact Nat.lt_succ_of_le (c.afterWaitAhead handler _ _ _)

def execute (s : σ) : Except Error Payload × σ :=
  match activities.get? c.activity with
  | none => (.error (.actionNotRegistered c.activity), s)
  | some handler => c.outlast handler others (c.begin handler s)

end
end ActivityCall

namespace CompiledJob
variable {j : CompiledJob σ} {activities : SortedMap (ActionHandler σ)}

theorem Rolls.fewer {leg : Leg σ} {asks : List Ask} {out : Burst σ × σ}
    (rolls : j.Rolls activities leg asks out) : ahead out.1 ≤ ahead leg.burst := by
  induction rolls with
  | stop still => exact Nat.le_refl _
  | @on ask run s asks out rest ih =>
    exact Nat.le_trans ih (Nat.le_of_succ_le (goOnAhead run s))

theorem resumeAhead (run : PausedRun σ) (s : σ) :
    ahead (j.resume activities run s).1 < run.waits := by
  obtain ⟨asks, rolls⟩ := @goOnRolls _ j activities run s
  exact Nat.lt_of_le_of_lt rolls.fewer (goOnAhead run s)

section
variable (j activities) (others : σ → σ)

def playOut : Burst σ × σ → Except Error RunContext × σ
  | (.finished outcome, s) => (outcome, s)
  | (.paused _ run, s) => playOut (j.resume activities run (others s))
termination_by out => ahead out.1
decreasing_by exact resumeAhead run (others s)

def proceed (step : CompiledStep) (rest : List CompiledStep) (c : RunContext) (call : ActivityCall)
    (handler : ActionHandler σ) : Attempts × σ → Burst σ × σ
  | (.settled (.ok outputs), s) => j.walk activities rest (c.record step.step.id outputs) s
  | (.settled (.error e), s) => (.finished (.error (j.stepFailed step c e)), s)
  | (.waiting wait result left, s) => (.paused wait ⟨step, rest, c, call, handler, result, left⟩, s)

end

theorem resumeProceeds (run : PausedRun σ) (s : σ) :
    j.resume activities run s = j.proceed activities run.step run.rest run.context run.call run.handler
      (run.call.afterWait run.handler run.result run.left s) := by
  rw [resume]
  split <;> simp only [proceed, *]

section
variable (others : σ → σ) (step : CompiledStep) (c : RunContext)

theorem playOutProceed (rest : List CompiledStep) (call : ActivityCall) (handler : ActionHandler σ)
    (out : Attempts × σ) :
    j.playOut activities others (j.proceed activities step rest c call handler out) =
      match call.outlast handler others out with
      | (.ok outputs, s) =>
        j.playOut activities others (j.walk activities rest (c.record step.step.id outputs) s)
      | (.error e, s) => (.error (j.stepFailed step c e), s) := by
  fun_induction call.outlast handler others out with
  | case1 result s =>
    cases result with
    | ok outputs => rfl
    | error e => rw [proceed, playOut]
  | case2 wait result left s ih => rw [proceed, playOut, resumeProceeds, ih]

theorem walkProceeds {rest : List CompiledStep} {call : ActivityCall} {handler : ActionHandler σ}
    (prepared : j.prepare step c = .ok call) (found : activities.get? call.activity = some handler)
    (s : σ) : j.walk activities (step :: rest) c s =
      j.proceed activities step rest c call handler (call.begin handler s) := by
  simp only [walk, prepared, found]
  split <;> simp only [proceed, *]

end

theorem playOutWalk (others : σ → σ) (steps : List CompiledStep) (c : RunContext) (s : σ) :
    j.playOut activities others (j.walk activities steps c s) =
      runSteps j (fun call => call.execute activities others) steps c s := by
  induction steps generalizing c s with
  | nil => rw [walk, playOut, runSteps]
  | cons step rest ih =>
    rw [runSteps]
    cases prepared : j.prepare step c with
    | error e => simp only [walk, prepared, playOut]
    | ok call =>
      cases found : activities.get? call.activity with
      | none => simp only [walk, prepared, found, playOut, ActivityCall.execute]
      | some handler =>
        rw [walkProceeds step c prepared found, playOutProceed]
        simp only [ActivityCall.execute, found]
        rcases call.outlast handler others (call.begin handler s) with ⟨e | outputs, s⟩
        · rfl
        · exact ih _ _

theorem playOutLaunch (others : σ → σ) (input : Json) (s : σ) :
    j.playOut activities others (j.launch activities input s) =
      execute j (fun call => call.execute activities others) input s := by
  rw [launch, execute]
  cases Template.payloadOf input with
  | error e => simp only [playOut]
  | ok payload => exact playOutWalk others j.steps _ s

end CompiledJob

namespace ActivityCall

def most (c : ActivityCall) : Nat := max 1 c.options.maxAttempts

def outcome (c : ActivityCall) (a : Answer) : Except Error Payload :=
  if a.wait.nanos ≤ c.options.timeout.nanos then a.result
  else .error (.activityTimeout c.activity c.options.timeout)

def Fails (c : ActivityCall) (a : Answer) : Prop := ∃ e, c.outcome a = .error e

/-- What a call ends with, by the answers of all its attempts. -/
inductive Retried (c : ActivityCall) : List Answer → Except Error Payload → Prop where
  | succeeded {earlier last output} (failed : ∀ a ∈ earlier, c.Fails a)
      (allowed : earlier.length < c.most) (success : c.outcome last = .ok output) :
      Retried c (earlier ++ [last]) (.ok output)
  | exhausted {earlier last e} (failed : ∀ a ∈ earlier, c.Fails a)
      (spent : earlier.length + 1 = c.most) (failure : c.outcome last = .error e) :
      Retried c (earlier ++ [last]) (.error e)

def invocations (c : ActivityCall) (answers : List Answer) : List Invocation :=
  answers.map (⟨c.input, ·⟩)

structure Open (c : ActivityCall) (answers : List Answer) (left : Nat) : Prop where
  failed : ∀ a ∈ answers, c.Fails a
  budget : answers.length + left = c.most

def Shows (c : ActivityCall) (answers : List Answer) : Attempts → Prop
  | .settled result => c.Retried answers result
  | .waiting _ result left => ∃ earlier last, answers = earlier ++ [last] ∧
      c.Open earlier (left + 1) ∧ c.outcome last = result

def Stands (c : ActivityCall) (out : Attempts × σ × List Invocation) : Prop :=
  ∃ answers, out.2.2 = c.invocations answers ∧ c.Shows answers out.1

variable {c : ActivityCall} {handler : ActionHandler σ} {s : σ}

theorem boundedResult (c : ActivityCall) (a : Answer) :
    (a.bounded c.activity c.options.timeout).result = c.outcome a := by
  rw [Answer.bounded, outcome]
  split <;> rfl

theorem attemptNoted (c : ActivityCall) (handler : ActionHandler σ) (s : σ) (log : List Invocation) :
    c.attempt handler.noted (s, log) = ((c.attempt handler s).1, (c.attempt handler s).2,
      log ++ [⟨c.input, (handler.call c.input s).1⟩]) := rfl

namespace Open
variable {answers : List Answer} {left : Nat} {last : Answer}

theorem failsOnce {e : Error} (opened : c.Open answers (left + 1)) (failure : c.outcome last = .error e) :
    c.Open (answers ++ [last]) left := by
  constructor
  · intro a inside
    rcases List.mem_append.1 inside with before | now
    · exact opened.failed a before
    · rw [List.mem_singleton] at now
      exact ⟨e, now ▸ failure⟩
  · rw [List.length_append, List.length_singleton, ← opened.budget]
    omega

theorem succeeds {output : Payload} (opened : c.Open answers (left + 1))
    (success : c.outcome last = .ok output) : c.Retried (answers ++ [last]) (.ok output) := by
  refine .succeeded opened.failed ?_ success
  rw [← opened.budget]
  omega

theorem exhausts {e : Error} (opened : c.Open answers (left + 1))
    (failure : c.outcome last = .error e) (none : left = 0) :
    c.Retried (answers ++ [last]) (.error e) := by
  subst none
  exact .exhausted opened.failed opened.budget failure

end Open

-- The induction is on the attempts that are left; with none left, the last error has to be that
-- of the last attempt, which excludes the one that the loop starts with.
theorem attemptsStand {answers : List Answer} {left : Nat} {last : Error}
    (opened : c.Open answers left) (ended : left = 0 → c.Retried answers (.error last)) :
    c.Stands (c.attempts handler.noted left last (s, c.invocations answers)) := by
  induction left generalizing answers last s with
  | zero => exact ⟨answers, rfl, ended rfl⟩
  | succ left ih =>
    obtain ⟨answer, answered⟩ : ∃ answer, (handler.call c.input s).1 = answer := ⟨_, rfl⟩
    have log : c.invocations answers ++ [⟨c.input, answer⟩] = c.invocations (answers ++ [answer]) := by
      rw [invocations, invocations, List.map_append, List.map_singleton]
    have result : (c.attempt handler s).1.result = c.outcome answer := by
      rw [← answered]
      exact boundedResult c _
    simp only [attempts, attemptNoted, answered, log, result]
    split
    · cases came : c.outcome answer with
      | ok output => exact ⟨answers ++ [answer], rfl, opened.succeeds came⟩
      | error e => exact ih (opened.failsOnce came) (opened.exhausts came)
    · exact ⟨answers ++ [answer], rfl, answers, answer, rfl, opened, rfl⟩

theorem beginStands (c : ActivityCall) (handler : ActionHandler σ) (s : σ) :
    c.Stands (c.begin handler.noted (s, [])) := by
  have opened : c.Open [] c.most := ⟨by simp, Nat.zero_add _⟩
  refine attemptsStand opened fun none => ?_
  rw [most] at none
  omega

theorem afterWaitStands {t : σ × List Invocation} {wait : Duration} {result : Except Error Payload}
    {left : Nat} (stands : c.Stands (.waiting wait result left, t)) (s : σ) :
    c.Stands (c.afterWait handler.noted result left (s, t.2)) := by
  obtain ⟨answers, log, earlier, last, rfl, opened, came⟩ := stands
  simp only at log
  rw [log]
  cases result with
  | ok output => exact ⟨_, rfl, opened.succeeds came⟩
  | error e => exact attemptsStand (opened.failsOnce came) (opened.exhausts came)

theorem outlastRetried (others : σ → σ) {out : Attempts × σ × List Invocation} (stands : c.Stands out) :
    ∃ answers, (c.outlast handler.noted (Prod.map others id) out).2.2 = c.invocations answers ∧
      c.Retried answers (c.outlast handler.noted (Prod.map others id) out).1 := by
  fun_induction c.outlast handler.noted (Prod.map others id) out with
  | case1 result t => exact stands
  | case2 wait result left t ih => exact ih (afterWaitStands stands _)

def unnoted {α : Type} (out : α × σ × List Invocation) : α × σ := (out.1, out.2.1)

theorem attemptsUnnoted (c : ActivityCall) (handler : ActionHandler σ) (left : Nat) (last : Error)
    (s : σ) (log : List Invocation) :
    unnoted (c.attempts handler.noted left last (s, log)) = c.attempts handler left last s := by
  induction left generalizing last s log with
  | zero => rfl
  | succ left ih =>
    rcases answered : c.attempt handler s with ⟨⟨wait, result⟩, after⟩
    simp only [attempts, attemptNoted, answered]
    by_cases now : wait = .zero
    · simp only [if_pos now]
      cases result with
      | ok output => rfl
      | error e => exact ih ..
    · simp only [if_neg now]
      rfl

theorem afterWaitUnnoted (c : ActivityCall) (handler : ActionHandler σ) (result : Except Error Payload)
    (left : Nat) (s : σ) (log : List Invocation) :
    unnoted (c.afterWait handler.noted result left (s, log)) = c.afterWait handler result left s := by
  cases result with
  | ok output => rfl
  | error e => exact c.attemptsUnnoted handler left e s log

theorem outlastUnnoted (others : σ → σ) (out : Attempts × σ × List Invocation) :
    unnoted (c.outlast handler.noted (Prod.map others id) out) =
      c.outlast handler others (unnoted out) := by
  fun_induction c.outlast handler.noted (Prod.map others id) out with
  | case1 result t => rw [unnoted, unnoted, outlast]
  | case2 wait result left t ih =>
    rw [ih]
    simp only [Prod.map, afterWaitUnnoted, id]
    simp only [unnoted]
    rw [outlast]

theorem executeUnnoted (c : ActivityCall) (activities : SortedMap (ActionHandler σ)) (others : σ → σ)
    (s : σ) :
    unnoted (c.execute (activities.map .noted) (Prod.map others id) (s, [])) =
      c.execute activities others s := by
  simp only [execute, SortedMap.getMap]
  cases activities.get? c.activity with
  | none => rfl
  | some handler =>
    simp only [Option.map_some]
    rw [outlastUnnoted, begin, attemptsUnnoted]
    rfl

theorem attemptsFallback (c : ActivityCall) (handler : ActionHandler σ) (fallback : Error) (s : σ) :
    c.attempts handler c.most fallback s = c.begin handler s := by
  obtain ⟨more, most⟩ : ∃ more, c.most = more + 1 := ⟨c.most - 1, by rw [most]; omega⟩
  rw [begin, ← ActivityCall.most, most]
  rfl

theorem activityRetried (activities : SortedMap (ActionHandler σ)) (others : σ → σ) (s : σ) :
    (∀ (j : CompiledJob σ) (input : Json),
      j.playOut activities others (j.launch activities input s) =
        j.execute (fun call => call.execute activities others) input s) ∧
    ∀ c : ActivityCall,
      let noted := c.execute (activities.map .noted) (Prod.map others id) (s, [])
      unnoted noted = c.execute activities others s ∧
        match activities.get? c.activity with
        | none => noted = (.error (.actionNotRegistered c.activity), s, [])
        | some handler =>
          (∃ answers, noted.2.2 = c.invocations answers ∧ c.Retried answers noted.1) ∧
            ∀ fallback, c.attempts handler c.most fallback s = c.begin handler s := by
  refine ⟨fun j input => CompiledJob.playOutLaunch others input s, fun c => ⟨c.executeUnnoted .., ?_⟩⟩
  simp only [execute, SortedMap.getMap]
  cases activities.get? c.activity with
  | none => rfl
  | some handler =>
    exact ⟨outlastRetried others (c.beginStands handler s),
      fun fallback => c.attemptsFallback handler fallback s⟩

end ActivityCall
end Orchestration
