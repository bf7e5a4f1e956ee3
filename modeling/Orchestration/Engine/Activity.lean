import Orchestration.Action.Registry

/-! Activity calls: one action with its input, tried until it succeeds or the
attempts are used up, each attempt under a time limit. -/
namespace Orchestration

structure ActivityOptions where
  maxAttempts : Nat
  timeout : Duration
  declared : Option String
  deriving DecidableEq, Repr, Inhabited

def ActivityOptions.standard (declared : Option String) : ActivityOptions :=
  ⟨1, .ofSecs 600, declared⟩

structure ActivityCall where
  activity : String
  input : Payload
  options : ActivityOptions
  deriving DecidableEq, Repr

def Answer.bounded (activity : String) (limit : Duration) (a : Answer) : Answer :=
  if a.wait.nanos ≤ limit.nanos then a else ⟨limit, .error (.activityTimeout activity limit)⟩

inductive Attempts where
  | settled (result : Except Error Payload)
  /-- the attempt ends this way after the wait; so many attempts are left after it -/
  | waiting (wait : Duration) (result : Except Error Payload) (left : Nat)

namespace ActivityCall
variable {σ : Type}

def attempt (c : ActivityCall) (handler : ActionHandler σ) (s : σ) : Answer × σ :=
  let (answer, s) := handler.call c.input s
  (answer.bounded c.activity c.options.timeout, s)

def attempts (c : ActivityCall) (handler : ActionHandler σ) : Nat → Error → σ → Attempts × σ
  | 0, last, s => (.settled (.error last), s)
  | left + 1, _, s =>
    match c.attempt handler s with
    | (⟨wait, result⟩, s) =>
      if wait = .zero then
        match result with
        | .ok output => (.settled (.ok output), s)
        | .error e => attempts c handler left e s
      else (.waiting wait result left, s)

def afterWait (c : ActivityCall) (handler : ActionHandler σ) (result : Except Error Payload)
    (left : Nat) (s : σ) : Attempts × σ :=
  match result with
  | .ok output => (.settled (.ok output), s)
  | .error e => c.attempts handler left e s

def begin (c : ActivityCall) (handler : ActionHandler σ) (s : σ) : Attempts × σ :=
  c.attempts handler (max 1 c.options.maxAttempts) (.activityNeverRan c.activity) s

end ActivityCall
end Orchestration
