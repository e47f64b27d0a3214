import Deli.Action

/-! Outcomes: a success carries a value and a failure says what went wrong, as a rule with a
fault. What is carried is passed on from step to step and never raised by the way. -/

namespace Deli.Outcome

variable {ω : Type}

/-- Whether a value is a failure. Only outcomes can be asked. -/
def isFailure : Value → Except Cause Bool
  | .success _ => .ok false
  | .failure _ => .ok true
  | .handle ⟨.outcome, _⟩ => .ok false
  | _ => .error .noAttribute

def isSuccess : Value → Except Cause Bool
  | .success _ => .ok true
  | .failure _ => .ok false
  | .handle ⟨.outcome, _⟩ => .ok false
  | _ => .error .noAttribute

/-- What becomes of an outcome that was expected to be a success or a failure. -/
private def neither : Value → Cause
  | .handle ⟨.outcome, _⟩ => .unimplemented
  | _ => .noAttribute

/-- The outcome of a step: what it returns, or the fault it raises if that can be caught. -/
def guarded (step : Action ω Value) : Action ω Value :=
  tryCatch (Value.success <$> step) fun e =>
    if e.cause.isCatchable then pure (.failure (.fault e)) else throw e

/-- A guarded step on the value of a success. A failure stays the very failure it is. -/
def mapCatching (r : Value) (step : Value → Action ω Value) : Action ω Value :=
  match r with
  | .success v => guarded (step v)
  | .failure v => pure (.failure v)
  | r => Action.raise (neither r)

/-- One way on for the value of a success, the other for what went wrong. -/
def fold (r : Value) (onSuccess onFailure : Value → Action ω Value) : Action ω Value :=
  match r with
  | .success v => onSuccess v
  | .failure v => onFailure v
  | r => Action.raise (neither r)

/-- A step in the middle of a chain: after a failure it is left out. -/
def next (r : Value) (step : Value → Action ω Value) : Action ω Value := do
  if ← Action.ofExcept (isFailure r) then pure r else step r

/-- The last step of a chain, taken in any case. -/
def finish (r : Value) (step : Value → Action ω Value) : Action ω Value := do
  let _ ← Action.ofExcept (isFailure r)
  step r

def getOrNull : Value → Except Cause Value
  | .success v => .ok v
  | .failure _ => .ok .null
  | r => .error (neither r)

/-- The value of a success. What went wrong is raised, if it is a fault. -/
def getOrRaise (r : Value) : Action ω Value :=
  match r with
  | .success v => pure v
  | .failure v => Action.raiseValue v
  | r => Action.raise (neither r)

/-- What went wrong, if something did. -/
def errorOrNull : Value → Except Cause Value
  | .success _ => .ok .null
  | .failure v => .ok v
  | r => .error (neither r)

end Deli.Outcome
