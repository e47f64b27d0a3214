import Deli.Sandwich.Builder
import Deli.Scene

/-! Sums. A body takes a component, an outcome passes the sum on to what it carries, numbers
add up, and texts, data in bytes and lists are joined. -/

namespace Deli.Value

variable {ω : Type}

/-- A sum that goes down to what outcomes carry and is made there by `inner`. -/
def plusWith (inner : Value → Value → Action ω Value) : Value → Value → Action ω Value
  | success v, w => Outcome.guarded (plusWith inner v w)
  | failure v, _ => pure (failure v)
  | v, w => inner v w

def plus : Value → Value → Action ω Value :=
  plusWith fun v w => Action.ofExcept (match v with
    | body b => body <$> b.add w
    | handle ⟨.outcome, _⟩ => .error .unimplemented
    | v => v.join w)

end Deli.Value
