import Deli.Outcome

/-! A technology carries out the three operations. What it does beyond the sandwich itself is
its own affair: it may print, refuse, keep accounts or raise faults. -/

namespace Deli

structure Technology (ω : Type) where
  /-- A bottom bread and the first component on it. -/
  start : Value → Value → Action ω Value
  /-- One more component on the outcome so far. -/
  add : Value → Value → Action ω Value
  /-- The outcome so far closed with a top, or left open. -/
  finish : Value → Value → Action ω Value

namespace Technology

variable {ω : Type}

def run (t : Technology ω) : Operation → Value → Value → Action ω Value
  | .start => t.start
  | .add => t.add
  | .finish => t.finish

end Technology

end Deli
