import Deli.Recipe

/-! What the steps of a session are written with. A term stands for a value; it is worked out
anew every time it is used, and a fault written as a term is a new fault every time. -/

namespace Deli.Session

mutual

inductive Term where
  | value (v : Value)
  | list (items : List Term)
  | mapping (entries : List (String × Term))
  | register (name : String)
  | fault (e : FaultTerm)
  | recipe (r : RecipeTerm)

inductive FaultTerm where
  | plain (kind : Plain) (message : String)
  | construction (message field : String)
  | configuration (message key : String)
  | recipe (message : String) (asked : Value)
  | storage (message : String) (ingredient : Term)
  | notFound (ingredient : Term)

inductive RecipeTerm where
  | mine
  | club
  /-- No recipe at all. -/
  | absent
  /-- A new recipe; what is in it is worked out when it is cooked. -/
  | steps (r : Recipe Term)

end

/-- A function of one argument. -/
inductive Callback where
  | identity
  | const (t : Term)
  | raise (fault : Term)
  | text
  | plus (t : Term)
  | get (field : String)
  | succeed (t : Term)
  | fail (error : Term)
  /-- Applies another callback under guard to an outcome. -/
  | map (f : Callback)
  /-- One operation of a technology, on the argument and on another value. -/
  | call (technology : Term) (method : String) (t : Term)

/-- What an operation is bound to. -/
inductive BindingTerm where
  | unbound
  | value (t : Term)
  /-- The same operation of another technology, which is looked up at every call. -/
  | forward (technology : Term)
  | raise (fault : Term)
  | fail (error : Term)

end Deli.Session
