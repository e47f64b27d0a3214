import Deli.Vocabulary

/-! The three steps of making a sandwich, in the order in which they are bound. -/

namespace Deli

inductive Operation where
  | start | add | finish
  deriving DecidableEq, Repr

instance : Vocabulary Operation where
  title := "Op"
  members := [.start, .add, .finish]
  name
    | .start => "START_NEW_SANDWICH"
    | .add => "ADD_COMPONENT"
    | .finish => "FINISH_SANDWICH"
  word
    | .start => "start_new_sandwich"
    | .add => "add_component"
    | .finish => "finish_sandwich"

/-- The words of the step run together, as the kitchen log shows them. -/
def Operation.label : Operation → String
  | start => "Op.StartNewSandwich"
  | add => "Op.AddComponent"
  | finish => "Op.FinishSandwich"

end Deli
