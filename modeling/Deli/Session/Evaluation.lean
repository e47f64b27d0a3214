import Deli.Session.State

/-! What terms stand for. -/

namespace Deli.Session

mutual

def Term.eval : Term → Act Value
  | .value v => pure v
  | .list items => do Act.allocate (.list (← evalAll items))
  | .mapping entries => do Act.allocate (.mapping (← evalEntries entries))
  | .register name => Act.register name
  | .fault e => do pure (.fault (← Action.newFault (← e.eval)))
  | .recipe r => r.eval

def evalAll : List Term → Act (List Value)
  | [] => pure []
  | t :: rest => do
    let v ← t.eval
    pure (v :: (← evalAll rest))

def evalEntries : List (String × Term) → Act (List (Value × Value))
  | [] => pure []
  | (name, t) :: rest => do
    let v ← t.eval
    pure ((.string name, v) :: (← evalEntries rest))

def FaultTerm.eval : FaultTerm → Act Cause
  | .plain kind message => pure (.plain kind message)
  | .construction message field => pure (.construction message field)
  | .configuration message key => pure (.configuration message key)
  | .recipe message asked => pure (.recipe message asked)
  | .storage message ingredient => do pure (.storage message (← ingredient.eval))
  | .notFound ingredient => do
    let v ← ingredient.eval
    pure (.notFound (← Scene.nameOf v) v)

def RecipeTerm.eval : RecipeTerm → Act Value
  | .mine => pure mineHandle
  | .club => pure clubHandle
  | .absent => pure .null
  | .steps r => Act.allocate (.callable (.recipe r))

end

/-- The value of a term that may be left out. -/
def evalOr (fallback : Value) : Option Term → Act Value
  | some t => t.eval
  | none => pure fallback

/-- What a binding under a name is: nothing, a value that cannot be called, or a new function. -/
def BindingTerm.eval (name : String) : BindingTerm → Act Value
  | .unbound => pure .null
  | .value t => t.eval
  | .forward technology => Act.allocate (.callable (.forward name technology))
  | .raise fault => Act.allocate (.callable (.raise name fault))
  | .fail error => Act.allocate (.callable (.fail name error))

/-- What names are bound to, as far as it is said. -/
abbrev BindingTerms := List (String × BindingTerm)

def evalBindings : BindingTerms → Act (List (String × Value))
  | [] => pure []
  | (name, t) :: rest => do
    let v ← t.eval name
    pure ((name, v) :: (← evalBindings rest))

end Deli.Session
