import Deli.Scene

/-! What is in stock. The stock never changes; asking for something that is not there prints a
line and is answered with a failure. -/

namespace Deli

structure Pantry where
  stock : List Value

namespace Pantry

variable {ω : Type} [Scene ω]

def ofItems (items : List Value) : Except Cause Pantry :=
  if Value.allKeys items then .ok ⟨items⟩ else .error .misuse

def ofIngredients (items : List Ingredient) : Pantry := ⟨items.map .ofIngredient⟩

/-- How many different things are in stock. -/
def size (p : Pantry) : Nat := (Value.distinct p.stock).length

def holds (p : Pantry) (v : Value) : Action ω Bool :=
  if v.isKey then p.stock.anyM (Scene.same v) else Action.raise .misuse

/-- The failure to find an ingredient that goes by `name`. -/
def notFound {ω : Type} (name : String) (v : Value) : Action ω Value := do
  pure (.failure (.fault (← Action.newFault (.notFound name v))))

/-- The ingredient as it was asked for, if it is in stock. -/
def getFrom (holds : Value → Action ω Bool) (v : Value) : Action ω Value := do
  if ← holds v then pure (.success v)
  else
    let name ← Scene.nameOf v
    Action.print ("[yellow][PANTRY] Out of stock: " ++ name ++ "[/yellow]")
    notFound name v

def get (p : Pantry) : Value → Action ω Value := getFrom p.holds

end Pantry

end Deli
