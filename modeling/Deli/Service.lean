import Deli.Config.Load
import Deli.Kitchen

/-! One service: the configuration is loaded, its recipe is cooked once, and the outcome is
reported. -/

namespace Deli

/-- What is left when the service is over. -/
structure Report where
  exitCode : Nat
  /-- What is written to the standard output beside the lines of the console, and after them: the
  terminal that shows those writes to the standard output as well. -/
  output : String
  deriving DecidableEq, Repr

namespace Service

variable {ω : Type} [Scene ω] [HasTerminal ω]

/-- The faults that close the kitchen in good order; any other is not dealt with here. -/
def isHalt : Cause → Bool
  | .configuration .. | .recipe .. => true
  | _ => false

def cook (c : Config) : Action ω Value := do
  let kitchen ← Kitchen.ofConfig c
  kitchen.cook c.recipe

def halt (e : Fault) : Action ω Report := do
  Action.tell (.panel ("[bold red]" ++ e.cause.message ++ "[/bold red]") "KITCHEN HALT" "red")
  pure ⟨1, ""⟩

/-- The exit code is zero only for a success. -/
def report (result : Value) : Action ω Report := do
  let ok ← Scene.isSuccess result
  pure ⟨if ok then 0 else 1, "sandwich: " ++ (← Scene.text result) ++ "\n"⟩

/-- What is made, or the fault that closes the kitchen. -/
def orHalt {α : Type} (a : Action ω α) : Action ω (Except Fault α) :=
  tryCatch (.ok <$> a) fun e => if isHalt e.cause then pure (.error e) else throw e

/-- Cooks once with a configuration, and reports. -/
def serve (c : Config) : Action ω Report := do
  Action.tell (.text ("[bold green]SANDWICH KITCHEN ONLINE.[/bold green] Interpreter: "
    ++ (← Scene.text c.interpreter)))
  match ← orHalt (cook c) with
  | .ok result => report result
  | .error e => halt e

def run (docs : Documents) (env : Environment) : Action ω Report := do
  serve (← Config.load docs env none)

end Service

end Deli
