import Deli.Config
import Deli.Recipe.Book

/-! A kitchen has a recipe book and a technology to cook with. -/

namespace Deli

variable {α ω : Type} [Scene ω] [HasTerminal ω]

/-- Selects a recipe, says so, runs it, and says what came of it. The recipe is announced by
the name that was asked for or else by the name that `first` comes up with, and what went wrong is
told by `error`. -/
def Book.cookFrom (select : Value → Action ω α) (first : Action ω String)
    (run : α → Action ω Value) (error : Value → Action ω Value) (asked : Value) :
    Action ω Value := do
  let recipe ← select asked
  let name ← if ← Scene.isPresent asked then Scene.text asked else first
  Action.tell (.text ("[cyan][KITCHEN] Cooking: " ++ name ++ "[/cyan]"))
  let result ← run recipe
  if ← Scene.isSuccess result then Action.print "[green][KITCHEN] Sandwich ready[/green]"
  else
    let text ← Scene.text (← error result)
    Action.tell (.text ("[red][KITCHEN] Sandwich failed: " ++ text ++ "[/red]"))
  pure result

def Book.cook (b : Book α) (run : α → Action ω Value) (asked : Value) : Action ω Value :=
  Book.cookFrom b.select (pure (b.names.headD "")) run
    (fun r => Action.ofExcept (Outcome.errorOrNull r)) asked

structure Kitchen (ω : Type) where
  book : Book (Recipe Value)
  technology : Technology ω

namespace Kitchen

/-- The technology is chosen before the book is made. -/
def ofConfig (c : Config) : Action ω (Kitchen ω) := do
  let interpreter ← c.toInterpreter
  pure ⟨← Book.standard, interpreter.technology⟩

def cook (k : Kitchen ω) (asked : Value) : Action ω Value :=
  k.book.cook (·.run k.technology) asked

end Kitchen

end Deli
