import Deli.Config
import Deli.Name

/-! Where a configuration comes from: a document, found by its path, and the environment, which
may name the document and overrides two of the fields. What the paths lead to, and how a document is
read, are parameters. -/

namespace Deli

/-- What a path leads to. -/
inductive Entry where
  | absent
  | directory
  /-- No file can have a name as long as this. -/
  | unnamable
  | file (text : String)
  deriving DecidableEq, Repr

/-- The variables that the kitchen looks at. Empty ones count as unset. -/
structure Environment where
  config : Option Name
  interpreter : Option Name
  recipe : Option Name
  deriving DecidableEq

/-- The documents at hand, and how they are read. -/
structure Documents where
  look : Name → Entry
  read : String → Except Cause Value
  /-- The path that is taken when none is named. -/
  standard : Name

namespace Config

def given (setting : Option Name) : Option Name := setting.filter (· ≠ .whole "")

/-- Data with one field set, if there is something to set it to. -/
def override (key : String) (setting : Option Name) (data : Value) : Except Cause Value :=
  match setting, data with
  | none, data => .ok data
  | some n, .mapping entries => .ok (.mapping (Value.setEntry (.string key) n.value entries))
  | some _, _ => .error .misuse

/-- What is found under the path that is given, or else by the environment. -/
def source (docs : Documents) (env : Environment) (path : Option Name) : Entry :=
  docs.look ((path <|> given env.config).getD docs.standard)

/-- The data in a document; an empty one holds no fields. -/
def dataOf {ω : Type} (docs : Documents) : Entry → Action ω Value
  | .absent => do
    Action.print "[yellow][KITCHEN] Config file not found, using defaults[/yellow]"
    pure (.mapping [])
  | .directory => Action.raise .directory
  | .unnamable => Action.raise .unnamable
  | .file text => do
    let data ← Action.ofExcept (docs.read text)
    pure (if data.isPresent then data else .mapping [])

def load {ω : Type} (docs : Documents) (env : Environment) (path : Option Name) :
    Action ω Config := do
  let data ← dataOf docs (source docs env path)
  let data ← Action.ofExcept (override "interpreter" (given env.interpreter) data)
  let data ← Action.ofExcept (override "recipe" (given env.recipe) data)
  Action.ofExcept (ofData data)

end Config

end Deli
