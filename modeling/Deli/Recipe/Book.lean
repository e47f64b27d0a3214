import Deli.Recipe
import Deli.Scene

/-! Recipes by name. Names keep the order in which they were first registered; registering a
name again replaces its recipe and nothing else. -/

namespace Deli

/-- Each name stands once. A name may be registered without a recipe. -/
structure Book (α : Type) where
  entries : List (String × Option α)

namespace Book

variable {α ω : Type}

def empty : Book α := ⟨[]⟩

def names (b : Book α) : List String := b.entries.map Prod.fst

def size (b : Book α) : Nat := b.entries.length

/-- The entries with `name` set to `recipe`, in its old place if it has one. -/
def setEntry (name : String) (recipe : Option α) :
    List (String × Option α) → List (String × Option α)
  | [] => [(name, recipe)]
  | (n, r) :: rest =>
    if n == name then (n, recipe) :: rest else (n, r) :: setEntry name recipe rest

def insert (b : Book α) (name : String) (recipe : Option α) : Book α :=
  ⟨setEntry name recipe b.entries⟩

def get? (b : Book α) (name : String) : Option α := (b.entries.lookup name).join

def first? (b : Book α) : Option α := b.entries.head?.bind Prod.snd

section Register

variable [HasTerminal ω]

def tellRegistered (name : String) : Action ω Unit :=
  Action.tell (.text ("[green][RECIPES] Registered: " ++ name ++ "[/green]"))

def register (b : Book α) (name : String) (recipe : Option α) : Action ω (Book α) := do
  tellRegistered name
  pure (b.insert name recipe)

/-- The book that every kitchen starts with, made of the two recipes of the house. -/
def standard : Action ω (Book (Recipe Value)) := do
  let b ← (empty : Book (Recipe Value)).register Recipe.mine.label (some Recipe.mine)
  b.register Recipe.club.label (some Recipe.club)

end Register

/-! Selecting works with anything that has a first recipe and recipes by name. -/

/-- The recipe asked for: the first one when nothing is asked for by name. -/
def find? (first : Action ω (Option α)) (get : Value → Action ω (Option α)) (asked : Value) :
    Action ω (Option α) :=
  match asked with
  | .null => first
  | asked => get asked

/-- The recipe asked for, or a fault that tells what was asked for. -/
def selectFrom [Scene ω] [HasTerminal ω] (first : Action ω (Option α)) (get : Value → Action ω (Option α))
    (asked : Value) : Action ω α := do
  match ← find? first get asked with
  | some recipe => pure recipe
  | none =>
    let isNamed ← Scene.isPresent asked
    let name ← Scene.text asked
    let shown := if isNamed then name else "<first>"
    Action.tell (.text ("[red][RECIPES] No recipe to select: " ++ shown ++ "[/red]"))
    let message := if isNamed then "Recipe not found: " ++ name else "Recipe book is empty"
    Action.raise (.recipe message asked)

/-- The recipe under the text that a value is. -/
def getNamed (b : Book α) (asked : Value) : Action ω (Option α) :=
  if asked.isKey then pure (asked.word?.bind b.get?) else Action.raise .misuse

def select [Scene ω] [HasTerminal ω] (b : Book α) (asked : Value) : Action ω α :=
  selectFrom (pure b.first?) b.getNamed asked

end Book

end Deli
