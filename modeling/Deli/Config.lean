import Deli.Checked
import Deli.Interpreter

/-! The configuration of a kitchen. Its fields are checked when it is made; what is assigned to
them later is not. -/

namespace Deli

structure Config where
  /-- The name of the technology to cook with. -/
  interpreter : Value
  /-- The name of the recipe to cook, or nothing for the first in the book. -/
  recipe : Value
  /-- What is in stock, for the stocked technology. -/
  pantry : Value
  /-- The operation at which the faulty technology gives up. -/
  failAt : Value

namespace Config

def ofIngredients (items : List Ingredient) : Value := .list (items.map .ofIngredient)

/-- The ingredient that a field takes a value for. -/
def ingredient? (v : Value) : Option Ingredient := v.spelled?.bind Ingredient.ofWord?

/-- An item that is no ingredient is neither a bread nor a component, and is reported as both. -/
def strayIngredients (items : List Value) : List Problem :=
  items.zipIdx.flatMap fun (v, i) =>
    let stray (α : Type) [Vocabulary α] : Option Problem :=
      (Checked.complaint? α v).map fun c =>
        ⟨[.field "pantry", .item i, .field ("str-enum[" ++ Vocabulary.title α ++ "]")], c⟩
    if (ingredient? v).isSome then [] else (stray Bread).toList ++ (stray Component).toList

def checkPantry : Value → Checked (List Ingredient)
  | .list items | .tuple items =>
    match strayIngredients items with
    | [] => .ok (items.filterMap ingredient?)
    | ps => .error ps
  | _ => .error [.atField "pantry" .notList]

/-- A configuration from fields that may each be left out. -/
def check (interpreter recipe pantry failAt : Option Value) : Checked Config :=
  (Checked.both
    (Checked.both
      (Checked.optional (.string "real") (Checked.text "interpreter") interpreter)
      (Checked.optional .null (Checked.textOrNull "recipe") recipe))
    (Checked.both
      (Checked.optional Ingredient.all checkPantry pantry)
      (Checked.optional Operation.add (Checked.member Operation "fail_at") failAt))).map
    fun ((i, r), (p, f)) => ⟨i, r, ofIngredients p, .operation f⟩

def ofEntries (entries : List (Value × Value)) : Except Cause Config :=
  (check (Value.entry? entries "interpreter") (Value.entry? entries "recipe")
    (Value.entry? entries "pantry") (Value.entry? entries "fail_at")).mapError (.invalid .config)

/-- A configuration from a mapping all of whose keys are texts. -/
def ofData : Value → Except Cause Config
  | .mapping entries =>
    if entries.all fun (k, _) => k.isText then ofEntries entries else .error .misuse
  | _ => .error .misuse

/-- The stock that a configuration asks for. -/
def stock (c : Config) : Except Cause Pantry :=
  match c.pantry.items? with
  | some items => Pantry.ofItems items
  | none => .error .misuse

/-- The technology that a configuration names, with the part of the configuration it needs. -/
def toInterpreter {ω : Type} [Scene ω] [HasTerminal ω] (c : Config) : Action ω Interpreter :=
  Interpreter.choose c.interpreter (Action.ofExcept c.stock) (pure c.failAt)

end Config

end Deli
