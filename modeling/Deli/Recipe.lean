import Deli.Technology

/-! Recipes are written against the three operations alone, so they run on any technology. -/

namespace Deli

/-- One component on a bread, more components one by one, then a top. What they are is written
with `τ`. -/
structure Recipe (τ : Type) where
  label : String
  bottom : τ
  first : τ
  adds : List τ
  top : τ

namespace Recipe

variable {τ ω : Type}

/-- The same recipe in another writing. -/
def map {σ : Type} (f : τ → σ) (r : Recipe τ) : Recipe σ :=
  ⟨r.label, f r.bottom, f r.first, r.adds.map f, f r.top⟩

/-- A recipe step by step: what it starts with, what comes next on the outcome so far, and what
finishes it. -/
def follow (r : Recipe τ) (start : τ → τ → Action ω Value) (next : Value → τ → Action ω Value)
    (finish : Value → τ → Action ω Value) : Action ω Value := do
  let first ← start r.bottom r.first
  finish (← r.adds.foldlM next first) r.top

/-- One more component, unless something has failed. -/
def addNext (t : Technology ω) (r component : Value) : Action ω Value :=
  Outcome.next r fun r => t.add r component

def finishWith (t : Technology ω) (r top : Value) : Action ω Value :=
  Outcome.finish r fun r => t.finish r top

/-- Runs a recipe on a technology. -/
def run (recipe : Recipe Value) (t : Technology ω) : Action ω Value :=
  recipe.follow t.start (addNext t) (finishWith t)

/-- Toast, tomato, cheese and salt, and no top. -/
def mine : Recipe Value where
  label := "my_recipe"
  bottom := .bread .toast
  first := .component .tomato
  adds := [.component .cheese, .component .salt]
  top := .null

/-- Cheese and tomato between two baguettes. -/
def club : Recipe Value where
  label := "club_recipe"
  bottom := .bread .baguette
  first := .component .cheese
  adds := [.component .tomato]
  top := .bread .baguette

end Recipe

end Deli
