import Deli.Ingredient

/-! A sandwich in the making and a finished one. -/

namespace Deli

/-- A bottom bread and what lies on it, in the order it was put there. -/
structure Body where
  bottom : Bread
  components : List Component
  deriving DecidableEq, Repr

structure Ready where
  body : Body
  top : Option Bread
  deriving DecidableEq, Repr

namespace Body

/-- Something lies on the bread. -/
def Filled (b : Body) : Prop := b.components ≠ []

instance (b : Body) : Decidable b.Filled := inferInstanceAs (Decidable (b.components ≠ []))

def text (b : Body) : String :=
  "SandwichBody(bottom=" ++ Vocabulary.name b.bottom ++ ", components=["
    ++ ", ".intercalate (b.components.map Vocabulary.name) ++ "])"

end Body

namespace Ready

def bottom (r : Ready) : Bread := r.body.bottom

def components (r : Ready) : List Component := r.body.components

def text (r : Ready) : String :=
  "SandwichReady(body=" ++ r.body.text ++ ", top="
    ++ (r.top.map Vocabulary.name).getD "None" ++ ")"

end Ready

end Deli
