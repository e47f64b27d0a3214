import Deli.Vocabulary

/-! What a sandwich is made of. The two vocabularies share no word, so an ingredient is
known by its word alone. -/

namespace Deli

inductive Bread where
  | baguette | toast
  deriving DecidableEq, Repr

inductive Component where
  | salt | tomato | cheese
  deriving DecidableEq, Repr

instance : Vocabulary Bread where
  title := "Bread"
  members := [.baguette, .toast]
  name | .baguette => "BAGUETTE" | .toast => "TOAST"
  word | .baguette => "baguette" | .toast => "toast"

instance : Vocabulary Component where
  title := "Component"
  members := [.salt, .tomato, .cheese]
  name | .salt => "SALT" | .tomato => "TOMATO" | .cheese => "CHEESE"
  word | .salt => "salt" | .tomato => "tomato" | .cheese => "cheese"

inductive Ingredient where
  | bread (b : Bread)
  | component (c : Component)
  deriving DecidableEq, Repr

namespace Ingredient

def name : Ingredient → String
  | bread b => Vocabulary.name b
  | component c => Vocabulary.name c

def word : Ingredient → String
  | bread b => Vocabulary.word b
  | component c => Vocabulary.word c

/-- Breads first, then components. -/
def all : List Ingredient :=
  (Vocabulary.members : List Bread).map bread ++ (Vocabulary.members : List Component).map component

def ofWord? (s : String) : Option Ingredient :=
  (Vocabulary.ofWord? s).map bread <|> (Vocabulary.ofWord? s).map component

end Ingredient

end Deli
