/-! A vocabulary is a closed list of members. Every member has a name, for people,
and a word, under which it is written down and read back. -/

namespace Deli

class Vocabulary (α : Type) where
  /-- What the members are called together. -/
  title : String
  members : List α
  name : α → String
  word : α → String

namespace Vocabulary

variable {α : Type} [Vocabulary α]

/-- The member that is written as `s`, exactly. -/
def ofWord? (s : String) : Option α := members.find? fun a => word a == s

/-- The member that is named `s`. -/
def ofName? (s : String) : Option α := members.find? fun a => name a == s

def words (α : Type) [Vocabulary α] : List String := (members : List α).map word

/-- A member in running text: the title and the name. -/
def text (a : α) : String := title α ++ "." ++ name a

end Vocabulary

end Deli
