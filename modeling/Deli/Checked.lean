import Deli.Value

/-! Checks of single fields. A check reads a value or lists everything that is wrong with it;
checks of several fields list their problems one after the other. -/

namespace Deli

abbrev Checked (α : Type) := Except (List Problem) α

namespace Checked

variable {α β : Type}

def problems : Checked α → List Problem
  | .ok _ => []
  | .error ps => ps

/-- Both results, or the problems of both in order. -/
def both : Checked α → Checked β → Checked (α × β)
  | .ok a, .ok b => .ok (a, b)
  | a, b => .error (a.problems ++ b.problems)

/-- A field that has to be there. -/
def required (name : String) (check : Value → Checked α) : Option Value → Checked α
  | none => .error [.atField name .missing]
  | some v => check v

/-- A field that may be left out. -/
def optional (fallback : α) (check : Value → Checked α) : Option Value → Checked α
  | none => .ok fallback
  | some v => check v

/-- What is wrong with a value that should be a member of a vocabulary, or its word. -/
def complaint? (α : Type) [Vocabulary α] (v : Value) : Option Complaint :=
  match v.member? α, v with
  | some _, _ => none
  | none, .broken _ => some .notUnicode
  | none, _ => some (.notAmong (Vocabulary.words α))

/-- A member of a vocabulary, or its word. -/
def member (α : Type) [Vocabulary α] (name : String) (v : Value) : Checked α :=
  match v.member? α with
  | some a => .ok a
  | none => .error ((complaint? α v).toList.map (.atField name))

/-- As `member`, but nothing is fine too. -/
def memberOrNull (α : Type) [Vocabulary α] (name : String) : Value → Checked (Option α)
  | .null => .ok none
  | v => (member α name v).map some

/-- The items of the field `name` that are no members, each with its position. -/
def strayItems (α : Type) [Vocabulary α] (name : String) (items : List Value) : List Problem :=
  items.zipIdx.filterMap fun (v, i) =>
    (complaint? α v).map fun c => ⟨[.field name, .item i], c⟩

/-- Members in a row, at least one of them. -/
def members (α : Type) [Vocabulary α] (name : String) : Value → Checked (List α)
  | .list items | .tuple items =>
    let found := items.filterMap (·.member? α)
    let short := if found.isEmpty then [Problem.atField name .tooShort] else []
    match strayItems α name items ++ short with
    | [] => .ok found
    | ps => .error ps
  | _ => .error [.atField name .notTuple]

/-- Text of any kind. A member of a vocabulary is kept as its word. -/
def text (name : String) (v : Value) : Checked Value :=
  match v.spelled?, v with
  | some s, _ => .ok (.string s)
  | none, .broken codes => .ok (.broken codes)
  | none, .bytes _ => .error [.atField name .notUnicode]
  | none, _ => .error [.atField name .notString]

def textOrNull (name : String) : Value → Checked Value
  | .null => .ok .null
  | v => text name v

end Checked

end Deli
