import Deli.Checked

/-! Sandwiches from fields of any kind. -/

namespace Deli

namespace Body

/-- A body with these fields; a field that is not there is a problem of its own. -/
def check (bottom components : Option Value) : Checked Body :=
  (Checked.both (Checked.required "bottom" (Checked.member Bread "bottom") bottom)
    (Checked.required "components" (Checked.members Component "components") components)).map
    fun (b, cs) => ⟨b, cs⟩

/-- A body from the entries of a mapping. Entries of other names are passed over. -/
def ofEntries (entries : List (Value × Value)) : Checked Body :=
  check (Value.entry? entries "bottom") (Value.entry? entries "components")

/-- A body held by another form in the field `name`: one that is there, or its fields. -/
def nested (name : String) : Value → Checked Body
  | .body b => .ok b
  | .mapping entries => (ofEntries entries).mapError (·.map (Problem.within name))
  | _ => .error [.atField name .notBody]

end Body

namespace Ready

def check (body top : Option Value) : Checked Ready :=
  (Checked.both (Checked.required "body" (Body.nested "body") body)
    (Checked.optional none (Checked.memberOrNull Bread "top") top)).map
    fun (b, t) => ⟨b, t⟩

def ofEntries (entries : List (Value × Value)) : Checked Ready :=
  check (Value.entry? entries "body") (Value.entry? entries "top")

end Ready

end Deli
