import Deli.Session.Call

/-! Attributes written. Sandwiches, technologies and outcomes are frozen, a configuration has its
fields and no others, and plain data have nothing to write to; all else takes whatever is written.
Hidden names can be written to in frozen forms as well. One of them stands for all the fields of a
form at once, and what is written there is not checked. -/

namespace Deli.Session

/-- What stands against writing the attribute of a frozen form. -/
def frozenField (form : Form) (name : String) : Cause :=
  .invalid form [.atField name .frozen]

/-- What stands against writing an attribute that a configuration does not have. -/
def noField (name : String) : Cause :=
  .plain .value
    (Text.withQuotes Form.config.title ++ " object has no field " ++ Text.withQuotes name)

def writeAttribute (v : Value) (name : String) (new : Value) : Act Unit := do
  match Owner.of? v with
  | some owner => Act.modifyHeap (·.write owner name new)
  | none => Action.raise .noAttribute

/-- Members have a name and a word for good, and an operation its label too. -/
def writeMember (v : Value) (name : String) (new : Value) : Act Unit :=
  match v, name with
  | _, "name" | _, "value" | .operation _, "label" => Action.raise .noAttribute
  | _, _ => writeAttribute v name new

/-- What a fault was made with is always a tuple. -/
def writeFault (e : Fault) (name : String) (new : Value) : Act Unit := do
  match e.cause, name with
  | _, "args" => writeAttribute (.fault e) name (.tuple (← items apply new))
  | .invalid .., "title" => Action.raise .noAttribute
  | _, _ => writeAttribute (.fault e) name new

/-! ### All fields at once -/

/-- A finished sandwich stays on the body that it lies on, whatever becomes of the body. -/
def loosenOn (body : Handle) : Object × Nat → Act Unit
  | (.ready (.handle h) r, id) => do
    if h = body then
      let fields ← Act.allocate (.mapping
        [(.string "body", .handle body), (.string "top", .ofOption .bread r.top)])
      Act.replace (.handle ⟨.ready, id⟩) (.loose .ready fields)
  | _ => pure ()

/-- Puts the entries of a mapping in the place of all that a form has. -/
def refill (v : Value) (kind : Kind) (fields : Value) : Act Unit := do
  match v, ← Act.object? fields with
  | .handle h, some (.mapping _) => do
    let objects := (← Act.heap).objects
    objects.toList.zipIdx.forM (loosenOn h)
    Act.replace v (.loose kind fields)
    Act.modifyHeap (·.forget (.object h.id))
  | _, _ => Action.raise .misuse

/-- The form that an object is, if it is frozen. -/
def frozenForm? (o : Object) : Option Form :=
  match o.kind with
  | .body => some .body
  | .ready => some .ready
  | .technology => some .technology
  | _ => none

def writeFrozen (v : Value) (o : Object) (form : Form) (name : String) (new : Value) : Act Unit :=
  if name = allFields then refill v o.kind new
  else if isHidden name then
    match o with
    | .loose _ fields => setSubscript fields (.string name) new
    | _ => writeAttribute v name new
  else Action.raise (frozenField form name)

/-- Writes what is no field of an object that is not frozen. -/
def writeBeside (v : Value) (o : Object) (name : String) (new : Value) : Act Unit :=
  match o, name with
  | .config _, name =>
    if isHidden name then writeAttribute v name new else Action.raise (noField name)
  | .list _, _ | .mapping _, _ | .set _, _ | .callable (.method ..), _
  | .outcome, "is_success" | .outcome, "is_failure" => Action.raise .noAttribute
  | _, name => writeAttribute v name new

def writeObject (v : Value) (o : Object) (name : String) (new : Value) : Act Unit :=
  match o.withField? name new, frozenForm? o with
  | some o, _ => Act.replace v o
  | none, some form => writeFrozen v o form name new
  | none, none => writeBeside v o name new

/-- Nothing that is assigned is a class. -/
def setAttribute (v : Value) (name : String) (new : Value) : Act Unit := do
  match v, ← Act.object? v with
  | .success _, _ | .failure _, _ => Action.raise .frozen
  | v, object =>
    if name = ownClass then Action.raise .misuse
    else
      match v, object with
      | .bread _, _ | .component _, _ | .operation _, _ => writeMember v name new
      | .fault e, _ => writeFault e name new
      | v, some o => writeObject v o name new
      | _, none => Action.raise .noAttribute

end Deli.Session
