import Deli.Session.View

/-! The state of a session: values under names, the objects that those values may share, and a
note of every call that a function of the session got. -/

namespace Deli.Session

inductive Subject where
  | argument (x : Value)
  | operation (name : String) (x y : Value)

/-- A call, together with the objects as they were when it came. -/
structure Call where
  subject : Subject
  heap : Heap

structure State where
  /-- Of two entries of one name the first one counts. -/
  registers : List (String × Value)
  heap : Heap
  /-- Latest first. -/
  calls : List Call
  terminal : Terminal

abbrev Act (α : Type) := Action State α

/-- What is found in a value under a name. -/
inductive Bound where
  | value (w : Value)
  | method (v : Value) (m : Method)

instance : HasTerminal State := ⟨State.terminal⟩

def State.initial : State := ⟨[], ⟨firstObjects.toArray, []⟩, [], .patient⟩

namespace Act

def state : Act State := do pure (← get).rest

def modifyState (f : State → State) : Act Unit := modify fun w => { w with rest := f w.rest }

def heap : Act Heap := do pure (← state).heap

def modifyHeap (f : Heap → Heap) : Act Unit := modifyState fun s => { s with heap := f s.heap }

def modifyObjects (f : Array Object → Array Object) : Act Unit :=
  modifyHeap fun heap => { heap with objects := f heap.objects }

/-- Something that only looks at the objects. -/
def seen {α : Type} (look : Heap → Except Cause α) : Act α := do
  Action.ofExcept (look (← heap))

def object? (v : Value) : Act (Option Object) := do pure ((← heap).object? v)

def allocate (o : Object) : Act Value := do
  let id := (← heap).objects.size
  modifyObjects (·.push o)
  pure (.handle ⟨o.kind, id⟩)

/-- Puts an object in the place of the one that a value names. -/
def replace (v : Value) (o : Object) : Act Unit :=
  match v with
  | .handle h => modifyObjects (·.setIfInBounds h.id o)
  | _ => pure ()

/-- A value with its collections in place, as deep as any form looks into one. -/
def opened (v : Value) : Act Value := seen fun heap => pure (heap.opened 3 v)

def note (subject : Subject) : Act Unit :=
  modifyState fun s => { s with calls := ⟨subject, s.heap⟩ :: s.calls }

def register (name : String) : Act Value := do
  match (← state).registers.lookup name with
  | some v => pure v
  | none => Action.raise (.noRegister name)

def setRegister (name : String) (v : Value) : Act Unit :=
  modifyState fun s => { s with registers := (name, v) :: s.registers }

/-- The text of a value, as a value. Text is its own text. -/
def textOf (v : Value) : Act Value :=
  match v with
  | .broken codes => pure (.broken codes)
  | v => do pure (.string (← seen (·.text v)))

/-- A technology whose operations are those of `f`. -/
def allocateTechnology (f : Operation → Callable) : Act Value := do
  let n := (← heap).objects.size
  modifyObjects (· ++ (callables f).toArray)
  allocate (.technology (consecutive n))

def allocateInterpreter : Interpreter → Act Value
  | .crazy => allocate (.technology crazyBindings)
  | i => allocateTechnology (.built i)

/-- A finished sandwich on `body`, which stays the object it is if it is a body by now. -/
def allocateReady (body : Value) (r : Ready) : Act Value := do
  let body ← match body with
    | .handle ⟨.body, _⟩ => pure body
    | _ => allocate (.body r.body)
  allocate (.ready body r)

/-- A configuration whose stock is a list of its own. -/
def allocateConfig (c : Config) : Act Value := do
  let pantry ← match c.pantry with
    | .list items => allocate (.list items)
    | v => pure v
  allocate (.config { c with pantry })

/-- A builder whose components are a list of its own. -/
def allocateBodyBuilder (b : BodyBuilder) : Act Value := do
  let components ← match b.components with
    | .list items => allocate (.list items)
    | v => pure v
  allocate (.bodyBuilder { b with components })

/-- A book whose recipes are in a mapping of its own. -/
def allocateBook (b : Book Value) : Act Value := do
  let entry | (name, recipe) => (Value.string name, Option.getD recipe .null)
  allocate (.book (← allocate (.mapping (b.entries.map entry))))

def find (v : Value) (name : String) : Act Bound := do
  match (← heap).attribute? v name, Method.named? v name with
  | some f, _ => pure (.value f)
  | none, some m => pure (.method v m)
  | none, none => Action.raise .noAttribute

/-- A method that is not called at once is a function of its own. -/
def getAttribute (v : Value) (name : String) : Act Value := do
  match ← find v name with
  | .value w => pure w
  | .method v m => allocate (.callable (.method v m))

/-- Whether what a value has under a name counts as present. -/
def hasPresent (v : Value) (name : String) : Act Bool := do
  let w ← getAttribute v name
  seen (·.isPresent w)

end Act

instance : Scene State where
  text v := Act.seen (·.text v)
  isPresent v := Act.seen (·.isPresent v)
  same v w := Act.seen (·.same v w)
  name? v := do
    match (← Act.heap).attribute? v "name" with
    | some name => some <$> Act.seen (·.text name)
    | none => pure none
  isFailure v := Act.hasPresent v "is_failure"
  isSuccess v := Act.hasPresent v "is_success"

end Deli.Session
