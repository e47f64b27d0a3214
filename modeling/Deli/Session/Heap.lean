import Deli.Config
import Deli.Recipe.Book
import Deli.Session.Method
import Deli.Session.Term
import Deli.Technology.Bindings

/-! The objects of a session. Lists, mappings and sandwiches are objects too, so that a change of
one shows wherever it is held. Objects, faults and the members of vocabularies take attributes
beyond those they have by themselves. -/

namespace Deli.Session

/-- A function, with what it holds on to. -/
inductive Callable where
  | built (i : Interpreter) (o : Operation)
  /-- The stocked technology over anything that can be asked for ingredients. -/
  | stockedFrom (storage : Value) (o : Operation)
  | forward (operation : String) (technology : Term)
  | raise (operation : String) (fault : Term)
  | fail (operation : String) (error : Term)
  | callback (f : Callback)
  | recipe (r : Recipe Term)
  /-- Makes an outcome of what it is given. -/
  | succeed
  | giveUp
  /-- A method together with the value it was taken from. -/
  | method (v : Value) (m : Method)
  /-- Adds a component to what it is given. -/
  | plus (component : Value)
  /-- Makes a finished sandwich of what it is given. -/
  | close (top : Value)
  /-- One step of a recipe: `technology` adds a component to what the function is given. -/
  | addNext (technology : Value) (component : Term)
  | finishWith (technology : Value) (top : Term)

/-- What a function is called. -/
def Callable.name : Callable → String
  | built .crazy .start => "_start"
  | built .crazy .add => "_add"
  | built .crazy .finish => "_finish"
  | built _ .start | stockedFrom _ .start => "start"
  | built _ .add | stockedFrom _ .add => "add"
  | built _ .finish | stockedFrom _ .finish => "finish"
  | forward .. | raise .. | fail .. | callback _ => "f"
  | recipe r => r.label
  | succeed => "success"
  | giveUp => "failure"
  | method _ m => m.name
  | plus _ | close _ | addNext .. | finishWith .. => "<lambda>"

inductive Object where
  | list (items : List Value)
  | mapping (entries : List (Value × Value))
  | set (items : List Value)
  | body (b : Body)
  /-- A finished sandwich, with the object that its body is. -/
  | ready (body : Value) (r : Ready)
  | bodyBuilder (b : BodyBuilder)
  | readyBuilder (b : ReadyBuilder)
  | technologyBuilder (b : Bindings)
  | technology (b : Bindings)
  | callable (c : Callable)
  | config (c : Config)
  /-- A recipe book, with the mapping that its recipes are in. -/
  | book (recipes : Value)
  | pantry (stock : Value)
  | kitchen (book technology : Value)
  | outcome
  /-- A frozen form that has the entries of a mapping in the place of its fields. -/
  | loose (kind : Kind) (fields : Value)

/-- Names that a form keeps out of its own affairs. -/
def isHidden (name : String) : Bool := name.toList.head? == some '_'

/-- The hidden name under which a form has all of its fields at once. -/
def allFields : String := "__dict__"

/-- The hidden name under which a value has its class. -/
def ownClass : String := "__class__"

namespace Object

def kind : Object → Kind
  | list _ => .list
  | mapping _ => .mapping
  | set _ => .set
  | body _ => .body
  | ready .. => .ready
  | bodyBuilder _ => .bodyBuilder
  | readyBuilder _ => .readyBuilder
  | technologyBuilder _ => .technologyBuilder
  | technology _ => .technology
  | callable _ => .callable
  | config _ => .config
  | book _ => .book
  | pantry _ => .pantry
  | kitchen .. => .kitchen
  | outcome => .outcome
  | loose kind _ => kind

/-- The fields of an object, in order. -/
def fields : Object → List (String × Value)
  | body b => [("bottom", .bread b.bottom), ("components", Value.componentsOf b)]
  | ready b r => [("body", b), ("top", .ofOption .bread r.top)]
  | bodyBuilder b => [("bottom", b.bottom), ("components", b.components)]
  | readyBuilder b => [("body", b.body), ("top", b.top)]
  | technologyBuilder b | technology b =>
    Vocabulary.members.map fun o => (Vocabulary.word o, b.get o)
  | config c =>
    [("interpreter", c.interpreter), ("recipe", c.recipe), ("pantry", c.pantry),
     ("fail_at", c.failAt)]
  | book recipes => [("_recipes", recipes)]
  | pantry stock => [("_stock", stock)]
  | kitchen b t => [("_book", b), ("_technology", t)]
  | _ => []

/-- The fields that an object shows of itself. -/
def shownFields (o : Object) : List (String × Value) :=
  o.fields.filter fun (name, _) => !isHidden name

/-- The object with one of its fields written, if it has such a field and lets it be written. -/
def withField? (o : Object) (name : String) (v : Value) : Option Object :=
  match o, name with
  | bodyBuilder b, "bottom" => some (.bodyBuilder { b with bottom := v })
  | bodyBuilder b, "components" => some (.bodyBuilder { b with components := v })
  | readyBuilder b, "body" => some (.readyBuilder { b with body := v })
  | readyBuilder b, "top" => some (.readyBuilder { b with top := v })
  | technologyBuilder b, name =>
    (Vocabulary.ofWord? name).map fun o => .technologyBuilder (b.set v o)
  | config c, "interpreter" => some (.config { c with interpreter := v })
  | config c, "recipe" => some (.config { c with recipe := v })
  | config c, "pantry" => some (.config { c with pantry := v })
  | config c, "fail_at" => some (.config { c with failAt := v })
  | book _, "_recipes" => some (.book v)
  | pantry _, "_stock" => some (.pantry v)
  | kitchen _ t, "_book" => some (.kitchen v t)
  | kitchen b _, "_technology" => some (.kitchen b v)
  | _, _ => none

end Object

/-- What attributes can be written to. -/
inductive Owner where
  | object (id : Nat)
  | fault (id : Nat)
  | member (word : String)
  deriving DecidableEq, Repr

def Owner.of? : Value → Option Owner
  | .bread b => some (.member (Vocabulary.word b))
  | .component c => some (.member (Vocabulary.word c))
  | .operation o => some (.member (Vocabulary.word o))
  | .fault e => some (.fault e.id)
  | .handle h => some (.object h.id)
  | _ => none

/-! The silent technology is made of functions that are there from the beginning. So are the two
recipes of the house and the two functions that make outcomes. -/

/-- The functions of a technology in the order of its operations. -/
def callables (f : Operation → Callable) : List Object :=
  Vocabulary.members.map fun o => .callable (f o)

def firstObjects : List Object :=
  callables (.built .crazy) ++ [Recipe.mine, Recipe.club].map (.callable <| .recipe <| ·.map .value)
    ++ [.callable .succeed, .callable .giveUp]

/-- A technology bound to the functions under the numbers from `n` on. -/
def consecutive (n : Nat) : Bindings :=
  ⟨.handle ⟨.callable, n⟩, .handle ⟨.callable, n + 1⟩, .handle ⟨.callable, n + 2⟩⟩

def crazyBindings : Bindings := consecutive 0

def mineHandle : Value := .handle ⟨.callable, 3⟩

def clubHandle : Value := .handle ⟨.callable, 4⟩

def succeedHandle : Value := .handle ⟨.callable, 5⟩

def giveUpHandle : Value := .handle ⟨.callable, 6⟩

structure Heap where
  /-- All objects there are, each under the number that its handle carries. -/
  objects : Array Object
  /-- Of two entries for one attribute the first one counts. -/
  attributes : List ((Owner × String) × Value)

namespace Heap

/-- The object that a value names, if it names one. -/
def object? (heap : Heap) : Value → Option Object
  | .handle h => heap.objects[h.id]?
  | _ => none

/-- The attribute of a value, if it has been written. -/
def written? (heap : Heap) (v : Value) (name : String) : Option Value :=
  (Owner.of? v).bind fun owner => heap.attributes.lookup (owner, name)

def write (heap : Heap) (owner : Owner) (name : String) (v : Value) : Heap :=
  { heap with attributes := ((owner, name), v) :: heap.attributes }

/-- Leaves nothing of what has been written to an owner. -/
def forget (heap : Heap) (owner : Owner) : Heap :=
  { heap with attributes := heap.attributes.filter fun ((o, _), _) => o ≠ owner }

/-- A collection or a sandwich with its content in place. -/
def shallow (heap : Heap) (v : Value) : Value :=
  match heap.object? v with
  | some (.list items) => .list items
  | some (.mapping entries) => .mapping entries
  | some (.set items) => .tuple items
  | some (.body b) => .body b
  | some (.ready _ r) => .ready r
  | _ => v

/-- The same as far down as `depth` collections inside of each other. -/
def opened (heap : Heap) : Nat → Value → Value
  | 0, v => v
  | depth + 1, v =>
    match heap.shallow v with
    | .list items => .list (items.map (opened heap depth))
    | .tuple items => .tuple (items.map (opened heap depth))
    | .mapping entries => .mapping (entries.map fun (k, v) => (k, opened heap depth v))
    | v => v

/-- The entries of a mapping; there are none in anything else. -/
def entries (heap : Heap) (v : Value) : List (Value × Value) :=
  match heap.object? v with
  | some (.mapping entries) => entries
  | _ => []

/-- What there is to go through one by one. Forms give their fields. -/
def items? (heap : Heap) (v : Value) : Option (List Value) :=
  match heap.object? v with
  | some (.list items) | some (.set items) => some items
  | some (.mapping entries) => some (entries.map Prod.fst)
  | some (.loose _ fields) =>
    let shown := (heap.entries fields).filter fun (k, _) => !k.word?.any isHidden
    some (shown.map fun (k, v) => .tuple [k, v])
  | some o =>
    if o.kind ∈ [.body, .ready, .technology, .config] then
      some (o.fields.map fun (name, v) => .named name v)
    else none
  | none => v.items?

end Heap

end Deli.Session
