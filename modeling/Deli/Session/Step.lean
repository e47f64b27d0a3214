import Deli.Session.Assignment

/-! The steps of a session. A step is worked out on its own; what it results in can be kept
under a name for later steps, and one that raises a fault leaves the names as they are. -/

namespace Deli.Session

/-- What a method is called with: a value, or a function that is made for the call. -/
inductive Argument where
  | value (t : Term)
  | function (f : Callback)

inductive Step where
  | give (t : Term)
  | text (on : Term)
  | equal (a b : Term)
  | distinct (items : List Term)
  | length (on : Term)
  | get (on : Term) (field : String)
  | set (on : Term) (field : String) (t : Term)
  | newBody (fields : List (String × Term))
  | newReady (fields : List (String × Term))
  | bodyBuilder (bottom components : Option Term)
  | readyBuilder (body top : Option Term)
  | sandwichBody (bottom components : Option Term)
  | sandwichReady (body top : Option Term)
  | plus (on t : Term)
  | success (t : Term)
  | failure (error : Term)
  | outcome
  /-- Calls a method. -/
  | call (on : Term) (method : String) (arguments : List Argument)
  | interpreter (name : Style) (storage failAt : Option Term)
  | technology (bindings : BindingTerms)
  | technologyBuilder (bindings : BindingTerms)
  | newTechnology (bindings : BindingTerms)
  | bind (on : Term) (name : String) (binding : BindingTerm)
  | pantry (stock : Option Term)
  | item (on t : Term)
  | contains (on t : Term)
  | book
  | standardBook
  | select (on : Term) (name : Option Term)
  | runRecipe (recipe technology : Term)
  | config (fields : List (String × Term))
  /-- Puts one more thing into the stock of a configuration. -/
  | stock (on t : Term)
  | buildTechnology (config : Term)
  | kitchen (book technology : Option Term)
  | kitchenOfConfig (config : Term) (book : Option Term)

namespace Step

def evalArgument : Argument → Act Value
  | .value t => t.eval
  | .function f => Act.allocate (.callable (.callback f))

/-- Fields with their collections in place. -/
def openedEntries (entries : List (Value × Value)) : Act (List (Value × Value)) :=
  entries.mapM fun (name, v) => do pure (name, ← Act.opened v)

/-- Bindings with nothing where nothing is said. -/
def bindingsOf (bound : List (String × Value)) : Bindings :=
  let value o := (bound.lookup (Vocabulary.word o)).getD .null
  ⟨value Operation.start, value .add, value .finish⟩

/-- Bindings to operations only. -/
def evalOperations (bindings : BindingTerms) : Act Bindings := do
  let bound ← evalBindings bindings
  if bound.all fun (name, _) => (Vocabulary.ofWord? name : Option Operation).isSome then
    pure (bindingsOf bound)
  else Action.raise .misuse

def makeInterpreter (name : Style) (storage failAt : Option Term) : Act Value := do
  match name with
  | .real => Act.allocateInterpreter .real
  | .crazy => Act.allocateInterpreter .crazy
  | .stocked =>
    match storage with
    | none => Action.raise .misuse
    | some t => do Act.allocateTechnology (.stockedFrom (← t.eval))
  | .faulty => do Act.allocateInterpreter (.faulty (← evalOr (.operation .add) failAt))

/-- The effect of a step on values that are already worked out is that of the library. -/
def run : Step → Act Value
  | give t => t.eval
  | text on => do Act.textOf (← on.eval)
  | equal a b => do
    let v ← a.eval
    .bool <$> Scene.same v (← b.eval)
  | distinct items => do
    let vs ← evalAll items
    if Value.allKeys vs then pure (.int (← Act.seen (·.distinct vs)).length)
    else Action.raise .misuse
  | length on => do
    let v ← on.eval
    pure (.int (← Act.seen (·.length v)))
  | get on field => do Act.getAttribute (← on.eval) field
  | set on field t => do
    let v ← on.eval
    setAttribute v field (← t.eval)
    pure .null
  | newBody fields => do
    let entries ← openedEntries (← evalEntries fields)
    let b ← Action.ofExcept ((Body.ofEntries entries).mapError (.invalid .body))
    Act.allocate (.body b)
  | newReady fields => do
    let entries ← evalEntries fields
    let opened ← openedEntries entries
    let body := (Value.entry? entries "body").getD .null
    match ← Act.object? body with
    | some (.loose .body _) => closedOnLoose body ((Value.entry? opened "top").getD .null)
    | _ => do
      let r ← Action.ofExcept ((Ready.ofEntries opened).mapError (.invalid .ready))
      Act.allocateReady body r
  | bodyBuilder bottom components => do
    let bottom ← evalOr BodyBuilder.empty.bottom bottom
    Act.allocateBodyBuilder ⟨bottom, ← evalOr BodyBuilder.empty.components components⟩
  | readyBuilder body top => do
    let body ← evalOr ReadyBuilder.empty.body body
    Act.allocate (.readyBuilder ⟨body, ← evalOr ReadyBuilder.empty.top top⟩)
  | sandwichBody bottom components => do
    let bottom ← evalOr .null bottom
    let items ← items apply (← evalOr (.tuple []) components)
    let b ← Action.ofExcept (Body.ofParts bottom (.list items))
    pure (.success (← Act.allocate (.body b)))
  | sandwichReady body top => do
    let body ← evalOr .null body
    closed body (← evalOr .null top)
  | plus on t => do
    let v ← on.eval
    sum apply v (← t.eval)
  | success t => .success <$> t.eval
  | failure t => .failure <$> t.eval
  | outcome => Act.allocate .outcome
  | call on method arguments => do
    invoke apply (← on.eval) method (arguments.mapM evalArgument)
  | interpreter name storage failAt => makeInterpreter name storage failAt
  | technology bindings => do
    let b ← evalOperations bindings
    Act.allocate (.technology (← Action.ofExcept b.build))
  | technologyBuilder bindings => do
    Act.allocate (.technologyBuilder (← evalOperations bindings))
  | newTechnology bindings => do
    let bound ← evalBindings bindings
    let checked := (Bindings.check fun o => bound.lookup (Vocabulary.word o)).mapError (.invalid .technology)
    Act.allocate (.technology (← Action.ofExcept checked))
  | bind on name binding => do
    let v ← on.eval
    setAttribute v name (← binding.eval name)
    pure .null
  | pantry t => do
    let items ← items apply (← evalOr (.tuple []) t)
    let p ← Action.ofExcept (Pantry.ofItems items)
    let stock ← Act.seen (·.distinct p.stock)
    Act.allocate (.pantry (← Act.allocate (.set stock)))
  | item on t => do
    let v ← on.eval
    subscript apply v (← t.eval)
  | contains on t => do
    let v ← t.eval
    .bool <$> holds apply (← on.eval) v
  | book => Act.allocateBook Book.empty
  | standardBook => Session.standardBook
  | select on name => do
    let v ← on.eval
    selectFrom apply v (← evalOr .null name)
  | runRecipe r t => do
    let recipe ← r.eval
    Session.call apply recipe [← t.eval]
  | config fields => do
    let entries ← openedEntries (← evalEntries fields)
    Act.allocateConfig (← Action.ofExcept (Config.ofEntries entries))
  | stock on t => do
    let pantry ← Act.getAttribute (← on.eval) "pantry"
    invoke apply pantry Method.append.name do pure [← t.eval]
  | buildTechnology c => do technologyFor apply (← c.eval)
  | kitchen b t => do
    let v ← evalOr .null b
    makeKitchen v (← evalOr .null t)
  | kitchenOfConfig c b => do
    let v ← c.eval
    kitchenFor apply v (← evalOr .null b)

end Step

/-- What shows of a step: its result, what it printed, the calls that came, oldest first, and
the objects as they are afterwards. -/
structure Answer where
  result : Except Fault Value
  console : List Line
  calls : List Call
  heap : Heap

/-- A step whose result is kept under the name `target`, if one is given. -/
def perform (step : Step) (target : Option String) : Act Value := do
  let v ← step.run
  match target with
  | some name => Act.setRegister name v
  | none => pure ()
  pure v

/-- Takes one step with a fresh console and no calls noted yet. -/
def advance (w : World State) (step : Step) (target : Option String) : Answer × World State :=
  let w := { w with console := [], rest := { w.rest with calls := [] } }
  let (result, w) := (perform step target).run w
  (⟨result, w.console, w.rest.calls.reverse, w.rest.heap⟩, w)

/-- Takes all steps, one after the other. -/
def runAll : World State → List (Step × Option String) → List Answer
  | _, [] => []
  | w, (step, target) :: rest =>
    let (answer, w) := advance w step target
    answer :: runAll w rest

def World.initial : World State := ⟨[], 0, State.initial⟩

end Deli.Session
