import Deli.Pantry
import Deli.Technology
import Deli.Value.Plus

/-! The four technologies that the kitchen knows. All of them make the same sandwich; they
differ in what they print, and in when they give up. -/

namespace Deli

/-- The names under which technologies are known. -/
inductive Style where
  | real | crazy | stocked | faulty
  deriving DecidableEq, Repr

instance : Vocabulary Style where
  title := "Interpreter"
  members := [.real, .crazy, .stocked, .faulty]
  name | .real => "REAL" | .crazy => "CRAZY" | .stocked => "STOCKED" | .faulty => "FAULTY"
  word | .real => "real" | .crazy => "crazy" | .stocked => "stocked" | .faulty => "faulty"

/-- Which technology to cook with. -/
inductive Interpreter where
  /-- Prints a line after every step. -/
  | real
  /-- Prints nothing. -/
  | crazy
  /-- Looks up every ingredient before it is used. -/
  | stocked (pantry : Pantry)
  /-- Reports a missing ingredient at the operation `failAt`, if it is one. -/
  | faulty (failAt : Value)

namespace Interpreter

variable {ω : Type} [Scene ω]

/-! The bare operations. -/

def start (bread component : Value) : Action ω Value := do
  let body ← Action.ofExcept (Body.ofParts bread (.list [component]))
  pure (.success (.body body))

def add (body component : Value) : Action ω Value := body.plus component

def finish (body top : Value) : Action ω Value :=
  Outcome.mapCatching body fun b => .ready <$> Action.ofExcept (Ready.ofParts b top)

def crazyTechnology : Technology ω := ⟨start, add, finish⟩

/-! All other technologies do something beside the operations of a bare one. -/

def printProcessed (o : Operation) : Action ω Unit :=
  Action.print ("[green][KITCHEN] " ++ o.label ++ " processed.[/green]")

def printPassedThrough (o : Operation) : Action ω Unit :=
  Action.print ("[red][KITCHEN] " ++ o.label ++ " passed failure through.[/red]")

def realTechnology (bare : Technology ω) : Technology ω where
  start bread component := do
    let result ← bare.start bread component
    printProcessed .start
    pure result
  add body component := do
    let result ← bare.add body component
    printProcessed .add
    pure result
  finish body top := do
    let result ← bare.finish body top
    if ← Scene.isFailure result then printPassedThrough .finish else printProcessed .finish
    pure result

/-- Goes on only if the ingredient is found; else the failure of the look-up is the outcome. -/
def whenFound (look : Value → Action ω Value) (ingredient : Value) (rest : Action ω Value) :
    Action ω Value := do
  let found ← look ingredient
  if ← Scene.isFailure found then pure found else rest

/-- Looks up what is new in every step, through `look`. -/
def stockedTechnology (bare : Technology ω) (look : Value → Action ω Value) : Technology ω where
  start bread component :=
    whenFound look bread (whenFound look component (bare.start bread component))
  add body component := do
    if ← Scene.isFailure body then pure body
    else whenFound look component (bare.add body component)
  finish body top := do
    if ← Scene.isSuccess body then
      match top with
      | .null => bare.finish body top
      | top => whenFound look top (bare.finish body top)
    else bare.finish body top

/-- Whether a value is this very operation; its word does not count. -/
def isOperation (o : Operation) : Value → Bool
  | .operation p => p == o
  | _ => false

/-- Gives up on an ingredient. -/
def fail (o : Operation) (ingredient : Value) : Action ω Value := do
  Action.print ("[red][KITCHEN] " ++ o.label ++ " processed with error.[/red]")
  Pantry.notFound (← Scene.nameOf ingredient) ingredient

/-- The ingredient a finished sandwich is missing when it has no top. -/
def topOrToast : Value → Value
  | .null => .bread .toast
  | top => top

def faultyTechnology (bare : Technology ω) (failAt : Value) : Technology ω where
  start bread component :=
    if isOperation .start failAt then fail .start bread else bare.start bread component
  add body component := do
    if ← Scene.isFailure body then pure body
    else if isOperation .add failAt then fail .add component
    else bare.add body component
  finish body top := do
    if ← Scene.isSuccess body then
      if isOperation .finish failAt then fail .finish (topOrToast top) else bare.finish body top
    else bare.finish body top

/-- The technology that does what an interpreter says beside the operations of `bare`. -/
def technologyOver (bare : Technology ω) : Interpreter → Technology ω
  | real => realTechnology bare
  | crazy => bare
  | stocked pantry => stockedTechnology bare pantry.get
  | faulty failAt => faultyTechnology bare failAt

def technology : Interpreter → Technology ω := technologyOver crazyTechnology

/-- The fault of a name that no technology is known by. -/
def unknown (name : String) : Cause :=
  .configuration
    ("Unknown interpreter '" ++ name ++ "'. Known: ['crazy', 'faulty', 'real', 'stocked']")
    "interpreter"

/-- The technology that a value names. What more it takes is worked out only for the one that
takes it. -/
def choose [HasTerminal ω] (name : Value) (pantry : Action ω Pantry) (failAt : Action ω Value) :
    Action ω Interpreter := do
  match name.word?.bind Vocabulary.ofWord? with
  | some Style.real => pure .real
  | some .crazy => pure .crazy
  | some .stocked => .stocked <$> pantry
  | some .faulty => .faulty <$> failAt
  | none =>
    if name.isKey then
      let shown ← Scene.text name
      Action.tell (.text ("[red][KITCHEN] Unknown interpreter: " ++ shown ++ "[/red]"))
      Action.raise (unknown shown)
    else Action.raise .misuse

end Interpreter

end Deli
