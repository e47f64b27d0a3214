import Deli.Operation
import Deli.Problem
import Deli.Rounded
import Deli.Sandwich

/-! The values that the operations of the kitchen are given and give back. An operation
accepts any value and says itself what it cannot use, so values carry no types.

A fault has an identity of its own besides its cause: two faults of one cause are different
faults, and passing a fault on keeps it the same. What can change lives outside the values, in
objects that values name by handles. -/

namespace Deli

/-- What an object is that lives outside the value naming it. -/
inductive Kind where
  | list | mapping | set
  | body | ready
  | bodyBuilder | readyBuilder | technologyBuilder | technology | callable | config
  | book | pantry | kitchen
  /-- An outcome that is neither a success nor a failure. -/
  | outcome
  deriving DecidableEq, Repr

structure Handle where
  kind : Kind
  id : Nat
  deriving DecidableEq, Repr

/-- What the objects of a kind are called. -/
def Kind.title : Kind → String
  | list => "list"
  | mapping => "dict"
  | set => "frozenset"
  | body => Form.title .body
  | ready => Form.title .ready
  | bodyBuilder => "SandwichBodyBuilder"
  | readyBuilder => "SandwichReadyBuilder"
  | technologyBuilder => "SandwichTechnologyBuilder"
  | technology => "SandwichTechnology"
  | callable => "function"
  | config => "KitchenConfig"
  | book => "RecipeBook"
  | pantry => "PantryStorage"
  | kitchen => "Kitchen"
  | outcome => "Result"

/-- The kinds of fault that say nothing beyond their message. -/
inductive Plain where
  | value | type | lookup | index | key | runtime | recursion | overflow | general
  /-- A terminal cannot make anything of the markup in a line. -/
  | markup
  /-- A character of a line cannot be written. -/
  | encoding
  deriving DecidableEq, Repr

/-- Data that documents hold and no field takes. -/
inductive Datum where
  | real (x : Rounded)
  /-- What is no number is equal to nothing but itself, wherever it is used again. -/
  | noNumber (id : Nat)
  | day (number : Nat)
  /-- A time in microseconds, of the clock on the wall or of the one for all the world. -/
  | time (worldwide : Bool) (micros : Int)
  deriving DecidableEq

mutual

inductive Value where
  | null
  | bool (b : Bool)
  | int (n : Int)
  | decimal (d : Decimal)
  | string (s : String)
  /-- Text by its code points, some of which are only halves of characters. -/
  | broken (codes : List Nat)
  | bytes (data : List UInt8)
  | bread (b : Bread)
  | component (c : Component)
  | operation (o : Operation)
  | list (items : List Value)
  | tuple (items : List Value)
  | mapping (entries : List (Value × Value))
  | body (b : Body)
  | ready (r : Ready)
  | success (v : Value)
  /-- What went wrong is a fault as a rule, but any value can stand there. -/
  | failure (error : Value)
  | fault (e : Fault)
  | handle (h : Handle)
  | datum (d : Datum)

inductive Fault where
  | mk (id : Nat) (cause : Cause)

inductive Cause where
  | plain (kind : Plain) (message : String)
  /-- A sandwich or a technology cannot be built as it stands. -/
  | construction (message field : String)
  | configuration (message key : String)
  /-- No recipe can be selected under the name asked for. -/
  | recipe (message : String) (asked : Value)
  | storage (message : String) (ingredient : Value)
  /-- The ingredient, which goes by `name`, is not available. -/
  | notFound (name : String) (ingredient : Value)
  | invalid (form : Form) (problems : List Problem)
  /-- A value was used in a way its kind does not allow. -/
  | misuse
  | noAttribute
  /-- An outcome cannot be assigned to. -/
  | frozen
  | unimplemented
  | directory
  /-- A path that is too long. -/
  | unnamable
  /-- A document that cannot be read. -/
  | unreadable
  | noRegister (name : String)

end

instance : Inhabited Value := ⟨.null⟩

namespace Fault

def id : Fault → Nat
  | mk id _ => id

def cause : Fault → Cause
  | mk _ cause => cause

end Fault

namespace Cause

def title : Cause → String
  | plain .value _ => "ValueError"
  | plain .type _ => "TypeError"
  | plain .lookup _ => "LookupError"
  | plain .index _ => "IndexError"
  | plain .key _ => "KeyError"
  | plain .runtime _ => "RuntimeError"
  | plain .recursion _ => "RecursionError"
  | plain .overflow _ => "OverflowError"
  | plain .general _ => "Exception"
  | plain .markup _ => "MarkupError"
  | plain .encoding _ => "UnicodeEncodeError"
  | construction .. => "ConstructionError"
  | configuration .. => "KitchenConfigError"
  | recipe .. => "RecipeNotFoundError"
  | storage .. => "IngredientsStorageError"
  | notFound .. => "IngredientNotFoundError"
  | invalid .. => "ValidationError"
  | misuse => "TypeError"
  | noAttribute => "AttributeError"
  | frozen => "FrozenInstanceError"
  | unimplemented => "NotImplementedError"
  | directory => "IsADirectoryError"
  | unnamable => "OSError"
  | unreadable => "YAMLError"
  | noRegister _ => "BadInput"

/-- What the fault says, in words. -/
def message : Cause → String
  | plain _ message => message
  | construction message _ => message
  | configuration message _ => message
  | recipe message _ => message
  | storage message _ => message
  | notFound name _ => "Ingredient " ++ name ++ " not found!"
  | invalid form problems => form.report problems
  | misuse => "unsupported use of a value"
  | noAttribute => "no such attribute"
  | frozen => "cannot assign to a field"
  | unimplemented => ""
  | directory => "is a directory"
  | unnamable => "name too long"
  | unreadable => "not a readable document"
  | noRegister name => "no register " ++ name

/-- The causes that a guarded step turns into a failure; all others go on being raised. -/
def isCatchable : Cause → Bool
  | plain .value _ | plain .encoding _ | construction .. | configuration .. | invalid .. => true
  | _ => false

/-- `what` must be given before anything can be built. -/
def unset (what : String) : Cause := construction ("`" ++ what ++ "` must be initialized!") what

end Cause

namespace Value

/-- The text a value is equal to. Members of a vocabulary are equal to their words. -/
def word? : Value → Option String
  | string s => some s
  | bread b => some (Vocabulary.word b)
  | component c => some (Vocabulary.word c)
  | operation o => some (Vocabulary.word o)
  | _ => none

/-- The text that a field takes a value for. Data that encode a text will do. -/
def spelled? : Value → Option String
  | bytes data => String.fromUTF8? ⟨data.toArray⟩
  | v => v.word?

/-- The member of a vocabulary that a field takes a value for. -/
def member? (α : Type) [Vocabulary α] (v : Value) : Option α := v.spelled?.bind Vocabulary.ofWord?

/-- The text made of some code points. -/
def ofCodes (codes : List Nat) : Value :=
  if codes.all Nat.isValidChar then string (String.ofList (codes.map Char.ofNat)) else broken codes

/-- The code points of text of any kind. -/
def codes? : Value → Option (List Nat)
  | broken codes => some codes
  | v => v.word?.map fun s => s.toList.map Char.toNat

/-- Text of any kind. Only text can name a field. -/
def isText (v : Value) : Bool := v.codes?.isSome

def ofIngredient : Ingredient → Value
  | .bread b => bread b
  | .component c => component c

def ofOption {α : Type} (f : α → Value) : Option α → Value
  | none => null
  | some a => f a

/-- Whether a value counts as present: empty text, empty collections and zeros do not. -/
def isPresent : Value → Bool
  | null => false
  | bool b => b
  | int n => n != 0
  | decimal d => !d.isZero
  | string s => s != ""
  | bytes data => !data.isEmpty
  | list items | tuple items => !items.isEmpty
  | mapping entries => !entries.isEmpty
  | datum (.real x) => !x.isZero
  | _ => true

/-- A field of a sandwich under its name. -/
def named (name : String) (v : Value) : Value := tuple [string name, v]

/-- The components of a sandwich, which cannot be added to. -/
def componentsOf (b : Body) : Value := tuple (b.components.map component)

/-- What a value is called by its sort. -/
def title : Value → String
  | null => "NoneType"
  | bool _ => "bool"
  | int _ => "int"
  | decimal _ => "float"
  | string _ | broken _ => "str"
  | bytes _ => "bytes"
  | bread _ => Vocabulary.title Bread
  | component _ => Vocabulary.title Component
  | operation _ => Vocabulary.title Operation
  | list _ => Kind.title .list
  | tuple _ => "tuple"
  | mapping _ => Kind.title .mapping
  | body _ => Form.title .body
  | ready _ => Form.title .ready
  | success _ => "Success"
  | failure _ => "Failure"
  | fault e => e.cause.title
  | handle h => h.kind.title
  | datum (.real _) | datum (.noNumber _) => "float"
  | datum (.day _) => "date"
  | datum (.time ..) => "datetime"

/-- What there is to go through one by one: characters of a text, keys of a mapping, fields
of a sandwich. -/
def items? : Value → Option (List Value)
  | list items | tuple items => some items
  | mapping entries => some (entries.map Prod.fst)
  | body b => some [named "bottom" (bread b.bottom), named "components" (componentsOf b)]
  | ready r => some [named "body" (body r.body), named "top" (ofOption bread r.top)]
  | v => v.codes?.map fun codes => codes.map fun c => ofCodes [c]

/-- The entry of a mapping under the text `key`. -/
def entry? (entries : List (Value × Value)) (key : String) : Option Value :=
  (entries.find? fun (k, _) => k.word? == some key).map Prod.snd

end Value

end Deli
