import Deli.Text.Halves
import Deli.Text.Quoted
import Deli.Value

/-! How values are printed: bare on their own, quoted inside a collection. What a value only
names is printed by whoever knows it, so printing is written once for all places where objects
may live. -/

namespace Deli

namespace Vocabulary

/-- A member inside a collection shows its word as well. -/
def quoted {α : Type} [Vocabulary α] (a : α) : String :=
  "<" ++ text a ++ ": " ++ Text.quoted (word a) ++ ">"

end Vocabulary

namespace Text

def between (opening closing : String) (items : List String) : String :=
  opening ++ ", ".intercalate items ++ closing

/-- A tuple of one item keeps its comma. -/
def tupled : List String → String
  | [item] => "(" ++ item ++ ",)"
  | items => between "(" ")" items

end Text

def Body.quoted (b : Body) : String :=
  "SandwichBody(bottom=" ++ Vocabulary.quoted b.bottom
    ++ ", components=" ++ Text.tupled (b.components.map Vocabulary.quoted) ++ ")"

def Ready.quoted (r : Ready) : String :=
  "SandwichReady(body=" ++ r.body.quoted
    ++ ", top=" ++ (r.top.map Vocabulary.quoted).getD "None" ++ ")"

namespace Cause

/-- The report on an invalid form is shown as it is. -/
def quoted (c : Cause) : String :=
  match c with
  | .invalid form problems => form.report problems
  | c => c.title ++ "(" ++ Text.quoted c.message ++ ")"

end Cause

/-- What is known of the things that values only name. -/
structure Sight (m : Type → Type) where
  /-- An object on its own. -/
  alone : Handle → m String
  /-- An object inside a collection. -/
  object : Handle → m String
  /-- A fault on its own. -/
  message : Fault → m String
  /-- A fault inside a collection. -/
  fault : Fault → m String
  /-- The text of an outcome that carries a value, or what is shown instead. -/
  outcome : Value → m String → m String

/-- Objects without their contents, faults as they were made. -/
def Sight.plain : Sight Id where
  alone h := h.kind.title
  object h := h.kind.title
  message e := e.cause.message
  fault e := e.cause.quoted
  outcome _ text := text

namespace Value

variable {m : Type → Type} [Monad m] (sight : Sight m)

mutual

/-- A value inside a collection. -/
def quotedWith : Value → m String
  | null => pure "None"
  | bool b => pure (if b then "True" else "False")
  | int n => pure (toString n)
  | decimal d => pure d.text
  | string s => pure (Text.quoted s)
  | broken codes => pure (Text.quotedCodes codes)
  | bytes data => pure ("b" ++ Text.quotedCodes (data.map UInt8.toNat))
  | bread b => pure (Vocabulary.quoted b)
  | component c => pure (Vocabulary.quoted c)
  | operation o => pure (Vocabulary.quoted o)
  | list items => do pure (Text.between "[" "]" (← allQuotedWith items))
  | tuple items => do pure (Text.tupled (← allQuotedWith items))
  | mapping entries => do pure (Text.between "\x7b" "\x7d" (← entriesQuotedWith entries))
  | body b => pure b.quoted
  | ready r => pure r.quoted
  | success v => sight.outcome v do pure ("Success(value=" ++ (← quotedWith v) ++ ")")
  | failure v => sight.outcome v do pure ("Failure(error=" ++ (← quotedWith v) ++ ")")
  | fault e => sight.fault e
  | handle h => sight.object h
  | datum _ => pure "..."

def allQuotedWith : List Value → m (List String)
  | [] => pure []
  | v :: rest => do
    let s ← quotedWith v
    pure (s :: (← allQuotedWith rest))

def entriesQuotedWith : List (Value × Value) → m (List String)
  | [] => pure []
  | (k, v) :: rest => do
    let s ← quotedWith k
    let t ← quotedWith v
    pure ((s ++ ": " ++ t) :: (← entriesQuotedWith rest))

end

/-- A value on its own or carried by an outcome. -/
def textWith : Value → m String
  | string s => pure s
  | broken codes => pure (String.ofList (Text.joined codes))
  | bread b => pure (Vocabulary.text b)
  | component c => pure (Vocabulary.text c)
  | operation o => pure (Vocabulary.text o)
  | body b => pure b.text
  | ready r => pure r.text
  | success v => do pure ("Success(" ++ (← textWith v) ++ ")")
  | failure v => do pure ("Failure(" ++ v.title ++ ": " ++ (← textWith v) ++ ")")
  | fault e => sight.message e
  | handle h => sight.alone h
  | v => quotedWith sight v

def quoted (v : Value) : String := Id.run (v.quotedWith Sight.plain)

def text (v : Value) : String := Id.run (v.textWith Sight.plain)

/-- The name that people know a value by. Ingredients and operations have one, and so has the
fault of a recipe that was asked for. -/
def name? : Value → Option String
  | bread b => some (Vocabulary.name b)
  | component c => some (Vocabulary.name c)
  | operation o => some (Vocabulary.name o)
  | fault (.mk _ (.recipe _ asked)) => some asked.text
  | _ => none

/-- The member that is written as a value, which must be its word. -/
def toMember (α : Type) [Vocabulary α] (v : Value) : Except Cause α :=
  match v.word?.bind Vocabulary.ofWord? with
  | some a => .ok a
  | none =>
    .error (.plain .value (v.quoted ++ " is not a valid " ++ Vocabulary.title α))

end Value

end Deli
