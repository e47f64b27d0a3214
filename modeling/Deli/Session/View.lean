import Deli.Session.Heap

/-! Objects as they are seen: printed, compared, and looked at attribute by attribute. An object
that holds itself is printed with an ellipsis in its own place. Where nothing breaks the circle,
looking deeper and deeper ends in a fault. -/

namespace Deli.Session

/-- How deep anything can be inside of something else. -/
def depthLimit : Nat := 1000

def tooDeep (doing : String) : Cause :=
  .plain .recursion ("maximum recursion depth exceeded" ++ doing)

/-- What is being printed, and so is not printed again inside of itself. -/
inductive Mark where
  | object (id : Nat)
  | arguments (fault : Nat)
  | outcome (id : Nat)
  deriving DecidableEq, Repr

abbrev Shown := ReaderT (List Mark) (Except Cause)

/-- The text of what goes by a mark, or an ellipsis in its place if it is being printed. -/
def Shown.once (mark : Mark) (ellipsis : String) (text : Shown String) : Shown String := do
  if (← read).contains mark then pure ellipsis else withReader (mark :: ·) text

/-- What a fault was made with: its message, unless something else has been written there. -/
def Heap.arguments (heap : Heap) (e : Fault) : List Value :=
  match heap.written? (.fault e) "args" with
  | some (.tuple items) => items
  | _ =>
    match e.cause with
    | .invalid .. | .unimplemented => []
    | c => [.string c.message]

namespace Heap

/-! ### Attributes -/

/-- The name and the word of a member. -/
def memberOwn? {α : Type} [Vocabulary α] (a : α) : String → Option Value
  | "name" => some (.string (Vocabulary.name a))
  | "value" => some (.string (Vocabulary.word a))
  | _ => none

/-- The parts of a number, which is a fraction and has no imaginary part. -/
def numberAttribute? (n : Int) : String → Option Value
  | "real" | "numerator" => some (.int n)
  | "imag" => some (.int 0)
  | "denominator" => some (.int 1)
  | _ => none

/-- What a finished sandwich has from its body. -/
def bodyAttribute? (b : Body) (name : String) : Option Value :=
  (Object.body b).fields.lookup name

def objectAttribute? (o : Object) (name : String) : Option Value :=
  o.fields.lookup name <|>
    match o with
    | .ready _ r => bodyAttribute? r.body name
    | _ => none

/-- The names of the fields of a frozen form. -/
def fieldNames : Kind → List String
  | .body => ["bottom", "components"]
  | .ready => ["body", "top"]
  | .technology => Vocabulary.words Operation
  | _ => []

/-- What a value has by itself under a name, whatever has been written. -/
def ownAttribute? (heap : Heap) (v : Value) (name : String) : Option Value :=
  match v, name with
  | .int n, name => numberAttribute? n name
  | .bool b, name => numberAttribute? (if b then 1 else 0) name
  | .bread b, name => memberOwn? b name
  | .component c, name => memberOwn? c name
  | .operation o, "label" => some (.string o.label)
  | .operation o, name => memberOwn? o name
  | .success v, "value" => some v
  | .failure v, "error" => some v
  | .fault e, "args" => some (.tuple (heap.arguments e))
  | .fault (.mk _ (.invalid form _)), "title" => some (.string form.title)
  | v, "is_success" => (Outcome.isSuccess v).toOption.map .bool
  | v, "is_failure" => (Outcome.isFailure v).toOption.map .bool
  | v, name => (heap.object? v).bind (objectAttribute? · name)

/-- What has been put in the place of a field. -/
def entry? (heap : Heap) (fields : Value) (name : String) : Option Value :=
  Value.entry? (heap.entries fields) name

/-- What a form has under a name when it has other fields than its own. A finished sandwich still
asks what is in the place of its body. -/
def looseAttribute? (heap : Heap) (o : Object) (name : String) : Option Value :=
  match o with
  | .loose kind fields =>
    if name = allFields then some fields
    else if kind = .ready ∧ name ∈ fieldNames .body then do
      let body ← heap.entry? fields "body"
      heap.ownAttribute? body name <|>
        match heap.object? body with
        | some (.loose _ fields) => heap.entry? fields name
        | _ => none
    else heap.entry? fields name
  | _ => none

/-- What a fault is made with, besides its message. -/
def faultAttribute? : Cause → String → Option Value
  | .construction _ field, "field" => some (.string field)
  | .configuration _ key, "key" => some (.string key)
  | .recipe _ asked, "name" => some asked
  | .storage _ ingredient, "ingredient" => some ingredient
  | .notFound _ ingredient, "ingredient" => some ingredient
  | _, _ => none

/-- The functions that all outcomes share. -/
def makerOf? : String → Option Value
  | "success" => some succeedHandle
  | "failure" => some giveUpHandle
  | _ => none

/-- What a member has under a name to begin with: its own name and word, under hidden names, and
all members of its vocabulary. -/
def memberFirst? {α : Type} [Vocabulary α] (member : α → Value) (a : α) (name : String) :
    Option Value :=
  match name with
  | "_name_" => some (.string (Vocabulary.name a))
  | "_value_" => some (.string (Vocabulary.word a))
  | name => (Vocabulary.ofName? name).map member

/-- What stands under a name as long as nothing else is written there. -/
def firstAttribute? (v : Value) (name : String) : Option Value :=
  match v with
  | .bread b => memberFirst? .bread b name
  | .component c => memberFirst? .component c name
  | .operation o => memberFirst? .operation o name
  | .fault e => faultAttribute? e.cause name
  | .success _ | .failure _ | .handle ⟨.outcome, _⟩ => makerOf? name
  | _ => none

/-- The attribute of a value: its own, or one that has been written, or the first one. -/
def attribute? (heap : Heap) (v : Value) (name : String) : Option Value :=
  heap.ownAttribute? v name <|> (heap.object? v).bind (heap.looseAttribute? · name) <|>
    heap.written? v name <|> firstAttribute? v name

/-! ### Printing -/

section Printing

variable (heap : Heap) (sight : Sight Shown)

def fieldsQuoted (fields : List (String × Value)) : Shown (List String) :=
  fields.mapM fun (name, v) => do pure (name ++ "=" ++ (← v.quotedWith sight))

/-- What the values are called that have a method first. Chains go on in the same way for all
outcomes. -/
def ownerTitle (v : Value) (m : Method) : String :=
  if m ∈ [.next, .finish] then Kind.title .outcome else v.title

/-- The fields of a form, of which some may not be there. -/
def looseFields (kind : Kind) (fields : Value) : List (String × Value) :=
  (fieldNames kind).filterMap fun name => (heap.entry? fields name).map (name, ·)

/-- Collections show what they hold, forms their fields and methods the value they were taken
from; other objects show only what they are. -/
def objectQuoted (h : Handle) : Shown String := do
  match heap.objects[h.id]? with
  | some (.list items) =>
    Shown.once (.object h.id) "[...]" ((Value.list items).quotedWith sight)
  | some (.mapping entries) =>
    Shown.once (.object h.id) "\x7b...\x7d" ((Value.mapping entries).quotedWith sight)
  | some (.set items) => do
    let texts ← Value.allQuotedWith sight items
    let inner := if texts.isEmpty then "" else Text.between "\x7b" "\x7d" texts
    pure (h.kind.title ++ "(" ++ inner ++ ")")
  | some (.config c) =>
    pure (h.kind.title ++ Text.between "(" ")" (← fieldsQuoted sight (Object.config c).shownFields))
  | some (.callable (.method v m)) => do
    pure ("<bound method " ++ ownerTitle v m ++ "." ++ m.name ++ " of "
      ++ (← v.quotedWith sight) ++ ">")
  | some (.loose kind fields) =>
    Shown.once (.object h.id) "..." do
      pure (h.kind.title ++ Text.between "(" ")" (← fieldsQuoted sight (heap.looseFields kind fields)))
  | some o =>
    if o.shownFields.isEmpty then pure h.kind.title
    else
      Shown.once (.object h.id) "..." do
        pure (h.kind.title ++ Text.between "(" ")" (← fieldsQuoted sight o.shownFields))
  | none => pure h.kind.title

/-- What has to be there under a name. -/
def seenIn (v : Value) (name : String) : Shown Value :=
  match heap.attribute? v name with
  | some w => pure w
  | none => throw .noAttribute

/-- The names of what is in the places of the bread and the components. -/
def looseBodyText (v : Value) : Shown String := do
  let some components := heap.items? (← heap.seenIn v "components") | throw .misuse
  let names ← components.mapM fun c => do
    let some name := (← heap.seenIn c "name").word? | throw .misuse
    pure name
  let bottom ← (← heap.seenIn (← heap.seenIn v "bottom") "name").textWith sight
  pure ("SandwichBody(bottom=" ++ bottom ++ ", components=" ++ Text.between "[" "]" names ++ ")")

def looseReadyText (v : Value) : Shown String := do
  let top ← match ← heap.seenIn v "top" with
    | .null => pure "None"
    | top => do (← heap.seenIn top "name").textWith sight
  let body ← (← heap.seenIn v "body").textWith sight
  pure ("SandwichReady(body=" ++ body ++ ", top=" ++ top ++ ")")

/-- Sandwiches show the names of what they are made of, and a configuration only its fields. -/
def objectAlone (h : Handle) : Shown String := do
  match heap.objects[h.id]? with
  | some (.body b) => pure b.text
  | some (.ready _ r) => pure r.text
  | some (.loose .body _) => looseBodyText heap sight (.handle h)
  | some (.loose .ready _) => looseReadyText heap sight (.handle h)
  | some (.config c) => pure (" ".intercalate (← fieldsQuoted sight (Object.config c).shownFields))
  | _ => objectQuoted heap sight h

/-- The report on an invalid form is shown as it is. -/
def faultMessage (e : Fault) : Shown String :=
  match e.cause, heap.arguments e with
  | .invalid form problems, _ => pure (form.report problems)
  | _, [] => pure ""
  | _, [v] => v.textWith sight
  | _, items => Shown.once (.arguments e.id) "(...)" ((Value.tuple items).quotedWith sight)

def faultQuoted (e : Fault) : Shown String := do
  match e.cause, heap.arguments e with
  | .invalid form problems, _ => pure (form.report problems)
  | c, [v] => pure (c.title ++ "(" ++ (← v.quotedWith sight) ++ ")")
  | c, items =>
    let text ← Shown.once (.arguments e.id) "(...)" ((Value.tuple items).quotedWith sight)
    pure (c.title ++ text)

/-- An outcome is known by the object that it carries. -/
def outcomeQuoted (v : Value) (text : Shown String) : Shown String :=
  match v with
  | .handle h => Shown.once (.outcome h.id) "..." text
  | _ => text

end Printing

/-- What can be seen down to some depth. -/
def sight (heap : Heap) : Nat → Sight Shown
  | 0 =>
    ⟨fun _ => throw (tooDeep " while getting the str of an object"),
     fun _ => throw (tooDeep " while getting the repr of an object"),
     fun _ => throw (tooDeep " while getting the str of an object"),
     fun _ => throw (tooDeep " while getting the repr of an object"),
     fun _ text => text⟩
  | depth + 1 =>
    ⟨fun h => objectAlone heap (sight heap depth) h,
     fun h => objectQuoted heap (sight heap depth) h,
     fun e => faultMessage heap (sight heap depth) e,
     fun e => faultQuoted heap (sight heap depth) e,
     fun v text => outcomeQuoted v text⟩

def text (heap : Heap) (v : Value) : Except Cause String :=
  (v.textWith (heap.sight depthLimit)).run []

def quoted (heap : Heap) (v : Value) : Except Cause String :=
  (v.quotedWith (heap.sight depthLimit)).run []

/-! ### Comparing -/

/-- The kinds of object that are equal when what they hold is. -/
def comparesContents : Kind → Bool
  | .list | .mapping | .set | .body | .ready | .bodyBuilder | .readyBuilder | .technologyBuilder
  | .technology | .config => true
  | _ => false

/-- What an object holds, put in a form that compares by content. A set has no order. -/
def contents (heap : Heap) (h : Handle) : Value :=
  match heap.objects[h.id]? with
  | some (.list items) => .list items
  | some (.mapping entries) => .mapping entries
  | some (.set items) => .mapping (items.map fun v => (v, .null))
  | some (.loose kind fields) =>
    let there := heap.looseFields kind fields
    if there.length = (fieldNames kind).length then .tuple (there.map Prod.snd)
    else .mapping (there.map fun (name, v) => (.string name, v))
  | some o => .tuple (o.fields.map Prod.snd)
  | none => .handle h

/-- Methods are equal if they are the same method of the very same value. -/
def sameMethod (heap : Heap) (h g : Handle) : Bool :=
  match heap.objects[h.id]?, heap.objects[g.id]? with
  | some (.callable (.method v m)), some (.callable (.method w n)) => m == n && v == w
  | _, _ => false

def sameHandle (heap : Heap) : Nat → Handle → Handle → Except Cause Bool
  | 0, _, _ => throw (tooDeep " in comparison")
  | depth + 1, h, g =>
    if h.id == g.id then pure true
    else if h.kind == g.kind && comparesContents h.kind then
      (heap.contents h).sameWith (sameHandle heap depth) (heap.contents g)
    else pure (heap.sameMethod h g)

def same (heap : Heap) (v w : Value) : Except Cause Bool :=
  v.sameWith (heap.sameHandle depthLimit) w

/-- The first of every group of equal values, in order. -/
def distinct (heap : Heap) (values : List Value) : Except Cause (List Value) :=
  values.foldlM (fun kept v => do
    if ← kept.anyM (heap.same v) then pure kept else pure (kept ++ [v])) []

/-! ### Sizes -/

/-- A book is as long as what its recipes are in, and a pantry as long as its stock. -/
def lengthWithin (heap : Heap) : Nat → Value → Except Cause Nat
  | 0, _ => throw (tooDeep "")
  | depth + 1, v =>
    match heap.object? v with
    | some (.book w) | some (.pantry w) => lengthWithin heap depth w
    | _ =>
      match heap.shallow v with
      | .list items | .tuple items => pure items.length
      | .mapping entries => pure entries.length
      | w =>
        match w.codes? with
        | some codes => pure codes.length
        | none => throw .misuse

def length (heap : Heap) (v : Value) : Except Cause Nat := heap.lengthWithin depthLimit v

/-- Objects that have a length are present if it is not zero, and all others are. -/
def isPresent (heap : Heap) (v : Value) : Except Cause Bool :=
  match v with
  | .handle h =>
    if h.kind ∈ [.list, .mapping, .set, .book, .pantry] then (· != 0) <$> heap.length v
    else pure true
  | v => pure v.isPresent

/-- The names in a book, if its recipes are in a mapping. -/
def bookNames (heap : Heap) (recipes : Value) : Except Cause (List Value) :=
  match heap.object? recipes with
  | some (.mapping entries) => pure (entries.map Prod.fst)
  | _ => throw .noAttribute

end Heap

end Deli.Session
