import Deli.Kitchen
import Deli.Session.Collection
import Deli.Session.Evaluation

/-! Functions and methods of a session, and what becomes of calling them. Anything that has a
method of the right name will do where one is asked for, and an attribute that has been written
goes before the method of its name. Every call of a function that a session defines is noted
before anything else is done. -/

namespace Deli.Session

/-- Nothing, for a value that is null. -/
def orNothing : Value → Option Value
  | .null => none
  | v => some v

/-- The items under the numbers from `n` on, up to the first number that is out of range. -/
def itemsFrom (item : Nat → Act Value) : Nat → Nat → Act (List Value)
  | 0, _ => Action.raise (tooDeep "")
  | fuel + 1, n => do
    let next ← tryCatch (some <$> item n) fun e =>
      match e.cause with
      | .plain .index _ => pure none
      | _ => throw e
    match next with
    | some v => do pure (v :: (← itemsFrom item fuel (n + 1)))
    | none => pure []

section Calls

-- How whatever is found is called from here.
variable (apply : Bound → List Value → Act Value)

def call (f : Value) (arguments : List Value) : Act Value := apply (.value f) arguments

/-- Calls what is found under a name. The arguments are worked out only if there is something
to call. -/
def invoke (v : Value) (name : String) (arguments : Act (List Value)) : Act Value := do
  let f ← Act.find v name
  apply f (← arguments)

/-- Asks a value to do something. -/
def ask (v : Value) (m : Method) (arguments : List Value) : Act Value :=
  invoke apply v m.name (pure arguments)

/-- The items that there are to go through in a value. A pantry is asked for the items under
numbers, one after the other. -/
def items (v : Value) : Act (List Value) := do
  match (← Act.heap).items? v, v with
  | some items, _ => pure items
  | none, .handle ⟨.pantry, _⟩ => itemsFrom (fun n => ask apply v .get [.int n]) depthLimit 0
  | none, _ => Action.raise .misuse

/-- A value taken out of another by a key or a place. -/
def subscript (v key : Value) : Act Value := do
  match ← Act.object? v, v, key.number? with
  | some (.pantry _), _, _ => ask apply v .get [key]
  | some (.mapping entries), _, _ =>
    match ← valueUnder? entries key with
    | some w => pure w
    | none => missingKey key
  | some (.list items), _, some place => itemAt "list" items place
  | none, .tuple items, some place => itemAt "tuple" items place
  | none, v, some place =>
    match v.codes? with
    | some codes => itemAt "string" (codes.map fun c => .ofCodes [c]) place
    | none => Action.raise .misuse
  | _, _, _ => Action.raise .misuse

/-- What a table puts in the place of a character, which it has under its number: nothing, another
character by its number, or a text. A character that it does not have stays. -/
def standIn (table : Value) (code : Nat) : Act (List Nat) := do
  let found ← tryCatch (some <$> subscript apply table (.int code)) fun e =>
    if isMissing e.cause then pure none else throw e
  match found with
  | none => pure [code]
  | some .null => pure []
  | some v =>
    match v.number?, v.codes? with
    | some n, _ =>
      if 0 ≤ n ∧ n < 0x110000 then pure [n.toNat]
      else Action.raise (.plain .value "character mapping must be in range(0x110000)")
    | none, some codes => pure codes
    | none, none => Action.raise .misuse

/-- A text with what a table puts in the place of its characters, halves of characters too. -/
def translated (codes : List Nat) (table : Value) : Act Value := do
  pure (.ofCodes (← codes.mapM (standIn apply table)).flatten)

/-- Puts a value into another under a key or at a place. -/
def setSubscript (v key new : Value) : Act Unit := do
  match ← Act.object? v with
  | some (.mapping entries) => do Act.replace v (.mapping (← withUnder entries key new))
  | some (.list items) => do
    let place ← placeIn "list assignment" items.length (← placeNumber key)
    Act.replace v (.list (items.set place new))
  | _ => Action.raise .misuse

/-- Whether a value is in another: as an item, as a key or as a part of a text. What is in the
stock of a pantry is in the pantry. -/
def holdsWithin : Nat → Value → Value → Act Bool
  | 0, _, _ => Action.raise (tooDeep "")
  | depth + 1, v, item => do
    match ← Act.object? v, v.codes? with
    | some (.pantry stock), _ => holdsWithin depth stock item
    | some (.mapping entries), _ => do pure (← valueUnder? entries item).isSome
    | some (.set items), _ =>
      if item.isKey then items.anyM (Scene.same item) else Action.raise .misuse
    | _, some codes =>
      match item.codes? with
      | some part => pure (isPart part codes)
      | none => Action.raise .misuse
    | _, none => do (← items apply v).anyM (Scene.same item)

def holds (v item : Value) : Act Bool := holdsWithin apply depthLimit v item

/-! ### Sums and the bare operations -/

/-- A sum of two values the first of which carries no other. An outcome that is neither success
nor failure passes the sum on to whatever it makes of it. -/
def plainSum (v w : Value) : Act Value := do
  match ← Act.object? v, ← Act.object? w with
  | some (.body b), _ => do Act.allocate (.body (← Action.ofExcept (b.add w)))
  | some (.loose .body _), _ => do
    let builder ← ask apply v .toBuilder []
    ask apply (← ask apply builder .addComponent [w]) .build []
  | some .outcome, _ => do ask apply v .mapCatching [← Act.allocate (.callable (.plus w))]
  | some (.list xs), some (.list ys) => Act.allocate (.list (xs ++ ys))
  | _, _ => Action.ofExcept (v.join w)

def sum : Value → Value → Act Value := Value.plusWith (plainSum apply)

/-- A finished sandwich on a body that has other fields than its own. Only the top is checked. -/
def closedOnLoose (body top : Value) : Act Value := do
  let checked := (Checked.memberOrNull Bread "top" top).mapError (.invalid .ready)
  let top ← Action.ofExcept checked
  let entries := [("body", body), ("top", .ofOption .bread top)].map fun (name, v) =>
    (Value.string name, v)
  Act.allocate (.loose .ready (← Act.allocate (.mapping entries)))

/-- A finished sandwich out of a body and a top. -/
def closed (body top : Value) : Act Value := do
  match ← Act.object? body with
  | some (.loose .body _) => closedOnLoose body top
  | _ => do
    let r ← Action.ofExcept (Ready.ofParts (← Act.opened body) top)
    Act.allocateReady body r

/-- The operations of the silent technology. -/
def bareTechnology : Technology State where
  start bread component := do
    let b ← Action.ofExcept (Body.ofParts bread (.list [component]))
    pure (.success (← Act.allocate (.body b)))
  add := sum apply
  finish body top := do
    let f ← Act.find body Method.mapCatching.name
    apply f [← Act.allocate (.callable (.close top))]

/-! ### Recipes and kitchens -/

/-- The recipe asked for, from anything that has a first one and others by name. -/
def selectFrom (book asked : Value) : Act Value :=
  Book.selectFrom (do pure (orNothing (← ask apply book .first [])))
    (fun name => do pure (orNothing (← ask apply book .get [name]))) asked

/-- The name of the first recipe, for a recipe that was not asked for by name. -/
def firstName (book : Value) : Act String := do
  let names ← ask apply book .listRecipes []
  Scene.text (← subscript apply names (.int 0))

def cookIn (book technology asked : Value) : Act Value :=
  Book.cookFrom (selectFrom apply book) (firstName apply book)
    (fun recipe => call apply recipe [technology]) (fun r => ask apply r .errorOrNull []) asked

/-- A recipe step by step on whatever has the operations of a technology. -/
def runRecipe (r : Recipe Term) (technology : Value) : Act Value :=
  r.follow
    (fun bottom first => invoke apply technology (Vocabulary.word Operation.start) do
      let bottom ← bottom.eval
      pure [bottom, ← first.eval])
    (fun x component => invoke apply x Method.next.name do
      pure [← Act.allocate (.callable (.addNext technology component))])
    (fun x top => invoke apply x Method.finish.name do
      pure [← Act.allocate (.callable (.finishWith technology top))])

/-- The standard book, with recipes as objects of the session. -/
def standardBook : Act Value := do
  let b ← (Book.empty : Book Value).register Recipe.mine.label (some mineHandle)
  Act.allocateBook (← b.register Recipe.club.label (some clubHandle))

/-- A kitchen with the standard book and the real technology in place of what is not given. -/
def makeKitchen (book technology : Value) : Act Value := do
  let book ← match book with
    | .null => standardBook
    | v => pure v
  let technology ← match technology with
    | .null => Act.allocateInterpreter .real
    | v => pure v
  Act.allocate (.kitchen book technology)

/-- The technology that a configuration names, or anything that has the fields for it. -/
def technologyFor (config : Value) : Act Value := do
  let name ← Act.getAttribute config "interpreter"
  let pantry : Act Pantry := do
    let stock ← items apply (← Act.getAttribute config "pantry")
    Action.ofExcept (Pantry.ofItems stock)
  Act.allocateInterpreter
    (← Interpreter.choose name pantry (Act.getAttribute config "fail_at"))

/-- The technology of the kitchen is made before its book. -/
def kitchenFor (config book : Value) : Act Value := do
  makeKitchen book (← technologyFor apply config)

/-! ### Methods -/

/-- A change of a builder gives back the builder. -/
def updated (v : Value) (o : Object) : Act Value := do
  Act.replace v o
  pure v

/-- A body from a builder whose components may be anything that can be gone through. -/
def buildBody (b : BodyBuilder) : Act Value := do
  match b.bottom with
  | .null => Action.raise (.unset "bottom")
  | bottom =>
    if ← Scene.isPresent b.components then
      let components ← items apply b.components
      let checked := Body.check (some bottom) (some (.tuple components))
      Act.allocate (.body (← Action.ofExcept (checked.mapError (.invalid .body))))
    else Action.raise (.construction "`components` must not be empty!" "components")

def Method.runBodyBuilder (v : Value) (b : BodyBuilder) (m : Method) (arguments : List Value) :
    Act Value := do
  match m, arguments with
  | .withBottom, [w] => updated v (.bodyBuilder (b.withBottom w))
  | .addComponent, [w] => do
    let _ ← ask apply b.components .append [w]
    pure v
  | .build, [] => buildBody apply b
  | _, _ => Action.raise .misuse

def Method.runReadyBuilder (v : Value) (b : ReadyBuilder) (m : Method) (arguments : List Value) :
    Act Value := do
  match m, arguments with
  | .withBody, [w] => updated v (.readyBuilder (b.withBody w))
  | .withTop, [w] => updated v (.readyBuilder (b.withTop w))
  | .build, [] => closed b.body b.top
  | _, _ => Action.raise .misuse

/-- A book does nothing by itself: its recipes are asked. -/
def Method.runBook (recipes : Value) (m : Method) (arguments : List Value) : Act Value := do
  match m, arguments with
  | .register, [name, recipe] => do
    setSubscript recipes name recipe
    Book.tellRegistered (← Scene.text name)
    pure .null
  | .get, [name] => ask apply recipes .get [name]
  | .listRecipes, [] => do
    let names ← ask apply recipes .keys []
    Act.allocate (.list (← items apply names))
  | .first, [] => do
    let all ← items apply (← ask apply recipes .values [])
    pure (all.headD .null)
  | _, _ => Action.raise .misuse

def Method.runKitchen (book technology : Value) (m : Method) (arguments : List Value) :
    Act Value := do
  match m, arguments with
  | .cook, [] => cookIn apply book technology .null
  | .cook, [asked] => cookIn apply book technology asked
  | .fromConfig, [config] => kitchenFor apply config .null
  | .fromConfig, [config, book] => kitchenFor apply config book
  | _, _ => Action.raise .misuse

def Method.runOutcome (v : Value) (m : Method) (arguments : List Value) : Act Value :=
  match m, arguments with
  | .getOrNull, [] => Action.ofExcept (Outcome.getOrNull v)
  | .getOrRaise, [] => Outcome.getOrRaise v
  | .errorOrNull, [] => Action.ofExcept (Outcome.errorOrNull v)
  | .mapCatching, [f] => Outcome.mapCatching v fun x => call apply f [x]
  | .next, [f] => Outcome.next v fun x => call apply f [x]
  | .finish, [f] => Outcome.finish v fun x => call apply f [x]
  | .fold, [f, g] => Outcome.fold v (fun x => call apply f [x]) (fun x => call apply g [x])
  | _, _ => Action.raise .misuse

/-- A call of a method of a text or of an outcome. -/
def Method.runPlain (v : Value) (m : Method) (arguments : List Value) : Act Value :=
  match v.codes?, m, arguments with
  | some codes, .translate, [table] => translated apply codes table
  | _, m, arguments => m.runOutcome apply v arguments

/-- A call of a method of `v`. -/
def Method.run (m : Method) (v : Value) (arguments : List Value) : Act Value := do
  match ← Act.object? v, v with
  | some (.list here), _ => m.runList (items apply) v here arguments
  | some (.mapping here), _ => m.runMapping (items apply) v here arguments
  | none, .tuple here => m.runTuple here arguments
  | some (.bodyBuilder b), _ => m.runBodyBuilder apply v b arguments
  | some (.readyBuilder b), _ => m.runReadyBuilder v b arguments
  | some (.book recipes), _ => m.runBook apply recipes arguments
  | some (.kitchen book technology), _ => m.runKitchen apply book technology arguments
  | some o, _ =>
    match o, m, arguments with
    | .set _, .copy, [] => pure v
    | .body b, .toBuilder, [] => Act.allocateBodyBuilder b.toBuilder
    | .loose .body _, .toBuilder, [] => do
      let bottom ← Act.getAttribute v "bottom"
      let components ← items apply (← Act.getAttribute v "components")
      Act.allocateBodyBuilder ⟨bottom, .list components⟩
    | .technologyBuilder b, .build, [] => do
      Act.allocate (.technology (← Action.ofExcept b.build))
    | .pantry stock, .get, [w] => Pantry.getFrom (holds apply stock) w
    | .outcome, m, arguments => m.runOutcome apply v arguments
    | _, _, _ => Action.raise .misuse
  | none, _ => m.runPlain apply v arguments

/-! ### Functions -/

def Callback.run (f : Callback) (x : Value) : Act Value := do
  Act.note (.argument x)
  match f with
  | .identity => pure x
  | .const t => t.eval
  | .raise t => do Action.raiseValue (← t.eval)
  | .text => Act.textOf x
  | .plus t => do sum apply x (← t.eval)
  | .get field => Act.getAttribute x field
  | .succeed t => .success <$> t.eval
  | .fail t => .failure <$> t.eval
  | .map g =>
    invoke apply x Method.mapCatching.name do pure [← Act.allocate (.callable (.callback g))]
  | .call technology method t => do
    invoke apply (← technology.eval) method do pure [x, ← t.eval]

def Callable.run (c : Callable) (arguments : List Value) : Act Value := do
  match c, arguments with
  | .method v m, arguments => apply (.method v m) arguments
  | .callback f, [x] => f.run apply x
  | .succeed, [x] => pure (.success x)
  | .giveUp, [x] => pure (.failure x)
  | .recipe r, [technology] => runRecipe apply r technology
  | .plus component, [x] => sum apply x component
  | .close top, [x] => closed x top
  | .addNext technology component, [x] =>
    invoke apply technology (Vocabulary.word Operation.add) do pure [x, ← component.eval]
  | .finishWith technology top, [x] =>
    invoke apply technology (Vocabulary.word Operation.finish) do pure [x, ← top.eval]
  | .built i o, [x, y] => (i.technologyOver (bareTechnology apply)).run o x y
  | .stockedFrom storage o, [x, y] =>
    (Interpreter.stockedTechnology (bareTechnology apply) fun v =>
      ask apply storage .get [v]).run o x y
  | .forward operation technology, [x, y] => do
    Act.note (.operation operation x y)
    invoke apply (← technology.eval) operation (pure [x, y])
  | .raise operation fault, [x, y] => do
    Act.note (.operation operation x y)
    Action.raiseValue (← fault.eval)
  | .fail operation error, [x, y] => do
    Act.note (.operation operation x y)
    .failure <$> error.eval
  | _, _ => Action.raise .misuse

end Calls

/-- Calls whatever is found from inside of at most `depth` other calls. -/
def applyWithin : Nat → Bound → List Value → Act Value
  | 0, _, _ => Action.raise (tooDeep "")
  | depth + 1, .method v m, arguments => m.run (applyWithin depth) v arguments
  | depth + 1, .value f, arguments => do
    match ← Act.object? f with
    | some (.callable c) => c.run (applyWithin depth) arguments
    | _ => Action.raise .misuse

def apply (f : Bound) (arguments : List Value) : Act Value := applyWithin depthLimit f arguments

end Deli.Session
