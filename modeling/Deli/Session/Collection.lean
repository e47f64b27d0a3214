import Deli.Session.State

/-! Lists, mappings and texts: what they have under a key or at a place, and how lists and
mappings change. Keys and items count as equal as they do everywhere else. -/

namespace Deli.Session

variable {α : Type}

/-! ### Keys -/

/-- What a mapping has under a key. -/
def valueUnder? (entries : List (Value × Value)) (key : Value) : Act (Option Value) := do
  if key.isKey then
    let found ← entries.findM? fun (k, _) => Scene.same key k
    pure (found.map Prod.snd)
  else Action.raise .misuse

def replaceUnder (key v : Value) : List (Value × Value) → Act (List (Value × Value))
  | [] => pure [(key, v)]
  | (k, w) :: rest => do
    if ← Scene.same k key then pure ((k, v) :: rest)
    else pure ((k, w) :: (← replaceUnder key v rest))

/-- The entries of a mapping with `v` under a key, in its old place if it has one. -/
def withUnder (entries : List (Value × Value)) (key v : Value) : Act (List (Value × Value)) :=
  if key.isKey then replaceUnder key v entries else Action.raise .misuse

def withoutKey (entries : List (Value × Value)) (key : Value) : Act (List (Value × Value)) :=
  entries.filterM fun (k, _) => do pure !(← Scene.same k key)

def missingKey (key : Value) : Act α := do
  let text ← Act.seen (·.quoted key)
  Action.raise (.plain .key text)

/-- Whether something was looked up that is not there. -/
def isMissing : Cause → Bool
  | .plain .lookup _ | .plain .index _ | .plain .key _ | .recipe .. => true
  | _ => false

/-! ### Places -/

/-- There are no places from this one on, on either side. -/
def placeLimit : Nat := 0x8000000000000000

def isBeyond (place : Int) : Bool := place < -(placeLimit : Int) || (placeLimit : Int) ≤ place

/-- A place counted from the beginning. Negative places are counted from the end. -/
def fromStart (length : Nat) (place : Int) : Int := if place < 0 then place + length else place

/-- A place in something of a length that is called `what`. -/
def placeIn (what : String) (length : Nat) (place : Int) : Act Nat :=
  if isBeyond place then
    Action.raise (.plain .index "cannot fit 'int' into an index-sized integer")
  else
    let index := fromStart length place
    if index < 0 ∨ (length : Int) ≤ index then
      Action.raise (.plain .index (what ++ " index out of range"))
    else pure index.toNat

def itemAt (what : String) (items : List Value) (place : Int) : Act Value := do
  pure (items.getD (← placeIn what items.length place) .null)

/-- Where the first item is that equals a value. -/
def firstPlace? (v : Value) : List Value → Act (Option Nat)
  | [] => pure none
  | item :: rest => do
    if ← Scene.same item v then pure (some 0) else pure ((← firstPlace? v rest).map (· + 1))

def placeOf (v : Value) (items : List Value) (missing : Act Nat) : Act Nat := do
  match ← firstPlace? v items with
  | some n => pure n
  | none => missing

def countOf (v : Value) (items : List Value) : Act Value := do
  let same ← items.filterM (Scene.same v)
  pure (.int same.length)

/-- Whether a text is part of another. -/
def isPart (part : List Nat) : List Nat → Bool
  | [] => part.isEmpty
  | c :: rest => part.isPrefixOf (c :: rest) || isPart part rest

/-! ### Methods -/

/-- The number that a place is given by. -/
def placeNumber (v : Value) : Act Int :=
  match v.number? with
  | some n => pure n
  | none => Action.raise .misuse

/-- The number of a place in a list that changes, which must not be beyond all places. -/
def listPlace (v : Value) : Act Int := do
  let place ← placeNumber v
  if isBeyond place then
    Action.raise (.plain .overflow "Python int too large to convert to C ssize_t")
  else pure place

/-- Takes the item at a place out of a list. -/
def popAt (v : Value) (here : List Value) (place : Int) : Act Value := do
  if here.isEmpty then Action.raise (.plain .index "pop from empty list")
  else
    let index ← placeIn "pop" here.length place
    Act.replace v (.list (here.eraseIdx index))
    pure (here.getD index .null)

/-- A call of a method of the list `v`, which holds the items `here`. What there is to go through
in another value is `items`. -/
def Method.runList (items : Value → Act (List Value)) (v : Value) (here : List Value) (m : Method)
    (arguments : List Value) : Act Value := do
  let become (now : List Value) : Act Value := do
    Act.replace v (.list now)
    pure .null
  match m, arguments with
  | .append, [w] => become (here ++ [w])
  | .extend, [w] => do become (here ++ (← items w))
  | .insert, [place, w] => do
    let index := fromStart here.length (← listPlace place)
    become (here.insertIdx (min index.toNat here.length) w)
  | .pop, [] => popAt v here (-1)
  | .pop, [place] => do popAt v here (← listPlace place)
  | .remove, [w] => do
    let missing := Action.raise (.plain .value "list.remove(x): x not in list")
    become (here.eraseIdx (← placeOf w here missing))
  | .clear, [] => become []
  | .index, [w] => do
    let missing : Act Nat := do
      let text ← Act.seen (·.quoted w)
      Action.raise (.plain .value (text ++ " is not in list"))
    pure (.int (← placeOf w here missing))
  | .count, [w] => countOf w here
  | .reverse, [] => become here.reverse
  | .copy, [] => Act.allocate (.list here)
  | _, _ => Action.raise .misuse

def Method.runTuple (here : List Value) (m : Method) (arguments : List Value) : Act Value := do
  match m, arguments with
  | .index, [w] => do
    let missing := Action.raise (.plain .value "tuple.index(x): x not in tuple")
    pure (.int (← placeOf w here missing))
  | .count, [w] => countOf w here
  | _, _ => Action.raise .misuse

/-- Takes what is under a key out of a mapping. Nothing at all is under any value in an empty
one. -/
def popUnder (v : Value) (here : List (Value × Value)) (key : Value) (missing : Act Value) :
    Act Value := do
  if here.isEmpty then missing
  else
    match ← valueUnder? here key with
    | some w => do
      Act.replace v (.mapping (← withoutKey here key))
      pure w
    | none => missing

/-- What is under a key, which is `fallback` from now on if nothing is there. -/
def settled (v : Value) (here : List (Value × Value)) (key fallback : Value) : Act Value := do
  match ← valueUnder? here key with
  | some w => pure w
  | none => do
    Act.replace v (.mapping (here ++ [(key, fallback)]))
    pure fallback

/-- Puts pairs into a mapping one after the other, each made of two items, from the pair numbered
`n` on. -/
def putPairs (items : Value → Act (List Value)) (v : Value) :
    List (Value × Value) → Nat → List Value → Act Unit
  | _, _, [] => pure ()
  | here, n, pair :: rest => do
    match ← items pair with
    | [key, w] => do
      let now ← withUnder here key w
      Act.replace v (.mapping now)
      putPairs items v now (n + 1) rest
    | parts =>
      Action.raise (.plain .value ("dictionary update sequence element #" ++ toString n
        ++ " has length " ++ toString parts.length ++ "; 2 is required"))

/-- A call of a method of the mapping `v`, which holds the entries `here`. -/
def Method.runMapping (items : Value → Act (List Value)) (v : Value)
    (here : List (Value × Value)) (m : Method) (arguments : List Value) : Act Value := do
  match m, arguments with
  | .get, [key] => do pure ((← valueUnder? here key).getD .null)
  | .get, [key, fallback] => do pure ((← valueUnder? here key).getD fallback)
  | .keys, [] => Act.allocate (.list (here.map Prod.fst))
  | .values, [] => Act.allocate (.list (here.map Prod.snd))
  | .pop, [key] => popUnder v here key (missingKey key)
  | .pop, [key, fallback] => popUnder v here key (pure fallback)
  | .setDefault, [key] => settled v here key .null
  | .setDefault, [key, fallback] => settled v here key fallback
  | .update, [] => pure .null
  | .update, [other] => do
    let pairs ← match ← Act.object? other with
      | some (.mapping entries) => pure (entries.map fun (k, w) => .tuple [k, w])
      | _ => items other
    putPairs items v here 0 pairs
    pure .null
  | .clear, [] => do
    Act.replace v (.mapping [])
    pure .null
  | .copy, [] => Act.allocate (.mapping here)
  | _, _ => Action.raise .misuse

end Deli.Session
