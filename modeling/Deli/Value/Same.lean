import Deli.Value

/-! When two values count as equal, and which values can be looked up at all. Members of a
vocabulary equal their words, truth values equal the numbers one and zero, sandwiches and
outcomes compare by content, and faults by identity. -/

namespace Deli.Value

/-- The whole number that a value counts as. -/
def number? : Value → Option Int
  | int n => some n
  | bool b => some (if b then 1 else 0)
  | _ => none

/-- The number that a value is equal to, whole or not. -/
def dyadic? : Value → Option Dyadic
  | datum (.real (.finite x)) => some x
  | decimal d =>
    match Rounded.ofDecimal d with
    | .finite x => some x
    | _ => none
  | v => v.number?.map Dyadic.ofInt

def sameNumber (v w : Value) : Bool :=
  match v.dyadic?, w.dyadic? with
  | some x, some y => x == y
  | _, _ => false

section Same

variable {m : Type → Type} [Monad m] (sameHandle : Handle → Handle → m Bool)

mutual

/-- Equality of values, with objects compared by `sameHandle`. -/
def sameWith : Value → Value → m Bool
  | null, w => pure (match w with | null => true | _ => false)
  | bool b, w => pure (sameNumber (bool b) w)
  | int n, w => pure (sameNumber (int n) w)
  | decimal d, w => pure (sameNumber (decimal d) w)
  | string s, w => pure (w.word? == some s)
  | broken codes, w => pure (match w with | broken others => codes == others | _ => false)
  | bytes data, w => pure (match w with | bytes others => data == others | _ => false)
  | bread b, w => pure (w.word? == some (Vocabulary.word b))
  | component c, w => pure (w.word? == some (Vocabulary.word c))
  | operation o, w => pure (w.word? == some (Vocabulary.word o))
  | list xs, w => match w with | list ys => allSameWith xs ys | _ => pure false
  | tuple xs, w => match w with | tuple ys => allSameWith xs ys | _ => pure false
  | mapping xs, w => match w with
    | mapping ys => if xs.length == ys.length then entriesSameWith xs ys else pure false
    | _ => pure false
  | body b, w => pure (match w with | body c => b == c | _ => false)
  | ready r, w => pure (match w with | ready q => r == q | _ => false)
  | success v, w => match w with | success u => sameWith v u | _ => pure false
  | failure v, w => match w with | failure u => sameWith v u | _ => pure false
  | fault e, w => pure (match w with | fault f => e.id == f.id | _ => false)
  | handle h, w => match w with | handle g => sameHandle h g | _ => pure false
  | datum d, w =>
    pure (sameNumber (datum d) w || match w with | datum e => d == e | _ => false)

def allSameWith : List Value → List Value → m Bool
  | [], ys => pure ys.isEmpty
  | x :: xs, ys =>
    match ys with
    | [] => pure false
    | y :: ys => do
      if xs.length == ys.length then
        if ← sameWith x y then allSameWith xs ys else pure false
      else pure false

/-- Every entry of the first mapping is an entry of the second, in any order. -/
def entriesSameWith : List (Value × Value) → List (Value × Value) → m Bool
  | [], _ => pure true
  | (k, v) :: xs, ys => do
    let found ← ys.anyM fun (l, w) => do if ← sameWith k l then sameWith v w else pure false
    if found then entriesSameWith xs ys else pure false

end

end Same

/-- Equality of values, each object being equal to itself only. -/
def same (v w : Value) : Bool := Id.run (v.sameWith (fun h g => pure (h == g)) w)

instance : BEq Value := ⟨same⟩

mutual

/-- What can be a member of a set or a key: nothing that can change under its own hands. -/
def isKey : Value → Bool
  | list _ | mapping _ => false
  | tuple items => allKeys items
  | success v | failure v => isKey v
  | handle h =>
    match h.kind with
    | .list | .mapping | .bodyBuilder | .readyBuilder | .technologyBuilder | .config => false
    | _ => true
  | _ => true

def allKeys : List Value → Bool
  | [] => true
  | v :: rest => isKey v && allKeys rest

end

/-- The entries of a mapping with `v` under `k`. A mapping has only one entry for equal keys. -/
def setEntry (k v : Value) : List (Value × Value) → List (Value × Value)
  | [] => [(k, v)]
  | (l, u) :: rest => if same l k then (l, v) :: rest else (l, u) :: setEntry k v rest

/-- The first of every group of equal values, in order. -/
def distinct (values : List Value) : List Value :=
  values.foldl (fun kept v => if kept.any v.same then kept else kept ++ [v]) []

end Deli.Value
