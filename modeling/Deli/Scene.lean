import Deli.Outcome
import Deli.Value.Same

/-! Values are seen in a scene. Plain data look the same everywhere; what becomes of an object
that a value names is up to the world that the object lives in. -/

namespace Deli

namespace Value

/-- A whole number that is to be added to one with a point. -/
def roundedInt (n : Int) : Except Cause Rounded :=
  match Rounded.ofInt n with
  | .infinite _ => .error (.plain .overflow "int too large to convert to float")
  | x => .ok x

/-- A value as a number in 53 binary digits. -/
def rounded : Value → Except Cause Rounded
  | decimal d => .ok (.ofDecimal d)
  | datum (.real x) => .ok x
  | datum (.noNumber _) => .ok .undefined
  | v =>
    match v.number? with
    | some n => roundedInt n
    | none => .error .misuse

def ofRounded : Rounded → Value
  | .finite x => decimal (Rounded.shortest x)
  | x => datum (.real x)

/-- Sums of plain data. -/
def join (v w : Value) : Except Cause Value :=
  match v.number?, w.number? with
  | some m, some n => .ok (int (m + n))
  | _, _ =>
    match v.codes?, w.codes? with
    | some s, some t => .ok (ofCodes (s ++ t))
    | _, _ =>
      match v, w with
      | list xs, list ys => .ok (list (xs ++ ys))
      | tuple xs, tuple ys => .ok (tuple (xs ++ ys))
      | bytes xs, bytes ys => .ok (bytes (xs ++ ys))
      | v, w => do pure (ofRounded ((← v.rounded).add (← w.rounded)))

end Value

/-- What can be seen of values in a world with the rest `ω`. -/
class Scene (ω : Type) where
  text : Value → Action ω String
  isPresent : Value → Action ω Bool
  same : Value → Value → Action ω Bool
  /-- The name that people know a value by. -/
  name? : Value → Action ω (Option String)
  /-- Whether a value that can be asked says that it is a failure. -/
  isFailure : Value → Action ω Bool
  isSuccess : Value → Action ω Bool

/-- The scene of a world without objects. -/
@[reducible]
def Scene.plain {ω : Type} : Scene ω where
  text v := pure v.text
  isPresent v := pure v.isPresent
  same v w := pure (v.same w)
  name? v := pure v.name?
  isFailure v := Action.ofExcept (Outcome.isFailure v)
  isSuccess v := Action.ofExcept (Outcome.isSuccess v)

instance : Scene Unit := Scene.plain

instance : Scene Terminal := Scene.plain

/-- The name of a value that has to have one. -/
def Scene.nameOf {ω : Type} [Scene ω] (v : Value) : Action ω String := do
  match ← Scene.name? v with
  | some name => pure name
  | none => Action.raise .noAttribute

end Deli
