import Deli.Checked

/-! One value for each operation, to make a technology from. All three have to be set, and all
three have to be callable. -/

namespace Deli

structure Bindings where
  start : Value
  add : Value
  finish : Value

/-- What can be called on two arguments, as far as can be seen from outside. -/
def Value.isCallable : Value → Bool
  | .handle h => h.kind == .callable
  | _ => false

namespace Bindings

def get (b : Bindings) : Operation → Value
  | .start => b.start
  | .add => b.add
  | .finish => b.finish

def set (b : Bindings) (v : Value) : Operation → Bindings
  | .start => { b with start := v }
  | .add => { b with add := v }
  | .finish => { b with finish := v }

/-- The operations that are bound to something. -/
def bound (b : Bindings) : List Operation :=
  Vocabulary.members.filter fun o => match b.get o with | .null => false | _ => true

private def checkOne (o : Operation) : Option Value → Checked Value :=
  Checked.required (Vocabulary.word o) fun v =>
    if v.isCallable then .ok v else .error [.atField (Vocabulary.word o) .notCallable]

/-- Bindings under their words, all of them there and callable. -/
def check (binding : Operation → Option Value) : Checked Bindings :=
  (Checked.both (Checked.both (checkOne .start (binding .start)) (checkOne .add (binding .add)))
    (checkOne .finish (binding .finish))).map fun ((s, a), f) => ⟨s, a, f⟩

/-- The same bindings, if a technology can be made from them. The first operation that is
bound to nothing is reported by itself. -/
def build (b : Bindings) : Except Cause Bindings :=
  match (Vocabulary.members : List Operation).find? (· ∉ b.bound) with
  | some o => .error (.unset (Vocabulary.word o))
  | none => (check fun o => some (b.get o)).mapError (.invalid .technology)

end Bindings

end Deli
