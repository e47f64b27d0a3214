import Deli.Sandwich.Fields

/-! Sandwiches put together step by step. A builder takes anything; only building checks. It
asks first whether there is something to build from, then whether that is any good. -/

namespace Deli

structure BodyBuilder where
  bottom : Value
  components : Value

namespace BodyBuilder

def empty : BodyBuilder := ⟨.null, .list []⟩

def withBottom (b : BodyBuilder) (bottom : Value) : BodyBuilder := { b with bottom }

/-- Only a list can take one more component. -/
def addComponent (b : BodyBuilder) (component : Value) : Except Cause BodyBuilder :=
  match b.components with
  | .list items => .ok { b with components := .list (items ++ [component]) }
  | _ => .error .noAttribute

def build (b : BodyBuilder) : Except Cause Body :=
  match b.bottom with
  | .null => .error (.unset "bottom")
  | bottom =>
    if b.components.isPresent then
      match b.components.items? with
      | some items => (Body.check (some bottom) (some (.tuple items))).mapError (.invalid .body)
      | none => .error .misuse
    else .error (.construction "`components` must not be empty!" "components")

end BodyBuilder

structure ReadyBuilder where
  body : Value
  top : Value

namespace ReadyBuilder

def empty : ReadyBuilder := ⟨.null, .null⟩

def withBody (b : ReadyBuilder) (body : Value) : ReadyBuilder := { b with body }

def withTop (b : ReadyBuilder) (top : Value) : ReadyBuilder := { b with top }

def build (b : ReadyBuilder) : Except Cause Ready :=
  match b.body with
  | .null => .error (.unset "body")
  | body => (Ready.check (some body) (some b.top)).mapError (.invalid .ready)

end ReadyBuilder

namespace Body

/-- A builder that holds what the body holds. -/
def toBuilder (b : Body) : BodyBuilder :=
  ⟨.bread b.bottom, .list (b.components.map .component)⟩

/-- A body out of a bottom and anything that has items. -/
def ofParts (bottom components : Value) : Except Cause Body :=
  match components.items? with
  | some items => BodyBuilder.build ⟨bottom, .list items⟩
  | none => .error .misuse

/-- The body with one more component on it. -/
def add (b : Body) (component : Value) : Except Cause Body := do
  (← b.toBuilder.addComponent component).build

end Body

/-- A finished sandwich out of a body and a top. -/
def Ready.ofParts (body top : Value) : Except Cause Ready := ReadyBuilder.build ⟨body, top⟩

end Deli
