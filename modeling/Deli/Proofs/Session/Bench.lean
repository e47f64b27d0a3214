import Deli.Proofs.Session.Held

/-! Several builders in use at a time, on one heap. A move starts a builder, afresh or from a body,
or does something with a builder or a body that there is; what it comes to is worked out as any
other step of a session is. -/

namespace Deli.Session

/-- What is done with the builders and the bodies that there are so far, by their numbers. -/
inductive Move where
  | new
  | reopen (body : Nat)
  | withBottom (builder : Nat) (v : Value)
  | addComponent (builder : Nat) (v : Value)
  | build (builder : Nat)
  | plus (body : Nat) (v : Value)

/-- The builder that is not what it was, after a move. -/
def Move.sets? : Move → Option Nat
  | .withBottom i _ | .addComponent i _ => some i
  | _ => none

theorem Move.sets?_ne {m : Move} (hm : m.sets? = none) (i : Nat) : m.sets? ≠ some i := by
  rw [hm]
  exact (Option.some_ne_none i).symm

/-- The builders and the bodies that have come up so far, in order. -/
structure Bench where
  builders : List Value
  bodies : List Value
  world : World State

namespace Bench

def heap (s : Bench) : Heap := s.world.rest.heap

def builder (s : Bench) (i : Nat) : Value := s.builders.getD i .null

def body (s : Bench) (j : Nat) : Value := s.bodies.getD j .null

def builder? (s : Bench) (i : Nat) : Option BodyBuilder := s.heap.builder? (s.builder i)

def body? (s : Bench) (j : Nat) : Option Body := s.heap.body? (s.body j)

def step (s : Bench) : Move → Step
  | .new => .bodyBuilder none none
  | .reopen j => .call (.value (s.body j)) Method.toBuilder.name []
  | .withBottom i v =>
    .call (.value (s.builder i)) Method.withBottom.name [.value (.value v)]
  | .addComponent i v =>
    .call (.value (s.builder i)) Method.addComponent.name [.value (.value v)]
  | .build i => .call (.value (s.builder i)) Method.build.name []
  | .plus j v => .plus (.value (s.body j)) (.value v)

def outcome (s : Bench) (m : Move) : Except Fault Value × World State :=
  (s.step m).run.exec s.world

/-- What a move has returned, if it has, is one more builder or body, unless it only sets
something. -/
def take (s : Bench) (m : Move) (out : Except Fault Value × World State) : Bench :=
  let got := out.1.toOption.toList
  match m with
  | .new | .reopen _ => ⟨s.builders ++ got, s.bodies, out.2⟩
  | .build _ | .plus .. => ⟨s.builders, s.bodies ++ got, out.2⟩
  | .withBottom .. | .addComponent .. => ⟨s.builders, s.bodies, out.2⟩

def next (s : Bench) (m : Move) : Bench := s.take m (s.outcome m)

def after (s : Bench) (moves : List Move) : Bench := moves.foldl next s

/-- The bench with one more builder on it. -/
def withBuilder (s : Bench) (bottom : Value) (items : List Value) : Bench :=
  ⟨s.builders ++ [.handle ⟨.bodyBuilder, (s.heap.push (.list items)).objects.size⟩], s.bodies,
    s.world.over (s.heap.withBuilder bottom items)⟩

/-- The bench with one more body on it, if a check lets it through. -/
def withMade (s : Bench) (x : Except Cause Body) : Bench :=
  ⟨s.builders, s.bodies ++ (made x s.world).1.toOption.toList, (made x s.world).2⟩

def withHeap (s : Bench) (heap : Heap) : Bench := ⟨s.builders, s.bodies, s.world.over heap⟩

end Bench

/-! ### Histories -/

/-- The bottoms that a builder is given, in order. -/
def bottomsOf (i : Nat) (moves : List Move) : List Value :=
  moves.filterMap fun
    | .withBottom j v => if j = i then some v else none
    | _ => none

/-- The components that are added to a builder, in order. -/
def componentsOf (i : Nat) (moves : List Move) : List Value :=
  moves.filterMap fun
    | .addComponent j v => if j = i then some v else none
    | _ => none

/-- What its own history makes of a builder: it has the last bottom that it was given, and the
components added come after those that there are. -/
def historyOf (i : Nat) (moves : List Move) (bottom : Value) (items : List Value) : BodyBuilder :=
  ⟨(bottomsOf i moves).getLastD bottom, .list (items ++ componentsOf i moves)⟩

section Histories

variable {i j : Nat} {bottom : Value} {items : List Value} {xs ys : List Move}

theorem historyOf_nil : historyOf i [] bottom items = ⟨bottom, .list items⟩ := by
  simp [historyOf, bottomsOf, componentsOf]

theorem historyOf_append :
    historyOf i (xs ++ ys) bottom items =
      historyOf i ys ((bottomsOf i xs).getLastD bottom) (items ++ componentsOf i xs) := by
  simp [historyOf, bottomsOf, componentsOf, List.filterMap_append]

theorem historyOf_withBottom {v : Value} : historyOf j [.withBottom i v] bottom items =
    ⟨if i = j then v else bottom, .list items⟩ := by
  by_cases hij : i = j <;> simp [historyOf, bottomsOf, componentsOf, hij]

theorem historyOf_addComponent {v : Value} : historyOf j [.addComponent i v] bottom items =
    ⟨bottom, .list (if i = j then items ++ [v] else items)⟩ := by
  by_cases hij : i = j <;> simp [historyOf, bottomsOf, componentsOf, hij]

/-- A move on something else is no part of a builder's history. -/
theorem historyOf_of_ne {m : Move} (hm : m.sets? ≠ some i) :
    historyOf i [m] bottom items = ⟨bottom, .list items⟩ := by
  cases m with
  | withBottom j v => rw [historyOf_withBottom, if_neg fun hij => hm (congrArg some hij)]
  | addComponent j v => rw [historyOf_addComponent, if_neg fun hij => hm (congrArg some hij)]
  | _ => simp [historyOf, bottomsOf, componentsOf]

end Histories

namespace Bench

/-! ### Outcomes -/

section Outcomes

variable {s : Bench} {i j id list : Nat} {bottom : Value} {items : List Value} {m : Move}

theorem next_new (s : Bench) : s.next .new = s.withBuilder .null [] := rfl

theorem next_reopen (hs : s.heap.Unwritten) {b : Body} (hb : s.body? j = some b) :
    s.next (.reopen j) = s.withBuilder (.bread b.bottom) (b.components.map .component) := by
  obtain ⟨id, hbody, hobject⟩ := Heap.body?_eq_some.mp hb
  rw [next, outcome, step, hbody, Step.exec_toBuilder hs hobject]
  rfl

theorem outcome_plus {b : Body} (hb : s.body? j = some b) (v : Value) :
    s.outcome (.plus j v) = made (b.add v) s.world := by
  obtain ⟨id, hbody, hobject⟩ := Heap.body?_eq_some.mp hb
  rw [outcome, step, hbody, Step.exec_plus hobject]

theorem next_plus {b : Body} (hb : s.body? j = some b) (v : Value) :
    s.next (.plus j v) = s.withMade (b.add v) := by
  rw [next, outcome_plus hb]
  rfl

/-- Where there is no such builder or body, nothing comes up. -/
theorem next_of_fault {c : Cause} (hout : s.outcome m = made (.error c) s.world) :
    s.next m = s.withMade (.error c) := by
  rw [next, hout]
  cases m <;> simp [take, withMade, made, Except.toOption]

section Builder

variable (hs : s.heap.Unwritten) (h : s.heap.Holds (s.builder i) id list bottom items)
include hs h

theorem outcome_withBottom (v : Value) :
    s.outcome (.withBottom i v) = (.ok (s.builder i),
      s.world.over (s.heap.put id (.bodyBuilder ⟨v, .handle ⟨.list, list⟩⟩))) := by
  rw [outcome, step, h.value, Step.exec_withBottom hs h.builder]
  rfl

theorem next_withBottom (v : Value) : s.next (.withBottom i v) =
    s.withHeap (s.heap.put id (.bodyBuilder ⟨v, .handle ⟨.list, list⟩⟩)) := by
  rw [next, outcome_withBottom hs h]
  rfl

theorem outcome_addComponent (v : Value) :
    s.outcome (.addComponent i v) = (.ok (s.builder i),
      s.world.over (s.heap.put list (.list (items ++ [v])))) := by
  rw [outcome, step, h.value, Step.exec_addComponent hs h.builder rfl h.components]
  rfl

theorem next_addComponent (v : Value) :
    s.next (.addComponent i v) = s.withHeap (s.heap.put list (.list (items ++ [v]))) := by
  rw [next, outcome_addComponent hs h]
  rfl

theorem outcome_build :
    s.outcome (.build i) = made (BodyBuilder.build ⟨bottom, .list items⟩) s.world := by
  rw [outcome, step, h.value, Step.exec_build hs h.builder rfl h.components]

theorem next_build :
    s.next (.build i) = s.withMade (BodyBuilder.build ⟨bottom, .list items⟩) := by
  rw [next, outcome_build hs h]
  rfl

end Builder

end Outcomes

end Bench

end Deli.Session
