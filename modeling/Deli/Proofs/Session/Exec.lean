import Deli.Proofs.Exec
import Deli.Session.Step

/-! What acts do to the heap, exactly. An act either puts a new object after all others or another
object in the place of one; all that is there besides stays as it is. A method that nothing has been
written over is found and called, on a builder as on the list that it holds. -/

namespace Deli

/-- The world with another heap. -/
def World.over (w : World Session.State) (heap : Session.Heap) : World Session.State :=
  { w with rest := { w.rest with heap } }

namespace Session

variable {α : Type} {w : World State} {heap : Heap} {id : Nat} {o p : Object}

/-! ### Heaps -/

namespace Heap

def push (heap : Heap) (o : Object) : Heap := { heap with objects := heap.objects.push o }

def put (heap : Heap) (id : Nat) (o : Object) : Heap :=
  { heap with objects := heap.objects.setIfInBounds id o }

/-- What the next object is named by. -/
def next (heap : Heap) (o : Object) : Value := .handle ⟨o.kind, heap.objects.size⟩

theorem lt_of_getElem? (h : heap.objects[id]? = some o) : id < heap.objects.size :=
  (Array.getElem?_eq_some_iff.mp h).1

theorem getElem?_push_size (heap : Heap) (o : Object) :
    (heap.push o).objects[heap.objects.size]? = some o := Array.getElem?_push_size

theorem getElem?_push (h : heap.objects[id]? = some p) (o : Object) :
    (heap.push o).objects[id]? = some p := by
  rw [push, Array.getElem?_push_lt (lt_of_getElem? h), ← h, Array.getElem?_eq_getElem]

theorem getElem?_put (h : heap.objects[id]? = some p) (o : Object) :
    (heap.put id o).objects[id]? = some o :=
  Array.getElem?_setIfInBounds_self_of_lt (lt_of_getElem? h)

theorem getElem?_put_of_ne {id' : Nat} (h : id' ≠ id) (heap : Heap) (o : Object) :
    (heap.put id o).objects[id']? = heap.objects[id']? := Array.getElem?_setIfInBounds_ne h.symm

/-- A new list, and a new builder that has its components in it. -/
def withBuilder (heap : Heap) (bottom : Value) (items : List Value) : Heap :=
  (heap.push (.list items)).push (.bodyBuilder ⟨bottom, heap.next (.list items)⟩)

/-- No method of an object has been written over. -/
def Unwritten (heap : Heap) : Prop :=
  ∀ (id : Nat) (kind : Kind), ∀ m ∈ Method.ofKind kind,
    heap.attributes.lookup (.object id, m.name) = none

/-! ### Methods -/

theorem ownAttribute?_method (heap : Heap) (h : Handle) (m : Method) :
    heap.ownAttribute? (.handle h) m.name =
      heap.objects[h.id]?.bind (objectAttribute? · m.name) := by
  cases m <;> rfl

theorem firstAttribute?_method (h : Handle) (m : Method) :
    firstAttribute? (.handle h) m.name = none := by
  obtain ⟨kind, id⟩ := h
  cases kind with
  | outcome => cases m <;> rfl
  | _ => rfl

/-- No field of an object has this name. -/
structure Lacks (heap : Heap) (o : Object) (name : String) : Prop where
  own : objectAttribute? o name = none
  loose : heap.looseAttribute? o name = none

/-- Under the name of a method nothing else is found, where no field has this name and nothing has
been written over it. -/
theorem attribute?_method {h : Handle} {m : Method} (ho : heap.objects[h.id]? = some o)
    (hlacks : heap.Lacks o m.name)
    (hwritten : heap.attributes.lookup (.object h.id, m.name) = none) :
    heap.attribute? (.handle h) m.name = none := by
  have hown : heap.ownAttribute? (.handle h) m.name = none := by
    rw [ownAttribute?_method, ho, Option.bind_some, hlacks.own]
  have hunwritten : heap.written? (.handle h) m.name = none := hwritten
  have hloose : (heap.object? (.handle h)).bind (heap.looseAttribute? · m.name) = none := by
    rw [Heap.object?, ho, Option.bind_some, hlacks.loose]
  rw [Heap.attribute?, hown, hloose, hunwritten, firstAttribute?_method]
  rfl

theorem Unwritten.attribute? (hheap : heap.Unwritten) {kind : Kind} {m : Method}
    (hm : m ∈ Method.ofKind kind) (ho : heap.objects[id]? = some o) (hlacks : heap.Lacks o m.name) :
    heap.attribute? (.handle ⟨kind, id⟩) m.name = none :=
  attribute?_method ho hlacks (hheap id kind m hm)

theorem lacks_list (items : List Value) (m : Method) : heap.Lacks (.list items) m.name :=
  ⟨rfl, rfl⟩

theorem lacks_body (b : Body) (m : Method) : heap.Lacks (.body b) m.name :=
  ⟨by cases m <;> rfl, rfl⟩

theorem lacks_bodyBuilder (b : BodyBuilder) (m : Method) :
    heap.Lacks (.bodyBuilder b) m.name := ⟨by cases m <;> rfl, rfl⟩

theorem lacks_readyBuilder (b : ReadyBuilder) (m : Method) :
    heap.Lacks (.readyBuilder b) m.name := ⟨by cases m <;> rfl, rfl⟩

end Heap

namespace Act

@[simp] theorem exec_heap (w : World State) : Act.heap.exec w = (.ok w.rest.heap, w) := rfl

@[simp] theorem exec_object? (v : Value) (w : World State) :
    (object? v).exec w = (.ok (w.rest.heap.object? v), w) := rfl

@[simp] theorem exec_replace (h : Handle) (o : Object) (w : World State) :
    (replace (.handle h) o).exec w = (.ok (), w.over (w.rest.heap.put h.id o)) := rfl

@[simp] theorem exec_seen (look : Heap → Except Cause α) (w : World State) :
    (seen look).exec w = (Action.ofExcept (look w.rest.heap)).exec w := rfl

theorem exec_find {v : Value} {m : Method} (hattribute : w.rest.heap.attribute? v m.name = none)
    (hnamed : Method.named? v m.name = some m) :
    (find v m.name).exec w = (.ok (.method v m), w) := by
  simp only [find, Action.exec_bind, exec_heap, hattribute, hnamed, Action.exec_pure]

end Act

/-- A method that is found is run, and calls what it calls one level further down. -/
theorem exec_invoke {v : Value} {m : Method} {depth : Nat} {arguments : Act (List Value)}
    {vs : List Value} (hattribute : w.rest.heap.attribute? v m.name = none)
    (hnamed : Method.named? v m.name = some m) (hvs : arguments.exec w = (.ok vs, w)) :
    (invoke (applyWithin (depth + 1)) v m.name arguments).exec w =
      (m.run (applyWithin depth) v vs).exec w := by
  simp only [invoke, Action.exec_bind, Act.exec_find hattribute hnamed, hvs]
  rfl

/-! ### Lists -/

section List

variable {items : List Value} (hlist : w.rest.heap.objects[id]? = some (.list items))
include hlist

theorem exec_append (hheap : w.rest.heap.Unwritten) (depth : Nat) (v : Value) :
    (ask (applyWithin (depth + 1)) (.handle ⟨.list, id⟩) .append [v]).exec w =
      (.ok .null, w.over (w.rest.heap.put id (.list (items ++ [v])))) := by
  have hattribute : w.rest.heap.attribute? (.handle ⟨.list, id⟩) Method.append.name = none :=
    hheap.attribute? (by decide) hlist (Heap.lacks_list _ _)
  have hobject : w.rest.heap.object? (.handle ⟨.list, id⟩) = some (.list items) := hlist
  rw [ask, exec_invoke hattribute rfl (Action.exec_pure _ _)]
  simp only [Method.run, Action.exec_bind, Act.exec_object?, hobject, Method.runList,
    Act.exec_replace, Action.exec_pure]

theorem exec_items (apply : Bound → List Value → Act Value) :
    (Session.items apply (.handle ⟨.list, id⟩)).exec w = (.ok items, w) := by
  have hitems : w.rest.heap.items? (.handle ⟨.list, id⟩) = some items := by
    simp only [Heap.items?, Heap.object?, hlist]
  simp only [Session.items, Action.exec_bind, Act.exec_heap, hitems, Action.exec_pure]

theorem exec_isPresent :
    (Scene.isPresent (Value.handle ⟨.list, id⟩) : Act Bool).exec w =
      (.ok (Value.list items).isPresent, w) := by
  have hlength : w.rest.heap.length (.handle ⟨.list, id⟩) = .ok items.length := by
    simp only [Heap.length, depthLimit, Heap.lengthWithin, Heap.object?, Heap.shallow, hlist]
    rfl
  have hpresent : w.rest.heap.isPresent (.handle ⟨.list, id⟩) =
      .ok (Value.list items).isPresent := by
    simp only [Heap.isPresent, hlength]
    cases items <;> rfl
  have hseen : (Scene.isPresent (Value.handle ⟨.list, id⟩) : Act Bool) =
      Act.seen (·.isPresent (.handle ⟨.list, id⟩)) := rfl
  rw [hseen, Act.exec_seen, hpresent, Action.exec_ofExcept_ok]

end List

/-! ### Builders and bodies -/

/-- What becomes of a sandwich that is made by a check: a new object, or a fault is raised. -/
def made (x : Except Cause Body) (w : World State) : Except Fault Value × World State :=
  match x with
  | .ok b => (.ok (w.rest.heap.next (.body b)), w.over (w.rest.heap.push (.body b)))
  | .error c => (.error (.mk w.nextFault c), w.faulted)

theorem exec_allocateBody (x : Except Cause Body) (w : World State) :
    (do Act.allocate (.body (← Action.ofExcept x))).exec w = made x w := by
  cases x <;> rfl

/-- A builder whose components are in a list builds what it would build with the items
themselves. -/
theorem exec_buildBody (apply : Bound → List Value → Act Value) {bottom : Value} {here : List Value}
    (hlist : w.rest.heap.objects[id]? = some (.list here)) :
    (buildBody apply ⟨bottom, .handle ⟨.list, id⟩⟩).exec w =
      made (BodyBuilder.build ⟨bottom, .list here⟩) w := by
  have hpresent := exec_isPresent hlist
  have hitems := exec_items hlist apply
  simp only [buildBody, BodyBuilder.build]
  split
  next => rfl
  next =>
    simp only [Action.exec_bind, hpresent, Value.items?]
    by_cases hsome : (Value.list here).isPresent
    · rw [if_pos hsome, if_pos hsome, Action.exec_bind, hitems]
      exact exec_allocateBody _ w
    · rw [if_neg hsome, if_neg hsome]
      rfl

/-! ### Steps -/

namespace Step

theorem exec_plus {b : Body} (hbody : w.rest.heap.objects[id]? = some (.body b)) (v : Value) :
    (Step.plus (.value (.handle ⟨.body, id⟩)) (.value v)).run.exec w = made (b.add v) w := by
  have hobject : w.rest.heap.object? (.handle ⟨.body, id⟩) = some (.body b) := hbody
  have hsum : (Step.plus (.value (.handle ⟨.body, id⟩)) (.value v)).run =
      plainSum apply (.handle ⟨.body, id⟩) v := rfl
  rw [hsum, plainSum, ← exec_allocateBody]
  simp only [Action.exec_bind, Act.exec_object?, hobject]

theorem exec_plus_null (v : Value) (w : World State) :
    (Step.plus (.value .null) (.value v)).run.exec w = made (.error .misuse) w := by
  have hsum : (Step.plus (.value .null) (.value v)).run = plainSum apply .null v := rfl
  have hjoin : Value.null.join v = .error .misuse := rfl
  rw [hsum, plainSum]
  simp only [Action.exec_bind, Act.exec_object?, Heap.object?, hjoin, Action.exec_ofExcept_error,
    Action.exec_raise, made]

theorem exec_arguments (v : Value) (w : World State) :
    ([Argument.value (.value v)].mapM evalArgument).exec w = (.ok [v], w) := rfl

theorem exec_no_arguments (w : World State) :
    (([] : List Argument).mapM evalArgument).exec w = (.ok [], w) := rfl

/-- A method that is found is run, a thousand calls being what there is room for. -/
theorem exec_call {v : Value} {m : Method} {arguments : List Argument} {vs : List Value}
    (hattribute : w.rest.heap.attribute? v m.name = none)
    (hnamed : Method.named? v m.name = some m)
    (hvs : (arguments.mapM evalArgument).exec w = (.ok vs, w)) :
    (Step.call (.value v) m.name arguments).run.exec w =
      (m.run (applyWithin 999) v vs).exec w := exec_invoke hattribute hnamed hvs

theorem exec_call_null (m : Method) (arguments : List Argument) (w : World State) :
    (Step.call (.value .null) m.name arguments).run.exec w = made (.error .noAttribute) w := by
  have hattribute : w.rest.heap.attribute? .null m.name = none := by cases m <;> rfl
  have hnamed : Method.named? .null m.name = none := rfl
  have hinvoke : (Step.call (.value .null) m.name arguments).run =
      invoke apply .null m.name (arguments.mapM evalArgument) := rfl
  rw [hinvoke, invoke]
  simp only [Act.find, Action.exec_bind, Act.exec_heap, hattribute, hnamed, Action.exec_raise, made]

section Builder

variable {b : BodyBuilder} {list : Nat} {items : List Value} (hheap : w.rest.heap.Unwritten)
  (hbuilder : w.rest.heap.objects[id]? = some (.bodyBuilder b))
include hheap hbuilder

theorem attribute?_bodyBuilder {m : Method} (hm : m ∈ Method.ofKind .bodyBuilder) :
    w.rest.heap.attribute? (.handle ⟨.bodyBuilder, id⟩) m.name = none :=
  hheap.attribute? hm hbuilder (Heap.lacks_bodyBuilder _ _)

theorem exec_withBottom (v : Value) :
    (Step.call (.value (.handle ⟨.bodyBuilder, id⟩)) Method.withBottom.name
      [.value (.value v)]).run.exec w =
      (.ok (.handle ⟨.bodyBuilder, id⟩),
        w.over (w.rest.heap.put id (.bodyBuilder (b.withBottom v)))) := by
  have hattribute := attribute?_bodyBuilder hheap hbuilder (m := .withBottom) (by decide)
  have hobject : w.rest.heap.object? (.handle ⟨.bodyBuilder, id⟩) = some (.bodyBuilder b) :=
    hbuilder
  rw [exec_call hattribute rfl (exec_arguments v w), Method.run]
  simp only [Action.exec_bind, Act.exec_object?, hobject, Method.runBodyBuilder, updated,
    Act.exec_replace, Action.exec_pure]

theorem exec_addComponent (hcomponents : b.components = .handle ⟨.list, list⟩)
    (hlist : w.rest.heap.objects[list]? = some (.list items)) (v : Value) :
    (Step.call (.value (.handle ⟨.bodyBuilder, id⟩)) Method.addComponent.name
      [.value (.value v)]).run.exec w =
      (.ok (.handle ⟨.bodyBuilder, id⟩),
        w.over (w.rest.heap.put list (.list (items ++ [v])))) := by
  have hattribute := attribute?_bodyBuilder hheap hbuilder (m := .addComponent) (by decide)
  have hobject : w.rest.heap.object? (.handle ⟨.bodyBuilder, id⟩) = some (.bodyBuilder b) :=
    hbuilder
  rw [exec_call hattribute rfl (exec_arguments v w), Method.run]
  simp only [Action.exec_bind, Act.exec_object?, hobject, Method.runBodyBuilder, hcomponents,
    exec_append hlist hheap 998, Action.exec_pure]

theorem exec_build (hcomponents : b.components = .handle ⟨.list, list⟩)
    (hlist : w.rest.heap.objects[list]? = some (.list items)) :
    (Step.call (.value (.handle ⟨.bodyBuilder, id⟩)) Method.build.name []).run.exec w =
      made (BodyBuilder.build ⟨b.bottom, .list items⟩) w := by
  have hattribute := attribute?_bodyBuilder hheap hbuilder (m := .build) (by decide)
  have hobject : w.rest.heap.object? (.handle ⟨.bodyBuilder, id⟩) = some (.bodyBuilder b) :=
    hbuilder
  obtain ⟨bottom, components⟩ := b
  subst hcomponents
  rw [exec_call hattribute rfl (exec_no_arguments w), Method.run]
  simp only [Action.exec_bind, Act.exec_object?, hobject, Method.runBodyBuilder]
  exact exec_buildBody _ hlist

end Builder

theorem exec_toBuilder {b : Body} (hheap : w.rest.heap.Unwritten)
    (hbody : w.rest.heap.objects[id]? = some (.body b)) :
    (Step.call (.value (.handle ⟨.body, id⟩)) Method.toBuilder.name []).run.exec w =
      (Act.allocateBodyBuilder b.toBuilder).exec w := by
  have hattribute : w.rest.heap.attribute? (.handle ⟨.body, id⟩) Method.toBuilder.name = none :=
    hheap.attribute? (by decide) hbody (Heap.lacks_body _ _)
  have hobject : w.rest.heap.object? (.handle ⟨.body, id⟩) = some (.body b) := hbody
  rw [exec_call hattribute rfl (exec_no_arguments w), Method.run]
  simp only [Action.exec_bind, Act.exec_object?, hobject]

end Step

end Session

end Deli
