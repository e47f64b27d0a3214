import Deli.Proofs.Session.Finished

/-! The ways in which a finished sandwich is made of any value and a top: from both as its fields,
by a function that takes both, or by a builder that is given one and the other in any order and
built as often as one likes. A builder asks first whether there is anything to close, and so does
the function. Apart from that all of them do what the fields do by themselves. -/

namespace Deli.Session

/-! ### Builders -/

section Builders

/-- A value names a builder of a finished sandwich, and none of its methods is written over. -/
structure Heap.HasReady (heap : Heap) (v : Value) (id : Nat) (b : ReadyBuilder) : Prop where
  value : v = .handle ⟨.readyBuilder, id⟩
  builder : heap.objects[id]? = some (.readyBuilder b)
  unwritten : ∀ m ∈ Method.ofKind .readyBuilder,
    heap.attributes.lookup (.object id, m.name) = none

variable {w : World State} {builder : Value} {id : Nat} {b : ReadyBuilder}

namespace Heap.HasReady

variable {heap heap' : Heap}

theorem put (h : heap.HasReady builder id b) (new : ReadyBuilder) :
    (heap.put id (.readyBuilder new)).HasReady builder id new :=
  ⟨h.value, getElem?_put h.builder _, h.unwritten⟩

theorem of_extends (h : heap.HasReady builder id b) (hext : heap.Extends heap') :
    heap'.HasReady builder id b :=
  ⟨h.value, hext.objects h.builder, fun m hm => by rw [hext.attributes]; exact h.unwritten m hm⟩

theorem attribute? (h : heap.HasReady builder id b) {m : Method}
    (hm : m ∈ Method.ofKind .readyBuilder) : heap.attribute? builder m.name = none := by
  obtain ⟨rfl, hbuilder, hunwritten⟩ := h
  exact attribute?_method hbuilder (lacks_readyBuilder b m) (hunwritten m hm)

end Heap.HasReady

/-- A method of a builder that is called with values is run. -/
theorem exec_callReady (h : w.rest.heap.HasReady builder id b) {m : Method}
    (hm : m ∈ Method.ofKind .readyBuilder) {arguments : List Argument} {vs : List Value}
    (hvs : (arguments.mapM Step.evalArgument).exec w = (.ok vs, w)) :
    (Step.call (.value builder) m.name arguments).run.exec w =
      (m.runReadyBuilder builder b vs).exec w := by
  have hattribute := h.attribute? hm
  obtain ⟨rfl, hbuilder, -⟩ := h
  have hnamed : Method.named? (.handle ⟨.readyBuilder, id⟩) m.name = some m := by
    cases m <;> first | rfl | exact absurd hm (by decide)
  have hobject : w.rest.heap.object? (.handle ⟨.readyBuilder, id⟩) = some (.readyBuilder b) :=
    hbuilder
  rw [Step.exec_call hattribute hnamed hvs, Method.run]
  simp only [Action.exec_bind, Act.exec_object?, hobject]

/-- What is done with a builder of a finished sandwich. -/
inductive ReadyMove where
  | withBody (v : Value)
  | withTop (v : Value)
  | build

namespace ReadyMove

def step (builder : Value) : ReadyMove → Step
  | withBody v => .call (.value builder) Method.withBody.name [.value (.value v)]
  | withTop v => .call (.value builder) Method.withTop.name [.value (.value v)]
  | build => .call (.value builder) Method.build.name []

def outcome (builder : Value) (w : World State) (m : ReadyMove) :
    Except Fault Value × World State :=
  (m.step builder).run.exec w

def after (builder : Value) (w : World State) (moves : List ReadyMove) : World State :=
  moves.foldl (fun w m => (m.outcome builder w).2) w

theorem outcome_build (h : w.rest.heap.HasReady builder id b) :
    build.outcome builder w = closing b.body b.top (closedBy w.rest.heap b.body b.top) w := by
  rw [outcome, step, exec_callReady h (by decide) (Step.exec_no_arguments w)]
  exact exec_closed b.body b.top w

end ReadyMove

end Builders

/-! ### The closers -/

end Deli.Session
