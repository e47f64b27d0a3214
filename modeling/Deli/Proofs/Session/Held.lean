import Deli.Proofs.Session.Exec
import Deli.Proofs.Session.Growth

/-! What values name on the heap: builders, each with its components in a list that is an object of
its own, and bodies. A builder is told by the two objects it is in, and as long as these are as they
were so is the builder. -/

namespace Deli.Session

namespace Heap

/-- The builder that a value names, with its components in place. -/
def builder? (heap : Heap) : Value → Option BodyBuilder
  | .handle ⟨.bodyBuilder, id⟩ =>
    match heap.objects[id]? with
    | some (.bodyBuilder ⟨bottom, .handle ⟨.list, list⟩⟩) =>
      match heap.objects[list]? with
      | some (.list items) => some ⟨bottom, .list items⟩
      | _ => none
    | _ => none
  | _ => none

def body? (heap : Heap) : Value → Option Body
  | .handle ⟨.body, id⟩ =>
    match heap.objects[id]? with
    | some (.body b) => some b
    | _ => none
  | _ => none

/-- A value names a builder, which has its components in the list under the number `list`. -/
structure Holds (heap : Heap) (v : Value) (id list : Nat) (bottom : Value) (items : List Value) :
    Prop where
  value : v = .handle ⟨.bodyBuilder, id⟩
  builder : heap.objects[id]? = some (.bodyBuilder ⟨bottom, .handle ⟨.list, list⟩⟩)
  components : heap.objects[list]? = some (.list items)

variable {heap heap' : Heap} {v : Value} {id list : Nat} {bottom : Value} {items : List Value}

theorem builder?_eq_some {b : BodyBuilder} :
    heap.builder? v = some b ↔
      ∃ id list items, b.components = .list items ∧ heap.Holds v id list b.bottom items := by
  constructor
  · intro h
    unfold builder? at h
    split at h
    next id =>
      split at h
      next bottom list hbuilder =>
        split at h
        next items hlist =>
          cases h
          exact ⟨id, list, items, rfl, rfl, hbuilder, hlist⟩
        next => cases h
      next => cases h
    next => cases h
  · rintro ⟨id, list, items, hitems, rfl, hbuilder, hlist⟩
    simp only [builder?, hbuilder, hlist, ← hitems]

theorem Holds.builder? (h : heap.Holds v id list bottom items) :
    heap.builder? v = some ⟨bottom, .list items⟩ :=
  builder?_eq_some.mpr ⟨id, list, items, rfl, h⟩

/-- What a builder holds is told by the value that names it. -/
theorem Holds.unique {id' list' : Nat} {bottom' : Value} {items' : List Value}
    (h : heap.Holds v id list bottom items) (h' : heap.Holds v id' list' bottom' items') :
    id' = id ∧ list' = list ∧ bottom' = bottom ∧ items' = items := by
  obtain ⟨rfl, hbuilder, hlist⟩ := h
  obtain ⟨hv, hbuilder', hlist'⟩ := h'
  cases hv
  rw [hbuilder] at hbuilder'
  cases hbuilder'
  rw [hlist] at hlist'
  cases hlist'
  exact ⟨rfl, rfl, rfl, rfl⟩

theorem body?_eq_some {b : Body} :
    heap.body? v = some b ↔ ∃ id, v = .handle ⟨.body, id⟩ ∧ heap.objects[id]? = some (.body b) := by
  constructor
  · intro h
    unfold body? at h
    split at h
    next id =>
      split at h
      next hb =>
        cases h
        exact ⟨id, rfl, hb⟩
      next => cases h
    next => cases h
  · rintro ⟨id, rfl, hb⟩
    simp only [body?, hb]

theorem body?_push (heap : Heap) (b : Body) :
    (heap.push (.body b)).body? (heap.next (.body b)) = some b :=
  body?_eq_some.mpr ⟨_, rfl, getElem?_push_size _ _⟩

/-- Everything that is in one heap is in another as it is, and no more attributes are written. -/
structure Extends (heap heap' : Heap) : Prop where
  objects {id : Nat} {o : Object} : heap.objects[id]? = some o → heap'.objects[id]? = some o
  attributes : heap'.attributes = heap.attributes

namespace Extends

theorem refl (heap : Heap) : heap.Extends heap := ⟨id, rfl⟩

theorem push (heap : Heap) (o : Object) : heap.Extends (heap.push o) :=
  ⟨fun h => getElem?_push h o, rfl⟩

theorem trans {heap'' : Heap} (h : heap.Extends heap') (h' : heap'.Extends heap'') :
    heap.Extends heap'' :=
  ⟨fun ho => h'.objects (h.objects ho), h'.attributes.trans h.attributes⟩

theorem unwritten (h : heap.Extends heap') (hheap : heap.Unwritten) : heap'.Unwritten := by
  intro id kind m hm
  rw [h.attributes]
  exact hheap id kind m hm

theorem le (h : heap.Extends heap') : heap ≤ heap' :=
  le_iff.mpr fun _ o ho => ⟨o, h.objects ho, rfl, fun _ => rfl⟩

theorem holds (h : heap.Extends heap') (hv : heap.Holds v id list bottom items) :
    heap'.Holds v id list bottom items :=
  ⟨hv.value, h.objects hv.builder, h.objects hv.components⟩

end Extends

theorem body?_of_le (h : heap ≤ heap') {b : Body} (hb : heap.body? v = some b) :
    heap'.body? v = some b := by
  obtain ⟨id, rfl, hobject⟩ := body?_eq_some.mp hb
  exact body?_eq_some.mpr ⟨id, rfl, body_of_le h hobject⟩

namespace Holds

variable {v' : Value} {id' list' : Nat} {bottom' : Value} {items' : List Value}
  (h : heap.Holds v id list bottom items)
include h

/-- Numbers of builders and numbers of lists are never the same. -/
theorem ne_of_holds (h' : heap.Holds v' id' list' bottom' items') : list' ≠ id := by
  rintro rfl
  have hboth := h.builder.symm.trans h'.components
  cases hboth

/-- With another bottom in one builder, all others are as they were. -/
theorem put_builder (h' : heap.Holds v' id' list' bottom' items') (new : Value) :
    (heap.put id (.bodyBuilder ⟨new, .handle ⟨.list, list⟩⟩)).Holds v' id' list'
      (if id' = id then new else bottom') items' := by
  have hcomponents := (getElem?_put_of_ne (h.ne_of_holds h') heap
    (.bodyBuilder ⟨new, .handle ⟨.list, list⟩⟩)).trans h'.components
  refine ⟨h'.value, ?_, hcomponents⟩
  split
  next hid =>
    subst hid
    have hsame := h.builder.symm.trans h'.builder
    cases hsame
    exact getElem?_put h.builder _
  next hid => rw [getElem?_put_of_ne hid, h'.builder]

/-- With other items in one list, all builders that do not have it are as they were. -/
theorem put_list (h' : heap.Holds v' id' list' bottom' items') (new : List Value) :
    (heap.put list (.list new)).Holds v' id' list' bottom'
      (if list' = list then new else items') := by
  have hbuilder := (getElem?_put_of_ne (h'.ne_of_holds h).symm heap (.list new)).trans h'.builder
  refine ⟨h'.value, hbuilder, ?_⟩
  split
  next hlist =>
    subst hlist
    exact getElem?_put h.components _
  next hlist => rw [getElem?_put_of_ne hlist, h'.components]

end Holds

theorem holds_withBuilder (heap : Heap) (bottom : Value) (items : List Value) :
    (heap.withBuilder bottom items).Holds
      (.handle ⟨.bodyBuilder, (heap.push (.list items)).objects.size⟩)
      (heap.push (.list items)).objects.size heap.objects.size bottom items where
  value := rfl
  builder := getElem?_push_size _ _
  components := getElem?_push (getElem?_push_size _ _) _

theorem extends_made (x : Except Cause Body) (w : World State) :
    w.rest.heap.Extends (made x w).2.rest.heap := by
  cases x with
  | ok b => exact .push _ _
  | error c => exact .refl _

theorem isSome_made (x : Except Cause Body) (w : World State) :
    ∀ v ∈ (made x w).1.toOption.toList, ((made x w).2.rest.heap.body? v).isSome := by
  cases x with
  | error c => simp [made, Except.toOption]
  | ok b =>
    intro v hv
    rw [List.mem_singleton.mp hv]
    exact Option.isSome_iff_exists.mpr ⟨b, body?_push _ _⟩

end Heap

end Deli.Session
