import Deli.Proofs.Session.Literals

/-! What is asked of the objects of a session and of its states. A body has something on it, and a
finished sandwich lies on a body that is there and is the one that it shows; whatever else is held
anywhere is sound. -/

namespace Deli.Session

/-- The values that an interpreter holds on to. -/
def interpreterHeld : Interpreter → List Value
  | .real | .crazy => []
  | .stocked pantry => pantry.stock
  | .faulty failAt => [failAt]

def Callable.held : Callable → List Value
  | built i _ => interpreterHeld i
  | stockedFrom storage _ => [storage]
  | forward _ t | raise _ t | fail _ t => t.literals
  | callback f => f.literals
  | recipe r => (RecipeTerm.steps r).literals
  | succeed | giveUp => []
  | method v _ | plus v | close v => [v]
  | addNext technology t | finishWith technology t => technology :: t.literals

instance : Lasting Interpreter := .ofHeld interpreterHeld

instance : Lasting Callable := .ofHeld Callable.held

/-- A body has something on it, a finished sandwich lies on the body that it shows, and whatever
else an object holds is sound. A form with other fields than its own is not fit. -/
def Object.Fit (h : Heap) : Object → Prop
  | list items | set items => Sound h items
  | mapping entries => Sound h entries
  | body b => b.Filled
  | ready v r => ∃ id, v = .handle ⟨.body, id⟩ ∧ h.objects[id]? = some (.body r.body)
  | bodyBuilder b => Sound h b
  | readyBuilder b => Sound h b
  | technologyBuilder b | technology b => Sound h b
  | callable c => Sound h c
  | config c => Sound h c
  | book v | pantry v => Sound h v
  | kitchen b t => Sound h b ∧ Sound h t
  | outcome => True
  | loose .. => False

theorem Object.Fit.mono {h h' : Heap} (hle : h ≤ h') {o : Object} (ho : o.Fit h) : o.Fit h' := by
  cases o with
  | body b => exact ho
  | ready v r =>
    obtain ⟨id, rfl, hb⟩ := ho
    exact ⟨id, rfl, Heap.body_of_le hle hb⟩
  | kitchen b t => exact ⟨ho.1.mono hle, ho.2.mono hle⟩
  | outcome => trivial
  | loose kind fields => exact ho.elim
  | _ => exact Lasting.mono hle ho

instance : Lasting Object where
  Sound h o := o.Fit h
  mono hle ho := Object.Fit.mono hle ho

instance : Lasting Bound where
  Sound h
    | .value w => Sound h w
    | .method v _ => Sound h v
  mono {_ _ f} hle hf := by cases f <;> exact Lasting.Sound.mono hf hle

instance : Lasting Subject where
  Sound h
    | .argument x => Sound h x
    | .operation _ x y => Sound h x ∧ Sound h y
  mono {_ _ s} hle hs := by
    cases s with
    | argument x => exact Lasting.Sound.mono hs hle
    | operation name x y => exact ⟨hs.1.mono hle, hs.2.mono hle⟩

/-! ### Whole states -/

structure Heap.Valid (h : Heap) : Prop where
  objects {id : Nat} {o : Object} : h.objects[id]? = some o → Sound h o
  attributes : ∀ e ∈ h.attributes, Sound h e.2

/-- A call with the heap as it was when it came. -/
structure Call.Valid (c : Call) : Prop where
  heap : c.heap.Valid
  subject : Sound c.heap c.subject

structure State.Valid (s : State) : Prop where
  heap : s.heap.Valid
  registers : ∀ e ∈ s.registers, Sound s.heap e.2
  calls : ∀ c ∈ s.calls, c.Valid

structure Answer.Valid (a : Answer) : Prop where
  heap : a.heap.Valid
  result {v : Value} : a.result = .ok v → Sound a.heap v
  calls : ∀ c ∈ a.calls, c.Valid

end Deli.Session
