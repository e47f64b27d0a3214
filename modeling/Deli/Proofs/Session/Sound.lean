import Deli.Proofs.Sandwich
import Deli.Proofs.Session.Growth

/-! What is asked of values. A body has something on it, a handle of a body names one, and so it is
with all that is in a value and all data that hold values. What is sound in a heap stays sound
while the heap grows. -/

namespace Deli

/-- The values that a fault was made with. -/
def Cause.held : Cause → List Value
  | recipe _ asked => [asked]
  | storage _ ingredient | notFound _ ingredient => [ingredient]
  | _ => []

/-- What is in a value, one level down. -/
def Value.held : Value → List Value
  | list items | tuple items => items
  | mapping entries => entries.flatMap fun (k, v) => [k, v]
  | ready r => [body r.body]
  | success v | failure v => [v]
  | fault e => e.cause.held
  | _ => []

/-- `P` holds of a value and of everything in it. -/
inductive Value.All (P : Value → Prop) : Value → Prop
  | intro {v : Value} (here : P v) (held : ∀ u ∈ v.held, All P u) : All P v

theorem Value.all_iff {P : Value → Prop} {v : Value} :
    v.All P ↔ P v ∧ ∀ u ∈ v.held, u.All P := by
  constructor
  · rintro ⟨here, held⟩
    exact ⟨here, held⟩
  · rintro ⟨here, held⟩
    exact .intro here held

theorem Value.All.imp {P Q : Value → Prop} (hPQ : ∀ v, P v → Q v) {v : Value} (h : v.All P) :
    v.All Q := by
  induction h with
  | intro here _ ih => exact .intro (hPQ _ here) ih

namespace Session

/-- What is asked of a value by itself. -/
def Proper (h : Heap) : Value → Prop
  | .body b => b.Filled
  | .handle ⟨.body, id⟩ => ∃ b, h.objects[id]? = some (.body b)
  | _ => True

theorem Proper.mono {h h' : Heap} (hle : h ≤ h') {v : Value} (hv : Proper h v) : Proper h' v := by
  cases v with
  | handle g =>
    obtain ⟨kind, id⟩ := g
    cases kind with
    | body =>
      obtain ⟨b, hb⟩ := hv
      exact ⟨b, Heap.body_of_le hle hb⟩
    | _ => trivial
  | body b => exact hv
  | _ => trivial

/-- Data that can be sound in a heap, and stay so while it grows. -/
class Lasting (α : Type) where
  Sound : Heap → α → Prop
  mono {h h' : Heap} {a : α} : h ≤ h' → Sound h a → Sound h' a

export Lasting (Sound)

theorem Lasting.Sound.mono {α : Type} [Lasting α] {h h' : Heap} {a : α} (ha : Sound h a)
    (hle : h ≤ h') : Sound h' a := Lasting.mono hle ha

instance : Lasting Value where
  Sound h v := v.All (Proper h)
  mono hle := Value.All.imp fun _ => Proper.mono hle

section Lasting

variable {α β : Type}

/-- Data that hold values, each of which has to be sound. -/
@[reducible]
def Lasting.ofHeld (held : α → List Value) : Lasting α where
  Sound h a := ∀ v ∈ held a, Sound h v
  mono hle ha v hv := Lasting.mono hle (ha v hv)

/-- Data that hold no values. -/
@[reducible]
def Lasting.always : Lasting α where
  Sound _ _ := True
  mono _ _ := trivial

instance : Lasting Unit := .always

instance : Lasting Bool := .always

instance : Lasting Nat := .always

instance : Lasting Int := .always

instance : Lasting String := .always

instance [Lasting α] : Lasting (List α) where
  Sound h xs := ∀ x ∈ xs, Sound h x
  mono hle hxs x hx := Lasting.mono hle (hxs x hx)

instance [Lasting α] : Lasting (Option α) where
  Sound h x? := ∀ x, x? = some x → Sound h x
  mono hle hx x h := Lasting.mono hle (hx x h)

instance [Lasting α] [Lasting β] : Lasting (α × β) where
  Sound h p := Sound h p.1 ∧ Sound h p.2
  mono hle hp := ⟨Lasting.mono hle hp.1, Lasting.mono hle hp.2⟩

instance : Lasting Cause := .ofHeld Cause.held

instance : Lasting Fault := .ofHeld fun e => e.cause.held

instance : Lasting Body where
  Sound _ b := b.Filled
  mono _ hb := hb

instance : Lasting Ready where
  Sound _ r := r.body.Filled
  mono _ hr := hr

instance : Lasting Pantry := .ofHeld Pantry.stock

instance : Lasting Bindings := .ofHeld fun b => [b.start, b.add, b.finish]

instance : Lasting BodyBuilder := .ofHeld fun b => [b.bottom, b.components]

instance : Lasting ReadyBuilder := .ofHeld fun b => [b.body, b.top]

instance : Lasting Config := .ofHeld fun c => [c.interpreter, c.recipe, c.pantry, c.failAt]

variable [Lasting α] [Lasting β] {h : Heap}

@[simp] theorem sound_plain_string (s : String) : Sound h s := trivial

@[simp] theorem sound_nil : Sound h ([] : List α) := by
  rintro x ⟨⟩

@[simp] theorem sound_cons {x : α} {xs : List α} :
    Sound h (x :: xs) ↔ Sound h x ∧ Sound h xs := List.forall_mem_cons

@[simp] theorem sound_append {xs ys : List α} :
    Sound h (xs ++ ys) ↔ Sound h xs ∧ Sound h ys := List.forall_mem_append

@[simp] theorem sound_none : Sound h (none : Option α) := by
  rintro x ⟨⟩

@[simp] theorem sound_some {x : α} : Sound h (some x) ↔ Sound h x := by
  constructor
  · exact fun hx => hx x rfl
  · rintro hx _ ⟨⟩
    exact hx

@[simp] theorem sound_pair {x : α} {y : β} : Sound h (x, y) ↔ Sound h x ∧ Sound h y := Iff.rfl

theorem sound_bodyBuilder {b : BodyBuilder} :
    Sound h b ↔ Sound h b.bottom ∧ Sound h b.components := by
  change Sound h [b.bottom, b.components] ↔ _
  simp only [sound_cons, sound_nil, and_true]

theorem sound_readyBuilder {b : ReadyBuilder} : Sound h b ↔ Sound h b.body ∧ Sound h b.top := by
  change Sound h [b.body, b.top] ↔ _
  simp only [sound_cons, sound_nil, and_true]

theorem sound_bindings {b : Bindings} :
    Sound h b ↔ Sound h b.start ∧ Sound h b.add ∧ Sound h b.finish := by
  change Sound h [b.start, b.add, b.finish] ↔ _
  simp only [sound_cons, sound_nil, and_true]

theorem sound_config {c : Config} : Sound h c ↔
    Sound h c.interpreter ∧ Sound h c.recipe ∧ Sound h c.pantry ∧ Sound h c.failAt := by
  change Sound h [c.interpreter, c.recipe, c.pantry, c.failAt] ↔ _
  simp only [sound_cons, sound_nil, and_true]

theorem sound_map {γ : Type} {f : γ → α} {xs : List γ} :
    Sound h (xs.map f) ↔ ∀ x ∈ xs, Sound h (f x) := List.forall_mem_map

end Lasting

section Values

variable {h : Heap}

theorem sound_iff {v : Value} : Sound h v ↔ Proper h v ∧ ∀ u ∈ v.held, Sound h u := Value.all_iff

/-- Plain data are sound. -/
theorem sound_of_plain {v : Value} (hv : Proper h v) (hheld : v.held = []) : Sound h v := by
  rw [sound_iff, hheld]
  exact ⟨hv, by simp⟩

@[simp] theorem sound_null : Sound h Value.null := sound_of_plain trivial rfl

@[simp] theorem sound_bool (b : Bool) : Sound h (Value.bool b) := sound_of_plain trivial rfl

@[simp] theorem sound_int (n : Int) : Sound h (Value.int n) := sound_of_plain trivial rfl

@[simp] theorem sound_string (s : String) : Sound h (Value.string s) := sound_of_plain trivial rfl

@[simp] theorem sound_broken (codes : List Nat) : Sound h (Value.broken codes) :=
  sound_of_plain trivial rfl

@[simp] theorem sound_bytes (octets : List UInt8) : Sound h (Value.bytes octets) :=
  sound_of_plain trivial rfl

@[simp] theorem sound_decimal (d : Decimal) : Sound h (Value.decimal d) :=
  sound_of_plain trivial rfl

@[simp] theorem sound_datum (d : Datum) : Sound h (Value.datum d) := sound_of_plain trivial rfl

@[simp] theorem sound_bread (b : Bread) : Sound h (Value.bread b) := sound_of_plain trivial rfl

@[simp] theorem sound_component (c : Component) : Sound h (Value.component c) :=
  sound_of_plain trivial rfl

@[simp] theorem sound_operation (o : Operation) : Sound h (Value.operation o) :=
  sound_of_plain trivial rfl

@[simp] theorem sound_list {items : List Value} : Sound h (Value.list items) ↔ Sound h items := by
  rw [sound_iff]
  simp [Proper, Value.held, Sound]

@[simp] theorem sound_tuple {items : List Value} :
    Sound h (Value.tuple items) ↔ Sound h items := by
  rw [sound_iff]
  simp [Proper, Value.held, Sound]

@[simp] theorem sound_mapping {entries : List (Value × Value)} :
    Sound h (Value.mapping entries) ↔ Sound h entries := by
  rw [sound_iff]
  simp only [Proper, Value.held, List.mem_flatMap, true_and]
  constructor
  · exact fun hheld e he => ⟨hheld _ ⟨e, he, by simp⟩, hheld _ ⟨e, he, by simp⟩⟩
  · rintro hentries u ⟨e, he, hu⟩
    simp only [List.mem_cons, List.not_mem_nil, or_false] at hu
    rcases hu with rfl | rfl
    · exact (hentries e he).1
    · exact (hentries e he).2

@[simp] theorem sound_body {b : Body} : Sound h (Value.body b) ↔ b.Filled := by
  rw [sound_iff]
  simp [Proper, Value.held]

@[simp] theorem sound_ready {r : Ready} : Sound h (Value.ready r) ↔ r.body.Filled := by
  rw [sound_iff]
  simp [Proper, Value.held]

@[simp] theorem sound_success {v : Value} : Sound h (Value.success v) ↔ Sound h v := by
  rw [sound_iff]
  simp [Proper, Value.held]

@[simp] theorem sound_failure {v : Value} : Sound h (Value.failure v) ↔ Sound h v := by
  rw [sound_iff]
  simp [Proper, Value.held]

@[simp] theorem sound_fault {e : Fault} : Sound h (Value.fault e) ↔ Sound h e := by
  rw [sound_iff]
  simp [Proper, Value.held, Sound]

theorem sound_handle {g : Handle} : Sound h (Value.handle g) ↔ Proper h (.handle g) := by
  rw [sound_iff]
  simp [Value.held]

end Values

end Session

end Deli
