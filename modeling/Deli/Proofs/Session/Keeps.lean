import Deli.Proofs.Exec
import Deli.Proofs.Session.Looking

/-! Actions that keep a session in order. From a valid state they come to a valid one, the heap has
only grown, and what they return is sound. The heap that an action is known to start from, and what
is sound in it, are handed on from step to step: whatever holds there holds of all later heaps. -/

namespace Deli.Session

variable {α β : Type} [Lasting α] [Lasting β] {h : Heap}

/-- What has come of an action. -/
structure Kept (w : World State) (out : Except Fault α × World State) : Prop where
  valid : out.2.rest.Valid
  le : w.rest.heap ≤ out.2.rest.heap
  sound {x : α} : out.1 = .ok x → Sound out.2.rest.heap x

/-- From heaps that have come from `h`, an action keeps everything in order. -/
def Keeps (h : Heap) (a : Act α) : Prop :=
  ∀ w : World State, w.rest.Valid → h ≤ w.rest.heap → Kept w (a.exec w)

/-- A function that keeps everything in order wherever it is called on something sound. -/
def KeepsFrom (h : Heap) (f : α → Act β) : Prop :=
  ∀ h' x, h ≤ h' → Sound h' x → Keeps h' (f x)

theorem KeepsFrom.mono {h' : Heap} {f : α → Act β} (hf : KeepsFrom h f) (hle : h ≤ h') :
    KeepsFrom h' f := fun h'' x hle' => hf h'' x (hle.trans hle')

/-- The same for two arguments. -/
def KeepsFrom₂ {γ : Type} [Lasting γ] (h : Heap) (f : α → β → Act γ) : Prop :=
  ∀ h' x y, h ≤ h' → Sound h' x → Sound h' y → Keeps h' (f x y)

theorem KeepsFrom₂.mono {γ : Type} [Lasting γ] {h' : Heap} {f : α → β → Act γ}
    (hf : KeepsFrom₂ h f) (hle : h ≤ h') : KeepsFrom₂ h' f :=
  fun h'' x y hle' => hf h'' x y (hle.trans hle')

/-- An action that leaves the objects and all that is noted as they are. -/
theorem Kept.of_rest {w : World State} {out : Except Fault α × World State} (hw : w.rest.Valid)
    (hrest : out.2.rest = w.rest) (hout : ∀ x, out.1 = .ok x → Sound w.rest.heap x) :
    Kept w out where
  valid := hrest ▸ hw
  le := by rw [hrest]
  sound hx := hrest ▸ hout _ hx

namespace Keeps

theorem mono {h' : Heap} {a : Act α} (ha : Keeps h a) (hle : h ≤ h') : Keeps h' a :=
  fun w hw hle' => ha w hw (hle.trans hle')

theorem pure {x : α} (hx : Sound h x) : Keeps h (pure x) :=
  fun _ hw hle => .of_rest hw rfl fun _ hout => by
    cases hout
    exact hx.mono hle

theorem throw (e : Fault) : Keeps h (throw e : Act α) :=
  fun _ hw _ => .of_rest hw rfl fun _ hout => by cases hout

theorem bind {a : Act α} {f : α → Act β} (ha : Keeps h a) (hf : KeepsFrom h f) :
    Keeps h (a >>= f) := by
  intro w hw hle
  obtain ⟨hvalid, hle', hsound⟩ := ha w hw hle
  rw [Action.exec_bind]
  rcases hout : a.exec w with ⟨_ | x, w'⟩ <;> rw [hout] at hvalid hle' hsound
  · exact ⟨hvalid, hle', fun hx => by cases hx⟩
  · obtain ⟨hvalid₂, hle₂, hsound₂⟩ :=
      hf w'.rest.heap x (hle.trans hle') (hsound rfl) w' hvalid le_rfl
    exact ⟨hvalid₂, hle'.trans hle₂, hsound₂⟩

theorem map {a : Act α} {f : α → β} (ha : Keeps h a)
    (hf : ∀ h' x, h ≤ h' → Sound h' x → Sound h' (f x)) : Keeps h (f <$> a) := by
  rw [map_eq_pure_bind]
  exact ha.bind fun h' x hle hx => .pure (hf h' x hle hx)

theorem tryCatch {a : Act α} {f : Fault → Act α} (ha : Keeps h a) (hf : ∀ e, Keeps h (f e)) :
    Keeps h (tryCatch a f) := by
  intro w hw hle
  obtain ⟨hvalid, hle', hsound⟩ := ha w hw hle
  rw [Action.exec_tryCatch]
  rcases hout : a.exec w with ⟨e | x, w'⟩ <;> rw [hout] at hvalid hle' hsound
  · obtain ⟨hvalid₂, hle₂, hsound₂⟩ := hf e w' hvalid (hle.trans hle')
    exact ⟨hvalid₂, hle'.trans hle₂, hsound₂⟩
  · exact ⟨hvalid, hle', hsound⟩

theorem ite {c : Prop} [Decidable c] {a b : Act α} (ha : Keeps h a) (hb : Keeps h b) :
    Keeps h (if c then a else b) := by
  split
  · exact ha
  · exact hb

end Keeps

theorem keeps_print (s : String) : Keeps h (Action.print s) :=
  fun _ hw _ => .of_rest hw rfl fun _ _ => trivial

theorem keeps_newFault {c : Cause} (hc : Sound h c) : Keeps h (Action.newFault c) :=
  fun _ hw hle => .of_rest hw rfl fun _ hout => by
    cases hout
    exact hc.mono hle

theorem keeps_tell (line : Line) : Keeps h (Action.tell line) := by
  intro w hw _
  have htell : (Action.tell line).run w = w.telling line fun w => (.ok (), w) :=
    Action.exec_tell line w
  have hrest : ((Action.tell line).run w).2.rest = w.rest := by
    rw [htell, World.rest_telling (ω := State) fun _ => rfl]
  exact .of_rest hw hrest fun _ _ => trivial

theorem keeps_raise (c : Cause) : Keeps h (Action.raise c : Act α) :=
  fun _ hw _ => .of_rest hw rfl fun _ hout => by cases hout

theorem keeps_raiseValue (v : Value) : Keeps h (Action.raiseValue v : Act α) := by
  cases v with
  | fault e => exact .throw e
  | _ => exact keeps_raise _

theorem keeps_ofExcept {x : Except Cause α} (hx : ∀ a, x = .ok a → Sound h a) :
    Keeps h (Action.ofExcept x) := by
  cases x with
  | ok a => exact .pure (hx a rfl)
  | error c => exact keeps_raise c

/-- What comes after a check may count on it having been passed. -/
theorem keeps_bind_ofExcept {γ : Type} {x : Except Cause γ} {f : γ → Act α}
    (hf : ∀ a, x = .ok a → Keeps h (f a)) : Keeps h (Action.ofExcept x >>= f) := by
  cases x with
  | ok a => exact hf a rfl
  | error c =>
    intro w hw hle
    exact keeps_raise (α := α) c w hw hle

/-! ### Changes of the state -/

/-- A heap that has grown is valid if all that is new in it is sound. -/
theorem Heap.Valid.of_le {h h' : Heap} (hh : h.Valid) (hle : h ≤ h')
    (hobjects : ∀ (id : Nat) (o : Object), h'.objects[id]? = some o → h.objects[id]? = some o ∨ Sound h' o)
    (hattributes : ∀ e ∈ h'.attributes, e ∈ h.attributes ∨ Sound h' e.2) : h'.Valid where
  objects {id o} ho := by
    rcases hobjects id o ho with hold | hnew
    · exact (hh.objects hold).mono hle
    · exact hnew
  attributes e he := by
    rcases hattributes e he with hold | hnew
    · exact (hh.attributes e hold).mono hle
    · exact hnew

theorem keeps_modifyHeap {f : Heap → Heap}
    (hf : ∀ h', h ≤ h' → h'.Valid → h' ≤ f h' ∧ (f h').Valid) : Keeps h (Act.modifyHeap f) := by
  intro w hw hle
  obtain ⟨hle', hvalid⟩ := hf w.rest.heap hle hw.heap
  exact ⟨⟨hvalid, fun e he => (hw.registers e he).mono hle', hw.calls⟩, hle', fun _ => trivial⟩

theorem keeps_write {v : Value} (hv : Sound h v) (owner : Owner) (name : String) :
    Keeps h (Act.modifyHeap (·.write owner name v)) :=
  keeps_modifyHeap fun h' hle hvalid => by
    have hle' := h'.le_write owner name v
    refine ⟨hle', hvalid.of_le hle' (fun _ _ ho => .inl ho) fun e he => ?_⟩
    rcases List.mem_cons.mp he with rfl | he
    · exact .inr (hv.mono (hle.trans hle'))
    · exact .inl he

theorem keeps_append {os : Array Object} (hos : ∀ o ∈ os, Sound h o) :
    Keeps h (Act.modifyObjects (· ++ os)) :=
  keeps_modifyHeap fun h' hle hvalid => by
    have hle' := h'.le_append os
    refine ⟨hle', hvalid.of_le hle' (fun id o ho => ?_) fun _ he => .inl he⟩
    by_cases hid : id < h'.objects.size
    · rw [Array.getElem?_append_left hid] at ho
      exact .inl ho
    · rw [Array.getElem?_append_right (by omega)] at ho
      exact .inr ((hos o (Array.mem_of_getElem? ho)).mono (hle.trans hle'))

/-- Objects that a value names may be replaced by objects of the same kind, but for sandwiches. -/
theorem keeps_replace {v : Value} {o : Object} (ho : Sound h o) (hv : h.Names v o.kind)
    (hfinal : isFinal o.kind = false) : Keeps h (Act.replace v o) := by
  cases v with
  | handle g =>
    change Keeps h (Act.modifyHeap fun heap =>
      { heap with objects := heap.objects.setIfInBounds g.id o })
    refine keeps_modifyHeap fun h' hle hvalid => ?_
    obtain ⟨p, hp, hkind⟩ := hv.mono hle
    have hle' : h' ≤ { h' with objects := h'.objects.setIfInBounds g.id o } :=
      Heap.le_set hp hkind.symm (by rwa [hkind])
    refine ⟨hle', hvalid.of_le hle' (fun id o' ho' => ?_) fun _ he => .inl he⟩
    by_cases hid : g.id = id
    · subst hid
      have hlt : g.id < h'.objects.size := (Array.getElem?_eq_some_iff.mp hp).1
      rw [Array.getElem?_setIfInBounds_self_of_lt hlt, Option.some.injEq] at ho'
      exact .inr (ho' ▸ ho.mono (hle.trans hle'))
    · rw [Array.getElem?_setIfInBounds_ne hid] at ho'
      exact .inl ho'
  | _ =>
    obtain ⟨p, hp, -⟩ := hv
    cases hp

/-- What comes after making an object may count on it being there. -/
theorem keeps_bind_allocate {o : Object} (ho : Sound h o) {f : Value → Act α}
    (hf : ∀ h' id, h ≤ h' → h'.objects[id]? = some o → Keeps h' (f (.handle ⟨o.kind, id⟩))) :
    Keeps h (Act.allocate o >>= f) := by
  intro w hw hle
  let h' : Heap := { w.rest.heap with objects := w.rest.heap.objects.push o }
  have hle' : w.rest.heap ≤ h' := w.rest.heap.le_push o
  have hvalid : h'.Valid := by
    refine hw.heap.of_le hle' (fun id o' ho' => ?_) fun _ he => .inl he
    rw [Array.getElem?_push] at ho'
    split at ho'
    · cases ho'
      exact .inr (ho.mono (hle.trans hle'))
    · exact .inl ho'
  have hstate : State.Valid { w.rest with heap := h' } :=
    ⟨hvalid, fun e he => (hw.registers e he).mono hle', hw.calls⟩
  have hnew : h'.objects[w.rest.heap.objects.size]? = some o := Array.getElem?_push_size
  obtain ⟨hvalid₂, hle₂, hsound₂⟩ :=
    hf h' _ (hle.trans hle') hnew { w with rest := { w.rest with heap := h' } } hstate le_rfl
  exact ⟨hvalid₂, hle'.trans hle₂, hsound₂⟩

theorem keeps_allocate {o : Object} (ho : Sound h o) : Keeps h (Act.allocate o) := by
  rw [← bind_pure (Act.allocate o)]
  refine keeps_bind_allocate ho fun h' id _ hid => .pure ?_
  cases o with
  | body b => exact sound_handle.mpr ⟨b, hid⟩
  | loose kind fields => exact ho.elim
  | _ => exact sound_handle_of_ne (by simp [Object.kind])

/-! ### Looking at the state -/

theorem keeps_bind_state {f : State → Act β}
    (hf : ∀ s : State, h ≤ s.heap → s.Valid → Keeps s.heap (f s)) : Keeps h (Act.state >>= f) :=
  fun w hw hle => hf w.rest hle hw w hw le_rfl

theorem keeps_bind_heap {f : Heap → Act β}
    (hf : ∀ h', h ≤ h' → h'.Valid → Keeps h' (f h')) : Keeps h (Act.heap >>= f) :=
  fun w hw hle => hf w.rest.heap hle hw.heap w hw le_rfl

theorem keeps_bind_object? {v : Value} {f : Option Object → Act β}
    (hf : ∀ h', h ≤ h' → h'.Valid → Keeps h' (f (h'.object? v))) :
    Keeps h (Act.object? v >>= f) :=
  fun w hw hle => hf w.rest.heap hle hw.heap w hw le_rfl

theorem keeps_bind_opened {v : Value} {f : Value → Act β}
    (hf : ∀ h', h ≤ h' → h'.Valid → Keeps h' (f (h'.opened 3 v))) :
    Keeps h (Act.opened v >>= f) :=
  fun w hw hle => hf w.rest.heap hle hw.heap w hw le_rfl

theorem keeps_seen {look : Heap → Except Cause α}
    (hlook : ∀ h', h ≤ h' → h'.Valid → ∀ x, look h' = .ok x → Sound h' x) :
    Keeps h (Act.seen look) :=
  keeps_bind_heap fun h' hle hh => keeps_ofExcept (hlook h' hle hh)

theorem keeps_note {s : Subject} (hs : Sound h s) : Keeps h (Act.note s) :=
  fun w hw hle => by
    refine ⟨⟨hw.heap, hw.registers, fun c hc => ?_⟩, le_rfl, fun _ => trivial⟩
    rcases List.mem_cons.mp hc with rfl | hc
    · exact ⟨hw.heap, hs.mono hle⟩
    · exact hw.calls c hc

theorem keeps_setRegister {v : Value} (hv : Sound h v) (name : String) :
    Keeps h (Act.setRegister name v) :=
  fun w hw hle => by
    refine ⟨⟨hw.heap, fun e he => ?_, hw.calls⟩, le_rfl, fun _ => trivial⟩
    rcases List.mem_cons.mp he with rfl | he
    · exact hv.mono hle
    · exact hw.registers e he

theorem keeps_register (name : String) : Keeps h (Act.register name) := by
  refine keeps_bind_state fun s _ hs => ?_
  have hfound := sound_of_lookup hs.registers name
  split
  next v hv => exact .pure (hfound v hv)
  next => exact keeps_raise _

/-! ### Loops -/

theorem keeps_anyM {γ : Type} {p : γ → Act Bool} (hp : ∀ x, Keeps h (p x)) (xs : List γ) :
    Keeps h (xs.anyM p) := by
  induction xs with
  | nil => exact .pure trivial
  | cons x xs ih =>
    refine (hp x).bind fun h₁ found hle _ => ?_
    cases found with
    | true => exact .pure trivial
    | false => exact ih.mono hle

theorem keeps_findM? {p : α → Act Bool} (hp : ∀ x, Keeps h (p x)) {xs : List α}
    (hxs : Sound h xs) : Keeps h (xs.findM? p) := by
  induction xs with
  | nil => exact .pure sound_none
  | cons x xs ih =>
    obtain ⟨hx, hxs⟩ := sound_cons.mp hxs
    refine (hp x).bind fun h₁ found hle _ => ?_
    cases found with
    | true => exact .pure (sound_some.mpr (hx.mono hle))
    | false => exact (ih hxs).mono hle

theorem keeps_filterM {p : α → Act Bool} (hp : ∀ x, Keeps h (p x)) {xs : List α}
    (hxs : Sound h xs) : Keeps h (xs.filterM p) := by
  have hloop (xs kept : List α) (hxs : Sound h xs) (hkept : Sound h kept) :
      Keeps h (xs.filterAuxM p kept) := by
    induction xs generalizing kept with
    | nil => exact .pure hkept
    | cons x xs ih =>
      obtain ⟨hx, hxs⟩ := sound_cons.mp hxs
      refine (hp x).bind fun h₁ found hle _ => ?_
      cases found with
      | true => exact (ih _ hxs (sound_cons.mpr ⟨hx, hkept⟩)).mono hle
      | false => exact (ih _ hxs hkept).mono hle
  refine (hloop xs [] hxs sound_nil).bind fun h₁ kept _ hkept => .pure ?_
  exact fun x hx => hkept x (List.mem_reverse.mp hx)

theorem keeps_mapM {γ : Type} {f : γ → Act α} {xs : List γ} (hf : ∀ x ∈ xs, Keeps h (f x)) :
    Keeps h (xs.mapM f) := by
  induction xs with
  | nil => exact .pure sound_nil
  | cons x xs ih =>
    obtain ⟨hx, hxs⟩ := List.forall_mem_cons.mp hf
    rw [List.mapM_cons]
    refine hx.bind fun h₁ y hle₁ hy => ((ih hxs).mono hle₁).bind fun h₂ ys hle₂ hys => .pure ?_
    exact sound_cons.mpr ⟨hy.mono hle₂, hys⟩

theorem keeps_foldlM {f : α → β → Act α} {xs : List β}
    (hf : ∀ h' a x, h ≤ h' → Sound h' a → Sound h' x → Keeps h' (f a x)) {a : α}
    (ha : Sound h a) (hxs : Sound h xs) : Keeps h (xs.foldlM f a) := by
  induction xs generalizing h a with
  | nil => exact .pure ha
  | cons x xs ih =>
    obtain ⟨hx, hxs⟩ := sound_cons.mp hxs
    rw [List.foldlM_cons]
    refine (hf h a x le_rfl ha hx).bind fun h₁ b hle hb => ?_
    exact ih (fun h' a x hle' => hf h' a x (hle.trans hle')) hb (hxs.mono hle)

end Deli.Session
