import Deli.Session.State
import Mathlib.Order.Basic

/-! Heaps that grow. Objects may be added and changed, but never into objects of another kind, and
sandwiches not at all; so a handle goes on naming what it names, and a sandwich that is there stays
as it is. -/

namespace Deli.Session

/-- Sandwiches are never changed. -/
def isFinal : Kind → Bool
  | .body | .ready => true
  | _ => false

/-- Objects keep their numbers and their kinds, and the final ones stay as they are. -/
def Heap.Grows (h h' : Heap) : Prop :=
  ∀ (id : Nat) (o : Object), h.objects[id]? = some o →
    ∃ o', h'.objects[id]? = some o' ∧ o'.kind = o.kind ∧ (isFinal o.kind → o' = o)

theorem Heap.Grows.trans {h₁ h₂ h₃ : Heap} (h₁₂ : h₁.Grows h₂) (h₂₃ : h₂.Grows h₃) :
    h₁.Grows h₃ := by
  intro id o ho
  obtain ⟨o₂, ho₂, hkind₂, hfinal₂⟩ := h₁₂ id o ho
  obtain ⟨o₃, ho₃, hkind₃, hfinal₃⟩ := h₂₃ id o₂ ho₂
  refine ⟨o₃, ho₃, hkind₃.trans hkind₂, fun hfinal => ?_⟩
  rw [hfinal₃ (by rwa [hkind₂]), hfinal₂ hfinal]

instance : Preorder Heap where
  le := Heap.Grows
  le_refl _ _ o ho := ⟨o, ho, rfl, fun _ => rfl⟩
  le_trans _ _ _ := Heap.Grows.trans

namespace Heap

variable {h h' : Heap}

theorem le_iff : h ≤ h' ↔ h.Grows h' := Iff.rfl

theorem body_of_le (hle : h ≤ h') {id : Nat} {b : Body}
    (hb : h.objects[id]? = some (.body b)) : h'.objects[id]? = some (.body b) := by
  obtain ⟨o, ho, -, hfinal⟩ := le_iff.mp hle id _ hb
  rw [ho, hfinal rfl]

/-- A value names an object of a kind. -/
def Names (h : Heap) (v : Value) (k : Kind) : Prop := ∃ o, h.object? v = some o ∧ o.kind = k

theorem Names.mono {v : Value} {k : Kind} (hv : h.Names v k) (hle : h ≤ h') : h'.Names v k := by
  obtain ⟨o, ho, hkind⟩ := hv
  cases v with
  | handle g =>
    obtain ⟨o', ho', hkind', -⟩ := le_iff.mp hle g.id o ho
    exact ⟨o', ho', hkind'.trans hkind⟩
  | _ => cases ho

theorem le_push (h : Heap) (o : Object) : h ≤ { h with objects := h.objects.push o } := by
  refine le_iff.mpr fun id p hp => ?_
  obtain ⟨hid, hp⟩ := Array.getElem?_eq_some_iff.mp hp
  exact ⟨p, by rw [Array.getElem?_push_lt hid, hp], rfl, fun _ => rfl⟩

theorem le_append (h : Heap) (os : Array Object) :
    h ≤ { h with objects := h.objects ++ os } := by
  refine le_iff.mpr fun id p hp => ?_
  have hid : id < h.objects.size := (Array.getElem?_eq_some_iff.mp hp).1
  exact ⟨p, by rw [Array.getElem?_append_left hid, hp], rfl, fun _ => rfl⟩

/-- Another object may stand in the place of one that is not final, if it is of the same kind. -/
theorem le_set {id : Nat} {o p : Object} (hp : h.objects[id]? = some p) (hkind : o.kind = p.kind)
    (hfinal : isFinal p.kind = false) :
    h ≤ { h with objects := h.objects.setIfInBounds id o } := by
  refine le_iff.mpr fun id' q hq => ?_
  by_cases hid : id = id'
  · subst hid
    have hqp : q = p := by
      rw [hp, Option.some.injEq] at hq
      exact hq.symm
    subst hqp
    have hlt : id < h.objects.size := (Array.getElem?_eq_some_iff.mp hq).1
    refine ⟨o, Array.getElem?_setIfInBounds_self_of_lt hlt, hkind, fun hf => ?_⟩
    rw [hfinal] at hf
    cases hf
  · exact ⟨q, by rw [Array.getElem?_setIfInBounds_ne hid, hq], rfl, fun _ => rfl⟩

theorem le_write (h : Heap) (owner : Owner) (name : String) (v : Value) :
    h ≤ h.write owner name v := le_iff.mpr fun _ o ho => ⟨o, ho, rfl, fun _ => rfl⟩

end Heap

end Deli.Session
