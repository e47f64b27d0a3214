import Deli.Proofs.Session.Makers

/-! What a value and a top come to as the fields of a finished sandwich. The value is a body
already, or a mapping, whose fields are checked as those of a body of its own, or else it is no
body; the top is nothing or a bread. However deep the value is looked into, the check is the same.
What has been checked is put on a body that is an object already, or on a new one. -/

namespace Deli

/-! ### Tops -/

namespace Checked

theorem Tells.within {α : Type} {x : Checked α} (hx : x.Tells) (name : String) :
    Tells (x.mapError (·.map (Problem.within name))) := by
  cases x with
  | ok a => exact tells_ok a
  | error problems => simpa [Tells, Except.mapError] using hx

end Checked

namespace Session

/-! ### What a value comes to as a body -/

namespace Heap

variable (heap : Heap)

theorem eq_null_of_shallow {v : Value} (h : heap.shallow v = .null) : v = .null := by
  unfold shallow at h
  split at h
  case h_6 => exact h
  all_goals cases h

theorem eq_null_of_opened {depth : Nat} {v : Value} (h : heap.opened depth v = .null) :
    v = .null := by
  cases depth with
  | zero => exact h
  | succ depth =>
    unfold opened at h
    split at h
    case h_4 => exact heap.eq_null_of_shallow h
    all_goals cases h

theorem components_opened (depth : Nat) (v : Value) :
    Checked.members Component "components" (heap.opened (depth + 1) v) =
      Checked.members Component "components" (heap.shallow v) := by
  unfold opened
  cases heap.shallow v with
  | list items => exact heap.members_opened depth (α := Component) "components" items
  | tuple items => exact heap.members_opened depth (α := Component) "components" items
  | _ => rfl

/-- The fields of a body as a mapping has them. -/
def checkFields (entries : List (Value × Value)) : Checked Body :=
  Body.check (Value.entry? entries "bottom") ((Value.entry? entries "components").map heap.shallow)

/-- It makes no difference how deep the fields are looked into. -/
theorem ofEntries_opened (depth : Nat) (entries : List (Value × Value)) :
    Body.ofEntries (entries.map fun (k, v) => (k, heap.opened (depth + 1) v)) =
      heap.checkFields entries := by
  rw [Body.ofEntries, entry?_map, entry?_map, checkFields, Body.check, Body.check]
  cases Value.entry? entries "bottom" <;> cases Value.entry? entries "components" <;>
    simp only [Option.map_none, Option.map_some, Checked.required, member_opened, components_opened]

/-- What a value comes to as the body of a finished sandwich. -/
def part (v : Value) : Checked Body :=
  match heap.shallow v with
  | .body b => .ok b
  | .mapping entries => (heap.checkFields entries).mapError (·.map (Problem.within "body"))
  | _ => .error [.atField "body" .notBody]

theorem nested_opened (v : Value) : Body.nested "body" (heap.opened 3 v) = heap.part v := by
  unfold part opened
  cases heap.shallow v with
  | mapping entries => exact congrArg (Except.mapError _) (heap.ofEntries_opened 1 entries)
  | _ => rfl

end Heap

/-! ### Mappings as fields -/

section Exec

variable {w : World State}

/-- What becomes of a finished sandwich on `v` that is made by a check. -/
def finished (v : Value) (x : Except Cause Ready) (w : World State) :
    Except Fault Value × World State :=
  match x with
  | .ok r => (Act.allocateReady v r).exec w
  | .error c => (.error (.mk w.nextFault c), w.faulted)

theorem exec_finished (v : Value) (x : Except Cause Ready) (w : World State) :
    (Action.ofExcept x >>= Act.allocateReady v).exec w = finished v x w := by
  cases x <;> rfl

/-- A finished sandwich of the value `v` and the top `t`, both of them given as its fields. -/
def checkReady (heap : Heap) (v t : Value) : Checked Ready :=
  (Checked.both (heap.part v) (Checked.memberOrNull Bread "top" t)).map fun (b, top) => ⟨b, top⟩

/-- The function and the builder ask first whether there is anything to close. -/
def closedBy (heap : Heap) (v t : Value) : Except Cause Ready :=
  match v with
  | .null => .error (.unset "body")
  | v => (checkReady heap v t).mapError (.invalid .ready)

theorem closedBy_of_ne_null {heap : Heap} {v : Value} (h : v ≠ .null) (t : Value) :
    closedBy heap v t = (checkReady heap v t).mapError (.invalid .ready) := by
  unfold closedBy
  split
  next => contradiction
  next => rfl

theorem ofParts_opened (heap : Heap) (v t : Value) :
    Ready.ofParts (heap.opened 3 v) t = closedBy heap v t := by
  by_cases hv : v = .null
  · subst hv
    rfl
  · have hopened : heap.opened 3 v ≠ .null := fun h => hv (heap.eq_null_of_opened h)
    rw [closedBy_of_ne_null hv, Ready.ofParts, ReadyBuilder.build]
    split
    next h => exact absurd h hopened
    next => rw [Ready.check, Checked.required, Checked.optional, Heap.nested_opened, checkReady]

/-- A value names a body that has other fields than its own. -/
def Heap.Loosened (heap : Heap) (v : Value) : Prop :=
  ∃ fields, heap.object? v = some (.loose .body fields)

/-- What becomes of closing `v` with the top `t`, which comes to `x` where `v` is looked into. -/
def closing (v t : Value) (x : Except Cause Ready) (w : World State) :
    Except Fault Value × World State :=
  match w.rest.heap.object? v with
  | some (.loose .body _) => (closedOnLoose v t).exec w
  | _ => finished v x w

theorem closing_of_not_loosened {v : Value} (h : ¬ w.rest.heap.Loosened v) (t : Value)
    (x : Except Cause Ready) : closing v t x w = finished v x w := by
  unfold closing
  split
  next fields hloose => exact absurd ⟨fields, hloose⟩ h
  next => rfl

theorem closing_of_loosened {v : Value} (h : w.rest.heap.Loosened v) (t : Value)
    (x : Except Cause Ready) : closing v t x w = (closedOnLoose v t).exec w := by
  obtain ⟨fields, hloose⟩ := h
  rw [closing, hloose]

theorem exec_closed (v t : Value) (w : World State) :
    (closed v t).exec w = closing v t (closedBy w.rest.heap v t) w := by
  rw [closed, Action.exec_bind, Act.exec_object?]
  simp only
  split
  next hloose => rw [closing_of_loosened ⟨_, hloose⟩]
  next hfirm =>
    rw [closing_of_not_loosened (not_exists.mpr hfirm), Action.exec_bind, exec_opened]
    simp only
    rw [ofParts_opened]
    exact exec_finished _ _ _

end Exec

end Session

end Deli
