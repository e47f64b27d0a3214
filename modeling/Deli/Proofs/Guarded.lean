import Deli.Interpreter
import Deli.Proofs.Exec
import Deli.Proofs.Sandwich

/-! The bare operations on a body and any value whatever. What can go wrong with a body that there
is already is a matter of fields, so it is caught and becomes a failure: adding and finishing
never raise a fault. On a sandwich that is finished already neither of them gets anywhere. -/

namespace Deli

variable {α ω : Type}

/-! ### Faults that are caught -/

theorem Cause.isCatchable_of_mapError {form : Form} {x : Checked α} {c : Cause}
    (h : x.mapError (.invalid form) = .error c) : c.isCatchable := by
  cases x <;> cases h
  rfl

namespace Body

/-- A body has a bottom and something on it, so only the new component can be wrong. -/
theorem isCatchable_of_add {b : Body} {v : Value} {c : Cause} (h : b.add v = .error c) :
    c.isCatchable := by
  have hbuild : BodyBuilder.build ⟨.bread b.bottom, .list (b.components.map .component ++ [v])⟩ =
      .error c := h
  have hpresent : (Value.list (b.components.map .component ++ [v])).isPresent = true := by
    simp [Value.isPresent]
  simp only [BodyBuilder.build, hpresent, Value.items?, ↓reduceIte] at hbuild
  exact Cause.isCatchable_of_mapError hbuild

end Body

theorem Ready.isCatchable_of_ofParts {b : Body} {top : Value} {c : Cause}
    (h : Ready.ofParts (.body b) top = .error c) : c.isCatchable :=
  Cause.isCatchable_of_mapError h

/-- A finished sandwich is no body, whatever is to be said about the top. -/
theorem Ready.ofParts_ready (r : Ready) (top : Value) :
    ∃ problems, Ready.ofParts (.ready r) top =
      .error (.invalid .ready (.atField "body" .notBody :: problems)) := ⟨_, rfl⟩

/-! ### Guarded steps -/

namespace Outcome

/-- What a step on fields that was guarded comes to. -/
def settled (f : α → Value) (x : Except Cause α) (w : World ω) : Value :=
  match x with
  | .ok a => .success (f a)
  | .error c => .failure (.fault (.mk w.nextFault c))

/-- The world afterwards, in which a fault may have come up. -/
def after (x : Except Cause α) (w : World ω) : World ω :=
  match x with
  | .ok _ => w
  | .error _ => w.faulted

theorem exec_guarded {f : α → Value} {x : Except Cause α}
    (hx : ∀ c, x = .error c → c.isCatchable) (w : World ω) :
    (guarded (f <$> Action.ofExcept x)).exec w = (.ok (settled f x w), after x w) := by
  cases x with
  | ok a => rfl
  | error c =>
    simp only [guarded, Action.exec_tryCatch, Action.exec_map, Action.exec_ofExcept_error,
      Action.exec_raise]
    have hc : (Fault.mk w.nextFault c).cause.isCatchable := hx c rfl
    rw [if_pos hc]
    rfl

end Outcome

namespace Interpreter

theorem exec_add (b : Body) (v : Value) (w : World ω) :
    (add (.success (.body b)) v).exec w =
      (.ok (Outcome.settled .body (b.add v) w), Outcome.after (b.add v) w) := by
  have hplus : (add (.success (.body b)) v : Action ω Value) =
      Outcome.guarded (.body <$> Action.ofExcept (b.add v)) := by
    cases h : b.add v <;> simp only [add, Value.plus, Value.plusWith, h] <;> rfl
  rw [hplus]
  exact Outcome.exec_guarded (fun _ => Body.isCatchable_of_add) w

theorem exec_finish (b : Body) (top : Value) (w : World ω) :
    (finish (.success (.body b)) top).exec w =
      (.ok (Outcome.settled .ready (Ready.ofParts (.body b) top) w),
        Outcome.after (Ready.ofParts (.body b) top) w) :=
  Outcome.exec_guarded (fun _ => Ready.isCatchable_of_ofParts) w

/-- A finished sandwich takes no component; this is not a matter of fields, so it is not caught. -/
theorem exec_add_ready (r : Ready) (v : Value) (w : World ω) :
    (add (.success (.ready r)) v).exec w = (.error (.mk w.nextFault .misuse), w.faulted) := rfl

/-- Nor can it be finished again; this is a matter of fields. -/
theorem exec_finish_ready (r : Ready) (top : Value) :
    ∃ problems, ∀ w : World ω, (finish (.success (.ready r)) top).exec w =
      (.ok (.failure (.fault (.mk w.nextFault
        (.invalid .ready (.atField "body" .notBody :: problems))))), w.faulted) := by
  obtain ⟨problems, hproblems⟩ := Ready.ofParts_ready r top
  refine ⟨problems, fun w => ?_⟩
  have hcatch (c : Cause) (hc : Ready.ofParts (.ready r) top = .error c) : c.isCatchable := by
    cases hproblems.symm.trans hc
    rfl
  have hfinish : (finish (.success (.ready r)) top : Action ω Value) =
    Outcome.guarded (.ready <$> Action.ofExcept (Ready.ofParts (.ready r) top)) := rfl
  rw [hfinish, Outcome.exec_guarded hcatch, hproblems]
  rfl

end Interpreter

end Deli
