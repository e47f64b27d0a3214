import Deli.Proofs.ShortCircuit

/-! Guarded steps in a row come to what a single guarded step comes to that takes them one after the
other. A fault that is caught ends the row as it ends the single step, and the failure that holds it
is passed over all steps that are left. To be guarded can be undone: the value of a success is
returned again, and what has been caught is raised again, the very same fault. The calls of the
steps are observed by steps that do as others do and log them. -/

namespace Deli

variable {ω : Type}

/-- One call of a step in a row: which step it was, what it was given, and what it returned or
raised. -/
structure Logged where
  step : Nat
  argument : Value
  result : Except Fault Value

/-- The world with a log of calls beside the rest. -/
def World.logging (w : World ω) (log : List Logged) : World (ω × List Logged) :=
  ⟨w.console, w.nextFault, w.rest, log⟩

namespace Outcome

/-! ### Steps in a row -/

/-- Guarded steps in a row, each on what the one before it has come to. -/
def inRow (r : Value) (steps : List (Value → Action ω Value)) : Action ω Value :=
  steps.foldlM mapCatching r

/-- All the steps as one, without a guard. -/
def composed (steps : List (Value → Action ω Value)) (v : Value) : Action ω Value :=
  steps.foldlM (fun v step => step v) v

section Row

variable {r : Value} {steps : List (Value → Action ω Value)}

theorem exec_guarded_step (step : Action ω Value) (w : World ω) :
    (guarded step).exec w = match step.exec w with
      | (.ok v, w) => (.ok (.success v), w)
      | (.error e, w) =>
        if e.cause.isCatchable then (.ok (.failure (.fault e)), w) else (.error e, w) := by
  rw [guarded, Action.exec_tryCatch, Action.exec_map]
  rcases step.exec w with ⟨e | v, w₁⟩
  · by_cases he : e.cause.isCatchable <;> simp [he]
  · rfl

theorem inRow_failure (e : Value) (steps : List (Value → Action ω Value)) :
    inRow (.failure e) steps = pure (.failure e) := by
  induction steps with
  | nil => rfl
  | cons step steps ih => exact ih

/-- Steps in a row on an outcome are one step on it. -/
theorem exec_inRow (hr : Settled r) (steps : List (Value → Action ω Value)) (w : World ω) :
    (inRow r steps).exec w = (mapCatching r (composed steps)).exec w := by
  induction steps generalizing r w with
  | nil => cases hr <;> rfl
  | cons step steps ih =>
    cases hr with
    | failure e => rw [inRow_failure]; rfl
    | success v =>
      have hrow : inRow (.success v) (step :: steps) =
          guarded (step v) >>= fun r => inRow r steps := List.foldlM_cons
      have hone : mapCatching (.success v) (composed (step :: steps)) =
          guarded (step v >>= composed steps) := congrArg guarded List.foldlM_cons
      rw [hrow, hone, Action.exec_bind, exec_guarded_step, exec_guarded_step, Action.exec_bind]
      rcases (step v).exec w with ⟨e | u, w₁⟩
      · by_cases he : e.cause.isCatchable
        · simp only [he, ↓reduceIte, inRow_failure, Action.exec_pure]
        · simp only [he, Bool.false_eq_true, ↓reduceIte]
      · exact (ih (.success u) w₁).trans (exec_guarded_step _ _)

/-- What goes through a guard cannot be caught. -/
theorem isCatchable_of_mapCatching (hr : Settled r) {step : Value → Action ω Value}
    {w w' : World ω} {e : Fault} (h : (mapCatching r step).exec w = (.error e, w')) :
    e.cause.isCatchable = false := by
  cases hr with
  | failure v => cases h
  | success v =>
    have hstep : (guarded (step v)).exec w = (.error e, w') := h
    rw [exec_guarded_step] at hstep
    split at hstep
    next => cases hstep
    next =>
      split at hstep
      next => cases hstep
      next he =>
        cases hstep
        exact Bool.eq_false_iff.mpr he

/-- A guard that is undone is none. -/
theorem exec_getOrRaise_of_guarded (step : Action ω Value) (w : World ω) :
    (guarded step >>= getOrRaise).exec w = step.exec w := by
  rw [Action.exec_bind, exec_guarded_step]
  rcases step.exec w with ⟨e | v, w₁⟩
  · by_cases he : e.cause.isCatchable
    · simp only [he, ↓reduceIte]
      rfl
    · simp only [he, Bool.false_eq_true, ↓reduceIte]
  · rfl

end Row

/-! ### Calls -/

/-- Does as a step does, and logs the call with its result. -/
def logged (step : Value → Action ω Value) (i : Nat) (v : Value) :
    Action (ω × List Logged) Value :=
  ExceptT.mk fun w =>
    let (result, w') := (step v).exec ⟨w.console, w.nextFault, w.rest.1⟩
    (result, w'.logging (w.rest.2 ++ [⟨i, v, result⟩]))

/-- The same steps under observation, with numbers from `n` on. -/
def allLogged (steps : List (Value → Action ω Value)) (n : Nat) :
    List (Value → Action (ω × List Logged) Value) :=
  (steps.zipIdx n).map fun (step, i) => logged step i

theorem exec_logged {step : Value → Action ω Value} {v : Value} {w w' : World ω}
    {result : Except Fault Value} (h : (step v).exec w = (result, w')) (i : Nat)
    (log : List Logged) :
    (logged step i v).exec (w.logging log) = (result, w'.logging (log ++ [⟨i, v, result⟩])) :=
  congrArg (fun x => (x.1, x.2.logging (log ++ [⟨i, v, x.1⟩]))) h

/-- Observation makes no difference to steps one after the other. -/
theorem exec_composed_logged (steps : List (Value → Action ω Value)) (n : Nat) (v : Value)
    (w : World ω) (log : List Logged) :
    ∃ more, (composed (allLogged steps n) v).exec (w.logging log) =
      (((composed steps v).exec w).1, ((composed steps v).exec w).2.logging (log ++ more)) := by
  induction steps generalizing n v w log with
  | nil => exact ⟨[], by rw [List.append_nil]; rfl⟩
  | cons step steps ih =>
    have hone : composed (step :: steps) v = step v >>= composed steps := List.foldlM_cons
    have hlogged : composed (allLogged (step :: steps) n) v =
        logged step n v >>= composed (allLogged steps (n + 1)) := List.foldlM_cons
    rw [hone, hlogged, Action.exec_bind, Action.exec_bind]
    cases hstep : (step v).exec w with
    | mk result w₁ =>
    rw [exec_logged hstep]
    cases result with
    | error e => exact ⟨_, rfl⟩
    | ok u =>
      obtain ⟨more, hmore⟩ := ih (n + 1) u w₁ (log ++ [⟨n, v, .ok u⟩])
      rw [List.append_assoc] at hmore
      exact ⟨_, hmore⟩

/-- Nor does it to a guarded step, which logs nothing of its own. -/
theorem exec_mapCatching_logged {r : Value} (hr : Settled r)
    (steps : List (Value → Action ω Value)) (w : World ω) :
    ∃ log, (mapCatching r (composed (allLogged steps 0))).exec (w.logging []) =
        (((mapCatching r (composed steps)).exec w).1,
          ((mapCatching r (composed steps)).exec w).2.logging log) ∧
      ∀ e, r = .failure e → log = [] := by
  cases hr with
  | failure v => exact ⟨[], rfl, fun _ _ => rfl⟩
  | success v =>
    have hguarded {ω : Type} (step : Value → Action ω Value) :
        mapCatching (.success v) step = guarded (step v) := rfl
    obtain ⟨log, hlog⟩ := exec_composed_logged steps 0 v w []
    refine ⟨log, ?_, fun e he => by cases he⟩
    rw [hguarded, hguarded, exec_guarded_step, exec_guarded_step, hlog]
    rcases (composed steps v).exec w with ⟨e | u, w₁⟩
    · by_cases he : e.cause.isCatchable <;> simp [he]
    · rfl

/-- Guarded steps in a row on a success or a failure, whatever they return, raise and change, are
one guarded step: they return or raise the same, a fault that is caught being the same fault, they
leave the same world, and the same steps are called on the same values. A fault that they raise is
none that can be caught. A failure goes through as it is, and no step is called. And the steps on a
success, with what they come to returned or raised again, are the steps without any guard. -/
theorem guarded_steps_fuse {r : Value} (hr : Settled r) (steps : List (Value → Action ω Value))
    (w : World ω) :
    (∃ result w' log, (inRow r steps).exec w = (result, w') ∧
      (mapCatching r (composed steps)).exec w = (result, w') ∧
      (inRow r (allLogged steps 0)).exec (w.logging []) = (result, w'.logging log) ∧
      (mapCatching r (composed (allLogged steps 0))).exec (w.logging []) =
        (result, w'.logging log) ∧
      (∀ e, result = .error e → e.cause.isCatchable = false) ∧
      ∀ e, r = .failure e → result = .ok r ∧ w' = w ∧ log = []) ∧
    ∀ v, (inRow (.success v) steps >>= getOrRaise).exec w = (composed steps v).exec w := by
  refine ⟨?_, fun v => ?_⟩
  · obtain ⟨log, hlog, hnone⟩ := exec_mapCatching_logged hr steps w
    cases hone : (mapCatching r (composed steps)).exec w with
    | mk result w' =>
    rw [hone] at hlog
    refine ⟨result, w', log, (exec_inRow hr steps w).trans hone, rfl,
      (exec_inRow hr _ _).trans hlog, hlog, ?_, ?_⟩
    · rintro e rfl
      exact isCatchable_of_mapCatching hr hone
    · rintro e rfl
      obtain ⟨rfl, rfl⟩ := Prod.mk.inj hone
      exact ⟨rfl, rfl, hnone e rfl⟩
  · have hundone := exec_getOrRaise_of_guarded (composed steps v) w
    rw [Action.exec_bind] at hundone
    rw [Action.exec_bind, exec_inRow (.success v)]
    exact hundone

/-- The second step is at fault, so the third is not called; the fault is the one that comes up. -/
theorem guarded_steps_fuse_halfway :
    let count (v : Value) : Action Nat Value := ExceptT.mk fun w =>
      (.ok (.list [v, .int w.rest]), { w with rest := w.rest + 1 })
    let refuse (_ : Value) : Action Nat Value := Action.raise (.plain .value "no")
    let steps := [count, refuse, count]
    let w : World Nat := ⟨[], 4, 7⟩
    let fault : Fault := .mk 4 (.plain .value "no")
    Settled (.success .null) ∧
      (inRow (.success .null) steps).exec w = (.ok (.failure (.fault fault)), ⟨[], 5, 8⟩) ∧
      (mapCatching (.success .null) (composed steps)).exec w =
        (.ok (.failure (.fault fault)), ⟨[], 5, 8⟩) ∧
      (inRow (.success .null) (allLogged steps 0)).exec (w.logging []) =
        (.ok (.failure (.fault fault)), World.logging ⟨[], 5, 8⟩
          [⟨0, .null, .ok (.list [.null, .int 7])⟩,
            ⟨1, .list [.null, .int 7], .error fault⟩]) ∧
      (inRow (.success .null) steps >>= getOrRaise).exec w = (.error fault, ⟨[], 5, 8⟩) := by
  intro count refuse steps w fault
  have hr : Settled (.success .null) := .success _
  obtain ⟨⟨result, w', log, hrow, hone, hlogged, -, -⟩, hundone⟩ := guarded_steps_fuse hr steps w
  cases hrow
  cases hlogged
  exact ⟨hr, rfl, hone, rfl, hundone .null⟩

end Outcome

end Deli
