import Deli.Proofs.Calls
import Deli.Proofs.Guarded

/-! What the real technology tells of its calls. The bare operations print nothing, so each line of
a run comes from one call that has returned. Finishing looks at the outcome before it says that it
was processed; adding does not, and says so of a failure too. -/

namespace Deli

attribute [local instance] Scene.plain

variable {α β ω : Type}

/-! ### Printing nothing -/

namespace Action

/-- Nothing is printed, whatever comes of the action. -/
def Quiet (a : Action ω α) : Prop := ∀ w, (a.exec w).2.console = w.console

variable {a : Action ω α}

theorem quiet_pure (x : α) : (pure x : Action ω α).Quiet := fun _ => rfl

theorem quiet_raise (c : Cause) : (raise c : Action ω α).Quiet := fun _ => rfl

theorem quiet_ofExcept (x : Except Cause α) : (ofExcept x : Action ω α).Quiet := console_ofExcept x

theorem Quiet.map (ha : a.Quiet) (f : α → β) : (f <$> a).Quiet := by
  intro w
  have hconsole := ha w
  rw [exec_map]
  cases h : a.exec w with
  | mk result w₁ =>
  rw [h] at hconsole
  cases result <;> exact hconsole

end Action

theorem Outcome.quiet_guarded {step : Action ω Value} (h : step.Quiet) : (guarded step).Quiet := by
  intro w
  have hconsole := h w
  rw [guarded, Action.exec_tryCatch, Action.exec_map]
  cases hstep : step.exec w with
  | mk result w₁ =>
  rw [hstep] at hconsole
  cases result with
  | ok v => exact hconsole
  | error e =>
    dsimp only
    split <;> exact hconsole

theorem Value.quiet_plusWith {inner : Value → Value → Action ω Value}
    (hinner : ∀ v w, (inner v w).Quiet) (v w : Value) : (plusWith inner v w).Quiet := by
  cases v with
  | success v => exact Outcome.quiet_guarded (quiet_plusWith hinner v w)
  | failure v => exact Action.quiet_pure _
  | _ => exact hinner _ w

namespace Interpreter

theorem quiet_run (o : Operation) (x y : Value) :
    ((crazyTechnology : Technology ω).run o x y).Quiet := by
  cases o with
  | start =>
    have hmap : (crazyTechnology.run .start x y : Action ω Value) =
        (fun b => .success (.body b)) <$> Action.ofExcept (Body.ofParts x (.list [y])) := rfl
    rw [hmap]
    exact (Action.quiet_ofExcept _).map _
  | add => exact Value.quiet_plusWith (fun _ _ => Action.quiet_ofExcept _) x y
  | finish =>
    have hguarded (v : Value) :
        (Outcome.guarded (.ready <$> Action.ofExcept (Ready.ofParts v y)) : Action ω Value).Quiet :=
      Outcome.quiet_guarded ((Action.quiet_ofExcept _).map _)
    change (Outcome.mapCatching x _).Quiet
    unfold Outcome.mapCatching
    split
    next v => exact hguarded v
    next v => exact Action.quiet_pure _
    next => exact Action.quiet_raise _

end Interpreter

/-! ### Outcomes of the bare operations -/

section Settled

variable {x y r : Value} {w w₁ : World ω}

theorem Outcome.settled_of_guarded {step : Action ω Value}
    (h : (guarded step).exec w = (.ok r, w₁)) : Settled r := by
  rw [guarded, Action.exec_tryCatch, Action.exec_map] at h
  cases hstep : step.exec w with
  | mk result w₂ =>
  rw [hstep] at h
  cases result with
  | ok v =>
    cases h
    exact .success v
  | error e =>
    dsimp only at h
    split at h <;> cases h
    exact .failure _

namespace Interpreter

theorem success_of_start (h : (start x y).exec w = (.ok r, w₁)) : ∃ v, r = .success v := by
  rw [start, Action.exec_bind] at h
  cases hparts : Body.ofParts x (.list [y]) with
  | error c =>
    rw [hparts] at h
    cases h
  | ok b =>
    rw [hparts] at h
    cases h
    exact ⟨_, rfl⟩

theorem settled_of_add (hx : x = .null ∨ Outcome.Settled x)
    (h : (add x y).exec w = (.ok r, w₁)) : Outcome.Settled r := by
  obtain rfl | ⟨v⟩ | ⟨e⟩ := hx
  · cases h
  · exact Outcome.settled_of_guarded h
  · cases h
    exact .failure e

theorem settled_of_finish (hx : x = .null ∨ Outcome.Settled x)
    (h : (finish x y).exec w = (.ok r, w₁)) : Outcome.Settled r := by
  obtain rfl | ⟨v⟩ | ⟨e⟩ := hx
  · cases h
  · exact Outcome.settled_of_guarded h
  · cases h
    exact .failure e

end Interpreter

end Settled

/-! ### What is told of a call -/

/-- What is told of an operation in green. -/
def processedLine (o : Operation) : Line :=
  .text ("[green][KITCHEN] " ++ o.label ++ " processed.[/green]")

/-- What is told of an operation in red. -/
def passedThroughLine (o : Operation) : Line :=
  .text ("[red][KITCHEN] " ++ o.label ++ " passed failure through.[/red]")

def Line.isGreen : Line → Bool
  | .text s => "[green]".toList.isPrefixOf s.toList
  | .panel .. => false

theorem isGreen_processedLine (o : Operation) : (processedLine o).isGreen := by
  cases o <;> decide

theorem isGreen_passedThroughLine (o : Operation) : (passedThroughLine o).isGreen = false := by
  cases o <;> decide

namespace Noted

/-- What the real technology tells of a call. An addition is told in green in any case, and there is
no start that returns a failure. -/
inductive Tells : Noted → List Line → Prop
  | raised {o : Operation} {x y : Value} (e : Fault) : Tells ⟨o, x, y, .error e⟩ []
  | succeeded {o : Operation} {x y : Value} (v : Value) :
    Tells ⟨o, x, y, .ok (.success v)⟩ [processedLine o]
  | failedToAdd {x y : Value} (e : Value) :
    Tells ⟨.add, x, y, .ok (.failure e)⟩ [processedLine .add]
  | failedToFinish {x y : Value} (e : Value) :
    Tells ⟨.finish, x, y, .ok (.failure e)⟩ [passedThroughLine .finish]

def succeeds (e : Noted) : Bool := e.result matches .ok (.success _)

def failsToAdd (e : Noted) : Bool := e.operation == .add && e.result matches .ok (.failure _)

variable {e : Noted} {lines : List Line}

theorem Tells.settled (h : e.Tells lines) {r : Value} (hr : e.result = .ok r) :
    Outcome.Settled r := by
  cases h with
  | raised => cases hr
  | succeeded v =>
    cases hr
    exact .success v
  | failedToAdd f =>
    cases hr
    exact .failure f
  | failedToFinish f =>
    cases hr
    exact .failure f

theorem Tells.countP_isGreen (h : e.Tells lines) :
    lines.countP Line.isGreen =
      (if e.succeeds then 1 else 0) + (if e.failsToAdd then 1 else 0) := by
  cases h with
  | raised f => simp [succeeds, failsToAdd]
  | succeeded v => simp [succeeds, failsToAdd, isGreen_processedLine]
  | failedToAdd f => simp [succeeds, failsToAdd, isGreen_processedLine]
  | failedToFinish f => simp [succeeds, failsToAdd, isGreen_passedThroughLine]

theorem countP_isGreen_flatten {events : List Noted} {printed : List (List Line)}
    (h : List.Forall₂ Tells events printed) :
    printed.flatten.countP Line.isGreen = events.countP succeeds + events.countP failsToAdd := by
  induction h with
  | nil => rfl
  | @cons e lines events printed he _ ih =>
    rw [List.flatten_cons, List.countP_append, he.countP_isGreen, ih, List.countP_cons,
      List.countP_cons]
    omega

end Noted

namespace Interpreter

variable {w : World ω}

/-- What the real technology does after an operation has returned. -/
def tell (o : Operation) (result : Value) : Action ω Unit :=
  match o with
  | .start | .add => printProcessed o
  | .finish => do
    if ← Scene.isFailure result then printPassedThrough .finish else printProcessed .finish

theorem real_run (o : Operation) (x y : Value) :
    (real.technology.run o x y : Action ω Value) = (do
      let result ← crazyTechnology.run o x y
      tell o result
      pure result) := by
  cases o with
  | start => rfl
  | add => rfl
  | finish =>
    -- Either line is told before the same result is returned.
    refine congrArg (crazyTechnology.finish x y >>= ·) (funext fun result => ?_)
    rw [tell, bind_assoc]
    refine congrArg (Scene.isFailure result >>= ·) (funext fun failed => ?_)
    cases failed <;> rfl

/-- One call: it is told in at most one line, after all that has been told before. -/
theorem exec_real_tells (o : Operation) {x : Value}
    (hx : o ≠ .start → x = .null ∨ Outcome.Settled x) (y : Value) (w : World ω) :
    ∃ result w₁ lines, (real.technology.run o x y).exec w = (result, w₁) ∧
      Noted.Tells ⟨o, x, y, result⟩ lines ∧ w₁.console = w.console ++ lines := by
  have hquiet := quiet_run o x y w
  rw [real_run, Action.exec_bind]
  cases hbare : (crazyTechnology.run o x y).exec w with
  | mk result w₁ =>
  rw [hbare] at hquiet
  have hprinted (line : Line) : (w₁.printed [line]).console = w.console ++ [line] :=
    congrArg (· ++ [line]) hquiet
  cases result with
  | error e => exact ⟨_, _, [], rfl, .raised e, by simpa using hquiet⟩
  | ok r =>
    cases o with
    | start =>
      obtain ⟨v, rfl⟩ := success_of_start hbare
      exact ⟨_, _, _, rfl, .succeeded v, hprinted _⟩
    | add =>
      cases settled_of_add (hx nofun) hbare with
      | success v => exact ⟨_, _, _, rfl, .succeeded v, hprinted _⟩
      | failure e => exact ⟨_, _, _, rfl, .failedToAdd e, hprinted _⟩
    | finish =>
      cases settled_of_finish (hx nofun) hbare with
      | success v => exact ⟨_, _, _, rfl, .succeeded v, hprinted _⟩
      | failure e => exact ⟨_, _, _, rfl, .failedToFinish e, hprinted _⟩

/-- A run of calls, each on outcomes that there are so far or that come from outside. -/
theorem perform_real_tells (calls : List (Invocation Outcome.Settled)) {returned : List Value}
    (h : ∀ v ∈ returned, Outcome.Settled v) (w : World ω) :
    ∃ printed, List.Forall₂ Noted.Tells (real.technology.perform calls returned w).1 printed ∧
      (real.technology.perform calls returned w).2.console = w.console ++ printed.flatten := by
  induction calls generalizing returned w with
  | nil => exact ⟨[], .nil, (List.append_nil _).symm⟩
  | cons call calls ih =>
    have hvalue (r : Operand Outcome.Settled) : r.value returned = .null ∨
        Outcome.Settled (r.value returned) :=
      Technology.value_of_returned (K := fun v => v = .null ∨ Outcome.Settled v)
        (fun _ => .inr) (.inl rfl) (fun v hv => .inr (h v hv)) r
    have hfirst : call.operation ≠ .start → call.first returned = .null ∨
        Outcome.Settled (call.first returned) := by
      cases call with
      | start => exact fun hne => absurd rfl hne
      | add r component => exact fun _ => hvalue r
      | finish r top => exact fun _ => hvalue r
    obtain ⟨result, w₁, lines, hcall, htells, hlines⟩ :=
      exec_real_tells call.operation hfirst call.second w
    -- What is told of a call is told of an outcome, which the calls after it may take.
    have hreturned : ∀ v ∈ returned ++ result.toOption.toList, Outcome.Settled v :=
      Technology.mem_append_toList h fun r hr => htells.settled hr
    obtain ⟨printed, hrest, hprinted⟩ := ih hreturned w₁
    rw [Technology.perform_cons call calls hcall]
    refine ⟨lines :: printed, .cons htells hrest, ?_⟩
    rw [hprinted, hlines, List.flatten_cons, List.append_assoc]

end Interpreter

/-- Whatever calls are made on the real technology, with whatever ingredients, on outcomes that it
has returned before and on outcomes from outside: a call that raises prints nothing, and one that
returns prints one line. The line is green for every success, and it is red for a sandwich that
failed to be finished; but an addition that failed is told in green as well. So there are more green
lines than successes, by the number of these additions. -/
theorem Interpreter.real_tells_calls (calls : List (Invocation Outcome.Settled)) (w : World ω) :
    let run := (real.technology : Technology ω).perform calls [] w
    ∃ printed, run.2.console = w.console ++ printed.flatten ∧
      List.Forall₂ Noted.Tells run.1 printed ∧
      printed.flatten.countP Line.isGreen =
        run.1.countP Noted.succeeds + run.1.countP Noted.failsToAdd := by
  have hnone : ∀ v ∈ ([] : List Value), Outcome.Settled v := by simp
  obtain ⟨printed, htells, hconsole⟩ := perform_real_tells calls hnone w
  exact ⟨printed, hconsole, htells, Noted.countP_isGreen_flatten htells⟩

/-- Additions to a failure and of something that is no component: each returns a failure, and a
green line is printed. -/
theorem Interpreter.failed_additions_told_in_green :
    let calls : List (Invocation Outcome.Settled) := [
      .add (.outside (.failure .null) (.failure _)) (.component .salt),
      .start (.bread .toast) (.component .salt), .add (.earlier 1) (.string "ham")]
    let run := (real.technology : Technology Unit).perform calls [] ⟨[], 0, ()⟩
    run.2.console = [processedLine .add, processedLine .start, processedLine .add] ∧
      run.2.console.countP Line.isGreen = 3 ∧ run.1.countP Noted.succeeds = 1 ∧
      run.1.countP Noted.failsToAdd = 2 := by
  decide +kernel

end Deli
