import Deli.Proofs.PassThrough

/-! A finished sandwich is final. No operation asks whether a sandwich is finished, but nothing is
made of a finished one any more: it takes no component, which is a fault that no guard catches, and
it is not accepted as the body of another one, which is a failure. What a technology does beside the
bare operations can only come before that. -/

namespace Deli

variable {ω : Type}

/-- Nothing has been made: if anything has been returned, it is a failure. -/
def Outcome.Barren (result : Except Fault Value) : Prop :=
  ∀ v, result = .ok v → ∃ e, v = .failure e

theorem Outcome.barren_error (e : Fault) : Barren (.error e) := fun _ h => nomatch h

theorem Outcome.barren_failure (e : Value) : Barren (.ok (.failure e)) := by
  rintro _ ⟨⟩
  exact ⟨e, rfl⟩

theorem Outcome.barren_of {a : Action ω Value} {w : World ω}
    (h : ∀ v w', a.exec w = (.ok v, w') → ∃ e, v = .failure e) : Barren (a.exec w).1 :=
  fun v hv => h v _ (Prod.ext hv rfl)

/-- A technology that makes nothing of a finished sandwich. -/
structure Technology.LeavesFinished (t : Technology ω) : Prop where
  add (r : Ready) (v : Value) (w : World ω) :
    Outcome.Barren ((t.add (.success (.ready r)) v).exec w).1
  finish (r : Ready) (top : Value) (w : World ω) :
    Outcome.Barren ((t.finish (.success (.ready r)) top).exec w).1

/-! ### The technologies of the kitchen -/

namespace Interpreter

theorem crazy_leavesFinished : (crazyTechnology : Technology ω).LeavesFinished where
  add r v w := by
    change Outcome.Barren ((add (.success (.ready r)) v).exec w).1
    rw [exec_add_ready]
    exact Outcome.barren_error _
  finish r top w := by
    obtain ⟨problems, hfinish⟩ := exec_finish_ready (ω := ω) r top
    change Outcome.Barren ((finish (.success (.ready r)) top).exec w).1
    rw [hfinish]
    exact Outcome.barren_failure _

variable [Scene ω]

/-- The fault comes up before the line is printed. -/
theorem exec_real_add_ready (r : Ready) (v : Value) (w : World ω) :
    ((realTechnology crazyTechnology).add (.success (.ready r)) v).exec w =
      (.error (.mk w.nextFault .misuse), w.faulted) := rfl

theorem barren_fail (o : Operation) (v : Value) (w : World ω) :
    Outcome.Barren ((fail o v).exec w).1 := Outcome.barren_of fun _ _ h => ok_of_fail h

variable (hs : Scene.TellsOutcomes ω)
include hs

theorem exec_real_finish_ready (r : Ready) (top : Value) :
    ∃ problems, ∀ w : World ω,
      ((realTechnology crazyTechnology).finish (.success (.ready r)) top).exec w =
        (.ok (.failure (.fault (.mk w.nextFault
          (.invalid .ready (.atField "body" .notBody :: problems))))),
        w.faulted.printed
          [.text "[red][KITCHEN] Op.FinishSandwich passed failure through.[/red]"]) := by
  obtain ⟨problems, hfinish⟩ := exec_finish_ready (ω := ω) r top
  exact ⟨problems, fun w => exec_real_finish hs (hfinish w) (.failure _)⟩

theorem real_leavesFinished :
    (realTechnology crazyTechnology : Technology ω).LeavesFinished where
  add r v w := by
    rw [exec_real_add_ready]
    exact Outcome.barren_error _
  finish r top w := by
    obtain ⟨problems, hfinish⟩ := exec_real_finish_ready hs r top
    rw [hfinish]
    exact Outcome.barren_failure _

/-- An ingredient that is not found ends an operation before it gets to the finished sandwich. -/
theorem barren_whenFound (p : Pantry) (v : Value) {rest : Action ω Value}
    (hrest : ∀ w, Outcome.Barren (rest.exec w).1) (w : World ω) :
    Outcome.Barren ((whenFound p.get v rest).exec w).1 := by
  refine Outcome.barren_of fun r w' hr => ?_
  obtain he | ⟨w₁, hr⟩ := ok_of_whenFound hs hr
  · exact he
  · exact hrest w₁ r (congrArg Prod.fst hr)

theorem stocked_leavesFinished (p : Pantry) :
    (stockedTechnology crazyTechnology p.get : Technology ω).LeavesFinished where
  add r v w := by
    simp only [stockedTechnology, hs.isFailure_success, pure_bind, Bool.false_eq_true, ↓reduceIte]
    exact barren_whenFound hs p v (crazy_leavesFinished.add r v) w
  finish r top w := by
    simp only [stockedTechnology, hs.isSuccess_success, pure_bind, ↓reduceIte]
    split
    next => exact crazy_leavesFinished.finish r .null w
    next => exact barren_whenFound hs p top (crazy_leavesFinished.finish r top) w

theorem faulty_leavesFinished (failAt : Value) :
    (faultyTechnology crazyTechnology failAt : Technology ω).LeavesFinished where
  add r v w := by
    simp only [faultyTechnology, hs.isFailure_success, pure_bind, Bool.false_eq_true, ↓reduceIte]
    split
    next => exact barren_fail .add v w
    next => exact crazy_leavesFinished.add r v w
  finish r top w := by
    simp only [faultyTechnology, hs.isSuccess_success, pure_bind, ↓reduceIte]
    split
    next => exact barren_fail .finish (topOrToast top) w
    next => exact crazy_leavesFinished.finish r top w

theorem leavesFinished (i : Interpreter) : (i.technology : Technology ω).LeavesFinished := by
  cases i with
  | real => exact real_leavesFinished hs
  | crazy => exact crazy_leavesFinished
  | stocked p => exact stocked_leavesFinished hs p
  | faulty failAt => exact faulty_leavesFinished hs failAt

end Interpreter

/-! ### Chains -/

namespace Recipe

/-- A chain on a finished sandwich ends with its first call or fails to its end; none of its calls
makes anything. -/
theorem barren_chained {t : Technology ω} {lines : List Line} (ht : t.LeavesFinished)
    (hpass : t.PassesOn lines) (r : Ready) (components : List Value) (top : Value) (w : World ω) :
    ∃ result w' calls,
      (chained t (.success (.ready r)) components top).exec w = (result, w') ∧
      (chained t.noting (.success (.ready r)) components top).exec (w.noting []) =
        (result, w'.noting calls) ∧
      Outcome.Barren result ∧ ∀ call ∈ calls, Outcome.Barren call.result := by
  cases components with
  | nil =>
    have hbarren := ht.finish r top w
    cases hfinish : (t.finish (.success (.ready r)) top).exec w with
    | mk result w' =>
    rw [hfinish] at hbarren
    refine ⟨result, w', _, hfinish, t.exec_noted (o := .finish) hfinish [], hbarren, ?_⟩
    simpa using hbarren
  | cons v components =>
    have hbarren := ht.add r v w
    cases hadd : (t.add (.success (.ready r)) v).exec w with
    | mk result w₁ =>
    rw [hadd] at hbarren
    have hnext : (addNext t (.success (.ready r)) v).exec w = (result, w₁) := hadd
    have hnoted : (addNext t.noting (.success (.ready r)) v).exec (w.noting []) =
        (result, w₁.noting [⟨.add, .success (.ready r), v, result⟩]) :=
      t.exec_noted (o := .add) hadd []
    simp only [chained, List.foldlM_cons, Action.exec_bind, hnext, hnoted]
    cases result with
    | error e => exact ⟨.error e, w₁, _, rfl, rfl, hbarren, by simpa using hbarren⟩
    | ok s =>
      obtain ⟨e, rfl⟩ := hbarren s rfl
      obtain ⟨w₂, hfinish⟩ := hpass.finish_failure e top w₁
      simp only [foldlM_addNext_failure, Action.exec_pure]
      have hlast := t.exec_noted (o := .finish) hfinish
        [⟨.add, .success (.ready r), v, .ok (.failure e)⟩]
      refine ⟨.ok (.failure e), w₂, _, hfinish, hlast, Outcome.barren_failure e, ?_⟩
      simpa using hbarren

variable [Scene ω]

/-- On a finished sandwich nothing is ever made again: whatever component or top is given, none of
the four technologies returns a success, called by itself or through the combinators, and in no
chain of calls does any of them. The real and the silent one raise a fault over a component, which
is not caught; over a top they return a failure, whose first complaint is about the body. -/
theorem finished_for_good (hs : Scene.TellsOutcomes ω) (r : Ready) (v top : Value)
    (components : List Value) (w : World ω) :
    let finished : Value := .success (.ready r)
    (∀ i : Interpreter,
      Outcome.Barren ((i.technology.add finished v).exec w).1 ∧
      Outcome.Barren ((i.technology.finish finished top).exec w).1 ∧
      Outcome.Barren ((addNext i.technology finished v).exec w).1 ∧
      Outcome.Barren ((finishWith i.technology finished top).exec w).1 ∧
      ∃ result w' calls,
        (chained i.technology finished components top).exec w = (result, w') ∧
        (chained i.technology.noting finished components top).exec (w.noting []) =
          (result, w'.noting calls) ∧
        Outcome.Barren result ∧ ∀ call ∈ calls, Outcome.Barren call.result) ∧
    ∀ i : Interpreter, i = .real ∨ i = .crazy →
      (i.technology.add finished v).exec w = (.error (.mk w.nextFault .misuse), w.faulted) ∧
      ∃ problems w', (i.technology.finish finished top).exec w =
        (.ok (.failure (.fault (.mk w.nextFault
          (.invalid .ready (.atField "body" .notBody :: problems))))), w') := by
  refine ⟨fun i => ?_, ?_⟩
  · have ht := Interpreter.leavesFinished hs i
    obtain ⟨lines, hpass⟩ := passesOn hs i
    -- on a success the combinators are the operations themselves
    exact ⟨ht.add r v w, ht.finish r top w, ht.add r v w, ht.finish r top w,
      barren_chained ht hpass r components top w⟩
  · rintro i (rfl | rfl)
    · obtain ⟨problems, hfinish⟩ := Interpreter.exec_real_finish_ready hs r top
      exact ⟨Interpreter.exec_real_add_ready r v w, problems, _, hfinish w⟩
    · obtain ⟨problems, hfinish⟩ := Interpreter.exec_finish_ready (ω := ω) r top
      exact ⟨Interpreter.exec_add_ready r v w, problems, _, hfinish w⟩

/-- A sandwich that has its top already is not closed once more, nor does it take salt. -/
theorem finished_for_good_toast :
    let finished : Value := .success (.ready ⟨⟨.toast, [.tomato]⟩, some .toast⟩)
    let w : World Unit := ⟨[], 0, ()⟩
    let complaint : Problem := .atField "body" .notBody
    Scene.TellsOutcomes Unit ∧
      (Interpreter.real.technology.add finished (.component .salt)).exec w =
        (.error (.mk 0 .misuse), w.faulted) ∧
      ((Interpreter.real.technology.finish finished (.string "ham")).exec w).1 =
        .ok (.failure (.fault (.mk 0 (.invalid .ready
          [complaint, .atField "top" (.notAmong ["baguette", "toast"])])))) ∧
      ∃ result w' calls,
        (chained (Interpreter.stocked ⟨[]⟩).technology.noting finished
          [.component .salt, .component .cheese] .null).exec (w.noting []) =
            (result, World.noting w' calls) ∧
        Outcome.Barren result ∧ (∀ call ∈ calls, Outcome.Barren call.result) ∧
        calls.map (·.operation) = [.add, .finish] := by
  intro finished w complaint
  have hs : Scene.TellsOutcomes Unit := Scene.plain_tellsOutcomes
  obtain ⟨hall, hbare⟩ := finished_for_good hs ⟨⟨.toast, [.tomato]⟩, some .toast⟩
    (.component .salt) (.string "ham") [] w
  obtain ⟨hadd, problems, w₁, hfinish⟩ := hbare .real (.inl rfl)
  obtain ⟨-, -, -, -, result, w', calls, -, hnoting, hresult, hcalls⟩ :=
    (finished_for_good hs ⟨⟨.toast, [.tomato]⟩, some .toast⟩ (.component .salt) .null
      [.component .salt, .component .cheese] w).1 (.stocked ⟨[]⟩)
  refine ⟨hs, hadd, ?_, result, w', calls, hnoting, hresult, hcalls, ?_⟩
  · rw [hfinish]
    cases hfinish
    rfl
  · exact (congrArg (·.2.rest.2.map (·.operation)) hnoting).symm

end Recipe

end Deli
