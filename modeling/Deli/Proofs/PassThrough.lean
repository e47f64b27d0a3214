import Deli.Proofs.Guarded
import Deli.Proofs.Request
import Deli.Proofs.ShortCircuit

/-! Failures are passed on twice over: the combinators leave additions out after a failure, and
the operations themselves hand a failure on. The two ways agree. Components and a top come to the
same on an outcome whether they are put there by the combinators or by the operations alone, be
they members or not. Only the real technology shows the difference: it prints its line for every
addition that the combinators leave out. -/

namespace Deli

variable {ω : Type}

/-- A scene in which successes and failures are seen as what they are. -/
structure Scene.TellsOutcomes (ω : Type) [Scene ω] : Prop where
  isFailure_success (v : Value) : (Scene.isFailure (.success v) : Action ω Bool) = pure false
  isFailure_failure (v : Value) : (Scene.isFailure (.failure v) : Action ω Bool) = pure true
  isSuccess_success (v : Value) : (Scene.isSuccess (.success v) : Action ω Bool) = pure true
  isSuccess_failure (v : Value) : (Scene.isSuccess (.failure v) : Action ω Bool) = pure false

theorem Scene.plain_tellsOutcomes : @TellsOutcomes ω .plain :=
  @TellsOutcomes.mk ω .plain (fun _ => rfl) (fun _ => rfl) (fun _ => rfl) fun _ => rfl

/-- What a sandwich is finished to: it is ready, or something has failed. -/
inductive Outcome.OfReady : Value → Prop
  | ready (r : Ready) : OfReady (.success (.ready r))
  | failure (e : Value) : OfReady (.failure e)

theorem Outcome.OfBody.settled {r : Value} (h : OfBody r) : Settled r := by
  cases h with
  | body b => exact .success _
  | failure e => exact .failure e

/-- Adding and finishing hand a failure on, and make of a body, if they do not raise, what is to
be made of it. Handing a failure on to an addition prints `lines`. -/
structure Technology.PassesOn (t : Technology ω) (lines : List Line) : Prop where
  add_failure (e v : Value) (w : World ω) :
    (t.add (.failure e) v).exec w = (.ok (.failure e), w.printed lines)
  finish_failure (e v : Value) (w : World ω) :
    ∃ w', (t.finish (.failure e) v).exec w = (.ok (.failure e), w')
  add_body {b : Body} {v r : Value} {w w' : World ω} :
    (t.add (.success (.body b)) v).exec w = (.ok r, w') → Outcome.OfBody r
  finish_body {b : Body} {v r : Value} {w w' : World ω} :
    (t.finish (.success (.body b)) v).exec w = (.ok r, w') → Outcome.OfReady r

namespace Recipe

/-- Components and a top on an outcome, by the combinators. -/
def chained (t : Technology ω) (r : Value) (components : List Value) (top : Value) :
    Action ω Value := do
  finishWith t (← components.foldlM (addNext t) r) top

/-- Components and a top on an outcome, by the operations alone. -/
def composed (t : Technology ω) (r : Value) (components : List Value) (top : Value) :
    Action ω Value := do
  t.finish (← components.foldlM t.add r) top

section Adding

variable {t : Technology ω} {lines : List Line}

theorem exec_foldlM_add_failure (ht : t.PassesOn lines) (e : Value) (components : List Value)
    (w : World ω) :
    (components.foldlM t.add (.failure e)).exec w =
      (.ok (.failure e), w.printed (List.replicate components.length lines).flatten) := by
  induction components generalizing w with
  | nil => simp
  | cons v components ih =>
    rw [List.foldlM_cons, Action.exec_bind, ht.add_failure]
    simp only [ih, World.printed_printed, List.length_cons, List.replicate_succ, List.flatten_cons]

/-- Adding by the operations alone comes to what adding by the combinators comes to. It prints
something in addition for every component that is `skipped`, that is, without a call among
those that are noted. -/
theorem exec_foldlM_add (ht : t.PassesOn lines) (components : List Value) {r : Value}
    (hr : Outcome.OfBody r) (w : World ω) (calls : List Noted) :
    ∃ result w' more skipped, (components.foldlM (addNext t) r).exec w = (result, w') ∧
      (components.foldlM (addNext t.noting) r).exec (w.noting calls) =
        (result, w'.noting (calls ++ more)) ∧
      (components.foldlM t.add r).exec w =
        (result, w'.printed (List.replicate skipped lines).flatten) ∧
      (∀ call ∈ more, call.operation = .add) ∧
      ∀ r', result = .ok r' → Outcome.OfBody r' ∧ more.length + skipped = components.length := by
  induction components generalizing r w calls with
  | nil =>
    refine ⟨.ok r, w, [], 0, rfl, by rw [List.append_nil]; rfl, by simp, by simp, ?_⟩
    rintro r' ⟨⟩
    exact ⟨hr, rfl⟩
  | cons v components ih =>
    cases hr with
    | failure e =>
      refine ⟨.ok (.failure e), w, [], components.length + 1, ?_, ?_, ?_, by simp, ?_⟩
      · rw [foldlM_addNext_failure, Action.exec_pure]
      · rw [foldlM_addNext_failure, Action.exec_pure, List.append_nil]
      · exact exec_foldlM_add_failure ht e (v :: components) w
      · rintro r' ⟨⟩
        exact ⟨.failure e, by simp⟩
    | body b =>
      have hnext : addNext t (.success (.body b)) v = t.add (.success (.body b)) v := rfl
      have hnoted : addNext t.noting (.success (.body b)) v =
          t.noted .add (.success (.body b)) v := rfl
      simp only [List.foldlM_cons, Action.exec_bind, hnext, hnoted]
      cases hadd : (t.add (.success (.body b)) v).exec w with
      | mk result w₁ =>
      rw [t.exec_noted (o := .add) hadd calls]
      cases result with
      | error e =>
        exact ⟨.error e, w₁, [⟨.add, _, v, .error e⟩], 0, rfl, rfl, by simp, by simp, by simp⟩
      | ok s =>
        obtain ⟨result, w₂, more, skipped, hrun, hnoting, hdirect, hmore, hresult⟩ :=
          ih (ht.add_body hadd) w₁ (calls ++ [⟨.add, .success (.body b), v, .ok s⟩])
        rw [List.append_assoc] at hnoting
        refine ⟨result, w₂, _, skipped, hrun, hnoting, hdirect, by simpa using hmore, ?_⟩
        intro r' hr'
        obtain ⟨hbody, hlength⟩ := hresult r' hr'
        exact ⟨hbody, by simp; omega⟩

/-- Additions that do not raise one by one do not raise in a row. -/
theorem ok_of_foldlM_addNext (ht : t.PassesOn lines)
    (hadd : ∀ b v w, ∃ r w', (t.add (.success (.body b)) v).exec w = (.ok r, w'))
    (components : List Value) {r : Value} (hr : Outcome.OfBody r) (w : World ω) :
    ∃ r' w', (components.foldlM (addNext t) r).exec w = (.ok r', w') := by
  induction components generalizing r w with
  | nil => exact ⟨r, w, rfl⟩
  | cons v components ih =>
    cases hr with
    | failure e => exact ⟨.failure e, w, by rw [foldlM_addNext_failure, Action.exec_pure]⟩
    | body b =>
      obtain ⟨s, w₁, hs⟩ := hadd b v w
      have hnext : (addNext t (.success (.body b)) v).exec w = (.ok s, w₁) := hs
      rw [List.foldlM_cons, Action.exec_bind, hnext]
      exact ih (ht.add_body hs) w₁

end Adding

end Recipe

/-! ### The technologies of the kitchen -/

namespace Interpreter

theorem settled_ofBody (x : Except Cause Body) (w : World ω) :
    Outcome.OfBody (Outcome.settled .body x w) := by
  cases x with
  | ok b => exact .body b
  | error c => exact .failure _

theorem settled_ofReady (x : Except Cause Ready) (w : World ω) :
    Outcome.OfReady (Outcome.settled .ready x w) := by
  cases x with
  | ok r => exact .ready r
  | error c => exact .failure _

theorem crazy_passesOn : (crazyTechnology : Technology ω).PassesOn [] where
  add_failure e v w := by rw [World.printed_nil]; rfl
  finish_failure e v w := ⟨w, rfl⟩
  add_body {b v r w w'} h := by
    have hr : Outcome.settled .body (b.add v) w = r := by
      simpa using congrArg Prod.fst ((exec_add b v w).symm.trans h)
    exact hr ▸ settled_ofBody _ w
  finish_body {b v r w w'} h := by
    have hr : Outcome.settled .ready (Ready.ofParts (.body b) v) w = r := by
      simpa using congrArg Prod.fst ((exec_finish b v w).symm.trans h)
    exact hr ▸ settled_ofReady _ w

variable [Scene ω]

/-- Looking up in a pantry ends with a failure, or gets to what comes after. -/
theorem ok_of_whenFound (hs : Scene.TellsOutcomes ω) {p : Pantry} {v r : Value}
    {rest : Action ω Value} {w w' : World ω} (h : (whenFound p.get v rest).exec w = (.ok r, w')) :
    (∃ e, r = .failure e) ∨ ∃ w₁, rest.exec w₁ = (.ok r, w') := by
  obtain ⟨found, w₁, hget, h⟩ := Action.exec_bind_eq_ok.mp h
  obtain ⟨held, w₂, -, hget⟩ := Action.exec_bind_eq_ok.mp hget
  cases held with
  | true =>
    cases hget
    rw [hs.isFailure_success, pure_bind] at h
    exact .inr ⟨_, h⟩
  | false =>
    obtain ⟨name, w₃, -, hget⟩ := Action.exec_bind_eq_ok.mp hget
    cases hget
    rw [hs.isFailure_failure, pure_bind] at h
    cases h
    exact .inl ⟨_, rfl⟩

/-- Giving up on an ingredient is a failure, unless the ingredient has no name. -/
theorem ok_of_fail {o : Operation} {v r : Value} {w w' : World ω}
    (h : (fail o v).exec w = (.ok r, w')) : ∃ e, r = .failure e := by
  obtain ⟨-, w₁, -, h⟩ := Action.exec_bind_eq_ok.mp h
  obtain ⟨name, w₂, -, h⟩ := Action.exec_bind_eq_ok.mp h
  cases h
  exact ⟨_, rfl⟩

section Silent

variable (hs : Scene.TellsOutcomes ω)
include hs

theorem stocked_passesOn (p : Pantry) :
    (stockedTechnology crazyTechnology p.get : Technology ω).PassesOn [] where
  add_failure e v w := by
    simp only [stockedTechnology, hs.isFailure_failure, pure_bind]
    exact crazy_passesOn.add_failure e v w
  finish_failure e v w := by
    simp only [stockedTechnology, hs.isSuccess_failure, pure_bind]
    exact crazy_passesOn.finish_failure e v w
  add_body {b v r w w'} h := by
    simp only [stockedTechnology, hs.isFailure_success, pure_bind, Bool.false_eq_true,
      ↓reduceIte] at h
    rcases ok_of_whenFound hs h with ⟨e, rfl⟩ | ⟨w₁, h⟩
    · exact .failure e
    · exact crazy_passesOn.add_body h
  finish_body {b v r w w'} h := by
    simp only [stockedTechnology, hs.isSuccess_success, pure_bind, ↓reduceIte] at h
    split at h
    next => exact crazy_passesOn.finish_body h
    next =>
      rcases ok_of_whenFound hs h with ⟨e, rfl⟩ | ⟨w₁, h⟩
      · exact .failure e
      · exact crazy_passesOn.finish_body h

theorem faulty_passesOn (failAt : Value) :
    (faultyTechnology crazyTechnology failAt : Technology ω).PassesOn [] where
  add_failure e v w := by
    simp only [faultyTechnology, hs.isFailure_failure, pure_bind]
    exact crazy_passesOn.add_failure e v w
  finish_failure e v w := by
    simp only [faultyTechnology, hs.isSuccess_failure, pure_bind]
    exact crazy_passesOn.finish_failure e v w
  add_body {b v r w w'} h := by
    simp only [faultyTechnology, hs.isFailure_success, pure_bind, Bool.false_eq_true,
      ↓reduceIte] at h
    split at h
    next =>
      obtain ⟨e, rfl⟩ := ok_of_fail h
      exact .failure e
    next => exact crazy_passesOn.add_body h
  finish_body {b v r w w'} h := by
    simp only [faultyTechnology, hs.isSuccess_success, pure_bind, ↓reduceIte] at h
    split at h
    next =>
      obtain ⟨e, rfl⟩ := ok_of_fail h
      exact .failure e
    next => exact crazy_passesOn.finish_body h

end Silent

/-! The real technology does as the silent one does, and prints a line more. -/

/-- What is printed after an addition. -/
def addedLine : Line := .text ("[green][KITCHEN] " ++ Operation.add.label ++ " processed.[/green]")

/-- What is printed after a sandwich has been finished to `r`. -/
def finishedLine : Value → Line
  | .failure _ =>
    .text ("[red][KITCHEN] " ++ Operation.finish.label ++ " passed failure through.[/red]")
  | _ => .text ("[green][KITCHEN] " ++ Operation.finish.label ++ " processed.[/green]")

theorem exec_real_add {x v r : Value} {w w₁ : World ω}
    (h : (add x v).exec w = (.ok r, w₁)) :
    ((realTechnology crazyTechnology).add x v).exec w = (.ok r, w₁.printed [addedLine]) := by
  simp only [realTechnology, crazyTechnology, Action.exec_bind, h]
  rfl

theorem exec_real_finish (hs : Scene.TellsOutcomes ω) {x v r : Value} {w w₁ : World ω}
    (h : (finish x v).exec w = (.ok r, w₁)) (hr : Outcome.OfReady r) :
    ((realTechnology crazyTechnology).finish x v).exec w =
      (.ok r, w₁.printed [finishedLine r]) := by
  simp only [realTechnology, crazyTechnology, Action.exec_bind, h]
  cases hr with
  | ready s =>
    rw [hs.isFailure_success]
    rfl
  | failure e =>
    rw [hs.isFailure_failure]
    rfl

theorem real_passesOn (hs : Scene.TellsOutcomes ω) :
    (realTechnology crazyTechnology : Technology ω).PassesOn [addedLine] where
  add_failure e v w := rfl
  finish_failure e v w := ⟨_, exec_real_finish hs (exec_finish_failure e v w) (.failure e)⟩
  add_body {b v r w w'} h := by
    have hr : Outcome.settled .body (b.add v) w = r := by
      simpa using congrArg Prod.fst ((exec_real_add (exec_add b v w)).symm.trans h)
    exact hr ▸ settled_ofBody _ w
  finish_body {b v r w w'} h := by
    have hr : Outcome.settled .ready (Ready.ofParts (.body b) v) w = r := by
      simpa using congrArg Prod.fst
        ((exec_real_finish hs (exec_finish b v w) (settled_ofReady _ w)).symm.trans h)
    exact hr ▸ settled_ofReady _ w

/-- What has been printed before makes no difference to finishing on the real technology. -/
theorem exec_real_finish_printed (hs : Scene.TellsOutcomes ω) {x : Value} (hx : Outcome.OfBody x)
    (v : Value) (w : World ω) :
    ∃ (r : Value) (w₁ : World ω), Outcome.OfReady r ∧ ∀ lines,
      ((realTechnology crazyTechnology).finish x v).exec (w.printed lines) =
        (.ok r, w₁.printed (lines ++ [finishedLine r])) := by
  cases hx with
  | failure e =>
    refine ⟨.failure e, w, .failure e, fun lines => ?_⟩
    rw [exec_real_finish hs (exec_finish_failure e v _) (.failure e), World.printed_printed]
  | body b =>
    refine ⟨Outcome.settled .ready (Ready.ofParts (.body b) v) w,
      Outcome.after (Ready.ofParts (.body b) v) w, settled_ofReady _ w, fun lines => ?_⟩
    rw [exec_real_finish hs (exec_finish b v _) (settled_ofReady _ _)]
    cases Ready.ofParts (.body b) v with
    | ok r => simp [Outcome.settled, Outcome.after]
    | error c => simp [Outcome.settled, Outcome.after, World.printed, World.faulted]

end Interpreter

/-! ### Agreement -/

namespace Recipe

variable {t : Technology ω} {lines : List Line} {r : Value}

/-- If a failure is handed on silently, the combinators make no difference at all. -/
theorem exec_composed (ht : t.PassesOn []) (hr : Outcome.OfBody r) (components : List Value)
    (top : Value) (w : World ω) :
    (composed t r components top).exec w = (chained t r components top).exec w := by
  obtain ⟨result, w₁, _, skipped, hchained, -, hcomposed, -, hresult⟩ :=
    exec_foldlM_add ht components hr w []
  have hsilent : (List.replicate skipped ([] : List Line)).flatten = [] := by simp
  rw [hsilent, World.printed_nil] at hcomposed
  rw [composed, chained, Action.exec_bind, Action.exec_bind, hchained, hcomposed]
  cases result with
  | error e => rfl
  | ok s => simp only [finishWith_of_settled t (hresult s rfl).1.settled]

theorem ofReady_of_chained (ht : t.PassesOn lines) (hr : Outcome.OfBody r)
    (components : List Value) (top : Value) {w w' : World ω} {s : Value}
    (h : (chained t r components top).exec w = (.ok s, w')) : Outcome.OfReady s := by
  obtain ⟨result, w₁, _, _, hchained, -, -, -, hresult⟩ := exec_foldlM_add ht components hr w []
  rw [chained, Action.exec_bind, hchained] at h
  cases result with
  | error e => cases h
  | ok x =>
    have hx := (hresult x rfl).1
    simp only [finishWith_of_settled t hx.settled] at h
    cases hx with
    | body b => exact ht.finish_body h
    | failure e =>
      obtain ⟨w₂, hfinish⟩ := ht.finish_failure e top w₁
      rw [hfinish] at h
      cases h
      exact .failure e

/-- What has failed before is what comes out, the same failure. -/
theorem exec_chained_failure (ht : t.PassesOn lines) (e : Value) (components : List Value)
    (top : Value) (w : World ω) :
    ∃ w', (chained t (.failure e) components top).exec w = (.ok (.failure e), w') := by
  rw [chained, foldlM_addNext_failure, pure_bind]
  exact ht.finish_failure e top w

section Real

variable [Scene ω]

open Interpreter

/-- On the real technology every addition that the combinators leave out is one line more. -/
theorem exec_composed_real (hs : Scene.TellsOutcomes ω) (hr : Outcome.OfBody r)
    (components : List Value) (top : Value) (w : World ω) :
    ∃ (s : Value) (w₁ : World ω) (w₂ : World ω) (calls : List Noted) (skipped : Nat),
      (chained real.technology r components top).exec w =
        (.ok s, w₁.printed [finishedLine s]) ∧
      (composed real.technology r components top).exec w =
        (.ok s, w₁.printed (List.replicate skipped addedLine ++ [finishedLine s])) ∧
      (chained real.technology.noting r components top).exec (w.noting []) =
        (.ok s, w₂.noting calls) ∧
      (calls.filter (·.operation = .add)).length + skipped = components.length := by
  have ht : (real.technology : Technology ω).PassesOn [addedLine] := real_passesOn hs
  obtain ⟨result, w₁, more, skipped, hchained, hnoting, hcomposed, hmore, hresult⟩ :=
    exec_foldlM_add ht components hr w []
  obtain ⟨x, w₁', hok⟩ := ok_of_foldlM_addNext ht
    (fun b v w => ⟨_, _, exec_real_add (exec_add b v w)⟩) components hr w
  obtain ⟨rfl, rfl⟩ := Prod.mk.inj (hchained.symm.trans hok)
  obtain ⟨hx, hlength⟩ := hresult x rfl
  obtain ⟨s, w₂, -, hfinish⟩ := exec_real_finish_printed hs hx top w₁
  have hlast : (real.technology.finish x top).exec w₁ = (.ok s, w₂.printed [finishedLine s]) := by
    have h := hfinish []
    rwa [World.printed_nil] at h
  refine ⟨s, w₂, w₂.printed [finishedLine s],
    more ++ [⟨.finish, x, top, .ok s⟩], skipped, ?_, ?_, ?_, ?_⟩
  · simpa only [chained, Action.exec_bind, hchained, finishWith_of_settled _ hx.settled] using hlast
  · have hlines : (List.replicate skipped [addedLine]).flatten =
        List.replicate skipped addedLine := by
      simp
    simp only [composed, Action.exec_bind, hcomposed, hlines]
    exact hfinish _
  · have hnoted := real.technology.exec_noted (o := .finish) hlast ([] ++ more)
    simp only [chained, Action.exec_bind, hnoting, finishWith_of_settled _ hx.settled]
    exact hnoted
  · have hadds : more.filter (·.operation = .add) = more := by simpa using hmore
    have hfinishing : decide ((⟨.finish, x, top, .ok s⟩ : Noted).operation = .add) = false := rfl
    rw [List.filter_append, hadds]
    simpa using hlength

theorem passesOn_silently (hs : Scene.TellsOutcomes ω) {i : Interpreter} (hi : i ≠ .real) :
    (i.technology : Technology ω).PassesOn [] := by
  cases i with
  | real => exact absurd rfl hi
  | crazy => exact crazy_passesOn
  | stocked pantry => exact stocked_passesOn hs pantry
  | faulty failAt => exact faulty_passesOn hs failAt

theorem passesOn (hs : Scene.TellsOutcomes ω) (i : Interpreter) :
    ∃ lines, (i.technology : Technology ω).PassesOn lines := by
  by_cases hi : i = .real
  · subst hi
    exact ⟨_, real_passesOn hs⟩
  · exact ⟨_, passesOn_silently hs hi⟩

/-- Any components, members or not, and any top come to the same on a body or a failure by the
combinators as by the operations alone: to the same sandwich, to the same failure, or to the same
fault. The silent, the stocked and the faulty technology do the very same in both ways. The real
one prints one line more for every addition that the combinators leave out, and is never at a
loss. A failure that is there in the beginning comes out as it is. -/
theorem combinators_agree (hs : Scene.TellsOutcomes ω) {r : Value} (hr : Outcome.OfBody r)
    (components : List Value) (top : Value) (w : World ω) :
    (∀ i : Interpreter, i ≠ .real →
      (composed i.technology r components top).exec w =
        (chained i.technology r components top).exec w) ∧
    (∃ (s : Value) (last : Line) (w₁ w₂ : World ω) (calls : List Noted) (skipped : Nat),
      (chained real.technology r components top).exec w = (.ok s, w₁.printed [last]) ∧
      (composed real.technology r components top).exec w =
        (.ok s, w₁.printed (List.replicate skipped
          (.text "[green][KITCHEN] Op.AddComponent processed.[/green]") ++ [last])) ∧
      (chained real.technology.noting r components top).exec (w.noting []) =
        (.ok s, w₂.noting calls) ∧
      (calls.filter (·.operation = .add)).length + skipped = components.length) ∧
    (∀ (i : Interpreter) s w',
      (chained i.technology r components top).exec w = (.ok s, w') → Outcome.OfReady s) ∧
    (∀ (i : Interpreter) e, r = .failure e →
      ∃ w', (chained i.technology r components top).exec w = (.ok r, w')) := by
  refine ⟨fun i hi => ?_, ?_, fun i s w' h => ?_, fun i e he => ?_⟩
  · exact exec_composed (passesOn_silently hs hi) hr components top w
  · obtain ⟨s, w₁, w₂, calls, skipped, h⟩ := exec_composed_real hs hr components top w
    exact ⟨s, finishedLine s, w₁, w₂, calls, skipped, h⟩
  · obtain ⟨lines, ht⟩ := passesOn hs i
    exact ofReady_of_chained ht hr components top h
  · obtain ⟨lines, ht⟩ := passesOn hs i
    rw [he]
    exact exec_chained_failure ht e components top w

/-- The second component is none, so the combinators leave the third one out. -/
theorem combinators_agree_ham :
    let r := Value.success (.body ⟨.toast, [.tomato]⟩)
    let components := [.component .cheese, .string "ham", .component .salt]
    let w : World Unit := ⟨[], 0, ()⟩
    Scene.TellsOutcomes Unit ∧ Outcome.OfBody r ∧
      (composed (stocked ⟨[.string "cheese"]⟩).technology r components .null).exec w =
        (chained (stocked ⟨[.string "cheese"]⟩).technology r components .null).exec w ∧
      ∃ s w₁ last, (chained real.technology r components .null).exec w =
          (.ok s, World.printed w₁ [last]) ∧
        (composed real.technology r components .null).exec w = (.ok s, w₁.printed
          [.text "[green][KITCHEN] Op.AddComponent processed.[/green]", last]) := by
  intro r components w
  have hs : Scene.TellsOutcomes Unit := Scene.plain_tellsOutcomes
  have hr : Outcome.OfBody r := .body _
  obtain ⟨hsilent, ⟨s, last, w₁, w₂, calls, skipped, hchained, hcomposed, hnoting, hlength⟩, -⟩ :=
    combinators_agree hs hr components .null w
  have hadded : (calls.filter (·.operation = .add)).length = 2 :=
    (congrArg (fun x => (x.2.rest.2.filter (·.operation = .add)).length) hnoting).symm
  have hskipped : skipped = 1 := by
    rw [hadded] at hlength
    exact Nat.add_left_cancel hlength
  subst hskipped
  exact ⟨hs, hr, hsilent _ (by rintro ⟨⟩), s, w₁, last, hchained, hcomposed⟩

end Real

end Recipe

end Deli
