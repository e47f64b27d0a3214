import Deli.Proofs.Dish
import Deli.Proofs.Provenance

/-! The technology that gives up at one operation. A recipe goes smoothly up to the first call of
this operation; the failure that comes up there goes through all that follows and is what the recipe
comes to. Only a recipe without additions gets by a technology that gives up on adding. In no run of
calls is anything made that would have taken the operation. -/

namespace Deli

attribute [local instance] Scene.plain

variable {ω : Type}

/-! ### Actions under observation -/

/-- In the world `w` an action comes to `x` and leaves the world `w'`; so does the one under
observation, which notes down the calls `noted` beside. -/
def Observed (a : Action ω Value) (a' : Action (ω × List Noted) Value) (w : World ω)
    (x : Except Fault Value) (w' : World ω) (noted : List Noted) : Prop :=
  a.exec w = (x, w') ∧ ∀ calls, a'.exec (w.noting calls) = (x, w'.noting (calls ++ noted))

namespace Observed

variable {w w₁ w₂ : World ω}

theorem pure (v : Value) (w : World ω) : Observed (pure v) (pure v) w (.ok v) w [] :=
  ⟨rfl, fun calls => by rw [List.append_nil]; rfl⟩

theorem run {t : Technology ω} {o : Operation} {first second : Value} {x : Except Fault Value}
    (h : (t.run o first second).exec w = (x, w₁)) :
    Observed (t.run o first second) (t.noting.run o first second) w x w₁ [⟨o, first, second, x⟩] := by
  refine ⟨h, fun calls => ?_⟩
  cases o <;> exact t.exec_noted h calls

theorem bind {a : Action ω Value} {a' : Action (ω × List Noted) Value} {f : Value → Action ω Value}
    {f' : Value → Action (ω × List Noted) Value} {v : Value} {x : Except Fault Value}
    {noted noted' : List Noted} (ha : Observed a a' w (.ok v) w₁ noted)
    (hf : Observed (f v) (f' v) w₁ x w₂ noted') :
    Observed (a >>= f) (a' >>= f') w x w₂ (noted ++ noted') := by
  constructor
  · rw [Action.exec_bind, ha.1]
    exact hf.1
  · intro calls
    rw [Action.exec_bind, ha.2, ← List.append_assoc]
    exact hf.2 _

end Observed

namespace Recipe

variable {t : Technology ω} {w w₁ w₂ w₃ : World ω}

/-- Nothing is done any more of the additions after a failure. -/
theorem observed_adds_failure (t : Technology ω) (e : Value) (components : List Value)
    (w : World ω) :
    Observed (components.foldlM (addNext t) (.failure e))
      (components.foldlM (addNext t.noting) (.failure e)) w (.ok (.failure e)) w [] := by
  rw [foldlM_addNext_failure, foldlM_addNext_failure]
  exact .pure _ _

/-- The first addition to a success fails. -/
theorem observed_adds_failing {v component e : Value}
    (hadd : (t.run .add (.success v) component).exec w = (.ok (.failure e), w₁))
    (components : List Value) :
    Observed ((component :: components).foldlM (addNext t) (.success v))
      ((component :: components).foldlM (addNext t.noting) (.success v)) w (.ok (.failure e)) w₁
      [⟨.add, .success v, component, .ok (.failure e)⟩] :=
  (Observed.run hadd).bind (observed_adds_failure t e components w₁)

/-- The additions to a body that all succeed without a word. -/
theorem observed_adds_body (ht : ∀ b c w, (t.run .add (.success (.body b)) (.component c)).exec w =
      (.ok (.success (.body (b.withComponent c))), w))
    (b : Body) (components : List Component) (w : World ω) :
    ∃ noted, Observed ((components.map .component).foldlM (addNext t) (.success (.body b)))
        ((components.map .component).foldlM (addNext t.noting) (.success (.body b))) w
        (.ok (.success (.body (b.withComponents components)))) w noted ∧
      ∀ e ∈ noted, e.operation = .add := by
  induction components generalizing b with
  | nil =>
    rw [Body.withComponents_nil]
    exact ⟨[], .pure _ w, by simp⟩
  | cons c components ih =>
    obtain ⟨noted, hrest, hnoted⟩ := ih (b.withComponent c)
    rw [Body.withComponents_cons]
    refine ⟨_, (Observed.run (ht b c w)).bind hrest, ?_⟩
    simpa using hnoted

/-- A recipe from its start, its additions and its finish. -/
theorem observed_run (recipe : Recipe Value) {s r : Value} {x : Except Fault Value}
    {noted : List Noted}
    (hstart : (t.run .start recipe.bottom recipe.first).exec w = (.ok s, w₁))
    (hadds : Observed (recipe.adds.foldlM (addNext t) s) (recipe.adds.foldlM (addNext t.noting) s)
      w₁ (.ok r) w₂ noted)
    (hr : Outcome.Settled r) (hfinish : (t.run .finish r recipe.top).exec w₂ = (x, w₃)) :
    Observed (recipe.run t) (recipe.run t.noting) w x w₃
      (⟨.start, recipe.bottom, recipe.first, .ok s⟩ :: noted ++ [⟨.finish, r, recipe.top, x⟩]) := by
  have hlast : Observed (finishWith t r recipe.top) (finishWith t.noting r recipe.top) w₂ x w₃
      [⟨.finish, r, recipe.top, x⟩] := by
    rw [finishWith_of_settled t hr, finishWith_of_settled t.noting hr]
    exact .run hfinish
  exact (Observed.run hstart).bind (hadds.bind hlast)

end Recipe

/-! ### The recipe of a dish -/

namespace Interpreter

variable (o : Operation)

theorem exec_faulty_of_ne {q : Request} (hq : q.Proper) (h : q.operation ≠ o) (w : World ω) :
    ((faulty (.operation o)).technology.serve q).exec w = (.ok q.outcome, w) := by
  have hfault : q.isAtFault (.operation o) = false := by
    rw [Request.isAtFault, isOperation, beq_false_of_ne (Ne.symm h), Bool.false_and]
  rw [exec_serve_faulty _ hq, hfault]
  rfl

theorem exec_faulty_failure {q : Request} (hq : q.Proper) (hidle : q.isIdle = true) (w : World ω) :
    ((faulty (.operation o)).technology.serve q).exec w = (.ok q.outcome, w) := by
  have hfault : q.isAtFault (.operation o) = false := by
    rw [Request.isAtFault, hidle, Bool.not_true, Bool.and_false]
  rw [exec_serve_faulty _ hq, hfault]
  rfl

theorem exec_faulty_of_eq {q : Request} (hq : q.Proper) (h : q.operation = o)
    (hidle : q.isIdle = false) (w : World ω) :
    ((faulty (.operation o)).technology.serve q).exec w = q.breakdown w := by
  have hfault : q.isAtFault (.operation o) = true := by
    rw [Request.isAtFault, isOperation, hidle, h, beq_self_eq_true, Bool.not_false, Bool.and_true]
  rw [exec_serve_faulty _ hq, hfault]
  rfl

end Interpreter

/-- The failure to find an ingredient, with the fault that comes up next. -/
def World.shortage (w : World ω) (x : Ingredient) : Value :=
  .failure (.fault (.mk w.nextFault (.notFound x.name (.ofIngredient x))))

/-- The world after an operation has been given up. -/
def World.gaveUp (w : World ω) (o : Operation) : World ω :=
  (w.printed [.text ("[red][KITCHEN] " ++ o.label ++ " processed with error.[/red]")]).faulted

namespace Dish

/-- The ingredient that is reported missing at an operation, if the recipe gets to it. -/
def reported (d : Dish) : Operation → Option Ingredient
  | .start => some (.bread d.bottom)
  | .add => d.adds.head?.map .component
  | .finish => some (.bread (d.top.getD .toast))

variable (d : Dish) (label : String)

/-- What the recipe of a dish comes to on the technology that gives up at `o`, and the calls by
the way. -/
def ComesTo (o : Operation) (w : World ω) (x : Value) (w' : World ω) (noted : List Noted) : Prop :=
  let t : Technology ω := (Interpreter.faulty (.operation o)).technology
  Observed ((d.recipe label).run t) ((d.recipe label).run t.noting) w (.ok x) w' noted

theorem comesTo_of_start (w : World ω) :
    ∃ noted, d.ComesTo label .start w (w.shortage (.bread d.bottom)) (w.gaveUp .start)
      (⟨.start, .bread d.bottom, .component d.first, .ok (w.shortage (.bread d.bottom))⟩ ::
        noted) := by
  have hstart := Interpreter.exec_faulty_of_eq .start (q := .start d.bottom d.first) trivial rfl
    rfl w
  have hfinish := Interpreter.exec_faulty_failure .start
    (q := .finish (w.shortage (.bread d.bottom)) d.top) (.failure _) rfl (w.gaveUp .start)
  exact ⟨_, Recipe.observed_run (d.recipe label) hstart
    (Recipe.observed_adds_failure _ _ _ _) (.failure _) hfinish⟩

/-- Without additions there is nothing to give up on. -/
theorem comesTo_of_no_adds (hadds : d.adds = []) (w : World ω) :
    ∃ noted, d.ComesTo label .add w (.success (.ready d.sandwich)) w noted := by
  have hstart := Interpreter.exec_faulty_of_ne .add (q := .start d.bottom d.first) trivial
    (by simp [Request.operation]) w
  have hfinish := Interpreter.exec_faulty_of_ne .add
    (q := .finish (.success (.body ⟨d.bottom, [d.first]⟩)) d.top) (.body _)
    (by simp [Request.operation]) w
  have hnone : (d.recipe label).adds = [] := by simp [recipe, hadds]
  have hrun := Recipe.observed_run (d.recipe label) hstart
    (by rw [hnone]; exact .pure _ w) (.success _) hfinish
  have hsandwich : d.sandwich = ⟨⟨d.bottom, [d.first]⟩, d.top⟩ := by rw [sandwich, hadds]
  rw [hsandwich]
  exact ⟨_, hrun⟩

theorem comesTo_of_add {c : Component} {cs : List Component} (hadds : d.adds = c :: cs)
    (w : World ω) :
    ∃ s r noted, d.ComesTo label .add w (w.shortage (.component c)) (w.gaveUp .add)
      (⟨.start, .bread d.bottom, .component d.first, s⟩ ::
        ⟨.add, r, .component c, .ok (w.shortage (.component c))⟩ :: noted) := by
  let b : Body := ⟨d.bottom, [d.first]⟩
  have hstart := Interpreter.exec_faulty_of_ne .add (q := .start d.bottom d.first) trivial
    (by simp [Request.operation]) w
  have hadd := Interpreter.exec_faulty_of_eq .add (q := .add (.success (.body b)) c) (.body b) rfl
    rfl w
  have hfinish := Interpreter.exec_faulty_failure .add
    (q := .finish (w.shortage (.component c)) d.top) (.failure _) rfl (w.gaveUp .add)
  have hsome : (d.recipe label).adds = .component c :: cs.map .component := by
    simp [recipe, hadds]
  have hfailing := Recipe.observed_adds_failing hadd (cs.map .component)
  rw [← hsome] at hfailing
  have hrun := Recipe.observed_run (d.recipe label) hstart hfailing (.failure _) hfinish
  exact ⟨_, _, _, hrun⟩

theorem comesTo_of_finish (w : World ω) :
    ∃ s noted r, d.ComesTo label .finish w (w.shortage (.bread (d.top.getD .toast)))
      (w.gaveUp .finish)
      (⟨.start, .bread d.bottom, .component d.first, s⟩ :: noted ++
        [⟨.finish, r, .ofOption .bread d.top,
          .ok (w.shortage (.bread (d.top.getD .toast)))⟩]) ∧
      ∀ e ∈ noted, e.operation = .add := by
  have hstart := Interpreter.exec_faulty_of_ne .finish (q := .start d.bottom d.first) trivial
    (by simp [Request.operation]) w
  obtain ⟨noted, hadds, hnoted⟩ := Recipe.observed_adds_body
    (t := (Interpreter.faulty (.operation .finish)).technology)
    (fun b c w => Interpreter.exec_faulty_of_ne .finish (q := .add (.success (.body b)) c) (.body b)
      (by simp [Request.operation]) w) ⟨d.bottom, [d.first]⟩ d.adds w
  have hfinish := Interpreter.exec_faulty_of_eq .finish
    (q := .finish (.success (.body d.sandwich.body)) d.top) (.body _) rfl rfl w
  exact ⟨_, noted, _, Recipe.observed_run (d.recipe label) hstart hadds (.success _)
    hfinish, hnoted⟩

end Dish

/-! ### Runs of calls -/

/-- What a technology that gives up at `o` can come to: a failure, or something that is made without
this operation. -/
inductive Outcome.Without (o : Operation) : Value → Prop
  | failure (e : Value) : Without o (.failure e)
  | body (b : Body) (hstart : o ≠ .start) (hadd : o = .add → b.components.length = 1) :
    Without o (.success (.body b))
  | ready (r : Ready) (hstart : o ≠ .start) (hadd : o = .add → r.body.components.length = 1)
      (hfinish : o ≠ .finish) : Without o (.success (.ready r))

namespace Request

variable {o : Operation}

/-- The outcome that a request works on, if it works on one. -/
def operand? : Request → Option Value
  | start .. => none
  | add r _ | finish r _ => some r

theorem without_outcome {q : Request} (hq : q.Proper)
    (hfault : q.isAtFault (.operation o) = false)
    (hoperand : ∀ r, q.operand? = some r → Outcome.Without o r) : Outcome.Without o q.outcome := by
  have hne (hidle : q.isIdle = false) : o ≠ q.operation := by
    simpa [isAtFault, Interpreter.isOperation, hidle] using hfault
  cases q with
  | start bread component => exact .body _ (hne rfl) fun _ => rfl
  | add r component =>
    cases hq with
    | failure e => exact .failure e
    | body b =>
      cases hoperand _ rfl with
      | body _ hstart _ => exact .body _ hstart fun hadd => absurd hadd (hne rfl)
  | finish r top =>
    cases hq with
    | failure e => exact .failure e
    | body b =>
      cases hoperand _ rfl with
      | body _ hstart hadd => exact .ready _ hstart hadd (hne rfl)

end Request

namespace Interpreter

theorem exec_serve_without (o : Operation) {q : Request} (hq : q.Proper)
    (hoperand : ∀ r, q.operand? = some r → Outcome.Without o r) (w : World ω) :
    ∃ r w', ((faulty (.operation o)).technology.serve q).exec w = (.ok r, w') ∧
      Outcome.Without o r ∧ (r = q.outcome ∨ ∃ e, r = .failure e) := by
  rw [exec_serve_faulty _ hq]
  cases hfault : q.isAtFault (.operation o) with
  | true => exact ⟨_, _, rfl, .failure _, .inr ⟨_, rfl⟩⟩
  | false => exact ⟨_, _, rfl, q.without_outcome hq hfault hoperand, .inl rfl⟩

end Interpreter

namespace Program

variable {α : Type} {n : Nat}

theorem source_without {o : Operation} {outcomes : Vector Value n}
    (h : ∀ v ∈ outcomes, Outcome.OfBody v ∧ Outcome.Without o v)
    (source : Source Outcome.IsFailure n) :
    Outcome.OfBody (source.value outcomes) ∧ Outcome.Without o (source.value outcomes) := by
  cases source with
  | earlier i => exact h _ (Vector.getElem_mem i.2)
  | outside v hv =>
    obtain ⟨e, rfl⟩ := hv
    exact ⟨.failure e, .failure e⟩

/-- All of a run is done without the operation given up at, and nothing raises in it. -/
def RunsWithout (o : Operation) (a : Action ω (List Event × α)) : Prop :=
  ∀ w, ∃ events x w', a.exec w = (.ok (events, x), w') ∧ ∀ e ∈ events, Outcome.Without o e.result

theorem RunsWithout.call {o : Operation} {q : Request} (hq : q.Proper)
    (hoperand : ∀ r, q.operand? = some r → Outcome.Without o r) (taken : Option Nat)
    {next : Value → Action ω (List Event × α)}
    (hnext : ∀ r, Outcome.Without o r → (r = q.outcome ∨ ∃ e, r = .failure e) →
      RunsWithout o (next r)) :
    RunsWithout o (call (Interpreter.faulty (.operation o)).technology q taken next) := by
  intro w
  obtain ⟨r, w₁, hserve, hr, hanswer⟩ := Interpreter.exec_serve_without o hq hoperand w
  obtain ⟨events, x, w₂, hrun, hevents⟩ := hnext r hr hanswer w₁
  refine ⟨⟨q, taken, r⟩ :: events, x, w₂, ?_, List.forall_mem_cons.mpr ⟨hr, hevents⟩⟩
  simp only [Program.call, Action.exec_bind, hserve, hrun, Action.exec_pure]

/-- What starting or adding is answered with can be worked on. -/
theorem push_without {o : Operation} {outcomes : Vector Value n}
    (h : ∀ v ∈ outcomes, Outcome.OfBody v ∧ Outcome.Without o v) {q : Request} (hq : q.Proper)
    (hmaker : q.operation ≠ .finish) {r : Value} (hr : Outcome.Without o r)
    (hanswer : r = q.outcome ∨ ∃ e, r = .failure e) :
    ∀ v ∈ outcomes.push r, Outcome.OfBody v ∧ Outcome.Without o v := by
  intro v hv
  rcases Vector.mem_push.mp hv with hv | rfl
  · exact h v hv
  · refine ⟨?_, hr⟩
    rcases hanswer with rfl | ⟨e, rfl⟩
    · exact outcome_ofBody hq hmaker
    · exact .failure e

/-- No call of a program raises, and nothing is made that takes the operation given up at. -/
theorem runsWithout (o : Operation) (p : Program Outcome.IsFailure α n) (outcomes : Vector Value n)
    (h : ∀ v ∈ outcomes, Outcome.OfBody v ∧ Outcome.Without o v) :
    RunsWithout (ω := ω) o (p.run (Interpreter.faulty (.operation o)).technology outcomes) := by
  induction p with
  | done x => exact fun w => ⟨[], x, w, rfl, by simp⟩
  | start bread component next ih =>
    exact .call (q := .start bread component) trivial nofun none fun r hr hanswer =>
      ih r _ (push_without h (q := .start bread component) trivial nofun hr hanswer)
  | add source component next ih =>
    obtain ⟨hbody, hsource⟩ := source_without h source
    refine .call (q := .add _ component) hbody ?_ source.place? fun r hr hanswer =>
      ih r _ (push_without h (q := .add _ component) hbody nofun hr hanswer)
    rintro r ⟨⟩
    exact hsource
  | finish source top next ih =>
    obtain ⟨hbody, hsource⟩ := source_without h source
    refine .call (q := .finish _ top) hbody ?_ source.place? fun r _ _ => ih r outcomes h
    rintro r ⟨⟩
    exact hsource

end Program

namespace Interpreter

/-- A technology that gives up at `o`. Of a recipe it makes the failure that comes up at the first
call of this operation, with the ingredient of just this call and one line printed; without such a
call it makes the sandwich, and nothing is printed. Whatever else is done with it, nothing that it
makes has taken the operation: if it gives up on starting, there is no body; if on adding, there is
one component on each; if on finishing, nothing is finished. -/
theorem breaks_down (o : Operation) :
    let t : Technology ω := (faulty (.operation o)).technology
    (∀ (d : Dish) (label : String) (w : World ω),
      match d.reported o with
      | none => o = .add ∧ d.adds = [] ∧
        ((d.recipe label).run t).exec w = (.ok (.success (.ready d.sandwich)), w)
      | some x =>
        let failure := Value.failure (.fault (.mk w.nextFault (.notFound x.name (.ofIngredient x))))
        let line := "[red][KITCHEN] " ++ o.label ++ " processed with error.[/red]"
        let w' := (w.printed [.text line]).faulted
        ((d.recipe label).run t).exec w = (.ok failure, w') ∧
        ∃ calls, ((d.recipe label).run t.noting).exec (w.noting []) = (.ok failure, w'.noting calls) ∧
          (calls.find? (·.operation == o)).map (·.result) = some (.ok failure)) ∧
    ∀ (α : Type) (p : Program Outcome.IsFailure α 0) (w : World ω),
      ∃ events a w', (p.run t #v[]).exec w = (.ok (events, a), w') ∧
        ∀ e ∈ events, Outcome.Without o e.result := by
  intro t
  refine ⟨fun d label w => ?_, fun α p w => p.runsWithout o #v[] (by simp) w⟩
  cases o with
  | start =>
    obtain ⟨noted, hrun, hnoting⟩ := d.comesTo_of_start label w
    exact ⟨hrun, _, hnoting [], rfl⟩
  | add =>
    cases hadds : d.adds with
    | nil =>
      obtain ⟨noted, hrun, -⟩ := d.comesTo_of_no_adds label hadds w
      simp only [Dish.reported, hadds]
      exact ⟨trivial, trivial, hrun⟩
    | cons c cs =>
      obtain ⟨s, r, noted, hrun, hnoting⟩ := d.comesTo_of_add label hadds w
      simp only [Dish.reported, hadds]
      exact ⟨hrun, _, hnoting [], rfl⟩
  | finish =>
    obtain ⟨s, noted, r, ⟨hrun, hnoting⟩, hnoted⟩ := d.comesTo_of_finish label w
    refine ⟨hrun, _, hnoting [], ?_⟩
    have hnone : noted.find? (·.operation == Operation.finish) = none := by
      rw [List.find?_eq_none]
      intro e he
      rw [hnoted e he]
      decide
    simp only [List.nil_append, List.cons_append, List.find?_cons, List.find?_append, hnone]
    rfl

end Interpreter

end Deli
