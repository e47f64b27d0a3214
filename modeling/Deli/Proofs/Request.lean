import Deli.Interpreter
import Deli.Proofs.Exec
import Deli.Proofs.Sandwich

/-! One call of an operation on arguments of the declared kinds, and what each of the four
technologies does with it. All four make the same outcome of a request unless they refuse it: the
stocked one for the first ingredient in use that is not in stock, the faulty one at its operation.
After a failure nothing is in use and nothing is refused. -/

namespace Deli

attribute [local instance] Scene.plain

variable {ω : Type}

/-! ### Looking up -/

namespace Pantry

/-- Whether anything in stock is the same as an ingredient. -/
def contains (p : Pantry) (x : Ingredient) : Bool := p.stock.any (Value.ofIngredient x).same

/-- What is answered for an ingredient that is not there, and what becomes of the world. -/
def refusal (x : Ingredient) (w : World ω) : Except Fault Value × World ω :=
  (.ok (.failure (.fault (.mk w.nextFault (.notFound x.name (.ofIngredient x))))),
    (w.printed [.text ("[yellow][PANTRY] Out of stock: " ++ x.name ++ "[/yellow]")]).faulted)

theorem exec_holds (p : Pantry) (x : Ingredient) (w : World ω) :
    (p.holds (.ofIngredient x)).exec w = (.ok (p.contains x), w) := by
  have hkey : (Value.ofIngredient x).isKey = true := by cases x <;> rfl
  have hany : p.stock.anyM (m := Action ω) (Scene.same (.ofIngredient x)) =
      pure (p.contains x) := List.anyM_pure
  rw [holds, if_pos hkey, hany]
  rfl

theorem exec_nameOf (x : Ingredient) (w : World ω) :
    (Scene.nameOf (.ofIngredient x)).exec w = (.ok x.name, w) := by
  cases x <;> rfl

theorem exec_get (p : Pantry) (x : Ingredient) (w : World ω) :
    (p.get (.ofIngredient x)).exec w =
      if p.contains x then (.ok (.success (.ofIngredient x)), w) else refusal x w := by
  simp only [get, getFrom, Action.exec_bind, exec_holds]
  split
  next => rfl
  next =>
    simp only [Action.exec_bind, exec_nameOf, Action.exec_print, notFound, Action.exec_newFault,
      Action.exec_pure]
    rfl

end Pantry

/-- Whether an ingredient was not found. -/
def Fault.IsNotFound (e : Fault) : Prop :=
  ∃ x : Ingredient, e.cause = .notFound x.name (.ofIngredient x)

/-! ### Requests -/

/-- What an operation passes on to the next one: a body so far, or a failure. -/
inductive Outcome.OfBody : Value → Prop
  | body (b : Body) : OfBody (.success (.body b))
  | failure (e : Value) : OfBody (.failure e)

inductive Request where
  | start (bread : Bread) (component : Component)
  | add (r : Value) (component : Component)
  | finish (r : Value) (top : Option Bread)

namespace Request

def operation : Request → Operation
  | start .. => .start
  | add .. => .add
  | finish .. => .finish

/-- The outcome that a request works on, if it works on one, is a body or a failure. -/
def Proper : Request → Prop
  | start .. => True
  | add r _ | finish r _ => Outcome.OfBody r

/-- The outcome of a request that nothing is held against. A failure is passed on as it is. -/
def outcome : Request → Value
  | start bread component => .success (.body ⟨bread, [component]⟩)
  | add (.success (.body b)) component => .success (.body (b.withComponent component))
  | finish (.success (.body b)) top => .success (.ready ⟨b, top⟩)
  | add r _ | finish r _ => r

/-- Whether a request comes after a failure, so that there is nothing to do. -/
def isIdle : Request → Bool
  | add (.failure _) _ | finish (.failure _) _ => true
  | _ => false

/-- The ingredients that a request puts to use, in order. -/
def used : Request → List Ingredient
  | start bread component => [.bread bread, .component component]
  | add (.failure _) _ | finish (.failure _) _ => []
  | add _ component => [.component component]
  | finish _ top => top.toList.map .bread

/-- The ingredient that is reported when the request itself is at fault. -/
def handled : Request → Ingredient
  | start bread _ => .bread bread
  | add _ component => .component component
  | finish _ top => .bread (top.getD .toast)

/-- The first ingredient in use that is not in stock. -/
def missing (p : Pantry) (q : Request) : Option Ingredient := q.used.find? fun x => !p.contains x

/-- Whether the faulty technology gives up at a request. -/
def isAtFault (failAt : Value) (q : Request) : Bool :=
  Interpreter.isOperation q.operation failAt && !q.isIdle

/-- What is answered for a request at fault, and what becomes of the world. -/
def breakdown (q : Request) (w : World ω) : Except Fault Value × World ω :=
  (.ok (.failure (.fault (.mk w.nextFault (.notFound q.handled.name (.ofIngredient q.handled))))),
    (w.printed
      [.text ("[red][KITCHEN] " ++ q.operation.label ++ " processed with error.[/red]")]).faulted)

/-- What the real technology prints after a request. -/
def line (q : Request) : String :=
  match q with
  | finish (.failure _) _ => "[red][KITCHEN] " ++ q.operation.label ++ " passed failure through.[/red]"
  | _ => "[green][KITCHEN] " ++ q.operation.label ++ " processed.[/green]"

end Request

def Technology.serve (t : Technology ω) : Request → Action ω Value
  | .start bread component => t.start (.bread bread) (.component component)
  | .add r component => t.add r (.component component)
  | .finish r top => t.finish r (.ofOption .bread top)

/-! ### The four technologies -/

namespace Interpreter

theorem exec_start (bread : Bread) (component : Component) (w : World ω) :
    (start (.bread bread) (.component component)).exec w =
      (.ok (.success (.body ⟨bread, [component]⟩)), w) := by
  simp only [start, Body.ofParts_members, Action.exec_bind, Action.exec_ofExcept_ok,
    Action.exec_pure]

theorem exec_add_body (b : Body) (component : Component) (w : World ω) :
    (add (.success (.body b)) (.component component)).exec w =
      (.ok (.success (.body (b.withComponent component))), w) := by
  simp only [add, Value.plus, Value.plusWith, Outcome.guarded, Body.add_component,
    Action.exec_tryCatch, Action.exec_map]
  rfl

theorem exec_add_failure (e v : Value) (w : World ω) :
    (add (.failure e) v).exec w = (.ok (.failure e), w) := rfl

theorem exec_finish_body (b : Body) (top : Option Bread) (w : World ω) :
    (finish (.success (.body b)) (.ofOption .bread top)).exec w =
      (.ok (.success (.ready ⟨b, top⟩)), w) := by
  simp only [finish, Outcome.mapCatching, Outcome.guarded, Ready.ofParts_body,
    Action.exec_tryCatch, Action.exec_map, Action.exec_ofExcept_ok]

theorem exec_finish_failure (e v : Value) (w : World ω) :
    (finish (.failure e) v).exec w = (.ok (.failure e), w) := rfl

theorem exec_serve_crazy {q : Request} (hq : q.Proper) (w : World ω) :
    (crazy.technology.serve q).exec w = (.ok q.outcome, w) := by
  cases q with
  | start bread component => exact exec_start bread component w
  | add r component =>
    cases hq with
    | body b => exact exec_add_body b component w
    | failure e => exact exec_add_failure e (.component component) w
  | finish r top =>
    cases hq with
    | body b => exact exec_finish_body b top w
    | failure e => exact exec_finish_failure e (.ofOption .bread top) w

theorem exec_serve_real {q : Request} (hq : q.Proper) (w : World ω) :
    (real.technology.serve q).exec w = (.ok q.outcome, w.printed [.text q.line]) := by
  have hbare := exec_serve_crazy hq w
  cases q with
  | start bread component =>
    change (crazyTechnology.start _ _).exec w = _ at hbare
    simp only [technology, technologyOver, realTechnology, Technology.serve, Action.exec_bind, hbare]
    rfl
  | add r component =>
    change (crazyTechnology.add _ _).exec w = _ at hbare
    simp only [technology, technologyOver, realTechnology, Technology.serve, Action.exec_bind, hbare]
    cases hq <;> rfl
  | finish r top =>
    change (crazyTechnology.finish _ _).exec w = _ at hbare
    simp only [technology, technologyOver, realTechnology, Technology.serve, Action.exec_bind, hbare]
    cases hq <;> rfl

theorem exec_whenFound (p : Pantry) (x : Ingredient) (rest : Action ω Value) (w : World ω) :
    (whenFound p.get (.ofIngredient x) rest).exec w =
      if p.contains x then rest.exec w else Pantry.refusal x w := by
  rw [whenFound, Action.exec_bind, Pantry.exec_get]
  by_cases hx : p.contains x
  · simp only [hx, ↓reduceIte]
    rfl
  · simp only [hx, Bool.false_eq_true, ↓reduceIte]
    rfl

theorem exec_serve_stocked (p : Pantry) {q : Request} (hq : q.Proper) (w : World ω) :
    ((stocked p).technology.serve q).exec w =
      match q.missing p with
      | none => (.ok q.outcome, w)
      | some x => Pantry.refusal x w := by
  cases q with
  | start bread component =>
    change (whenFound p.get (.ofIngredient (.bread bread))
      (whenFound p.get (.ofIngredient (.component component)) (start _ _))).exec w = _
    rw [exec_whenFound, exec_whenFound, exec_start]
    by_cases hb : p.contains (.bread bread)
    · by_cases hc : p.contains (.component component)
      · simp [Request.missing, Request.used, hb, hc, Request.outcome]
      · simp [Request.missing, Request.used, hb, hc]
    · simp [Request.missing, Request.used, hb]
  | add r component =>
    cases hq with
    | body b =>
      change (whenFound p.get (.ofIngredient (.component component)) (add _ _)).exec w = _
      rw [exec_whenFound, exec_add_body]
      by_cases hc : p.contains (.component component)
      · simp [Request.missing, Request.used, hc, Request.outcome]
      · simp [Request.missing, Request.used, hc]
    | failure e => rfl
  | finish r top =>
    cases hq with
    | body b =>
      cases top with
      | none => exact exec_finish_body b none w
      | some bread =>
        change (whenFound p.get (.ofIngredient (.bread bread))
          (finish (.success (.body b)) (.ofOption .bread (some bread)))).exec w = _
        rw [exec_whenFound, exec_finish_body]
        by_cases hb : p.contains (.bread bread)
        · simp [Request.missing, Request.used, hb, Request.outcome]
        · simp [Request.missing, Request.used, hb]
    | failure e => rfl

theorem exec_fail (o : Operation) (x : Ingredient) (w : World ω) :
    (fail o (.ofIngredient x)).exec w =
      (.ok (.failure (.fault (.mk w.nextFault (.notFound x.name (.ofIngredient x))))),
        (w.printed
          [.text ("[red][KITCHEN] " ++ o.label ++ " processed with error.[/red]")]).faulted) := by
  simp only [fail, Action.exec_bind, Action.exec_print, Pantry.exec_nameOf, Pantry.notFound,
    Action.exec_newFault, Action.exec_pure]
  rfl

theorem exec_serve_faulty (failAt : Value) {q : Request} (hq : q.Proper) (w : World ω) :
    ((faulty failAt).technology.serve q).exec w =
      if q.isAtFault failAt then q.breakdown w else (.ok q.outcome, w) := by
  cases q with
  | start bread component =>
    change (if isOperation .start failAt then fail .start (.ofIngredient (.bread bread))
      else start (.bread bread) (.component component)).exec w = _
    by_cases h : isOperation .start failAt
    · rw [if_pos h, exec_fail]
      simp [Request.isAtFault, Request.operation, Request.isIdle, h, Request.breakdown,
        Request.handled]
    · rw [if_neg h, exec_start]
      simp [Request.isAtFault, Request.operation, h, Request.outcome]
  | add r component =>
    cases hq with
    | body b =>
      change (if isOperation .add failAt then fail .add (.ofIngredient (.component component))
        else add (.success (.body b)) (.component component)).exec w = _
      by_cases h : isOperation .add failAt
      · rw [if_pos h, exec_fail]
        simp [Request.isAtFault, Request.operation, Request.isIdle, h, Request.breakdown,
          Request.handled]
      · rw [if_neg h, exec_add_body]
        simp [Request.isAtFault, Request.operation, h, Request.outcome]
    | failure e => simp [Request.isAtFault, Request.isIdle]; rfl
  | finish r top =>
    cases hq with
    | body b =>
      have htop : topOrToast (.ofOption .bread top) =
          .ofIngredient (Request.finish (.success (.body b)) top).handled := by
        cases top <;> rfl
      change (if isOperation .finish failAt then fail .finish (topOrToast (.ofOption .bread top))
        else finish (.success (.body b)) (.ofOption .bread top)).exec w = _
      by_cases h : isOperation .finish failAt
      · rw [if_pos h, htop, exec_fail]
        simp [Request.isAtFault, Request.operation, Request.isIdle, h, Request.breakdown]
      · rw [if_neg h, exec_finish_body]
        simp [Request.isAtFault, Request.operation, h, Request.outcome]
    | failure e => simp [Request.isAtFault, Request.isIdle]; rfl

/-- Whatever the technology, a request is answered, by its own outcome or by a failure to find an
ingredient, and nothing is changed but what the console and the faults are. -/
theorem exec_serve_notFound (i : Interpreter) {q : Request} (hq : q.Proper) (w : World ω) :
    ∃ r w', (i.technology.serve q).exec w = (.ok r, w') ∧ w'.rest = w.rest ∧
      (r = q.outcome ∨ ∃ e, r = .failure (.fault e) ∧ e.IsNotFound) := by
  cases i with
  | real => exact ⟨_, _, exec_serve_real hq w, rfl, .inl rfl⟩
  | crazy => exact ⟨_, _, exec_serve_crazy hq w, rfl, .inl rfl⟩
  | stocked p =>
    rw [exec_serve_stocked p hq w]
    cases q.missing p with
    | none => exact ⟨_, _, rfl, rfl, .inl rfl⟩
    | some x => exact ⟨_, _, rfl, rfl, .inr ⟨_, rfl, x, rfl⟩⟩
  | faulty failAt =>
    rw [exec_serve_faulty failAt hq w]
    cases q.isAtFault failAt with
    | false => exact ⟨_, _, rfl, rfl, .inl rfl⟩
    | true => exact ⟨_, _, rfl, rfl, .inr ⟨_, rfl, q.handled, rfl⟩⟩

theorem exec_serve (i : Interpreter) {q : Request} (hq : q.Proper) (w : World ω) :
    ∃ r w', (i.technology.serve q).exec w = (.ok r, w') ∧
      (r = q.outcome ∨ ∃ e, r = .failure e) := by
  obtain ⟨r, w', hserve, -, hr⟩ := i.exec_serve_notFound hq w
  exact ⟨r, w', hserve, hr.imp id fun ⟨e, he, _⟩ => ⟨.fault e, he⟩⟩

end Interpreter

end Deli
