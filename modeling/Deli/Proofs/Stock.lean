import Deli.Proofs.Dish

/-! What is not in stock decides how a dish ends over a pantry. On the stocked technology its
recipe does nothing but look through what goes into it, in order, up to the first ingredient that
is not there. The failure to find that one is what the recipe comes to. If everything is there, so
is the sandwich, just as the silent technology makes it. -/

namespace Deli

attribute [local instance] Scene.plain

variable {ω : Type}

/-! ### Looking through -/

namespace Interpreter

/-- Looks up ingredients one after the other. This ends with the failure to find one of them, or
with `answer` if none is missing. -/
def lookThrough (look : Value → Action ω Value) (answer : Value) : List Ingredient → Action ω Value
  | [] => pure answer
  | x :: rest => whenFound look (.ofIngredient x) (lookThrough look answer rest)

variable {look : Value → Action ω Value} {answer : Value} {k : Value → Action ω Value}

theorem whenFound_bind (hk : ∀ e, k (.failure e) = pure (.failure e)) (x : Value)
    (rest : Action ω Value) : whenFound look x rest >>= k = whenFound look x (rest >>= k) := by
  simp only [whenFound, bind_assoc]
  congr 1
  funext found
  cases found with
  | failure e => exact hk e
  | handle h =>
    obtain ⟨kind, id⟩ := h
    cases kind <;> rfl
  | _ => rfl

theorem lookThrough_bind (hk : ∀ e, k (.failure e) = pure (.failure e)) {answer' : Value}
    {ys : List Ingredient} (h : k answer = lookThrough look answer' ys) (xs : List Ingredient) :
    lookThrough look answer xs >>= k = lookThrough look answer' (xs ++ ys) := by
  induction xs with
  | nil => exact (pure_bind answer k).trans h
  | cons x xs ih =>
    rw [lookThrough, whenFound_bind hk, ih]
    rfl

section Recipe

variable (look)

theorem foldlM_addNext_stocked (b : Body) (components : List Component) :
    (components.map .component).foldlM (Recipe.addNext (stockedTechnology crazyTechnology look))
        (.success (.body b)) =
      lookThrough look (.success (.body (b.withComponents components)))
        (components.map .component) := by
  induction components generalizing b with
  | nil => simp [lookThrough]
  | cons component components ih =>
    have hadd : add (.success (.body b)) (.component component) =
        (pure (.success (.body (b.withComponent component))) : Action ω Value) := by
      funext w
      exact exec_add_body b component w
    have hnext : Recipe.addNext (stockedTechnology crazyTechnology look) (.success (.body b))
        (.component component) =
        lookThrough look (.success (.body (b.withComponent component))) [.component component] :=
      congrArg (whenFound look (.component component)) hadd
    simp only [List.map_cons, List.foldlM_cons, hnext, Body.withComponents_cons]
    exact lookThrough_bind (Recipe.foldlM_addNext_failure _ · _) (ih _) _

theorem finishWith_stocked (b : Body) (top : Option Bread) :
    Recipe.finishWith (stockedTechnology crazyTechnology look) (.success (.body b))
        (.ofOption .bread top) =
      lookThrough look (.success (.ready ⟨b, top⟩)) (top.toList.map .bread) := by
  have hfinish : finish (.success (.body b)) (.ofOption .bread top) =
      (pure (.success (.ready ⟨b, top⟩)) : Action ω Value) := by
    funext w
    exact exec_finish_body b top w
  cases top with
  | none => exact hfinish
  | some bread => exact congrArg (whenFound look (.bread bread)) hfinish

/-- All that the stocked technology does for a dish is to look through its ingredients. -/
theorem run_stocked (d : Dish) (label : String) :
    (d.recipe label).run (stockedTechnology crazyTechnology look) =
      lookThrough look (.success (.ready d.sandwich)) d.ingredients := by
  have hstart : (stockedTechnology crazyTechnology look).start (.bread d.bottom)
      (.component d.first) = lookThrough look (.success (.body ⟨d.bottom, [d.first]⟩))
        [.bread d.bottom, .component d.first] := by
    have hbare : start (.bread d.bottom) (.component d.first) =
        (pure (.success (.body ⟨d.bottom, [d.first]⟩)) : Action ω Value) := by
      funext w
      exact exec_start d.bottom d.first w
    exact congrArg (fun rest => whenFound look (.bread d.bottom)
      (whenFound look (.component d.first) rest)) hbare
  have hadds := foldlM_addNext_stocked look ⟨d.bottom, [d.first]⟩ d.adds
  simp only [Recipe.run, Recipe.follow, Dish.recipe, hstart, ← bind_assoc]
  rw [lookThrough_bind (Recipe.foldlM_addNext_failure _ · _) hadds]
  let finishing (r : Value) :=
    Recipe.finishWith (stockedTechnology crazyTechnology look) r (.ofOption .bread d.top)
  exact lookThrough_bind (k := finishing) (fun _ => rfl) (finishWith_stocked look _ d.top) _

end Recipe

/-- Looking through ingredients that are there gets to the rest of them, in a world that may show
which ones have been `reached`. -/
theorem exec_lookThrough_append {there : Ingredient → Prop} (reached : List Ingredient → World ω)
    (hlook : ∀ done x, there x → (look (.ofIngredient x)).exec (reached done) =
      (.ok (.success (.ofIngredient x)), reached (done ++ [x])))
    {before : List Ingredient} (hbefore : ∀ x ∈ before, there x) (rest done : List Ingredient) :
    (lookThrough look answer (before ++ rest)).exec (reached done) =
      (lookThrough look answer rest).exec (reached (done ++ before)) := by
  induction before generalizing done with
  | nil => simp
  | cons x before ih =>
    have hx := hlook done x (hbefore x (by simp))
    have hrest := ih (fun y hy => hbefore y (by simp [hy])) (done ++ [x])
    rw [List.cons_append, lookThrough, whenFound, Action.exec_bind, hx]
    rw [List.append_assoc, List.singleton_append] at hrest
    exact hrest

theorem exec_lookThrough_missing {x : Ingredient} {e : Value} {w w' : World ω}
    (hx : (look (.ofIngredient x)).exec w = (.ok (.failure e), w')) (rest : List Ingredient) :
    (lookThrough look answer (x :: rest)).exec w = (.ok (.failure e), w') := by
  rw [lookThrough, whenFound, Action.exec_bind, hx]
  rfl

end Interpreter

/-! ### Looking up under observation -/

/-- One look-up: what was asked for, and what was answered. -/
structure Inquiry where
  asked : Value
  answer : Value

def Inquiry.found (x : Ingredient) : Inquiry := ⟨.ofIngredient x, .success (.ofIngredient x)⟩

/-- The world with a list of look-ups beside the rest. -/
def World.inquiring (w : World ω) (inquiries : List Inquiry) : World (ω × List Inquiry) :=
  ⟨w.console, w.nextFault, w.rest, inquiries⟩

namespace Pantry

/-- Looks something up in the pantry, and notes down what was answered. -/
def inquire (p : Pantry) (v : Value) : Action (ω × List Inquiry) Value := do
  let answer ← p.get v
  modify fun w => { w with rest := (w.rest.1, w.rest.2 ++ [⟨v, answer⟩]) }
  pure answer

/-- The failure to find an ingredient, as it comes up in a world. -/
def failure (x : Ingredient) (w : World ω) : Value :=
  .failure (.fault (.mk w.nextFault (.notFound x.name (.ofIngredient x))))

/-- The world after that. -/
def refused (x : Ingredient) (w : World ω) : World ω :=
  (w.printed [.text ("[yellow][PANTRY] Out of stock: " ++ x.name ++ "[/yellow]")]).faulted

theorem exec_get_missing {p : Pantry} {x : Ingredient} (hx : ¬ p.contains x) (w : World ω) :
    (p.get (.ofIngredient x)).exec w = (.ok (failure x w), refused x w) := by
  rw [exec_get, if_neg hx]
  rfl

theorem exec_inquire (p : Pantry) (x : Ingredient) (w : World ω) (inquiries : List Inquiry) :
    (p.inquire (.ofIngredient x)).exec (w.inquiring inquiries) =
      if p.contains x then
        (.ok (.success (.ofIngredient x)), w.inquiring (inquiries ++ [.found x]))
      else (.ok (failure x w),
        (refused x w).inquiring (inquiries ++ [⟨.ofIngredient x, failure x w⟩])) := by
  rw [inquire, Action.exec_bind, exec_get]
  by_cases hx : p.contains x
  · simp only [hx, ↓reduceIte]
    rfl
  · simp only [hx, Bool.false_eq_true, ↓reduceIte]
    rfl

end Pantry

theorem Value.same_ofIngredient (x y : Ingredient) :
    (ofIngredient x).same (.ofIngredient y) = decide (x = y) := by
  rcases x with (_ | _) | (_ | _ | _) <;> rcases y with (_ | _) | (_ | _ | _) <;> rfl

theorem Pantry.contains_ofIngredients (stock : List Ingredient) (x : Ingredient) :
    (ofIngredients stock).contains x ↔ x ∈ stock := by
  simp [contains, ofIngredients, Value.same_ofIngredient]

/-! ### Dishes over a pantry -/

namespace Dish

/-- Over a pantry a dish comes to what the silent technology makes of it, with nothing else
happening, if all that goes into it is in stock. Otherwise the first ingredient that is missing is
the last one that is looked up. The failure to find it is what the dish comes to, and one line
tells of it. -/
theorem first_missing_decides (d : Dish) (label : String) (stock : List Ingredient) (w : World ω) :
    let pantry := Pantry.ofIngredients stock
    let cooked := ((d.recipe label).run (Interpreter.stocked pantry).technology).exec w
    let observed := ((d.recipe label).run (Interpreter.stockedTechnology
      Interpreter.crazyTechnology pantry.inquire)).exec (w.inquiring [])
    ((∀ x ∈ d.ingredients, x ∈ stock) →
      cooked = ((d.recipe label).run Interpreter.crazy.technology).exec w ∧
      cooked = (.ok (.success (.ready d.sandwich)), w) ∧
      observed =
        (.ok (.success (.ready d.sandwich)), w.inquiring (d.ingredients.map Inquiry.found))) ∧
    ∀ before x after, d.ingredients = before ++ x :: after → (∀ y ∈ before, y ∈ stock) →
      x ∉ stock →
      let failure : Value :=
        .failure (.fault (.mk w.nextFault (.notFound x.name (.ofIngredient x))))
      let w' := (w.printed
        [.text ("[yellow][PANTRY] Out of stock: " ++ x.name ++ "[/yellow]")]).faulted
      cooked = (.ok failure, w') ∧
      observed = (.ok failure,
        w'.inquiring (before.map Inquiry.found ++ [⟨.ofIngredient x, failure⟩])) := by
  intro pantry cooked observed
  have hcooked : cooked = (Interpreter.lookThrough pantry.get (.success (.ready d.sandwich))
      d.ingredients).exec w :=
    congrArg (Action.exec · w) (Interpreter.run_stocked pantry.get d label)
  have hobserved : observed = (Interpreter.lookThrough pantry.inquire
      (.success (.ready d.sandwich)) d.ingredients).exec (w.inquiring []) :=
    congrArg (Action.exec · (w.inquiring [])) (Interpreter.run_stocked pantry.inquire d label)
  have hcontains := Pantry.contains_ofIngredients stock
  have hget (done : List Ingredient) (x : Ingredient) (hx : x ∈ stock) :
      (pantry.get (.ofIngredient x)).exec w = (.ok (.success (.ofIngredient x)), w) := by
    rw [Pantry.exec_get, if_pos ((hcontains x).mpr hx)]
  have hinquire (done : List Ingredient) (x : Ingredient) (hx : x ∈ stock) :
      (pantry.inquire (.ofIngredient x)).exec (w.inquiring (done.map Inquiry.found)) =
        (.ok (.success (.ofIngredient x)), w.inquiring ((done ++ [x]).map Inquiry.found)) := by
    rw [Pantry.exec_inquire, if_pos ((hcontains x).mpr hx), List.map_append, List.map_singleton]
  have through (before rest : List Ingredient) (hbefore : ∀ y ∈ before, y ∈ stock)
      (hsplit : d.ingredients = before ++ rest) :
      cooked = (Interpreter.lookThrough pantry.get (.success (.ready d.sandwich)) rest).exec w ∧
      observed = (Interpreter.lookThrough pantry.inquire (.success (.ready d.sandwich)) rest).exec
        (w.inquiring (before.map Inquiry.found)) := by
    rw [hcooked, hobserved, hsplit]
    exact ⟨Interpreter.exec_lookThrough_append (fun _ => w) hget hbefore rest [],
      Interpreter.exec_lookThrough_append (fun done => w.inquiring (done.map Inquiry.found))
        hinquire hbefore rest []⟩
  constructor
  · intro hall
    obtain ⟨hget, hinquire⟩ := through d.ingredients [] hall (List.append_nil _).symm
    exact ⟨hget.trans (d.exec_run_crazy label w).symm, hget, hinquire⟩
  · intro before x after hsplit hbefore hx
    obtain ⟨hget, hinquire⟩ := through before (x :: after) hbefore hsplit
    have hmissing : ¬ pantry.contains x := mt (hcontains x).mp hx
    constructor
    · rw [hget]
      exact Interpreter.exec_lookThrough_missing (Pantry.exec_get_missing hmissing w) after
    · rw [hinquire]
      refine Interpreter.exec_lookThrough_missing ?_ after
      rw [Pantry.exec_inquire, if_neg hmissing]
      rfl

/-- Salt is what is missing first, and the bread that is missing too is never looked up. -/
theorem first_missing_decides_salt :
    let d : Dish := ⟨.toast, .tomato, [.tomato, .salt, .cheese], some .baguette⟩
    let stock : List Ingredient := [.component .tomato, .bread .toast, .component .tomato]
    let pantry := Pantry.ofIngredients stock
    (∀ x ∈ [Ingredient.bread .toast, .component .tomato, .component .tomato], x ∈ stock) ∧
    Ingredient.component .salt ∉ stock ∧
    ((d.recipe "").run (Interpreter.stocked pantry).technology).exec (⟨[], 0, ()⟩ : World Unit) =
      (.ok (.failure (.fault (.mk 0 (.notFound "SALT" (.component .salt))))),
        ⟨[.text "[yellow][PANTRY] Out of stock: SALT[/yellow]"], 1, ()⟩) ∧
    (((d.recipe "").run (Interpreter.stockedTechnology Interpreter.crazyTechnology
      pantry.inquire)).exec ((⟨[], 0, ()⟩ : World Unit).inquiring [])).2.rest.2.length = 4 := by
  intro d stock pantry
  have hbefore : ∀ x ∈ [Ingredient.bread .toast, .component .tomato, .component .tomato],
      x ∈ stock := by decide
  have hmissing : Ingredient.component .salt ∉ stock := by decide
  obtain ⟨hcooked, hobserved⟩ := (first_missing_decides d "" stock (⟨[], 0, ()⟩ : World Unit)).2
    _ _ [.component .cheese, .bread .baguette] rfl hbefore hmissing
  exact ⟨hbefore, hmissing, hcooked, congrArg (·.2.rest.2.length) hobserved⟩

end Dish

end Deli
