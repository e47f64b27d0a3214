import Deli.Proofs.Request
import Deli.Proofs.ShortCircuit

/-! Sandwiches as they are ordered, in members only. What a technology answers to single requests
carries over to the recipe of a whole dish: it comes to just the sandwich that was ordered, or to
a failure that was the answer to one of its requests. -/

namespace Deli

attribute [local instance] Scene.plain

variable {ω : Type}

structure Dish where
  bottom : Bread
  first : Component
  adds : List Component
  top : Option Bread

namespace Dish

def recipe (d : Dish) (label : String) : Recipe Value :=
  ⟨label, .bread d.bottom, .component d.first, d.adds.map .component, .ofOption .bread d.top⟩

/-- What goes into a dish, in the order in which it is put to use. -/
def ingredients (d : Dish) : List Ingredient :=
  [.bread d.bottom, .component d.first] ++ d.adds.map .component ++ d.top.toList.map .bread

def sandwich (d : Dish) : Ready := ⟨⟨d.bottom, d.first :: d.adds⟩, d.top⟩

end Dish

/-- A technology answers a request with the outcome that the request has by itself, or with a
failure of the kind `Failed`, and keeps to worlds of the kind `Inv`. -/
structure Technology.Answers (t : Technology ω) (Failed : Value → Prop) (Inv : World ω → Prop) :
    Prop where
  failure {r : Value} : Failed r → ∃ e, r = .failure e
  serve {q : Request} {w : World ω} : q.Proper → Inv w →
    ∃ r w', (t.serve q).exec w = (.ok r, w') ∧ Inv w' ∧ (r = q.outcome ∨ Failed r)

section Answers

variable {t : Technology ω} {Failed : Value → Prop} {Inv : World ω → Prop}

namespace Recipe

theorem exec_addNext_members (ht : t.Answers Failed Inv) (b : Body) (components : List Component)
    {w : World ω} (hw : Inv w) :
    ∃ r w', ((components.map .component).foldlM (addNext t) (.success (.body b))).exec w =
        (.ok r, w') ∧ Inv w' ∧
      (r = .success (.body (b.withComponents components)) ∨ Failed r) := by
  induction components generalizing b w with
  | nil => exact ⟨_, w, rfl, hw, .inl (by simp)⟩
  | cons component components ih =>
    obtain ⟨r, w₁, hserve, hw₁, hr⟩ :=
      ht.serve (q := .add (.success (.body b)) component) (.body b) hw
    have hnext : (addNext t (.success (.body b)) (.component component)).exec w = (.ok r, w₁) :=
      hserve
    simp only [List.map_cons, List.foldlM_cons, Action.exec_bind, hnext]
    rcases hr with rfl | hr
    · rw [Body.withComponents_cons]
      exact ih (b.withComponent component) hw₁
    · obtain ⟨e, rfl⟩ := ht.failure hr
      rw [foldlM_addNext_failure]
      exact ⟨_, w₁, rfl, hw₁, .inr hr⟩

end Recipe

namespace Dish

variable (d : Dish) (label : String)

/-- Nothing is made any more of what has failed. -/
theorem exec_finish_failed (ht : t.Answers Failed Inv) {r : Value} (hr : Failed r) {w : World ω}
    (hw : Inv w) :
    ∃ r' w', (Recipe.finishWith t r (.ofOption .bread d.top)).exec w = (.ok r', w') ∧ Inv w' ∧
      (r' = .success (.ready d.sandwich) ∨ Failed r') := by
  obtain ⟨e, rfl⟩ := ht.failure hr
  obtain ⟨r', w', hserve, hw', hr'⟩ := ht.serve (q := .finish (.failure e) d.top) (.failure e) hw
  refine ⟨r', w', hserve, hw', .inr ?_⟩
  rcases hr' with rfl | hr'
  · exact hr
  · exact hr'

theorem exec_run (ht : t.Answers Failed Inv) {w : World ω} (hw : Inv w) :
    ∃ r w', ((d.recipe label).run t).exec w = (.ok r, w') ∧ Inv w' ∧
      (r = .success (.ready d.sandwich) ∨ Failed r) := by
  obtain ⟨first, w₁, hserve, hw₁, hfirst⟩ := ht.serve (q := .start d.bottom d.first) trivial hw
  have hstart : (t.start (.bread d.bottom) (.component d.first)).exec w = (.ok first, w₁) := hserve
  simp only [Recipe.run, Recipe.follow, recipe, Action.exec_bind, hstart]
  rcases hfirst with rfl | hfirst
  · obtain ⟨r, w₂, hadds, hw₂, hr⟩ :=
      Recipe.exec_addNext_members ht ⟨d.bottom, [d.first]⟩ d.adds hw₁
    simp only [Request.outcome, hadds]
    rcases hr with rfl | hr
    · exact ht.serve (q := .finish _ d.top) (.body _) hw₂
    · exact d.exec_finish_failed ht hr hw₂
  · obtain ⟨e, rfl⟩ := ht.failure hfirst
    simp only [Recipe.foldlM_addNext_failure, Action.exec_pure]
    exact d.exec_finish_failed ht hfirst hw₁

end Dish

end Answers

/-! ### The technologies of the kitchen -/

namespace Interpreter

theorem crazy_answers (w : World ω) :
    (crazy.technology : Technology ω).Answers (fun _ => False) (· = w) where
  failure := False.elim
  serve hq := by
    rintro rfl
    exact ⟨_, _, exec_serve_crazy hq _, rfl, .inl rfl⟩

end Interpreter

namespace Dish

theorem exec_run_crazy (d : Dish) (label : String) (w : World ω) :
    ((d.recipe label).run Interpreter.crazy.technology).exec w =
      (.ok (.success (.ready d.sandwich)), w) := by
  obtain ⟨r, w', hrun, rfl, rfl | h⟩ := d.exec_run label (Interpreter.crazy_answers w) rfl
  · exact hrun
  · exact h.elim

end Dish

end Deli
