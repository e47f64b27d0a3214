import Deli.Proofs.Kitchen
import Deli.Service

/-! A service from beginning to end. When there is a configuration there is a report, and it
agrees with what was cooked and with the last line on the console. Nothing but a name that nobody
knows closes the kitchen. All of this is so as long as the terminal shows what it is told: the names
that come from outside are told as they are, and a terminal may refuse them. Then nothing but its
refusal is raised. -/

namespace Deli.Service

attribute [local instance] Scene.plain

variable {ω : Type} [HasTerminal ω] {c : Config} {w w' : World ω} {lines : List Line}

/-! ### What is told -/

def onlineLine (c : Config) : Line :=
  .text ("[bold green]SANDWICH KITCHEN ONLINE.[/bold green] Interpreter: " ++ c.interpreter.text)

/-- What is shown when the kitchen closes. -/
def haltPanel (c : Cause) : Line :=
  .panel ("[bold red]" ++ c.message ++ "[/bold red]") "KITCHEN HALT" "red"

/-- The lines that a service tells its terminal with a configuration. Of those about an ingredient
that is missing one at most comes. -/
def notices (c : Config) : List Line :=
  onlineLine c ::
    match c.style?, Book.house.selected? c.recipe with
    | none, _ => [c.unknownLine, haltPanel (Interpreter.unknown c.interpreter.text)]
    | some _, none =>
      Book.houseLines ++ [Book.refusalLine c.recipe, haltPanel (Book.unselected c.recipe)]
    | some _, some _ =>
      Book.houseLines ++ Book.house.announcement c.recipe :: Ingredient.all.map Book.missingLine

/-- The world in which a service has been announced. -/
def online (c : Config) (w : World ω) : World ω := w.printed [onlineLine c]

/-! ### Cooking -/

/-- Whether all that a configuration names is known. -/
def Known (c : Config) : Prop := c.NamesStyle ∧ Book.house.Lists c.recipe

theorem isKey_recipe (hc : c.WellMade) : c.recipe.isKey := by
  obtain h | ⟨s, h⟩ | ⟨codes, h⟩ := hc.recipe <;> rw [h] <;> rfl

/-- Only under a text a recipe can be missing. -/
theorem selected?_house_of_not_lists (hc : c.WellMade) (h : ¬ Book.house.Lists c.recipe) :
    Book.house.selected? c.recipe = none := by
  obtain hnull | ⟨s, hs⟩ | ⟨codes, hcodes⟩ := hc.recipe
  · exact absurd (.inl hnull) h
  · rw [hs] at h ⊢
    exact Book.selected?_of_not_lists h
  · rw [hcodes]
    rfl

/-- The technology comes before the recipe, so the first name that is not known is the one that
closes the kitchen. -/
theorem comesTo_cook_of_unknown (hc : c.WellMade) (hunknown : ¬ Known c) (w : World ω) :
    ∃ e w', (cook c).ComesTo (notices c) w (.error e) w' ∧ w'.terminal = w.terminal ∧
      isHalt e.cause ∧ haltPanel e.cause ∈ notices c ∧
      (c.NamesStyle → e.cause = Book.unselected c.recipe) := by
  by_cases hstyle : c.NamesStyle
  · have hlists : ¬ Book.house.Lists c.recipe := fun h => hunknown ⟨hstyle, h⟩
    have hnone := selected?_house_of_not_lists hc hlists
    obtain ⟨i, hi⟩ := Config.exec_toInterpreter (w := w) hc hstyle
    obtain ⟨style, hstyle⟩ := Config.style?_of_namesStyle hstyle
    have hnotices : notices c = onlineLine c :: (Book.houseLines ++
        [Book.refusalLine c.recipe, haltPanel (Book.unselected c.recipe)]) := by
      rw [notices, hstyle, hnone]
    have hselect := Book.comesTo_select (w := w.printed Book.houseLines) (notices c)
      (isKey_recipe hc) hnone (by simp [hnotices])
    have hkitchen := Kitchen.comesTo_ofConfig (notices c) hi fun line hline => by
      simp [hnotices, hline]
    exact ⟨_, _, hkitchen.bind rfl (Book.comesTo_cook_of_unselected hselect), rfl, rfl,
      by simp [hnotices, Fault.cause], fun _ => rfl⟩
  · have hnotices : notices c =
        [onlineLine c, c.unknownLine, haltPanel (Interpreter.unknown c.interpreter.text)] := by
      rw [notices, Config.style?_eq_none hc hstyle]
    have hi := Config.comesTo_toInterpreter (w := w) (notices c) hc hstyle
      (by simp [hnotices])
    exact ⟨_, _, hi.bind_error.bind_error, rfl, rfl, by simp [hnotices, Fault.cause],
      fun h => absurd h hstyle⟩

/-! ### The whole service -/

theorem not_isHalt_of_refuses {e : Fault} (h : w.Refuses lines e) : isHalt e.cause = false := by
  obtain ⟨line, -, refusal, -, he⟩ := h
  rw [he]
  cases refusal <;> rfl

/-- A refusal does not close the kitchen in good order, and goes on to whoever waits for it. -/
theorem comesTo_orHalt {α : Type} {a : Action ω α} {x : Except Fault α}
    (h : a.ComesTo lines w x w') (hx : ∀ e, x = .error e → isHalt e.cause) :
    (orHalt a).ComesTo lines w (.ok x) w' := by
  simp only [Action.ComesTo, orHalt, Action.exec_tryCatch, Action.exec_map]
  obtain h | ⟨e, w'', h, hrefuses⟩ := h
  · rw [h]
    cases x with
    | ok x => exact .inl rfl
    | error e =>
      simp only [hx e rfl, ↓reduceIte]
      exact .inl rfl
  · rw [h]
    simp only [not_isHalt_of_refuses hrefuses, Bool.false_eq_true, ↓reduceIte, Action.exec_throw]
    exact .inr ⟨e, w'', rfl, hrefuses⟩

/-- A service is announced, and then it cooks. -/
theorem comesTo_serve {x : Except Fault Value} {y : Except Fault Report} {w₁ : World ω}
    (hcook : (cook c).ComesTo (notices c) (online c w) x w₁)
    (hhalt : ∀ e, x = .error e → isHalt e.cause) (hterminal : w₁.terminal = w.terminal)
    (hreport : (x.casesOn halt report : Action ω Report).ComesTo (notices c) w₁ y w') :
    (serve c).ComesTo (notices c) w y w' := by
  have htext : (Scene.text c.interpreter : Action ω String).exec w =
      (.ok c.interpreter.text, w) := rfl
  refine .bind (.inl htext) rfl (.bind (Action.comesTo_tell (List.mem_cons_self ..)) rfl
    (.bind (comesTo_orHalt hcook hhalt) hterminal ?_))
  cases x <;> exact hreport

theorem comesTo_halt {e : Fault} (hpanel : haltPanel e.cause ∈ lines) :
    (halt e).ComesTo lines w (.ok ⟨1, ""⟩) (w.printed [haltPanel e.cause]) :=
  .bind (Action.comesTo_tell hpanel) rfl (.inl rfl)

/-- When something is not known the kitchen is closed, and nothing else is cooked. -/
theorem comesTo_serve_of_unknown (hc : c.WellMade) (hunknown : ¬ Known c) (w : World ω) :
    ∃ e w', (serve c).ComesTo (notices c) w (.ok ⟨1, ""⟩) (w'.printed [haltPanel e.cause]) ∧
      (cook c).ComesTo (notices c) (online c w) (.error e) w' ∧
      (c.NamesStyle → e.cause = Book.unselected c.recipe) := by
  obtain ⟨e, w', hcook, hterminal, he, hpanel, hcause⟩ :=
    comesTo_cook_of_unknown hc hunknown (online c w)
  refine ⟨e, w', comesTo_serve hcook (fun e' he' => ?_) hterminal (comesTo_halt hpanel), hcook,
    hcause⟩
  cases he'
  exact he

/-! ### Three ways to end -/

end Deli.Service
