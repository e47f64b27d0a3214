import Deli.Proofs.Kitchen
import Deli.Service

/-! What of a configuration shows in cooking. Its names do, and beyond them only what the chosen
technology asks for: the stocked one whether this or that is in stock, the faulty one where to give
up. Two configurations that agree on that much cook alike in every world, whatever else is written
in them. -/

namespace Deli

attribute [local instance] Scene.plain

variable {ω : Type}

/-! ### Pantries of the same things -/

namespace Pantry

variable {xs ys : List Ingredient}

/-- Neither the order in which things are put in stock nor how often makes a difference. -/
theorem holds_congr (h : ∀ x, x ∈ xs ↔ x ∈ ys) (v : Value) :
    ((ofIngredients xs).holds v : Action ω Bool) = (ofIngredients ys).holds v := by
  have hany : (ofIngredients xs).stock.any v.same = (ofIngredients ys).stock.any v.same := by
    rw [Bool.eq_iff_iff, ofIngredients, ofIngredients, List.any_map, List.any_map,
      List.any_eq_true, List.any_eq_true]
    simp only [h]
  have hanyM (zs : List Value) : zs.anyM (m := Action ω) (Scene.same v) = pure (zs.any v.same) :=
    List.anyM_pure
  simp only [holds, hanyM, hany]

theorem get_congr (h : ∀ x, x ∈ xs ↔ x ∈ ys) :
    ((ofIngredients xs).get : Value → Action ω Value) = (ofIngredients ys).get := by
  funext v
  simp only [get, getFrom, holds_congr h]

end Pantry

namespace Config

variable {c c₁ c₂ : Config}

/-! ### What is listed -/

/-- Whether an ingredient is among the items of the field `pantry`, as a member or by its word.
Where the field is left out, everything is. -/
def Given.Lists (g : Given) (x : Ingredient) : Prop :=
  match g.pantry with
  | none => True
  | some v => ∃ items, v.items? = some items ∧ ∃ u ∈ items, ingredient? u = some x

theorem mem_of_checkPantry {v : Value} {items : List Ingredient}
    (h : checkPantry v = .ok items) (x : Ingredient) :
    x ∈ items ↔ ∃ us, v.items? = some us ∧ ∃ u ∈ us, ingredient? u = some x := by
  have hlist (us : List Value) (h : checkPantry (.list us) = .ok items) :
      x ∈ items ↔ ∃ u ∈ us, ingredient? u = some x := by
    simp only [checkPantry] at h
    split at h <;> cases h
    exact List.mem_filterMap
  cases v with
  | list us => simpa [Value.items?] using hlist us h
  | tuple us => simpa [Value.items?] using hlist us h
  | _ => cases h

/-- A configuration has in stock what is listed for it, and nothing else. -/
theorem Given.pantry_of_check {g : Given} (h : g.check = .ok c) :
    ∃ items, c.pantry = ofIngredients items ∧ ∀ x, x ∈ items ↔ g.Lists x := by
  obtain ⟨-, -, ⟨items, hitems, hc⟩, -⟩ := g.check_eq_ok.mp h
  refine ⟨items, hc, fun x => ?_⟩
  rw [Given.checkPantry] at hitems
  rw [Given.Lists]
  cases hv : g.pantry with
  | none =>
    rw [hv] at hitems
    cases hitems
    have hall : x ∈ Ingredient.all := by rcases x with (_ | _) | (_ | _ | _) <;> decide
    simp [hall]
  | some v =>
    rw [hv] at hitems
    exact mem_of_checkPantry hitems x

theorem check_of_ofData {entries : List (Value × Value)}
    (h : ofData (.mapping entries) = .ok c) : (Given.ofEntries entries).check = .ok c := by
  simp only [ofData] at h
  split at h
  next =>
    rw [ofEntries_eq_check] at h
    exact Checked.mapError_eq_ok.mp h
  next => cases h

/-! ### Technologies -/

variable [HasTerminal ω]

/-- The technology that a configuration comes down to. -/
def toTechnology (c : Config) : Action ω (Technology ω) :=
  Interpreter.technology <$> c.toInterpreter

theorem interpreter_of_style (hc : c.WellMade) {style : Style}
    (h : c.interpreter.word?.bind Vocabulary.ofWord? = some style) :
    c.interpreter = .string (Vocabulary.word style) := by
  obtain ⟨s, hs⟩ | ⟨codes, hcodes⟩ := hc.interpreter
  · rw [hs] at h ⊢
    rw [Vocabulary.word_of_ofWord? h]
  · rw [hcodes] at h
    cases h

theorem toTechnology_stocked {items : List Ingredient}
    (hname : c.interpreter.word?.bind Vocabulary.ofWord? = some Style.stocked)
    (hitems : c.pantry = ofIngredients items) :
    (c.toTechnology : Action ω (Technology ω)) =
      pure (Interpreter.stocked (.ofIngredients items)).technology := by
  rw [toTechnology, toInterpreter, Interpreter.choose, hname, stock_of_pantry hitems]
  rfl

/-- The stock counts for the stocked technology and the operation to give up at for the faulty one.
For all others, and for names that nobody knows, the name is all that counts. -/
theorem toTechnology_congr {xs ys : List Ingredient} (hc₁ : c₁.WellMade)
    (hname : c₁.interpreter = c₂.interpreter) (hxs : c₁.pantry = ofIngredients xs)
    (hys : c₂.pantry = ofIngredients ys)
    (hstock : c₁.interpreter = .string "stocked" → ∀ x, x ∈ xs ↔ x ∈ ys)
    (hfailAt : c₁.interpreter = .string "faulty" → c₁.failAt = c₂.failAt) :
    (c₁.toTechnology : Action ω (Technology ω)) = c₂.toTechnology := by
  cases hstyle : c₁.interpreter.word?.bind (Vocabulary.ofWord? (α := Style)) with
  | none => simp only [toTechnology, toInterpreter, Interpreter.choose, ← hname, hstyle]
  | some style =>
    have hstyle₂ := hname ▸ hstyle
    have hword := interpreter_of_style hc₁ hstyle
    cases style with
    | real | crazy => simp only [toTechnology, toInterpreter, Interpreter.choose, hstyle, hstyle₂]
    | stocked =>
      have hget := Pantry.get_congr (ω := ω) (hstock hword)
      rw [toTechnology_stocked hstyle hxs, toTechnology_stocked hstyle₂ hys]
      simp only [Interpreter.technology, Interpreter.technologyOver, hget]
    | faulty =>
      simp only [toTechnology, toInterpreter, Interpreter.choose, hstyle, hstyle₂, hfailAt hword]

end Config

/-! ### Cooking -/

namespace Service

variable [HasTerminal ω]

/-- Of a configuration only its technology and the name of its recipe get into the kitchen. -/
theorem cook_eq (c : Config) : (cook c : Action ω Value) =
    c.toTechnology >>= fun technology =>
      Book.standard >>= fun book => Kitchen.cook ⟨book, technology⟩ c.recipe := by
  simp only [cook, Kitchen.ofConfig, Config.toTechnology, bind_assoc, pure_bind, bind_map_left]

/-- Two mappings that are let through as configurations cook alike if they name the same technology
and the same recipe, list the same things where the technology is the stocked one, and give up at
the same operation where it is the faulty one. All that is returned, raised or printed is the
same. -/
theorem cooks_alike {entries₁ entries₂ : List (Value × Value)} {c₁ c₂ : Config}
    (h₁ : Config.ofData (.mapping entries₁) = .ok c₁)
    (h₂ : Config.ofData (.mapping entries₂) = .ok c₂)
    (hinterpreter : c₁.interpreter = c₂.interpreter) (hrecipe : c₁.recipe = c₂.recipe)
    (hpantry : c₁.interpreter = .string "stocked" → ∀ x,
      (Config.Given.ofEntries entries₁).Lists x ↔ (Config.Given.ofEntries entries₂).Lists x)
    (hfailAt : c₁.interpreter = .string "faulty" → c₁.failAt = c₂.failAt) (w : World ω) :
    (cook c₁).exec w = (cook c₂).exec w := by
  have hg₁ := Config.check_of_ofData h₁
  have hg₂ := Config.check_of_ofData h₂
  obtain ⟨xs, hxs, hlisted₁⟩ := Config.Given.pantry_of_check hg₁
  obtain ⟨ys, hys, hlisted₂⟩ := Config.Given.pantry_of_check hg₂
  have hstock (hname : c₁.interpreter = .string "stocked") (x : Ingredient) : x ∈ xs ↔ x ∈ ys :=
    calc x ∈ xs ↔ (Config.Given.ofEntries entries₁).Lists x := hlisted₁ x
      _ ↔ (Config.Given.ofEntries entries₂).Lists x := hpantry hname x
      _ ↔ x ∈ ys := (hlisted₂ x).symm
  have htechnology := Config.toTechnology_congr (ω := ω) (Config.Given.wellMade hg₁) hinterpreter
    hxs hys hstock hfailAt
  rw [cook_eq, cook_eq, htechnology, hrecipe]

/-- Salt, tomato and toast, written in two ways. Cheese is not there, and where to give up is of
no interest to the stocked technology. -/
theorem cooks_alike_stocked :
    let entries₁ : List (Value × Value) := [(.string "interpreter", .string "stocked"),
      (.string "pantry", .list [.string "salt", .component .tomato, .string "toast", .string "salt"]),
      (.string "fail_at", .string "finish_sandwich")]
    let entries₂ : List (Value × Value) := [
      (.string "pantry", .list [.bread .toast, .string "tomato", .component .salt]),
      (.string "interpreter", .string "stocked"), (.string "colour", .null)]
    ∃ c₁ c₂ : Config, Config.ofData (.mapping entries₁) = .ok c₁ ∧
      Config.ofData (.mapping entries₂) = .ok c₂ ∧ c₁.interpreter = c₂.interpreter ∧
      c₁.recipe = c₂.recipe ∧
      (∀ x, (Config.Given.ofEntries entries₁).Lists x ↔
        (Config.Given.ofEntries entries₂).Lists x) ∧
      (cook c₁).exec (⟨[], 0, ()⟩ : World Unit) = (cook c₂).exec ⟨[], 0, ()⟩ ∧
      ((cook c₁).exec (⟨[], 0, ()⟩ : World Unit)).1 =
        .ok (.failure (.fault (.mk 0 (.notFound "CHEESE" (.component .cheese))))) := by
  intro entries₁ entries₂
  let xs : List Ingredient :=
    [.component .salt, .component .tomato, .bread .toast, .component .salt]
  let ys : List Ingredient := [.bread .toast, .component .tomato, .component .salt]
  let c₁ : Config := ⟨.string "stocked", .null, Config.ofIngredients xs, .operation .finish⟩
  let c₂ : Config := ⟨.string "stocked", .null, Config.ofIngredients ys, .operation .add⟩
  have h₁ : Config.ofData (.mapping entries₁) = .ok c₁ := rfl
  have h₂ : Config.ofData (.mapping entries₂) = .ok c₂ := rfl
  have hxs : Config.checkPantry (.list
    [.string "salt", .component .tomato, .string "toast", .string "salt"]) = .ok xs := rfl
  have hys : Config.checkPantry (.list
    [.bread .toast, .string "tomato", .component .salt]) = .ok ys := rfl
  have hlists (x : Ingredient) : (Config.Given.ofEntries entries₁).Lists x ↔
      (Config.Given.ofEntries entries₂).Lists x :=
    calc (Config.Given.ofEntries entries₁).Lists x
      _ ↔ x ∈ xs := (Config.mem_of_checkPantry hxs x).symm
      _ ↔ x ∈ ys := by rcases x with (_ | _) | (_ | _ | _) <;> decide
      _ ↔ (Config.Given.ofEntries entries₂).Lists x := Config.mem_of_checkPantry hys x
  have hfaulty : c₁.interpreter ≠ .string "faulty" := by simp [c₁]
  exact ⟨c₁, c₂, h₁, h₂, rfl, rfl, hlists,
    cooks_alike h₁ h₂ rfl rfl (fun _ => hlists) (fun h => absurd h hfaulty) _, rfl⟩

end Service

end Deli
