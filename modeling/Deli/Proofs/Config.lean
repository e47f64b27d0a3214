import Deli.Config.Load
import Deli.Proofs.Exec
import Deli.Proofs.Sandwich

/-! What makes a configuration. Its four fields are checked one by one, every problem stands in the
field that it is about, and the problems are listed field after field. A check that fails tells
why, so a configuration is made exactly if there is no problem in any field. -/

namespace Deli

/-! ### Lists of problems -/

/-- Whether a problem stands in one of these fields. -/
def Problem.isIn (names : List String) (q : Problem) : Bool :=
  names.any fun name => q.place.head? == some (.field name)

namespace Checked

variable {α β : Type}

/-- A check that fails tells why. -/
def Tells (x : Checked α) : Prop := x ≠ .error []

/-- A check that tells why it fails, and that all the reasons are to be found in one field. -/
structure TellsOf (name : String) (x : Checked α) : Prop where
  tells : x.Tells
  place : ∀ q ∈ x.problems, q.place.head? = some (.field name)

@[simp] theorem problems_both (x : Checked α) (y : Checked β) :
    (both x y).problems = x.problems ++ y.problems := by
  cases x <;> cases y <;> simp [both, problems]

@[simp] theorem problems_map (f : α → β) (x : Checked α) :
    problems (x.map f) = x.problems := by
  cases x <;> rfl

theorem tells_ok (a : α) : Tells (.ok a) := by simp [Tells]

theorem Tells.both {x : Checked α} {y : Checked β} (hx : x.Tells) (hy : y.Tells) :
    (both x y).Tells := by
  cases x with
  | ok a =>
    cases y with
    | ok b => exact tells_ok (a, b)
    | error qs => simpa [Tells, Checked.both, problems] using hy
  | error ps =>
    have hps : ps ≠ [] := fun h => hx (h ▸ rfl)
    cases y <;> simp [Tells, Checked.both, problems, hps]

theorem Tells.map {x : Checked α} (hx : x.Tells) (f : α → β) : Tells (x.map f) := by
  cases x with
  | ok a => exact tells_ok (f a)
  | error ps => simpa [Tells, Except.map] using hx

theorem Tells.ok_of_problems {x : Checked α} (hx : x.Tells) (h : x.problems = []) :
    ∃ a, x = .ok a := by
  cases x with
  | ok a => exact ⟨a, rfl⟩
  | error ps => exact absurd (congrArg Except.error h) hx

theorem error_of_problems {x : Checked α} (h : x.problems ≠ []) : x = .error x.problems := by
  cases x with
  | ok a => exact absurd rfl h
  | error ps => rfl

/-- Problems of one field are all left out, or none of them. -/
theorem TellsOf.filter {name : String} {x : Checked α} (hx : x.TellsOf name)
    (names : List String) :
    x.problems.filter (!·.isIn names) = if name ∈ names then [] else x.problems := by
  have hin : ∀ q ∈ x.problems, q.isIn names = decide (name ∈ names) := by
    intro q hq
    rw [Bool.eq_iff_iff, decide_eq_true_iff, Problem.isIn, List.any_eq_true]
    simp [hx.place q hq]
  rw [List.filter_congr (q := fun _ => !decide (name ∈ names)) (by simpa using hin)]
  by_cases h : name ∈ names <;> simp [h]

/-! Every check of a single field tells of that field. -/

variable {name : String}

theorem tellsOf_ok (a : α) : TellsOf name (.ok a) := ⟨tells_ok a, by simp [problems]⟩

theorem tellsOf_atField (c : Complaint) :
    TellsOf name (.error [.atField name c] : Checked α) :=
  ⟨by simp [Tells], by simp [problems, Problem.atField]⟩

theorem tellsOf_text (v : Value) : (text name v).TellsOf name := by
  unfold text
  split
  · exact tellsOf_ok _
  · exact tellsOf_ok _
  · exact tellsOf_atField _
  · exact tellsOf_atField _

theorem tellsOf_textOrNull (v : Value) : (textOrNull name v).TellsOf name := by
  unfold textOrNull
  split
  · exact tellsOf_ok _
  · exact tellsOf_text _

@[simp] theorem text_value (n : Name) : text name n.value = .ok n.value := by
  cases n <;> rfl

@[simp] theorem textOrNull_value (n : Name) : textOrNull name n.value = .ok n.value := by
  cases n <;> rfl

theorem tellsOf_member [Vocabulary α] (v : Value) : (member α name v).TellsOf name := by
  unfold member
  split
  next => exact tellsOf_ok _
  next h =>
    have hcomplaint : complaint? α v ≠ none := by simp [complaint?_eq_none, h]
    obtain ⟨c, hc⟩ := Option.ne_none_iff_exists'.mp hcomplaint
    rw [hc]
    exact tellsOf_atField c

theorem of_optional {P : α → Prop} {fallback a : α} {check : Value → Checked α} {v : Option Value}
    (h : optional fallback check v = .ok a) (hfallback : P fallback)
    (hcheck : ∀ v, check v = .ok a → P a) : P a := by
  cases v with
  | none => exact Except.ok.inj h ▸ hfallback
  | some v => exact hcheck v h

theorem tellsOf_optional {fallback : α} {check : Value → Checked α}
    (h : ∀ v, (check v).TellsOf name) (v : Option Value) :
    (optional fallback check v).TellsOf name := by
  cases v with
  | none => exact tellsOf_ok fallback
  | some v => exact h v

end Checked

namespace Config

open Checked

theorem strayIngredients_place {items : List Value} {q : Problem}
    (hq : q ∈ strayIngredients items) : q.place.head? = some (.field "pantry") := by
  obtain ⟨⟨v, i⟩, -, hq⟩ := List.mem_flatMap.mp hq
  by_cases hv : (ingredient? v).isSome
  · simp [hv] at hq
  · simp only [hv, Bool.false_eq_true, ↓reduceIte, List.mem_append, Option.mem_toList,
      Option.map_eq_some_iff] at hq
    obtain ⟨c, -, rfl⟩ | ⟨c, -, rfl⟩ := hq <;> rfl

theorem tellsOf_strayIngredients {α : Type} {items : List Value}
    (h : strayIngredients items ≠ []) :
    TellsOf "pantry" (.error (strayIngredients items) : Checked α) :=
  ⟨fun he => h (Except.error.inj he), fun _ hq => strayIngredients_place hq⟩

theorem tellsOf_checkPantry (v : Value) : (checkPantry v).TellsOf "pantry" := by
  unfold checkPantry
  split
  · split
    next => exact tellsOf_ok _
    next hne => exact tellsOf_strayIngredients hne
  · split
    next => exact tellsOf_ok _
    next hne => exact tellsOf_strayIngredients hne
  · exact tellsOf_atField _

/-! ### The four fields -/

/-- The fields of a configuration as they are given, each of which may be left out. -/
structure Given where
  interpreter : Option Value
  recipe : Option Value
  pantry : Option Value
  failAt : Option Value

namespace Given

/-- The fields that stand in a mapping. -/
def ofEntries (entries : List (Value × Value)) : Given where
  interpreter := Value.entry? entries "interpreter"
  recipe := Value.entry? entries "recipe"
  pantry := Value.entry? entries "pantry"
  failAt := Value.entry? entries "fail_at"

variable (g : Given)

def checkInterpreter : Checked Value :=
  optional (.string "real") (Checked.text "interpreter") g.interpreter

def checkRecipe : Checked Value := optional .null (textOrNull "recipe") g.recipe

def checkPantry : Checked (List Ingredient) := optional Ingredient.all Config.checkPantry g.pantry

def checkFailAt : Checked Operation := optional .add (member Operation "fail_at") g.failAt

def check : Checked Config := Config.check g.interpreter g.recipe g.pantry g.failAt

theorem tellsOf_interpreter : g.checkInterpreter.TellsOf "interpreter" :=
  tellsOf_optional tellsOf_text _

theorem tellsOf_recipe : g.checkRecipe.TellsOf "recipe" := tellsOf_optional tellsOf_textOrNull _

theorem tellsOf_pantry : g.checkPantry.TellsOf "pantry" := tellsOf_optional tellsOf_checkPantry _

theorem tellsOf_failAt : g.checkFailAt.TellsOf "fail_at" := tellsOf_optional tellsOf_member _

theorem tells_check : g.check.Tells :=
  ((g.tellsOf_interpreter.tells.both g.tellsOf_recipe.tells).both
    (g.tellsOf_pantry.tells.both g.tellsOf_failAt.tells)).map _

/-- The problems of a configuration are those of its fields, one field after the other. -/
theorem problems_check : g.check.problems = g.checkInterpreter.problems ++
    g.checkRecipe.problems ++ (g.checkPantry.problems ++ g.checkFailAt.problems) := by
  simp only [check, Config.check, problems_map, problems_both]
  rfl

theorem check_eq_ok {c : Config} : g.check = .ok c ↔
    g.checkInterpreter = .ok c.interpreter ∧ g.checkRecipe = .ok c.recipe ∧
      (∃ items, g.checkPantry = .ok items ∧ c.pantry = ofIngredients items) ∧
      ∃ o, g.checkFailAt = .ok o ∧ c.failAt = .operation o := by
  obtain ⟨interpreter, recipe, pantry, failAt⟩ := c
  simp only [check, Config.check, map_eq_ok, both_eq_ok, Prod.exists]
  constructor
  · rintro ⟨i, r, items, o, ⟨⟨hi, hr⟩, hitems, ho⟩, h⟩
    cases h
    exact ⟨hi, hr, ⟨items, hitems, rfl⟩, o, ho, rfl⟩
  · rintro ⟨hi, hr, ⟨items, hitems, rfl⟩, o, ho, rfl⟩
    exact ⟨interpreter, recipe, items, o, ⟨⟨hi, hr⟩, hitems, ho⟩, rfl⟩

end Given

/-- Text as a field keeps it, of whole characters or not. -/
def KeptText (x : Value) : Prop := (∃ s, x = .string s) ∨ ∃ codes, x = .broken codes

/-- What a configuration holds when it has been made. -/
structure WellMade (c : Config) : Prop where
  interpreter : KeptText c.interpreter
  recipe : c.recipe = .null ∨ KeptText c.recipe
  pantry : ∃ items, c.pantry = ofIngredients items

theorem text_eq_ok {name : String} {v x : Value} (h : Checked.text name v = .ok x) :
    KeptText x := by
  unfold Checked.text at h
  split at h <;> cases h
  · exact .inl ⟨_, rfl⟩
  · exact .inr ⟨_, rfl⟩

theorem textOrNull_eq_ok {name : String} {v x : Value} (h : textOrNull name v = .ok x) :
    x = .null ∨ KeptText x := by
  unfold textOrNull at h
  split at h
  next => exact .inl (Except.ok.inj h).symm
  next => exact .inr (text_eq_ok h)

theorem Given.wellMade {g : Given} {c : Config} (h : g.check = .ok c) : c.WellMade := by
  obtain ⟨hinterpreter, hrecipe, ⟨items, -, hpantry⟩, -⟩ := g.check_eq_ok.mp h
  exact ⟨of_optional hinterpreter (.inl ⟨"real", rfl⟩) fun _ => text_eq_ok,
    of_optional (P := fun x => x = .null ∨ KeptText x) hrecipe (.inl rfl)
      fun _ => textOrNull_eq_ok, items, hpantry⟩

/-! ### Loading -/

/-- A configuration from the data of a document and the fields that the environment sets. -/
def settle (env : Environment) (data : Value) : Except Cause Config := do
  let data ← override "interpreter" (given env.interpreter) data
  let data ← override "recipe" (given env.recipe) data
  ofData data

variable {ω : Type} {docs : Documents} {env : Environment} {path : Option Name} {w w' : World ω}

/-- A document is read, and all that happens afterwards is pure. -/
theorem load_eq : (load docs env path : Action ω Config) =
    dataOf docs (source docs env path) >>= fun data => Action.ofExcept (settle env data) := by
  simp only [settle, Action.ofExcept_bind]
  rfl

theorem exec_load_of_read {data : Value}
    (h : (dataOf docs (source docs env path)).exec w = (.ok data, w')) :
    (load docs env path).exec w = (Action.ofExcept (settle env data)).exec w' := by
  rw [load_eq, Action.exec_bind, h]

theorem exec_load_of_unread {e : Fault}
    (h : (dataOf docs (source docs env path)).exec w = (.error e, w')) :
    (load docs env path).exec w = (.error e, w') := by
  rw [load_eq, Action.exec_bind, h]

theorem ofEntries_eq_check (entries : List (Value × Value)) :
    ofEntries entries = (Given.ofEntries entries).check.mapError (.invalid .config) := rfl

theorem wellMade_of_ofData {data : Value} {c : Config} (h : ofData data = .ok c) : c.WellMade := by
  unfold ofData at h
  split at h
  · split at h
    next =>
      rw [ofEntries_eq_check] at h
      exact Given.wellMade (Checked.mapError_eq_ok.mp h)
    next => cases h
  · cases h

/-- A configuration that has been loaded is well made. -/
theorem wellMade_of_load {c : Config}
    (h : (load docs env path).exec w = (.ok c, w')) : c.WellMade := by
  obtain ⟨data, w₁, -, h⟩ := Action.exec_bind_eq_ok.mp h
  obtain ⟨data, w₂, -, h⟩ := Action.exec_bind_eq_ok.mp h
  obtain ⟨data, w₃, -, h⟩ := Action.exec_bind_eq_ok.mp h
  exact wellMade_of_ofData (Action.exec_ofExcept_eq_ok.mp h).1

end Config

end Deli
