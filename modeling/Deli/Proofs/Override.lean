import Deli.Proofs.Config

/-! What the environment overrides. Setting a field in the data of a document changes this field and
no other, so a configuration is the one of the document but for the fields that are set, and so
are its problems. What cannot be read, and what is no mapping of texts, goes wrong in the same way
whatever is set. -/

namespace Deli

/-! ### Setting an entry -/

namespace Value

theorem sameNumber_string (v : Value) (s : String) : v.sameNumber (.string s) = false := by
  unfold sameNumber
  split
  next h => cases h
  next => rfl

theorem same_string (v : Value) (s : String) : v.same (.string s) = (v.word? == some s) := by
  cases v with
  | string t => exact Bool.beq_comm
  | bread b => exact Bool.beq_comm
  | component c => exact Bool.beq_comm
  | operation o => exact Bool.beq_comm
  | _ => simp [same, sameWith, word?, sameNumber_string]

variable (key : String) (v : Value) (entries : List (Value × Value))

/-- Setting an entry changes what stands under one text. -/
theorem entry?_setEntry (other : String) :
    entry? (setEntry (.string key) v entries) other =
      if other = key then some v else entry? entries other := by
  induction entries with
  | nil =>
    by_cases h : other = key <;> simp [setEntry, entry?, word?, h, Ne.symm]
  | cons entry rest ih =>
    obtain ⟨k, u⟩ := entry
    unfold entry? at ih
    by_cases hkey : k.word? = some key
    · by_cases h : other = key <;>
        simp [setEntry, same_string, entry?, hkey, h, Ne.symm]
    · by_cases h : k.word? = some other
      · have hother : other ≠ key := fun hother => hkey (hother ▸ h)
        simp [setEntry, same_string, entry?, h, hother]
      · simp [setEntry, same_string, entry?, hkey, h, ih]

theorem isText_setEntry :
    (setEntry (.string key) v entries).all (fun (k, _) => k.isText) =
      entries.all fun (k, _) => k.isText := by
  induction entries with
  | nil => rfl
  | cons entry rest ih =>
    obtain ⟨k, u⟩ := entry
    by_cases hkey : k.word? = some key
    · simp [setEntry, same_string, hkey]
    · simp [setEntry, same_string, hkey, ih]

end Value

/-! ### Setting fields -/

/-- The same environment with no field set. -/
def Environment.unset (env : Environment) : Environment :=
  { env with interpreter := none, recipe := none }

/-- The fields that an environment sets. -/
def Environment.fields (env : Environment) : List String :=
  ((Config.given env.interpreter).map fun _ => "interpreter").toList ++
    ((Config.given env.recipe).map fun _ => "recipe").toList

namespace Config

/-- A configuration with the fields that the environment sets. -/
def setBy (c : Config) (env : Environment) : Config :=
  { c with
    interpreter := ((given env.interpreter).map Name.value).getD c.interpreter
    recipe := ((given env.recipe).map Name.value).getD c.recipe }

namespace Given

def setBy (g : Given) (env : Environment) : Given :=
  { g with
    interpreter := ((given env.interpreter).map Name.value).or g.interpreter
    recipe := ((given env.recipe).map Name.value).or g.recipe }

variable {g : Given} {env : Environment}

theorem setBy_unset : g.setBy env.unset = g := rfl

theorem setBy_setBy : (g.setBy env).setBy env = g.setBy env := by
  unfold setBy
  cases given env.interpreter <;> cases given env.recipe <;> rfl

theorem checkInterpreter_setBy : (g.setBy env).checkInterpreter =
    ((given env.interpreter).map fun n => .ok n.value).getD g.checkInterpreter := by
  unfold checkInterpreter setBy
  cases given env.interpreter with
  | none => rfl
  | some n => exact Checked.text_value n

theorem checkRecipe_setBy : (g.setBy env).checkRecipe =
    ((given env.recipe).map fun n => .ok n.value).getD g.checkRecipe := by
  unfold checkRecipe setBy
  cases given env.recipe with
  | none => rfl
  | some n => exact Checked.textOrNull_value n

theorem check_setBy {c : Config} (h : g.check = .ok c) :
    (g.setBy env).check = .ok (c.setBy env) := by
  obtain ⟨hinterpreter, hrecipe, hpantry, hfailAt⟩ := g.check_eq_ok.mp h
  refine (g.setBy env).check_eq_ok.mpr ⟨?_, ?_, hpantry, hfailAt⟩
  · rw [checkInterpreter_setBy, hinterpreter]
    unfold Config.setBy
    cases given env.interpreter <;> rfl
  · rw [checkRecipe_setBy, hrecipe]
    unfold Config.setBy
    cases given env.recipe <;> rfl

/-- What is wrong with the other fields stays wrong. -/
theorem problems_setBy :
    (g.setBy env).check.problems = g.check.problems.filter (!·.isIn env.fields) := by
  have hpantry : (g.setBy env).checkPantry = g.checkPantry := rfl
  have hfailAt : (g.setBy env).checkFailAt = g.checkFailAt := rfl
  rw [problems_check, problems_check, checkInterpreter_setBy, checkRecipe_setBy, hpantry, hfailAt]
  simp only [List.filter_append, g.tellsOf_interpreter.filter, g.tellsOf_recipe.filter,
    g.tellsOf_pantry.filter, g.tellsOf_failAt.filter, Environment.fields]
  cases given env.interpreter <;> cases given env.recipe <;> simp [Checked.problems]

theorem check_setBy_of_error {problems : List Problem} (h : g.check = .error problems)
    (env : Environment) :
    let left := problems.filter (!·.isIn env.fields)
    (left ≠ [] → (g.setBy env).check = .error left) ∧
    (left = [] → ∃ c, (g.setBy env).check = .ok c ∧ c.setBy env = c) := by
  have hleft : (g.setBy env).check.problems = problems.filter (!·.isIn env.fields) := by
    rw [problems_setBy, h]
    rfl
  rw [← hleft]
  refine ⟨Checked.error_of_problems, fun hnone => ?_⟩
  obtain ⟨c, hc⟩ := (g.setBy env).tells_check.ok_of_problems hnone
  have hagain : ((g.setBy env).setBy env).check = .ok (c.setBy env) := check_setBy hc
  rw [setBy_setBy, hc] at hagain
  exact ⟨c, hc, (Except.ok.inj hagain).symm⟩

end Given

theorem settle_mapping {entries : List (Value × Value)} (env : Environment)
    (h : entries.all fun (k, _) => k.isText) :
    settle env (.mapping entries) =
      ((Given.ofEntries entries).setBy env).check.mapError (.invalid .config) := by
  unfold settle Given.setBy
  cases given env.interpreter <;> cases given env.recipe <;>
    simp [override, ofData, Value.isText_setEntry, h, ofEntries_eq_check, Given.ofEntries,
      Value.entry?_setEntry, bind, Except.bind]

/-- Data hold fields for a configuration, whatever else is set, or none can be made of them. -/
theorem settle_given_or_misuse (data : Value) :
    (∃ g : Given, ∀ env, settle env data = (g.setBy env).check.mapError (.invalid .config)) ∨
      ∀ env, settle env data = .error .misuse := by
  cases data with
  | mapping entries =>
    by_cases hkeys : entries.all fun (k, _) => k.isText
    · exact .inl ⟨.ofEntries entries, fun env => settle_mapping env hkeys⟩
    · right
      intro env
      unfold settle
      cases given env.interpreter <;> cases given env.recipe <;>
        simp [override, ofData, Value.isText_setEntry, hkeys, bind, Except.bind]
  | _ =>
    right
    intro env
    unfold settle
    cases given env.interpreter <;> cases given env.recipe <;> rfl

/-! ### Loading with and without the fields that are set -/

/-- What is loaded with fields set is what is loaded without them, but for these fields. Of the
problems those in other fields are left, and when none is left there is a configuration with the
fields as they are set. Whatever else goes wrong, in reading or afterwards, goes wrong all the same,
and the same is printed. -/
theorem overrides_own_fields {ω : Type} (docs : Documents) (env : Environment)
    (path : Option Name) (w : World ω) :
    let reading := (dataOf docs (source docs env path)).exec w
    let base := (load docs env.unset path).exec w
    let loaded := (load docs env path).exec w
    (∀ c w', base = (.ok c, w') → loaded = (.ok (c.setBy env), w')) ∧
    (∀ id problems w', (∃ data w₁, reading = (.ok data, w₁)) →
      base = (.error (.mk id (.invalid .config problems)), w') →
      let left := problems.filter (!·.isIn env.fields)
      (left ≠ [] → loaded = (.error (.mk id (.invalid .config left)), w')) ∧
      (left = [] → ∃ c w₁, loaded = (.ok c, w₁) ∧ c.setBy env = c)) ∧
    (∀ e w', base = (.error e, w') →
      (reading = (.error e, w') ∨ ∀ problems, e.cause ≠ .invalid .config problems) →
      loaded = (.error e, w')) ∧
    loaded.2.console = base.2.console := by
  intro reading base loaded
  rcases hreading : reading with ⟨e | data, w₁⟩
  · have hbase : base = (.error e, w₁) := exec_load_of_unread hreading
    have hloaded : loaded = (.error e, w₁) := exec_load_of_unread hreading
    simp [hbase, hloaded]
  have hbase : base = (Action.ofExcept (settle env.unset data)).exec w₁ :=
    exec_load_of_read hreading
  have hloaded : loaded = (Action.ofExcept (settle env data)).exec w₁ := exec_load_of_read hreading
  have hconsole : loaded.2.console = base.2.console := by
    rw [hbase, hloaded, Action.console_ofExcept, Action.console_ofExcept]
  obtain ⟨g, hg⟩ | hmisuse := settle_given_or_misuse data
  · rw [hg, Given.setBy_unset] at hbase
    rw [hg] at hloaded
    cases hcheck : g.check with
    | ok c =>
      rw [hcheck] at hbase
      rw [Given.check_setBy hcheck] at hloaded
      have hbase : base = (.ok c, w₁) := hbase
      have hloaded : loaded = (.ok (c.setBy env), w₁) := hloaded
      simp [hbase, hloaded]
    | error problems =>
      rw [hcheck] at hbase
      have hbase : base = (.error (.mk w₁.nextFault (.invalid .config problems)), w₁.faulted) :=
        hbase
      obtain ⟨hleft, hnone⟩ := Given.check_setBy_of_error hcheck env
      refine ⟨?_, ?_, ?_, hconsole⟩
      · simp [hbase]
      · rintro id problems w' - hraised
        rw [hbase] at hraised
        cases hraised
        refine ⟨fun hne => ?_, fun hempty => ?_⟩
        · rw [hloaded, hleft hne]
          rfl
        · obtain ⟨c, hc, hset⟩ := hnone hempty
          rw [hloaded, hc]
          exact ⟨c, w₁, rfl, hset⟩
      · intro e w' hraised hother
        rw [hbase] at hraised
        cases hraised
        obtain hunread | hother := hother
        · cases hunread
        · exact absurd rfl (hother problems)
  · rw [hmisuse] at hbase hloaded
    have hbase : base = (.error (.mk w₁.nextFault .misuse), w₁.faulted) := hbase
    have hloaded : loaded = (.error (.mk w₁.nextFault .misuse), w₁.faulted) := hloaded
    simp [hbase, hloaded]

/-- A document with two fields that are wrong, one of which is set by the environment, another with
this one field only, and a third that is no mapping at all. -/
theorem overrides_own_fields_crazy :
    let interpreter : Value × Value := (.string "interpreter", .int 1)
    let pantry : Value × Value := (.string "pantry", .string "salt")
    let standard : Name := .whole "kitchen.yaml"
    let holding (data : Value) : Documents :=
      ⟨fun n => if n = standard then .file "" else .absent, fun _ => .ok data, standard⟩
    let env : Environment := ⟨none, some (.whole "crazy"), none⟩
    let loaded (data : Value) := (load (holding data) env none).exec (⟨[], 0, ()⟩ : World Unit)
    loaded (.mapping [pantry, interpreter]) =
      (.error (.mk 0 (.invalid .config [.atField "pantry" .notList])), ⟨[], 1, ()⟩) ∧
    (∃ c w, loaded (.mapping [interpreter]) = (.ok c, w) ∧ c.setBy env = c) ∧
    loaded (.mapping []) = (.ok ⟨.string "crazy", .null, ofIngredients Ingredient.all,
      .operation .add⟩, ⟨[], 0, ()⟩) ∧
    loaded (.list [pantry.2]) = (.error (.mk 0 .misuse), ⟨[], 1, ()⟩) := by
  intro interpreter pantry standard holding env loaded
  have applied (data : Value) :=
    overrides_own_fields (holding data) env none (⟨[], 0, ()⟩ : World Unit)
  obtain ⟨-, hboth, -⟩ := applied (.mapping [pantry, interpreter])
  obtain ⟨-, hone, -⟩ := applied (.mapping [interpreter])
  obtain ⟨hnone, -⟩ := applied (.mapping [])
  obtain ⟨-, -, hlist, -⟩ := applied (.list [pantry.2])
  refine ⟨?_, ?_, hnone _ _ rfl, ?_⟩
  · exact (hboth _ _ _ ⟨_, _, rfl⟩ rfl).1 (by decide)
  · exact (hone _ _ _ ⟨_, _, rfl⟩ rfl).2 (by decide)
  · exact hlist _ _ rfl (.inr fun _ h => nomatch h)

end Config

end Deli
