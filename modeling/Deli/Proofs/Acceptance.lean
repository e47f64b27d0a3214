import Deli.Proofs.Complaints
import Mathlib.Data.Option.Basic

/-! What a configuration takes, and what it tells of the rest. Of plain data the name of the
technology has to be text, the recipe text or nothing, the pantry a list of ingredients, and the
operation to fail at an operation; each field may be left out. Data that fit make a configuration
with the members that they stand for, item by item. Made again from its own fields it is the same,
whether they hold members or the words for them. Of data that do not fit everything that is wrong
is told, field after field, and of every item that is no ingredient that it is neither a bread nor
a component. -/

namespace Deli

/-! ### Ingredients and operations -/

theorem Ingredient.ofWord?_eq_some {s : String} {x : Ingredient} :
    ofWord? s = some x ↔ x.word = s := by
  constructor
  · intro h
    obtain hbread | ⟨-, hcomponent⟩ := (Option.orElse_eq_some _ _ _).mp h
    · obtain ⟨b, hb, rfl⟩ := Option.map_eq_some_iff.mp hbread
      exact Vocabulary.word_of_ofWord? hb
    · obtain ⟨c, hc, rfl⟩ := Option.map_eq_some_iff.mp hcomponent
      exact Vocabulary.word_of_ofWord? hc
  · rintro rfl
    exact x.ofWord?_word

namespace Value

def IsIngredient (v : Value) : Prop := ∃ x, v.StandsFor x

theorem ingredient?_eq_some {v : Value} {x : Ingredient} :
    Config.ingredient? v = some x ↔ v.StandsFor x := by
  simp only [Config.ingredient?, Option.bind_eq_some_iff, Ingredient.ofWord?_eq_some,
    standsFor_iff, exists_eq_right']

theorem isSome_ingredient? {v : Value} : (Config.ingredient? v).isSome ↔ v.IsIngredient := by
  simp only [Option.isSome_iff_exists, ingredient?_eq_some, IsIngredient]

instance (v : Value) : Decidable v.IsIngredient := decidable_of_iff _ isSome_ingredient?

theorem standsFor_ofIngredient (x : Ingredient) : (ofIngredient x).StandsFor x := by
  cases x with
  | bread b => exact .bread b
  | component c => exact .component c

/-- What stands for an ingredient is a bread or a component. -/
theorem isIngredient_iff {v : Value} : v.IsIngredient ↔ v.IsBread ∨ v.IsComponent := by
  constructor
  · rintro ⟨b | c, h⟩
    · exact .inl ⟨b, h⟩
    · exact .inr ⟨c, h⟩
  · rintro (⟨b, h⟩ | ⟨c, h⟩)
    · exact ⟨.bread b, h⟩
    · exact ⟨.component c, h⟩

/-- A value stands for an operation: it is the member, or the word for it. -/
inductive StandsForOperation : Value → Operation → Prop
  | operation (o : Operation) : StandsForOperation (.operation o) o
  | word (o : Operation) : StandsForOperation (.string (Vocabulary.word o)) o
  /-- Data are taken for the text that they encode. -/
  | data {bytes : List UInt8} {o : Operation}
      (encoded : String.fromUTF8? ⟨bytes.toArray⟩ = some (Vocabulary.word o)) :
      StandsForOperation (.bytes bytes) o

theorem standsForOperation_iff {v : Value} {o : Operation} :
    v.StandsForOperation o ↔ v.spelled? = some (Vocabulary.word o) := by
  constructor
  · intro h
    cases h with
    | data encoded => exact encoded
    | _ => rfl
  · intro h
    cases v with
    | string s =>
      cases h
      exact .word o
    | bytes data => exact .data h
    | bread b => exact absurd (Option.some.inj h).symm ((Ingredient.bread b).word_ne_operation o)
    | component c =>
      exact absurd (Option.some.inj h).symm ((Ingredient.component c).word_ne_operation o)
    | operation p =>
      have hp : p = o := by
        have hword : Vocabulary.word p = Vocabulary.word o := Option.some.inj h
        revert hword
        cases p <;> cases o <;> decide
      exact hp ▸ .operation p
    | _ => cases h

theorem member?_operation_eq_some {v : Value} {o : Operation} :
    v.member? Operation = some o ↔ v.StandsForOperation o := by
  rw [standsForOperation_iff]
  refine ⟨spelled?_of_member?, fun h => ?_⟩
  have ho : Vocabulary.ofWord? (Vocabulary.word o) = some o := by cases o <;> decide
  rw [member?, h, Option.bind_some, ho]

def IsOperation (v : Value) : Prop := ∃ o, v.StandsForOperation o

theorem isSome_member?_operation {v : Value} : (v.member? Operation).isSome ↔ v.IsOperation := by
  simp only [Option.isSome_iff_exists, member?_operation_eq_some, IsOperation]

instance (v : Value) : Decidable v.IsOperation := decidable_of_iff _ isSome_member?_operation

/-! ### Plain data -/

/-- Nothing, truth values, whole numbers, text and members, and lists and mappings of them. -/
inductive IsData : Value → Prop
  | null : IsData .null
  | bool (b : Bool) : IsData (.bool b)
  | int (n : Int) : IsData (.int n)
  | string (s : String) : IsData (.string s)
  | broken (codes : List Nat) : IsData (.broken codes)
  | bread (b : Bread) : IsData (.bread b)
  | component (c : Component) : IsData (.component c)
  | operation (o : Operation) : IsData (.operation o)
  | list {items : List Value} (items_data : ∀ v ∈ items, IsData v) : IsData (.list items)
  | mapping {entries : List (Value × Value)} (keys_data : ∀ e ∈ entries, IsData e.1)
      (values_data : ∀ e ∈ entries, IsData e.2) : IsData (.mapping entries)

/-- A member as its word, and any other value as it is. -/
def asWord (v : Value) : Value := v.word?.elim v .string

def isTextOrNull : Value → Bool
  | .null => true
  | v => v.isText

theorem isTextOrNull_iff {v : Value} : v.isTextOrNull ↔ v = .null ∨ v.isText := by
  cases v <;> simp [isTextOrNull]

theorem text_of_isData {name : String} {v : Value} (h : v.IsData) : Checked.text name v =
    if v.isText then .ok v.asWord else .error [.atField name .notString] := by
  cases h <;> rfl

theorem textOrNull_of_isData {name : String} {v : Value} (h : v.IsData) :
    Checked.textOrNull name v =
      if v.isTextOrNull then .ok v.asWord else .error [.atField name .notString] := by
  cases h <;> rfl

theorem eq_asWord_of_text {name : String} {v x : Value} (h : v.IsData)
    (hx : Checked.text name v = .ok x) : x = v.asWord := by
  rw [text_of_isData h] at hx
  split at hx <;> cases hx
  rfl

theorem eq_asWord_of_textOrNull {name : String} {v x : Value} (h : v.IsData)
    (hx : Checked.textOrNull name v = .ok x) : x = v.asWord := by
  rw [textOrNull_of_isData h] at hx
  split at hx <;> cases hx
  rfl

theorem text_of_keptText {name : String} {v : Value} (h : Config.KeptText v) :
    Checked.text name v = .ok v := by
  obtain ⟨s, rfl⟩ | ⟨codes, rfl⟩ := h <;> rfl

theorem textOrNull_of_keptText {name : String} {v : Value} (h : v = .null ∨ Config.KeptText v) :
    Checked.textOrNull name v = .ok v := by
  obtain rfl | ⟨s, rfl⟩ | ⟨codes, rfl⟩ := h <;> rfl

theorem standsFor_asWord (x : Ingredient) : (ofIngredient x).asWord.StandsFor x := by
  have hword : (ofIngredient x).asWord = .string x.word := by cases x <;> rfl
  exact hword ▸ .word x

end Value

namespace Config

open Checked Value

/-! ### The pantry -/

/-- Two complaints for every value that stands for no ingredient, in the order of the values,
which have the places from `n` on: it is no bread, and it is no component. -/
def strayPantry (n : Nat) : List Value → List Problem
  | [] => []
  | v :: items =>
    (if v.IsIngredient then [] else
      [⟨[.field "pantry", .item n, .field "str-enum[Bread]"], .ofStray Bread v⟩,
        ⟨[.field "pantry", .item n, .field "str-enum[Component]"], .ofStray Component v⟩]) ++
      strayPantry (n + 1) items

theorem strayPantry_eq_nil {n : Nat} {items : List Value} :
    strayPantry n items = [] ↔ ∀ v ∈ items, v.IsIngredient := by
  induction items generalizing n with
  | nil => simp [strayPantry]
  | cons v items ih => simp [strayPantry, ih]

theorem strayIngredients_eq (items : List Value) :
    strayIngredients items = strayPantry 0 items := by
  unfold strayIngredients
  -- the places of the items that are left do not begin with 0
  generalize 0 = n
  induction items generalizing n with
  | nil => rfl
  | cons v items ih =>
    rw [List.zipIdx_cons, List.flatMap_cons, ih, strayPantry]
    by_cases hv : v.IsIngredient
    · simp [hv, isSome_ingredient?.mpr hv]
    · obtain ⟨hbread, hcomponent⟩ := not_or.mp (isIngredient_iff.not.mp hv)
      simp only [hv, isSome_ingredient?.not.mpr hv, complaint?_eq,
        isSome_member?_bread.not.mpr hbread, isSome_member?_component.not.mpr hcomponent]
      rfl

theorem filterMap_ingredient?_of_standsFor {items : List Value} {found : List Ingredient}
    (h : List.Forall₂ StandsFor items found) : items.filterMap ingredient? = found := by
  induction h with
  | nil => rfl
  | cons hv _ ih => rw [List.filterMap_cons, ingredient?_eq_some.mpr hv, ih]

theorem checkPantry_list (items : List Value) : Config.checkPantry (.list items) =
    if strayPantry 0 items = [] then .ok (items.filterMap ingredient?) else
      .error (strayPantry 0 items) := by
  simp only [Config.checkPantry, strayIngredients_eq]
  cases strayPantry 0 items <;> rfl

/-- A pantry holds what the items of a list stand for, in their order and as often as they do. -/
theorem checkPantry_eq_ok {items : List Value} {found : List Ingredient} :
    Config.checkPantry (.list items) = .ok found ↔ List.Forall₂ StandsFor items found := by
  have hmade {x : List Ingredient} (h : List.Forall₂ StandsFor items x) :
      Config.checkPantry (.list items) = .ok x := by
    rw [checkPantry_list, if_pos (strayPantry_eq_nil.mpr (forall_exists_iff_forall₂.mpr ⟨x, h⟩)),
      filterMap_ingredient?_of_standsFor h]
  refine ⟨fun h => ?_, hmade⟩
  by_cases hstray : strayPantry 0 items = []
  · obtain ⟨x, hx⟩ := forall_exists_iff_forall₂.mp (strayPantry_eq_nil.mp hstray)
    rw [hmade hx] at h
    exact Except.ok.inj h ▸ hx
  · rw [checkPantry_list, if_neg hstray] at h
    cases h

theorem standsFor_of_checkPantry {v : Value} {found : List Ingredient} (h : v.IsData)
    (hv : Config.checkPantry v = .ok found) :
    ∃ items, v = .list items ∧ List.Forall₂ StandsFor items found := by
  cases h with
  | @list items _ => exact ⟨items, rfl, checkPantry_eq_ok.mp hv⟩
  | _ => cases hv

/-- The complaints about what is given for the pantry. -/
def pantryComplaints : Value → List Problem
  | .list items => strayPantry 0 items
  | _ => [.atField "pantry" .notList]

theorem problems_checkPantry {v : Value} (h : v.IsData) :
    (Config.checkPantry v).problems = pantryComplaints v := by
  cases h with
  | @list items _ =>
    rw [checkPantry_list, pantryComplaints]
    split
    next hnil => exact hnil.symm
    next => rfl
  | _ => rfl

theorem pantryComplaints_eq_nil {v : Value} :
    pantryComplaints v = [] ↔ ∃ items, v = .list items ∧ ∀ x ∈ items, x.IsIngredient := by
  cases v with
  | list items => simp [pantryComplaints, strayPantry_eq_nil]
  | _ => simp [pantryComplaints]

/-! ### Fields that fit -/

/-- What is said about a field that does not hold what it should. -/
def unfit (fine : Value → Prop) [DecidablePred fine] (name : String) (c : Value → Complaint)
    (v : Value) : List Problem :=
  if fine v then [] else [.atField name (c v)]

theorem unfit_eq_nil {fine : Value → Prop} [DecidablePred fine] {name : String}
    {c : Value → Complaint} {v : Value} : unfit fine name c v = [] ↔ fine v := by
  simp [unfit]

theorem problems_text {name : String} {v : Value} (h : v.IsData) :
    (Checked.text name v).problems = unfit (·.isText) name (fun _ => .notString) v := by
  rw [text_of_isData h, unfit]
  split <;> rfl

theorem problems_textOrNull {name : String} {v : Value} (h : v.IsData) :
    (Checked.textOrNull name v).problems =
      unfit (·.isTextOrNull) name (fun _ => .notString) v := by
  rw [textOrNull_of_isData h, unfit]
  split <;> rfl

theorem problems_operation {name : String} (v : Value) :
    (Checked.member Operation name v).problems =
      unfit IsOperation name (.ofStray Operation) v := by
  simp only [problems_member, isSome_member?_operation, unfit]

/-- Of a field that is left out nothing is said. -/
theorem problems_optional {α : Type} {fallback : α} {check : Value → Checked α}
    {said : Value → List Problem} {v : Option Value} (h : ∀ x ∈ v, (check x).problems = said x) :
    (optional fallback check v).problems = v.elim [] said := by
  cases v with
  | none => rfl
  | some x => exact h x rfl

theorem elim_of_optional {α : Type} {fallback a : α} {check : Value → Checked α} {P : Value → Prop}
    {v : Option Value} (h : optional fallback check v = .ok a)
    (hcheck : ∀ x ∈ v, check x = .ok a → P x) : v.elim (a = fallback) P := by
  cases v with
  | none => exact (Except.ok.inj h).symm
  | some x => exact hcheck x rfl h

theorem elim_eq_nil {said : Value → List Problem} {v : Option Value} :
    v.elim [] said = [] ↔ ∀ x ∈ v, said x = [] := by
  cases v <;> simp

namespace Given

/-- What is given fits: every field that is given holds what it should. -/
structure Fits (g : Given) : Prop where
  interpreter : ∀ v ∈ g.interpreter, v.isText
  recipe : ∀ v ∈ g.recipe, v = .null ∨ v.isText
  pantry : ∀ v ∈ g.pantry, ∃ items, v = .list items ∧ ∀ x ∈ items, x.IsIngredient
  failAt : ∀ v ∈ g.failAt, v.IsOperation

/-- All complaints about what is given, field after field. -/
def complaints (g : Given) : List Problem :=
  g.interpreter.elim [] (unfit (·.isText) "interpreter" fun _ => .notString) ++
    g.recipe.elim [] (unfit (·.isTextOrNull) "recipe" fun _ => .notString) ++
    (g.pantry.elim [] pantryComplaints ++
      g.failAt.elim [] (unfit IsOperation "fail_at" (.ofStray Operation)))

/-- What is given is plain data. The last field is the same for all values, so nothing is said of
it. -/
structure IsPlain (g : Given) : Prop where
  interpreter : ∀ v ∈ g.interpreter, v.IsData
  recipe : ∀ v ∈ g.recipe, v.IsData
  pantry : ∀ v ∈ g.pantry, v.IsData

/-- What a configuration has of that which is given. A field that is left out has its default. -/
structure Yields (g : Given) (c : Config) : Prop where
  interpreter : g.interpreter.elim (c.interpreter = .string "real") (c.interpreter = ·.asWord)
  recipe : g.recipe.elim (c.recipe = .null) (c.recipe = ·.asWord)
  pantry : ∃ found, c.pantry = ofIngredients found ∧
    g.pantry.elim (found = Ingredient.all) fun v =>
      ∃ items, v = .list items ∧ List.Forall₂ StandsFor items found
  failAt : ∃ o, c.failAt = .operation o ∧ g.failAt.elim (o = .add) (·.StandsForOperation o)

variable {g : Given}

theorem complaints_eq_nil : g.complaints = [] ↔ g.Fits := by
  simp only [complaints, List.append_eq_nil_iff, elim_eq_nil, unfit_eq_nil, pantryComplaints_eq_nil,
    isTextOrNull_iff]
  exact ⟨fun ⟨⟨hi, hr⟩, hp, ho⟩ => ⟨hi, hr, hp, ho⟩,
    fun h => ⟨⟨h.interpreter, h.recipe⟩, h.pantry, h.failAt⟩⟩

theorem problems_eq_complaints (h : g.IsPlain) : g.check.problems = g.complaints := by
  have hinterpreter : g.checkInterpreter.problems = _ :=
    problems_optional fun v hv => problems_text (h.interpreter v hv)
  have hrecipe : g.checkRecipe.problems = _ :=
    problems_optional fun v hv => problems_textOrNull (h.recipe v hv)
  have hpantry : g.checkPantry.problems = _ :=
    problems_optional fun v hv => problems_checkPantry (h.pantry v hv)
  have hfailAt : g.checkFailAt.problems = _ := problems_optional fun v _ => problems_operation v
  rw [problems_check, hinterpreter, hrecipe, hpantry, hfailAt, complaints]

theorem check_of_fits (h : g.IsPlain) (hfits : g.Fits) : ∃ c, g.check = .ok c :=
  g.tells_check.ok_of_problems ((problems_eq_complaints h).trans (complaints_eq_nil.mpr hfits))

theorem check_of_not_fits (h : g.IsPlain) (hfits : ¬ g.Fits) :
    g.check = .error g.complaints := by
  rw [← problems_eq_complaints h]
  refine error_of_problems ?_
  rwa [problems_eq_complaints h, ne_eq, complaints_eq_nil]

theorem yields_of_check (h : g.IsPlain) {c : Config} (hc : g.check = .ok c) : g.Yields c := by
  obtain ⟨hinterpreter, hrecipe, ⟨found, hfound, hpantry⟩, o, ho, hfailAt⟩ := g.check_eq_ok.mp hc
  exact {
    interpreter := elim_of_optional hinterpreter fun v hv => eq_asWord_of_text (h.interpreter v hv)
    recipe := elim_of_optional hrecipe fun v hv => eq_asWord_of_textOrNull (h.recipe v hv)
    pantry := ⟨found, hpantry, elim_of_optional hfound fun v hv =>
      standsFor_of_checkPantry (h.pantry v hv)⟩
    failAt := ⟨o, hfailAt, elim_of_optional ho fun v _ hm =>
      member?_operation_eq_some.mp (member_eq_ok.mp hm)⟩ }

end Given

/-! ### Making a configuration again -/

/-- The mapping that the fields of a configuration make. -/
def toData (c : Config) : Value :=
  .mapping [(.string "interpreter", c.interpreter), (.string "recipe", c.recipe),
    (.string "pantry", c.pantry), (.string "fail_at", c.failAt)]

/-- The configuration with words for the ingredients in its pantry and for its operation. -/
def inWords (c : Config) : Config :=
  { c with
    pantry := match c.pantry with
      | .list items => .list (items.map asWord)
      | v => v
    failAt := c.failAt.asWord }

theorem ofData_mapping {entries : List (Value × Value)} (h : ∀ e ∈ entries, e.1.isText) :
    ofData (.mapping entries) = (Given.ofEntries entries).check.mapError (.invalid .config) := by
  rw [ofData, if_pos (List.all_eq_true.mpr h), ofEntries_eq_check]

/-- What stands for the pantry and the operation of a configuration makes the same again. -/
theorem ofData_toData {c d : Config} {items : List Value} {found : List Ingredient} {o : Operation}
    (hinterpreter : d.interpreter = c.interpreter) (hrecipe : d.recipe = c.recipe)
    (hc : c.WellMade) (hpantry : d.pantry = .list items) (hfound : c.pantry = ofIngredients found)
    (hitems : List.Forall₂ StandsFor items found) (ho : d.failAt.StandsForOperation o)
    (hfailAt : c.failAt = .operation o) : ofData d.toData = .ok c := by
  rw [toData, ofData_mapping (by simp [Value.isText, Value.codes?, Value.word?]),
    mapError_eq_ok, Given.check_eq_ok]
  have hgiven : Given.ofEntries [(.string "interpreter", d.interpreter),
      (.string "recipe", d.recipe), (.string "pantry", d.pantry), (.string "fail_at", d.failAt)] =
      ⟨some d.interpreter, some d.recipe, some d.pantry, some d.failAt⟩ := rfl
  rw [hgiven, hinterpreter, hrecipe, hpantry]
  exact ⟨text_of_keptText hc.interpreter, textOrNull_of_keptText hc.recipe,
    ⟨found, checkPantry_eq_ok.mpr hitems, hfound⟩, o,
    member_eq_ok.mpr (member?_operation_eq_some.mpr ho), hfailAt⟩

/-- A configuration is the same when it is made again from its own fields. -/
theorem ofData_own {g : Given} {c : Config} (h : g.check = .ok c) :
    ofData c.toData = .ok c ∧ ofData c.inWords.toData = .ok c := by
  obtain ⟨-, -, ⟨found, -, hfound⟩, o, -, ho⟩ := g.check_eq_ok.mp h
  have hc := Given.wellMade h
  constructor
  · have hitems : List.Forall₂ StandsFor (found.map .ofIngredient) found := by
      rw [List.forall₂_map_left_iff, List.forall₂_same]
      exact fun x _ => standsFor_ofIngredient x
    exact ofData_toData rfl rfl hc hfound hfound hitems (ho ▸ .operation o) ho
  · have hitems : List.Forall₂ StandsFor ((found.map .ofIngredient).map asWord) found := by
      rw [List.map_map, List.forall₂_map_left_iff, List.forall₂_same]
      exact fun x _ => standsFor_asWord x
    have hpantry : c.inWords.pantry = .list ((found.map .ofIngredient).map asWord) := by
      simp only [inWords, hfound, ofIngredients]
    have hword : c.inWords.failAt.StandsForOperation o := by
      simp only [inWords, ho]
      exact .word o
    exact ofData_toData rfl rfl hc hpantry hfound hitems hword ho

/-! ### Plain data -/

theorem mem_of_entry? {entries : List (Value × Value)} {name : String} {v : Value}
    (h : Value.entry? entries name = some v) : ∃ k, (k, v) ∈ entries := by
  obtain ⟨⟨k, x⟩, hfind, rfl⟩ := Option.map_eq_some_iff.mp h
  exact ⟨k, List.mem_of_find?_eq_some hfind⟩

theorem isPlain_ofEntries {entries : List (Value × Value)} (h : ∀ e ∈ entries, e.2.IsData) :
    (Given.ofEntries entries).IsPlain := by
  have hentry (name : String) : ∀ v ∈ Value.entry? entries name, v.IsData := by
    intro v hv
    obtain ⟨k, hk⟩ := mem_of_entry? hv
    exact h (k, v) hk
  exact ⟨hentry _, hentry _, hentry _⟩

/-- Plain data under texts make a configuration exactly if they fit. It holds what they stand for,
and comes out again of its own fields, with members in them or words. Of data that do not fit
everything that is wrong with them is told. -/
theorem takes_what_fits {entries : List (Value × Value)} (hkeys : ∀ e ∈ entries, e.1.isText)
    (hdata : ∀ e ∈ entries, e.2.IsData) :
    ((∃ c, ofData (.mapping entries) = .ok c) ↔ (Given.ofEntries entries).Fits) ∧
    (∀ c, ofData (.mapping entries) = .ok c → (Given.ofEntries entries).Yields c ∧
      ofData c.toData = .ok c ∧ ofData c.inWords.toData = .ok c) ∧
    (¬ (Given.ofEntries entries).Fits → ofData (.mapping entries) =
      .error (.invalid .config (Given.ofEntries entries).complaints)) := by
  have hplain := isPlain_ofEntries hdata
  have htold (hfits : ¬ (Given.ofEntries entries).Fits) : ofData (.mapping entries) =
      .error (.invalid .config (Given.ofEntries entries).complaints) := by
    rw [ofData_mapping hkeys, Given.check_of_not_fits hplain hfits]
    rfl
  refine ⟨⟨?_, fun hfits => ?_⟩, fun c hc => ?_, htold⟩
  · rintro ⟨c, hc⟩
    by_contra hfits
    rw [htold hfits] at hc
    cases hc
  · obtain ⟨c, hc⟩ := Given.check_of_fits hplain hfits
    exact ⟨c, by rw [ofData_mapping hkeys, hc]; rfl⟩
  · rw [ofData_mapping hkeys, mapError_eq_ok] at hc
    exact ⟨Given.yields_of_check hplain hc, ofData_own hc⟩

/-- Words and members stand side by side in a pantry. Every field can be wrong at once. -/
theorem takes_what_fits_mixed :
    let fine : List (Value × Value) :=
      [(.string "fail_at", .string "finish_sandwich"),
        (.string "pantry", .list [.string "toast", .component .salt, .bread .toast])]
    let wrong : List (Value × Value) :=
      [(.string "fail_at", .bread .toast), (.string "recipe", .bool true),
        (.string "pantry", .list [.string "ham", .string "salt", .null]),
        (.string "interpreter", .int 5)]
    (∃ c, ofData (.mapping fine) = .ok c ∧ ofData c.inWords.toData = .ok c) ∧
    ofData (.mapping wrong) = .error (.invalid .config
      [⟨[.field "interpreter"], .notString⟩, ⟨[.field "recipe"], .notString⟩,
        ⟨[.field "pantry", .item 0, .field "str-enum[Bread]"], .notAmong (Vocabulary.words Bread)⟩,
        ⟨[.field "pantry", .item 0, .field "str-enum[Component]"],
          .notAmong (Vocabulary.words Component)⟩,
        ⟨[.field "pantry", .item 2, .field "str-enum[Bread]"], .notAmong (Vocabulary.words Bread)⟩,
        ⟨[.field "pantry", .item 2, .field "str-enum[Component]"],
          .notAmong (Vocabulary.words Component)⟩,
        ⟨[.field "fail_at"], .notAmong (Vocabulary.words Operation)⟩]) := by
  intro fine wrong
  constructor
  · have hkeys : ∀ e ∈ fine, e.1.isText := by decide
    have hdata : ∀ e ∈ fine, e.2.IsData := by
      simp only [fine, List.forall_mem_cons]
      exact ⟨.string _, .list (by simp [IsData.string, IsData.component, IsData.bread]), nofun⟩
    obtain ⟨hiff, hmade, -⟩ := takes_what_fits hkeys hdata
    have hfits : (Given.ofEntries fine).Fits := by
      refine ⟨nofun, nofun, ?_, ?_⟩
      · rintro v ⟨⟩
        exact ⟨_, rfl, by decide⟩
      · rintro v ⟨⟩
        exact ⟨.finish, .word .finish⟩
    obtain ⟨c, hc⟩ := hiff.mpr hfits
    exact ⟨c, hc, (hmade c hc).2.2⟩
  · have hkeys : ∀ e ∈ wrong, e.1.isText := by decide
    have hdata : ∀ e ∈ wrong, e.2.IsData := by
      simp only [wrong, List.forall_mem_cons]
      exact ⟨.bread _, .bool _, .list (by simp [IsData.string, IsData.null]), .int _, nofun⟩
    have hfits : ¬ (Given.ofEntries wrong).Fits := fun h =>
      absurd (h.interpreter (.int 5) rfl) (by decide)
    exact (takes_what_fits hkeys hdata).2.2 hfits

/-- Of text that holds half of a character it is said that it is no text, and not that it is none
of the words. -/
theorem half_character_is_no_text :
    let entries : List (Value × Value) := [(.string "pantry", .list [.broken [0xD800]])]
    (∀ e ∈ entries, e.1.isText) ∧ (∀ e ∈ entries, e.2.IsData) ∧
    ofData (.mapping entries) = .error (.invalid .config
      [⟨[.field "pantry", .item 0, .field "str-enum[Bread]"], .notUnicode⟩,
        ⟨[.field "pantry", .item 0, .field "str-enum[Component]"], .notUnicode⟩]) ∧
    ofData (.mapping entries) ≠ .error (.invalid .config
      [⟨[.field "pantry", .item 0, .field "str-enum[Bread]"], .notAmong (Vocabulary.words Bread)⟩,
        ⟨[.field "pantry", .item 0, .field "str-enum[Component]"],
          .notAmong (Vocabulary.words Component)⟩]) := by
  intro entries
  have hdata : ∀ e ∈ entries, e.2.IsData := by
    simp only [entries, List.forall_mem_cons]
    exact ⟨.list (by simp [IsData.broken]), nofun⟩
  have htold : ofData (.mapping entries) = .error (.invalid .config
      [⟨[.field "pantry", .item 0, .field "str-enum[Bread]"], .notUnicode⟩,
        ⟨[.field "pantry", .item 0, .field "str-enum[Component]"], .notUnicode⟩]) := rfl
  refine ⟨by decide, hdata, htold, ?_⟩
  rw [htold]
  simp

end Config

end Deli
