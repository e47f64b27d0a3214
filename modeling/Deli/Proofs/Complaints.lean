import Deli.Proofs.Config
import Mathlib.Data.List.Forall2

/-! What is wrong with the fields of a body, problem by problem. A value does for an ingredient if
it is the member or its word, and every value that does not is complained about once, in its place:
the bottom first, then the components in their order. If no component does, there are too few
besides. A body comes of its fields exactly if there is nothing to complain about, and it has the
members that they stand for. -/

namespace Deli

/-- Everything in a list is related to something exactly if the list is related to a list. -/
theorem forall_exists_iff_forall₂ {α β : Type} {R : α → β → Prop} {xs : List α} :
    (∀ x ∈ xs, ∃ y, R x y) ↔ ∃ ys, List.Forall₂ R xs ys := by
  constructor
  · intro h
    induction xs with
    | nil => exact ⟨[], .nil⟩
    | cons x xs ih =>
      obtain ⟨⟨y, hy⟩, hrest⟩ := List.forall_mem_cons.mp h
      obtain ⟨ys, hys⟩ := ih hrest
      exact ⟨y :: ys, .cons hy hys⟩
  · rintro ⟨ys, h⟩
    induction h with
    | nil => simp
    | cons hy _ ih => exact List.forall_mem_cons.mpr ⟨⟨_, hy⟩, ih⟩

/-! ### Values for ingredients -/

theorem Ingredient.ofWord?_word (x : Ingredient) : ofWord? x.word = some x := by
  cases x with
  | bread b => cases b <;> decide
  | component c => cases c <;> decide

theorem Ingredient.eq_of_word {x y : Ingredient} (h : x.word = y.word) : x = y := by
  have hword := congrArg ofWord? h
  rwa [ofWord?_word, ofWord?_word, Option.some.injEq] at hword

/-- No operation goes by the word for an ingredient. -/
theorem Ingredient.word_ne_operation (x : Ingredient) (o : Operation) :
    Vocabulary.word o ≠ x.word := by
  have hnone : Ingredient.ofWord? (Vocabulary.word o) = none := by cases o <;> decide
  intro h
  rw [h, x.ofWord?_word] at hnone
  cases hnone

namespace Value

/-- A value stands for an ingredient: it is the member, or the word for it. -/
inductive StandsFor : Value → Ingredient → Prop
  | bread (b : Bread) : StandsFor (.bread b) (.bread b)
  | component (c : Component) : StandsFor (.component c) (.component c)
  | word (x : Ingredient) : StandsFor (.string x.word) x
  /-- Data are taken for the text that they encode. -/
  | data {bytes : List UInt8} {x : Ingredient}
      (encoded : String.fromUTF8? ⟨bytes.toArray⟩ = some x.word) : StandsFor (.bytes bytes) x

theorem standsFor_iff {v : Value} {x : Ingredient} :
    v.StandsFor x ↔ v.spelled? = some x.word := by
  constructor
  · intro h
    cases h with
    | data encoded => exact encoded
    | _ => rfl
  · intro h
    cases v with
    | string s =>
      cases h
      exact .word x
    | bytes data => exact .data h
    | bread b =>
      have hx : Ingredient.bread b = x := Ingredient.eq_of_word (Option.some.inj h)
      exact hx ▸ .bread b
    | component c =>
      have hx : Ingredient.component c = x := Ingredient.eq_of_word (Option.some.inj h)
      exact hx ▸ .component c
    | operation o => exact absurd (Option.some.inj h) (x.word_ne_operation o)
    | _ => cases h

theorem member?_bread_eq_some {v : Value} {b : Bread} :
    v.member? Bread = some b ↔ v.StandsFor (.bread b) := by
  rw [standsFor_iff]
  refine ⟨spelled?_of_member?, fun h => ?_⟩
  have hb : Vocabulary.ofWord? (Ingredient.bread b).word = some b := by cases b <;> decide
  rw [member?, h, Option.bind_some, hb]

theorem member?_component_eq_some {v : Value} {c : Component} :
    v.member? Component = some c ↔ v.StandsFor (.component c) := by
  rw [standsFor_iff]
  refine ⟨spelled?_of_member?, fun h => ?_⟩
  have hc : Vocabulary.ofWord? (Ingredient.component c).word = some c := by cases c <;> decide
  rw [member?, h, Option.bind_some, hc]

def IsBread (v : Value) : Prop := ∃ b, v.StandsFor (.bread b)

def IsComponent (v : Value) : Prop := ∃ c, v.StandsFor (.component c)

theorem isSome_member?_bread {v : Value} : (v.member? Bread).isSome ↔ v.IsBread := by
  simp only [Option.isSome_iff_exists, member?_bread_eq_some, IsBread]

theorem isSome_member?_component {v : Value} : (v.member? Component).isSome ↔ v.IsComponent := by
  simp only [Option.isSome_iff_exists, member?_component_eq_some, IsComponent]

theorem exists_standsFor {items : List Value} (h : ∀ x ∈ items, x.IsComponent) :
    ∃ components, List.Forall₂ (fun x c => x.StandsFor (.component c)) items components :=
  forall_exists_iff_forall₂.mp h

instance (v : Value) : Decidable v.IsBread := decidable_of_iff _ isSome_member?_bread

instance (v : Value) : Decidable v.IsComponent := decidable_of_iff _ isSome_member?_component

end Value

/-! ### Complaints -/

/-- What is said about a value that stands for no member: it is none of the words. Of text that
holds halves of characters it is said instead that it is no text. -/
def Complaint.ofStray (α : Type) [Vocabulary α] : Value → Complaint
  | .broken _ => .notUnicode
  | _ => .notAmong (Vocabulary.words α)

/-- One complaint for every value that stands for no component, in the order of the values, which
have the places from `n` on. -/
def strayComponents (n : Nat) : List Value → List Problem
  | [] => []
  | v :: items =>
    (if v.IsComponent then [] else [⟨[.field "components", .item n], .ofStray Component v⟩]) ++
      strayComponents (n + 1) items

/-- All complaints about the fields of a body. -/
def Body.complaints (bottom : Value) (items : List Value) : List Problem :=
  (if bottom.IsBread then [] else [⟨[.field "bottom"], .ofStray Bread bottom⟩]) ++
    strayComponents 0 items ++
    if ∃ v ∈ items, v.IsComponent then [] else [⟨[.field "components"], .tooShort⟩]

section Stray

variable {n : Nat} {items : List Value}

theorem strayComponents_append (n : Nat) (xs ys : List Value) :
    strayComponents n (xs ++ ys) = strayComponents n xs ++ strayComponents (n + xs.length) ys := by
  induction xs generalizing n with
  | nil => rfl
  | cons x xs ih =>
    rw [List.cons_append, strayComponents, ih, strayComponents, List.append_assoc, List.length_cons,
      Nat.add_right_comm, Nat.add_assoc]

theorem strayComponents_eq_nil : strayComponents n items = [] ↔ ∀ v ∈ items, v.IsComponent := by
  induction items generalizing n with
  | nil => simp [strayComponents]
  | cons v items ih => simp [strayComponents, ih]

theorem strayComponents_members (n : Nat) (components : List Component) :
    strayComponents n (components.map .component) = [] := by
  rw [strayComponents_eq_nil]
  intro v hv
  obtain ⟨c, -, rfl⟩ := List.mem_map.mp hv
  exact ⟨c, .component c⟩

end Stray

namespace Checked

theorem complaint?_eq {α : Type} [Vocabulary α] (v : Value) :
    complaint? α v = if (v.member? α).isSome then none else some (.ofStray α v) := by
  unfold complaint?
  cases h : v.member? α with
  | some a => rfl
  | none => cases v <;> rfl

theorem problems_member {α : Type} [Vocabulary α] (name : String) (v : Value) :
    (member α name v).problems =
      if (v.member? α).isSome then [] else [.atField name (.ofStray α v)] := by
  rw [member, complaint?_eq]
  cases v.member? α <;> rfl

theorem problems_member_bread (v : Value) :
    (member Bread "bottom" v).problems =
      if v.IsBread then [] else [⟨[.field "bottom"], .ofStray Bread v⟩] := by
  simp only [problems_member, Value.isSome_member?_bread]
  rfl

theorem strayItems_eq (items : List Value) :
    strayItems Component "components" items = strayComponents 0 items := by
  -- the places of the items that are left do not begin with 0
  have hfrom (n : Nat) : ((items.zipIdx n).filterMap fun p =>
      (complaint? Component p.1).map fun c => ⟨[.field "components", .item p.2], c⟩) =
      strayComponents n items := by
    induction items generalizing n with
    | nil => rfl
    | cons v items ih =>
      rw [List.zipIdx_cons, List.filterMap_cons, ih, strayComponents]
      simp only [complaint?_eq]
      by_cases hv : (v.member? Component).isSome
      · simp [hv, Value.isSome_member?_component.mp hv]
      · simp [hv, Value.isSome_member?_component.not.mp hv]
  exact hfrom 0

theorem problems_members (items : List Value) :
    (members Component "components" (.tuple items)).problems = strayComponents 0 items ++
      if ∃ v ∈ items, v.IsComponent then [] else [⟨[.field "components"], .tooShort⟩] := by
  have hfound : (items.filterMap (·.member? Component)).isEmpty ↔
      ¬ ∃ v ∈ items, v.IsComponent := by
    simp [List.isEmpty_iff, List.filterMap_eq_nil_iff, ← Value.isSome_member?_component]
  have hproblems : (members Component "components" (.tuple items)).problems =
      strayItems Component "components" items ++
        if (items.filterMap (·.member? Component)).isEmpty then
          [.atField "components" .tooShort] else [] := by
    simp only [members]
    cases strayItems Component "components" items ++ _ <;> rfl
  rw [hproblems, strayItems_eq]
  by_cases h : ∃ v ∈ items, v.IsComponent
  · rw [if_neg (hfound.not.mpr (not_not.mpr h)), if_pos h]
  · rw [if_pos (hfound.mpr h), if_neg h]
    rfl

end Checked

/-! ### Bodies from fields -/

namespace Body

theorem problems_check (bottom : Value) (items : List Value) :
    (check (some bottom) (some (.tuple items))).problems = complaints bottom items := by
  rw [check, Checked.problems_map, Checked.problems_both, complaints, List.append_assoc]
  exact congrArg₂ _ (Checked.problems_member_bread bottom) (Checked.problems_members items)

theorem eq_complaints_of_check {bottom : Value} {items : List Value} {problems : List Problem}
    (h : check (some bottom) (some (.tuple items)) = .error problems) :
    problems = complaints bottom items := by
  rw [← problems_check, h]
  rfl

theorem map_member?_eq_iff {items : List Value} {components : List Component} :
    items.map (·.member? Component) = components.map some ↔
      List.Forall₂ (fun v c => v.StandsFor (.component c)) items components := by
  rw [← List.forall₂_eq_eq_eq, List.forall₂_map_left_iff, List.forall₂_map_right_iff]
  simp only [Value.member?_component_eq_some]

/-- A body has the members that its fields stand for. -/
theorem check_eq_ok_iff {bottom : Value} {items : List Value} {b : Body} :
    check (some bottom) (some (.tuple items)) = .ok b ↔
      bottom.StandsFor (.bread b.bottom) ∧
        List.Forall₂ (fun v c => v.StandsFor (.component c)) items b.components ∧ items ≠ [] := by
  rw [check_eq_ok, Value.member?_bread_eq_some, map_member?_eq_iff]
  refine and_congr_right fun _ => and_congr_right fun hitems => not_congr ?_
  rw [← List.length_eq_zero_iff, ← List.length_eq_zero_iff, hitems.length_eq]

end Body

namespace BodyBuilder

theorem build_of_given {bottom : Value} {items : List Value} (hbottom : bottom ≠ .null)
    (hitems : items ≠ []) :
    build ⟨bottom, .list items⟩ =
      (Body.check (some bottom) (some (.tuple items))).mapError (.invalid .body) := by
  have hpresent : (Value.list items).isPresent = true := by
    simpa [Value.isPresent] using hitems
  rw [build]
  simp only [hpresent, Value.items?, ↓reduceIte]

theorem build_of_null (components : Value) :
    build ⟨.null, components⟩ =
      .error (.construction "`bottom` must be initialized!" "bottom") := rfl

theorem build_of_nil {bottom : Value} (hbottom : bottom ≠ .null) :
    build ⟨bottom, .list []⟩ =
      .error (.construction "`components` must not be empty!" "components") := by
  rw [build]
  split
  next => contradiction
  next => rfl

end BodyBuilder

/-! ### Components put on a body -/

namespace Body

variable {b : Body} {items : List Value}

/-- A builder that has been filled with a body, and then with more values. -/
def reopened (b : Body) (items : List Value) : BodyBuilder :=
  ⟨.bread b.bottom, .list (b.components.map .component ++ items)⟩

theorem build_reopened (hb : b.Filled) (items : List Value) :
    (b.reopened items).build =
      (check (some (.bread b.bottom))
        (some (.tuple (b.components.map .component ++ items)))).mapError (.invalid .body) :=
  BodyBuilder.build_of_given (fun h => nomatch h) (by simpa using fun h => absurd h hb)

/-- All of them stand for components, so all of these lie on the others. -/
theorem build_reopened_of_standsFor (hb : b.Filled) {components : List Component}
    (h : List.Forall₂ (fun v c => v.StandsFor (.component c)) items components) :
    (b.reopened items).build = .ok (b.withComponents components) := by
  rw [build_reopened hb, Checked.mapError_eq_ok, check_eq_ok_iff]
  refine ⟨.bread _, List.rel_append ?_ h, by simpa using fun h => absurd h hb⟩
  rw [List.forall₂_map_left_iff, List.forall₂_same]
  exact fun c _ => .component c

theorem complaints_reopened (hb : b.Filled) (items : List Value) :
    complaints (.bread b.bottom) (b.components.map .component ++ items) =
      strayComponents b.components.length items := by
  have hbottom : (Value.bread b.bottom).IsBread := ⟨_, .bread _⟩
  have hsome : ∃ v ∈ b.components.map .component ++ items, v.IsComponent := by
    obtain ⟨c, hc⟩ := List.exists_mem_of_ne_nil _ hb
    exact ⟨.component c, List.mem_append_left _ (List.mem_map_of_mem hc), c, .component c⟩
  rw [complaints, if_pos hbottom, if_pos hsome, strayComponents_append, strayComponents_members,
    List.length_map, Nat.zero_add, List.nil_append, List.nil_append, List.append_nil]

/-- Those that stand for none are complained about, and nothing else is. -/
theorem build_reopened_of_stray (hb : b.Filled)
    (h : strayComponents b.components.length items ≠ []) :
    (b.reopened items).build =
      .error (.invalid .body (strayComponents b.components.length items)) := by
  have hproblems := problems_check (.bread b.bottom) (b.components.map .component ++ items)
  rw [complaints_reopened hb] at hproblems
  have hchecked := Checked.error_of_problems (hproblems.symm ▸ h)
  rw [build_reopened hb, hchecked, hproblems]
  rfl

theorem add_of_standsFor (hb : b.Filled) {v : Value} {c : Component}
    (h : v.StandsFor (.component c)) : b.add v = .ok (b.withComponent c) :=
  build_reopened_of_standsFor hb (.cons h .nil)

theorem add_of_stray (hb : b.Filled) {v : Value} (h : ¬ v.IsComponent) :
    b.add v = .error (.invalid .body (strayComponents b.components.length [v])) :=
  build_reopened_of_stray hb (by simpa [strayComponents] using h)

end Body

end Deli
