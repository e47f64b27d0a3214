import Deli.Sandwich.Builder
import Mathlib.Data.List.Basic

/-! When the checks of sandwiches let something through, and what they make of it. A body comes
out of fields exactly when its bottom and every one of its components stand for members and there
is at least one component. From this follows what the typed operations do: starting, adding and
closing always succeed on members, and each puts down just what it was given. -/

namespace Deli

section Members

variable {α : Type} [Vocabulary α] {name : String}

theorem Vocabulary.word_of_ofWord? {s : String} {a : α} (h : ofWord? s = some a) : word a = s :=
  eq_of_beq (List.find?_some (p := fun a => word a == s) h)

theorem Value.spelled?_of_member? {v : Value} {a : α} (h : v.member? α = some a) :
    v.spelled? = some (Vocabulary.word a) := by
  obtain ⟨s, hs, ha⟩ := Option.bind_eq_some_iff.mp h
  rw [hs, Vocabulary.word_of_ofWord? ha]

theorem Checked.complaint?_eq_none {v : Value} :
    Checked.complaint? α v = none ↔ (v.member? α).isSome := by
  unfold Checked.complaint?
  cases h : v.member? α with
  | some a => simp
  | none => cases v <;> simp

theorem Checked.member_eq_ok {v : Value} {a : α} :
    Checked.member α name v = .ok a ↔ v.member? α = some a := by
  unfold Checked.member
  cases v.member? α <;> simp

theorem Checked.strayItems_eq_nil {items : List Value} :
    Checked.strayItems α name items = [] ↔ ∀ v ∈ items, (v.member? α).isSome := by
  simp only [Checked.strayItems, List.filterMap_eq_nil_iff, Option.map_eq_none_iff,
    Checked.complaint?_eq_none]
  constructor
  · intro h v hv
    obtain ⟨i, hi, rfl⟩ := List.mem_iff_getElem.mp hv
    exact h (items[i], i) (by simp [List.mem_zipIdx_iff_getElem?])
  · rintro h ⟨v, i⟩ hv
    exact h v (List.fst_mem_of_mem_zipIdx hv)

/-- Values that all stand for members stand for the members found among them. -/
theorem Value.map_member?_eq {items : List Value} (h : ∀ v ∈ items, (v.member? α).isSome) :
    items.map (·.member? α) = (items.filterMap (·.member? α)).map some := by
  induction items with
  | nil => rfl
  | cons v items ih =>
    obtain ⟨a, ha⟩ := Option.isSome_iff_exists.mp (h v (by simp))
    simp [ha, ih fun v hv => h v (by simp [hv])]

theorem Value.filterMap_member?_of_map {items : List Value} {found : List α}
    (h : items.map (·.member? α) = found.map some) :
    items.filterMap (·.member? α) = found := by
  have := congrArg (List.filterMap id) h
  simpa [List.filterMap_map, Function.comp_def] using this

/-- Items are let through exactly if they stand for members and there is one at least. -/
theorem Checked.members_eq_ok {items : List Value} {found : List α} :
    Checked.members α name (.tuple items) = .ok found ↔
      items.map (·.member? α) = found.map some ∧ found ≠ [] := by
  simp only [Checked.members]
  constructor
  · intro h
    split at h
    next hp =>
      obtain ⟨hs, hshort⟩ := List.append_eq_nil_iff.mp hp
      have hall := Checked.strayItems_eq_nil.mp hs
      cases h
      refine ⟨Value.map_member?_eq hall, ?_⟩
      intro hnil
      simp [hnil] at hshort
    next => cases h
  · rintro ⟨hmap, hne⟩
    have hfound := Value.filterMap_member?_of_map hmap
    have hall : ∀ v ∈ items, (v.member? α).isSome := by
      intro v hv
      have : v.member? α ∈ found.map some := hmap ▸ List.mem_map_of_mem hv
      obtain ⟨a, -, ha⟩ := List.mem_map.mp this
      simp [← ha]
    rw [Checked.strayItems_eq_nil.mpr hall, hfound]
    simp [hne]

end Members

@[simp] theorem Value.member?_bread (b : Bread) : (Value.bread b).member? Bread = some b := by
  cases b <;> decide

@[simp] theorem Value.member?_component (c : Component) :
    (Value.component c).member? Component = some c := by
  cases c <;> decide

@[simp] theorem Value.member?_null {α : Type} [Vocabulary α] : Value.null.member? α = none := rfl

namespace Checked

variable {α β : Type}

theorem both_eq_ok {x : Checked α} {y : Checked β} {p : α × β} :
    both x y = .ok p ↔ x = .ok p.1 ∧ y = .ok p.2 := by
  obtain ⟨a, b⟩ := p
  cases x <;> cases y <;> simp [both]

theorem map_eq_ok {ε : Type} {x : Except ε α} {f : α → β} {b : β} :
    x.map f = .ok b ↔ ∃ a, x = .ok a ∧ f a = b := by
  cases x <;> simp [Except.map]

theorem mapError_eq_ok {ε δ : Type} {x : Except ε α} {f : ε → δ} {a : α} :
    x.mapError f = .ok a ↔ x = .ok a := by
  cases x <;> simp [Except.mapError]

theorem memberOrNull_ofOption [Vocabulary α] {name : String} {f : α → Value}
    (hf : ∀ a, (f a).member? α = some a) (a : Option α) :
    memberOrNull α name (.ofOption f a) = .ok a := by
  cases a with
  | none => rfl
  | some a =>
    have hm : member α name (f a) = .ok a := member_eq_ok.mpr (hf a)
    have hne : f a ≠ .null := by
      intro h
      simpa [h] using hf a
    change memberOrNull α name (f a) = _
    unfold memberOrNull
    split
    next h => exact absurd h hne
    next => rw [hm]; rfl

end Checked

namespace Body

theorem check_eq_ok {bottom : Value} {items : List Value} {b : Body} :
    check (some bottom) (some (.tuple items)) = .ok b ↔
      bottom.member? Bread = some b.bottom ∧
        items.map (·.member? Component) = b.components.map some ∧ b.Filled := by
  obtain ⟨bread, components⟩ := b
  simp only [check, Checked.required, Checked.map_eq_ok, Checked.both_eq_ok, Prod.exists,
    Checked.member_eq_ok, Checked.members_eq_ok, Filled]
  constructor
  · rintro ⟨x, xs, ⟨hx, hxs⟩, h⟩
    cases h
    exact ⟨hx, hxs⟩
  · rintro ⟨hx, hxs⟩
    exact ⟨bread, components, ⟨hx, hxs⟩, rfl⟩

end Body

/-- A builder with a list of components builds the body that its values stand for, if they do. -/
theorem BodyBuilder.build_eq_ok {bottom : Value} {items : List Value} {b : Body} :
    build ⟨bottom, .list items⟩ = .ok b ↔
      bottom.member? Bread = some b.bottom ∧
        items.map (·.member? Component) = b.components.map some ∧ b.Filled := by
  simp only [build]
  split
  next => simp
  next =>
    rcases items with _ | ⟨v, items⟩
    · have : b.components.map some = [] → ¬ b.Filled := by simp [Body.Filled]
      simp only [Value.isPresent, List.isEmpty_nil, Bool.not_true, Bool.false_eq_true, ↓reduceIte,
        reduceCtorEq, List.map_nil, false_iff]
      rintro ⟨-, h, hf⟩
      exact this h.symm hf
    · simp only [Value.isPresent, List.isEmpty_cons, Bool.not_false, ↓reduceIte, Value.items?,
        Checked.mapError_eq_ok, Body.check_eq_ok]

namespace Body

theorem ofParts_members (bread : Bread) (component : Component) :
    ofParts (.bread bread) (.list [.component component]) = .ok ⟨bread, [component]⟩ := by
  simp only [ofParts, Value.items?, BodyBuilder.build_eq_ok]
  simp [Filled]

/-- The body with a component put on top of the others. -/
def withComponent (b : Body) (component : Component) : Body :=
  { b with components := b.components ++ [component] }

theorem add_component (b : Body) (component : Component) :
    b.add (.component component) = .ok (b.withComponent component) := by
  have hbuild : BodyBuilder.build
      ⟨.bread b.bottom, .list (b.components.map .component ++ [.component component])⟩ =
      .ok (b.withComponent component) := by
    rw [BodyBuilder.build_eq_ok]
    simp [withComponent, Filled, Function.comp_def]
  exact hbuild

theorem withComponent_filled (b : Body) (component : Component) :
    (b.withComponent component).Filled :=
  List.append_ne_nil_of_right_ne_nil _ (List.cons_ne_nil _ _)

/-- The body with several components put on it one by one. -/
def withComponents (b : Body) (components : List Component) : Body :=
  { b with components := b.components ++ components }

@[simp] theorem withComponents_nil (b : Body) : b.withComponents [] = b := by
  simp [withComponents]

theorem withComponents_cons (b : Body) (component : Component) (components : List Component) :
    b.withComponents (component :: components) =
      (b.withComponent component).withComponents components := by
  simp [withComponent, withComponents]

end Body

/-! ### What is let through

Whatever a body is made from, it has something on it; and a finished sandwich is made on a body
that there is already or on one that is made from its fields. -/

theorem Checked.members_ne_nil {α : Type} [Vocabulary α] {name : String} {v : Value}
    {found : List α} (h : Checked.members α name v = .ok found) : found ≠ [] := by
  have hitems {items : List Value} (h : Checked.members α name (.tuple items) = .ok found) :
      found ≠ [] := (Checked.members_eq_ok.mp h).2
  cases v with
  | list items => exact hitems h
  | tuple items => exact hitems h
  | _ => cases h

theorem Checked.required_eq_ok {α : Type} {name : String} {check : Value → Checked α}
    {v : Option Value} {a : α} :
    Checked.required name check v = .ok a ↔ ∃ w, v = some w ∧ check w = .ok a := by
  cases v <;> simp [Checked.required]

namespace Body

theorem check_filled {bottom components : Option Value} {b : Body}
    (h : check bottom components = .ok b) : b.Filled := by
  obtain ⟨⟨bread, found⟩, hboth, rfl⟩ := Checked.map_eq_ok.mp h
  obtain ⟨-, hfound⟩ := Checked.both_eq_ok.mp hboth
  obtain ⟨v, -, hv⟩ := Checked.required_eq_ok.mp hfound
  exact Checked.members_ne_nil hv

theorem ofEntries_filled {entries : List (Value × Value)} {b : Body}
    (h : ofEntries entries = .ok b) : b.Filled := check_filled h

theorem nested_filled {name : String} {v : Value} {b : Body} (h : nested name v = .ok b)
    (hv : ∀ c, v = .body c → c.Filled) : b.Filled := by
  cases v with
  | body c =>
    cases h
    exact hv _ rfl
  | mapping entries => exact ofEntries_filled (Checked.mapError_eq_ok.mp h)
  | _ => cases h

end Body

theorem BodyBuilder.build_filled {builder : BodyBuilder} {b : Body} (h : builder.build = .ok b) :
    b.Filled := by
  unfold BodyBuilder.build at h
  split at h
  next => cases h
  next =>
    split at h
    next =>
      split at h
      next => exact Body.check_filled (Checked.mapError_eq_ok.mp h)
      next => cases h
    next => cases h

theorem Body.ofParts_filled {bottom components : Value} {b : Body}
    (h : Body.ofParts bottom components = .ok b) : b.Filled := by
  unfold Body.ofParts at h
  split at h
  next => exact BodyBuilder.build_filled h
  next => cases h

theorem Body.add_filled {b c : Body} {v : Value} (h : b.add v = .ok c) : c.Filled := by
  unfold Body.add at h
  cases hadd : b.toBuilder.addComponent v with
  | error e =>
    rw [hadd] at h
    cases h
  | ok builder =>
    rw [hadd] at h
    exact BodyBuilder.build_filled h

theorem Ready.check_nested {body top : Option Value} {r : Ready}
    (h : Ready.check body top = .ok r) :
    ∃ v, body = some v ∧ Body.nested "body" v = .ok r.body := by
  obtain ⟨⟨b, t⟩, hboth, rfl⟩ := Checked.map_eq_ok.mp h
  exact Checked.required_eq_ok.mp (Checked.both_eq_ok.mp hboth).1

theorem Ready.ofParts_nested {body top : Value} {r : Ready} (h : Ready.ofParts body top = .ok r) :
    Body.nested "body" body = .ok r.body := by
  unfold Ready.ofParts ReadyBuilder.build at h
  split at h
  next => cases h
  next =>
    obtain ⟨v, hv, hnested⟩ := Ready.check_nested (Checked.mapError_eq_ok.mp h)
    cases hv
    exact hnested

theorem Ready.ofParts_body (b : Body) (top : Option Bread) :
    ofParts (.body b) (.ofOption .bread top) = .ok ⟨b, top⟩ := by
  simp only [ofParts, ReadyBuilder.build, Checked.mapError_eq_ok, check, Checked.required,
    Checked.optional, Checked.map_eq_ok, Checked.both_eq_ok, Body.nested]
  exact ⟨(b, top), ⟨rfl, Checked.memberOrNull_ofOption Value.member?_bread top⟩, rfl⟩

end Deli
