import Deli.Proofs.Session.Registry

/-! What a kitchen announces. The recipe is looked up by whether a name is given, and announced by
whether the name counts as present; the two differ for the empty name alone, which is announced as
the first name of the book. A terminal that does not take the name keeps the recipe from being
run. -/

namespace Deli

namespace Session

variable {rs : List (Name × Value)} {book : Value} {w : World State} {first : Name}
  {rest : List Name}

/-- What is told of a name before the recipe is run. -/
def cookingLine (n : Name) : Line := .text ("[cyan][KITCHEN] Cooking: " ++ n.text ++ "[/cyan]")

/-- The name that is announced. -/
def announced (first : Name) (asked : Option Name) : Name :=
  if asked = some (.whole "") then first else asked.getD first

/-- A recipe that has been announced in a kitchen. -/
def carryOut (apply : Bound → List Value → Act Value) (technology recipe : Value) : Act Value :=
  Book.carryOut (fun recipe => call apply recipe [technology])
    (fun r => ask apply r .errorOrNull []) recipe

def cookStep (kitchen : Value) (asked : Option Name) : Step :=
  .call (.value kitchen) Method.cook.name [.value (.value (Value.ofOption Name.value asked))]

/-! ### Kitchens -/

theorem Heap.lacks_kitchen (heap : Heap) (book technology : Value) (m : Method) :
    heap.Lacks (.kitchen book technology) m.name := ⟨by cases m <;> rfl, rfl⟩

theorem Heap.Extends.append (heap : Heap) (os : Array Object) :
    heap.Extends { heap with objects := heap.objects ++ os } where
  objects ho := by rw [Array.getElem?_append_left (lt_of_getElem? ho), ho]
  attributes := rfl

/-- A kitchen has the technology that it is given, or else the real one. -/
theorem exec_makeKitchen (b : Handle) (technology : Value) (w : World State) :
    ∃ kitchen heap used, (makeKitchen (.handle b) technology).exec w =
        (.ok (.handle ⟨.kitchen, kitchen⟩), w.over heap) ∧ w.rest.heap.Extends heap ∧
      heap.objects[kitchen]? = some (.kitchen (.handle b) used) ∧
      (technology ≠ .null → used = technology) := by
  by_cases hnull : technology = .null
  · subst hnull
    refine ⟨_, _, _, rfl, ?_, Heap.getElem?_push_size _ _, fun h => absurd rfl h⟩
    exact ((Heap.Extends.append _ _).trans (.push _ _)).trans (.push _ _)
  · refine ⟨_, w.rest.heap.push (.kitchen (.handle b) technology), technology, ?_, .push _ _,
      Heap.getElem?_push_size _ _, fun _ => rfl⟩
    cases technology <;> first | rfl | exact absurd rfl hnull

/-- A kitchen is put up with a book, which stays as it is. -/
theorem Registry.exec_kitchen (h : Registry book rs w) (technology : Value) :
    ∃ kitchen w' used, (Step.kitchen (some (.value book)) (some (.value technology))).run.exec w =
        (.ok (.handle ⟨.kitchen, kitchen⟩), w') ∧ Registry book rs w' ∧
      w'.rest.heap.objects[kitchen]? = some (.kitchen book used) ∧
      (technology ≠ .null → used = technology) := by
  obtain ⟨id, recipes, hholds⟩ := h.holds
  have hbook : book = .handle ⟨.book, id⟩ := hholds.value
  obtain ⟨kitchen, heap, used, hmake, hheap, hkitchen⟩ :=
    exec_makeKitchen ⟨.book, id⟩ technology w
  rw [← hbook] at hmake hkitchen
  exact ⟨kitchen, w.over heap, used, hmake, h.of_extends hheap, hkitchen⟩

/-! ### Cooking -/

theorem itemAt_zero (what : String) (v : Value) (items : List Value) :
    itemAt what (v :: items) 0 = pure v := by
  have hfits : isBeyond 0 = false := by decide
  have hstart (n : Nat) : fromStart n 0 = 0 := rfl
  have hin : ¬((0 : Int) < 0 ∨ ((v :: items).length : Int) ≤ 0) := by
    rw [List.length_cons]
    omega
  have hplace : placeIn what (v :: items).length 0 = pure 0 := by
    simp only [placeIn, hfits, hstart, Bool.false_eq_true, ↓reduceIte, hin, Int.toNat_zero]
  rw [itemAt, hplace, pure_bind, List.getD_cons_zero]

theorem exec_subscript_zero {list : Nat} {v : Value} {items : List Value}
    (hlist : w.rest.heap.objects[list]? = some (.list (v :: items)))
    (apply : Bound → List Value → Act Value) :
    (subscript apply (.handle ⟨.list, list⟩) (.int 0)).exec w = (.ok v, w) := by
  have hobject : w.rest.heap.object? (.handle ⟨.list, list⟩) = some (.list (v :: items)) := hlist
  have hnumber : (Value.int 0).number? = some 0 := rfl
  simp only [subscript, Action.exec_bind, Act.exec_object?, hobject, hnumber, itemAt_zero,
    Action.exec_pure]

section Cooking

variable (h : Registry book rs w) (hnames : namesOf rs = first :: rest) (depth : Nat)
include h hnames

theorem exec_firstName :
    ∃ heap, (firstName (applyWithin (depth + 2)) book).exec w = (.ok first.text, w.over heap) ∧
      w.rest.heap.Extends heap := by
  obtain ⟨id, recipes, hholds⟩ := h.holds
  obtain ⟨list, heap, hlist, hheap, hitems⟩ := exec_list hholds h.unwritten depth
  have hask : (ask (applyWithin (depth + 2)) book .listRecipes []).exec w =
      (.ok (.handle ⟨.list, list⟩), w.over heap) :=
    (exec_invoke_book hholds h.unwritten _ (by decide) (Action.exec_pure _ _)).trans hlist
  rw [hnames, List.map_cons] at hitems
  refine ⟨heap, ?_, hheap⟩
  simp only [firstName, Action.exec_bind, hask, exec_subscript_zero (w := w.over heap) hitems,
    Name.text_value, Action.exec_pure]

theorem exec_nameFor (asked : Option Name) :
    ∃ heap, w.rest.heap.Extends heap ∧
      (Book.nameFor (firstName (applyWithin (depth + 2)) book)
        (Value.ofOption Name.value asked)).exec w =
        (.ok (announced first asked).text, w.over heap) := by
  obtain ⟨heap, hfirst, hheap⟩ := exec_firstName h hnames depth
  cases asked with
  | none => exact ⟨heap, hheap, hfirst⟩
  | some n =>
    rw [Book.nameFor, Value.ofOption, n.isPresent_seen, n.text_value, pure_bind]
    by_cases hn : n = .whole ""
    · subst hn
      exact ⟨heap, hheap, hfirst⟩
    · have hannounced : announced first (some n) = n := by simp [announced, hn]
      rw [hannounced, if_pos (decide_eq_true hn)]
      exact ⟨_, .refl _, rfl⟩

/-- The recipe that is selected is announced by the name asked for, if this is not empty, or else by
the first name, and carried out when this has been told. -/
theorem exec_cookIn (hrecipes : ∀ p ∈ rs, p.2 ≠ .null) (technology : Value)
    {asked : Option Name} {r : Value} (hfound : found rs asked = some r) :
    ∃ heap, w.rest.heap.Extends heap ∧
      (cookIn (applyWithin (depth + 2)) book technology (Value.ofOption Name.value asked)).exec w =
        (w.over heap).telling (cookingLine (announced first asked))
          (carryOut (applyWithin (depth + 2)) technology r).exec := by
  obtain ⟨id, recipes, hholds⟩ := h.holds
  obtain ⟨heap, hheap, hselect⟩ := exec_selectFrom hholds h.unwritten depth asked
  rw [orNothing_chosen hrecipes, hfound] at hselect
  -- Selecting may have made a list, so the name is looked up on a larger heap.
  have hselected : Registry book rs (w.over heap) := h.of_extends hheap
  obtain ⟨heap', hheap', hname⟩ := exec_nameFor hselected hnames depth asked
  refine ⟨heap', hheap.trans hheap', ?_⟩
  rw [cookIn, Book.cookFrom_eq, Action.exec_bind, hselect]
  simp only [selected]
  rw [Action.exec_bind, hname]
  exact Action.exec_tell_bind _ _ _

end Cooking

/-- What is found is under the name asked for, or under the first name. -/
theorem recipeOf_of_found {asked : Option Name} {r : Value} (hfound : found rs asked = some r) :
    ∃ first rest, namesOf rs = first :: rest ∧ recipeOf rs (asked.getD first) = some r := by
  cases hnames : namesOf rs with
  | nil =>
    rw [namesOf_eq_nil.mp hnames] at hfound
    cases asked <;> cases hfound
  | cons first rest =>
    refine ⟨first, rest, rfl, ?_⟩
    rw [found, hnames] at hfound
    cases asked <;> exact hfound

theorem announced_eq_iff {asked : Option Name} : announced first asked = asked.getD first ↔
    (asked = some (.whole "") → first = .whole "") := by
  by_cases hasked : asked = some (.whole "")
  · simp [announced, hasked]
  · simp [announced, hasked]

theorem exec_cookStep {technology : Value} {kitchen : Nat} (hheap : w.rest.heap.Unwritten)
    (hkitchen : w.rest.heap.objects[kitchen]? = some (.kitchen book technology))
    (asked : Option Name) :
    (cookStep (.handle ⟨.kitchen, kitchen⟩) asked).run.exec w =
      (cookIn (applyWithin 999) book technology (Value.ofOption Name.value asked)).exec w := by
  have hobject : w.rest.heap.object? (.handle ⟨.kitchen, kitchen⟩) =
      some (.kitchen book technology) := hkitchen
  have hcook : Method.cook ∈ Method.ofKind .kitchen := by decide
  refine (exec_invoke_object hheap hkitchen (Heap.lacks_kitchen _ _ _ _) hcook
    (Step.exec_arguments _ w) 999).trans ?_
  rw [Method.run]
  simp only [Action.exec_bind, Act.exec_object?, hobject, Method.runKitchen]

/-- A kitchen with a book, whatever has been done with it, and any technology. A recipe that can be
selected is the one under the name asked for, or under the first name for no name. It is announced
before anything else is told, by this very name unless it is empty: then by the first name. So the
name that is announced is that of the recipe, but for an empty name that is not the first one. When
the terminal takes the announcement the recipe is carried out, and else nothing more is done. -/
theorem kitchen_announces_selection {world : World State} (hworld : world.rest.heap.Unwritten)
    (uses : List Use) (hrecipes : ∀ p ∈ registrations uses, p.2 ≠ .null) (technology : Value) :
    ∃ book w₀ kitchen w used, Step.book.run.exec world = (.ok book, w₀) ∧
      (Step.kitchen (some (.value book)) (some (.value technology))).run.exec
        (afterUses book w₀ uses) = (.ok kitchen, w) ∧
      (technology ≠ .null → used = technology) ∧
      let rs := registrations uses
      ∀ asked r, (Use.select asked).result book w = .ok r →
        ∃ first ∈ (namesOf rs).head?, recipeOf rs (asked.getD first) = some r ∧
          announced first asked ∈ namesOf rs ∧
          (announced first asked = asked.getD first ↔
            (asked = some (.whole "") → first = .whole "")) ∧
          ∃ heap, w.rest.heap.Extends heap ∧
            (cookStep kitchen asked).run.exec w =
              (w.over heap).telling (cookingLine (announced first asked))
                (carryOut (applyWithin 999) used r).exec := by
  obtain ⟨book, w₀, hbook, h⟩ := Registry.of_uses hworld uses
  obtain ⟨kitchen, w, used, hmake, hnext, hkitchen, hused⟩ := h.exec_kitchen technology
  refine ⟨book, w₀, _, w, used, hbook, hmake, hused, fun asked r hselect => ?_⟩
  have hfound := (hnext.result_select_eq_ok hrecipes).mp hselect
  obtain ⟨first, rest, hnames, hr⟩ := recipeOf_of_found hfound
  obtain ⟨heap', hheap', hcook⟩ := exec_cookIn hnext hnames 997 hrecipes used hfound
  refine ⟨first, by simp [hnames], hr, ?_, announced_eq_iff, heap', hheap',
    (exec_cookStep hnext.unwritten hkitchen asked).trans hcook⟩
  rw [announced]
  split
  next => simp [hnames]
  next =>
    by_contra hnone
    rw [recipeOf_eq_none.mpr hnone] at hr
    cases hr

/-- The second recipe of a book is asked for by its name. -/
theorem kitchen_announces_selection_second :
    let a := Name.whole "a"
    let b := Name.whole "b"
    let uses := [.register a mineHandle, .register b clubHandle]
    World.initial.rest.heap.Unwritten ∧ (∀ p ∈ registrations uses, p.2 ≠ .null) ∧
    ∃ book w₀ kitchen w used, Step.book.run.exec World.initial = (.ok book, w₀) ∧
      (Step.kitchen (some (.value book)) (some (.value .null))).run.exec
        (afterUses book w₀ uses) = (.ok kitchen, w) ∧
      (Use.select (some b)).result book w = .ok clubHandle ∧
      ∃ heap, (cookStep kitchen (some b)).run.exec w =
        (w.over heap).telling (cookingLine b)
          (carryOut (applyWithin 999) used clubHandle).exec := by
  intro a b uses
  have hworld : World.initial.rest.heap.Unwritten := fun _ _ _ _ => rfl
  have hrecipes : ∀ p ∈ registrations uses, p.2 ≠ .null := by
    have hrs : registrations uses = [(a, mineHandle), (b, clubHandle)] := rfl
    simp [hrs, mineHandle, clubHandle]
  obtain ⟨book, w₀, kitchen, w, used, hbook, hkitchen, -, hcook⟩ :=
    kitchen_announces_selection hworld uses hrecipes .null
  have hselect : (Use.select (some b)).result book w = .ok clubHandle := by
    obtain ⟨book', w₀', hbook', h⟩ := Registry.of_uses hworld uses
    obtain ⟨kitchen', w', used', hkitchen', hnext, -⟩ := h.exec_kitchen .null
    cases hbook'.symm.trans hbook
    cases hkitchen'.symm.trans hkitchen
    exact (hnext.result_select_eq_ok hrecipes).mpr rfl
  obtain ⟨first, hfirst, -, -, -, heap, -, hcook⟩ := hcook (some b) clubHandle hselect
  have hannounced : announced first (some b) = b := by simp [announced, b]
  rw [hannounced] at hcook
  exact ⟨hworld, hrecipes, book, w₀, kitchen, w, used, hbook, hkitchen, hselect, heap, hcook⟩

/-- The empty name is asked for, and there is a recipe under it that is not the first one. -/
theorem empty_name_announced_as_first :
    let a := Name.whole "a"
    let empty := Name.whole ""
    let uses := [.register a mineHandle, .register empty clubHandle]
    ∃ book w₀ kitchen w, Step.book.run.exec World.initial = (.ok book, w₀) ∧
      (Step.kitchen (some (.value book)) (some (.value .null))).run.exec
        (afterUses book w₀ uses) = (.ok kitchen, w) ∧
      (Use.select (some empty)).result book w = .ok clubHandle ∧
      ((cookStep kitchen (some empty)).run.exec w).2.console[w.console.length]? =
        some (cookingLine a) ∧
      (Use.get a).result book w = .ok mineHandle ∧ cookingLine a ≠ cookingLine empty ∧
      mineHandle ≠ clubHandle :=
  ⟨_, _, _, _, rfl, rfl, rfl, by decide +kernel, rfl, by decide, by simp [mineHandle, clubHandle]⟩

end Session

end Deli
