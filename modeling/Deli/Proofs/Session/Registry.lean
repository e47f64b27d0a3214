import Deli.Proofs.Session.Book
import Mathlib.Data.List.Induction

/-! A recipe book in use. Recipes are registered in it, under new names and old ones, and between
these it is asked in every way there is. The order of its names is that of first registrations, what
stands under a name is what was registered last, and nothing but a registration changes it. -/

namespace Deli.Session

variable {rs : List (Name × Value)} {n : Name} {r : Value}

/-! ### Registrations -/

/-- The different names of registrations, each where it comes first. -/
def namesOf (rs : List (Name × Value)) : List Name := (rs.map Prod.fst).eraseDups

/-- What was registered last under a name. -/
def recipeOf (rs : List (Name × Value)) (n : Name) : Option Value := rs.reverse.lookup n

/-- What a name stands for, or, for no name, what the first name stands for. -/
def found (rs : List (Name × Value)) (asked : Option Name) : Option Value :=
  (asked.or (namesOf rs).head?).bind (recipeOf rs)

theorem found_some (rs : List (Name × Value)) (n : Name) : found rs (some n) = recipeOf rs n := rfl

def contentOf (rs : List (Name × Value)) (n : Name) : Value := (recipeOf rs n).getD .null

theorem mem_namesOf : n ∈ namesOf rs ↔ n ∈ rs.map Prod.fst := List.mem_eraseDups

theorem namesOf_append (rs : List (Name × Value)) (n : Name) (r : Value) :
    namesOf (rs ++ [(n, r)]) = if n ∈ namesOf rs then namesOf rs else namesOf rs ++ [n] := by
  rw [namesOf, List.map_append, List.eraseDups_append, ← namesOf]
  by_cases hn : n ∈ namesOf rs
  · have hmem := mem_namesOf.mp hn
    simp [List.removeAll, hn, List.mem_map.mp hmem]
  · have hmem := mt mem_namesOf.mpr hn
    simp [List.removeAll, hn, hmem, List.eraseDups_cons]

theorem nodup_namesOf (rs : List (Name × Value)) : (namesOf rs).Nodup := by
  induction rs using List.reverseRecOn with
  | nil => exact List.nodup_nil
  | append_singleton rs p ih =>
    obtain ⟨n, r⟩ := p
    rw [namesOf_append]
    split
    next => exact ih
    next hn => exact List.concat_eq_append ▸ ih.concat hn

theorem recipeOf_append (rs : List (Name × Value)) (n : Name) (r : Value) :
    recipeOf (rs ++ [(n, r)]) = Function.update (recipeOf rs) n (some r) := by
  funext k
  rw [recipeOf, List.reverse_append, List.reverse_singleton, List.singleton_append,
    List.lookup_cons, Function.update_apply]
  by_cases hk : k = n
  · simp [hk]
  · rw [beq_false_of_ne hk, if_neg hk, recipeOf]

theorem contentOf_append (rs : List (Name × Value)) (n : Name) (r : Value) :
    contentOf (rs ++ [(n, r)]) = Function.update (contentOf rs) n r := by
  funext k
  rw [contentOf, recipeOf_append]
  by_cases hk : k = n
  · subst hk
    rw [Function.update_self, Function.update_self, Option.getD_some]
  · rw [Function.update_of_ne hk, Function.update_of_ne hk, contentOf]

theorem recipeOf_eq_none : recipeOf rs n = none ↔ n ∉ namesOf rs := by
  rw [recipeOf, List.lookup_eq_none_iff, mem_namesOf, List.mem_map]
  constructor
  · rintro hnone ⟨p, hp, rfl⟩
    simpa using hnone p (List.mem_reverse.mpr hp)
  · intro hn p hp
    exact bne_iff_ne.mpr fun hne => hn ⟨p, List.mem_reverse.mp hp, hne.symm⟩

theorem namesOf_eq_nil : namesOf rs = [] ↔ rs = [] := by
  cases rs with
  | nil => simp [namesOf]
  | cons p rs => simp [namesOf, List.eraseDups_cons]

/-- What a book has for a name, or for none, is what is found, or nothing. -/
theorem chosen_eq (rs : List (Name × Value)) (asked : Option Name) :
    chosen (namesOf rs) (contentOf rs) asked = (found rs asked).getD .null := by
  cases asked with
  | none =>
    rw [chosen, found, Option.none_or]
    cases namesOf rs with
    | nil => rfl
    | cons n names => rfl
  | some n =>
    rw [chosen, found_some]
    split
    next => rfl
    next hn => rw [recipeOf_eq_none.mpr hn, Option.getD_none]

theorem ne_null_of_found {asked : Option Name} (hrecipes : ∀ p ∈ rs, p.2 ≠ .null)
    (h : found rs asked = some r) : r ≠ .null := by
  obtain ⟨n, -, hn⟩ := Option.bind_eq_some_iff.mp h
  obtain ⟨l₁, l₂, hl, -⟩ := List.lookup_eq_some_iff.mp hn
  exact hrecipes (n, r) (List.mem_reverse.mp (by simp [hl]))

theorem orNothing_chosen (hrecipes : ∀ p ∈ rs, p.2 ≠ .null) (asked : Option Name) :
    orNothing (chosen (namesOf rs) (contentOf rs) asked) = found rs asked := by
  rw [chosen_eq]
  cases hfound : found rs asked with
  | none => rfl
  | some r =>
    have hr := ne_null_of_found hrecipes hfound
    cases r <;> first | rfl | exact absurd rfl hr

theorem getD_found_eq_null {asked : Option Name} (hrecipes : ∀ p ∈ rs, p.2 ≠ .null) :
    (found rs asked).getD .null = .null ↔ found rs asked = none := by
  cases hfound : found rs asked with
  | none => simp
  | some r => simp [ne_null_of_found hrecipes hfound]

/-- Nothing is found under names that were not registered, and where there are none. -/
theorem found_eq_none {asked : Option Name} :
    found rs asked = none ↔ match asked with
      | none => rs = []
      | some n => n ∉ rs.map Prod.fst := by
  cases asked with
  | some n => rw [found_some, recipeOf_eq_none, mem_namesOf]
  | none =>
    rw [found, Option.none_or, ← namesOf_eq_nil]
    cases hnames : namesOf rs with
    | nil => simp
    | cons n names =>
      have hn : recipeOf rs n ≠ none := by
        rw [Ne, recipeOf_eq_none, hnames]
        simp
      simp [hn]

/-! ### A book in use -/

/-- What can be done with a book. -/
inductive Use where
  | register (n : Name) (recipe : Value)
  | get (n : Name)
  | list
  | first
  | length
  | select (asked : Option Name)

namespace Use

def step (book : Value) : Use → Step
  | register n recipe =>
    .call (.value book) Method.register.name [.value (.value n.value), .value (.value recipe)]
  | get n => .call (.value book) Method.get.name [.value (.value n.value)]
  | list => .call (.value book) Method.listRecipes.name []
  | first => .call (.value book) Method.first.name []
  | length => .length (.value book)
  | select asked => .select (.value book) (asked.map fun n => .value n.value)

def exec (u : Use) (book : Value) (w : World State) : Except Fault Value × World State :=
  (u.step book).run.exec w

def result (u : Use) (book : Value) (w : World State) : Except Fault Value := (u.exec book w).1

/-- A registration has a name and a recipe, and nothing else that is done has. -/
def registered? : Use → Option (Name × Value)
  | register n recipe => some (n, recipe)
  | _ => none

end Use

/-- The registrations among the uses of a book, in order. -/
def registrations (uses : List Use) : List (Name × Value) := uses.filterMap Use.registered?

theorem registrations_append (xs ys : List Use) :
    registrations (xs ++ ys) = registrations xs ++ registrations ys := List.filterMap_append

/-- The world after a book has been used. -/
def afterUses (book : Value) (w : World State) (uses : List Use) : World State :=
  uses.foldl (fun w u => (u.exec book w).2) w

/-- A book that has what has been registered, and nothing else. -/
structure Registry (book : Value) (rs : List (Name × Value)) (w : World State) : Prop where
  unwritten : w.rest.heap.Unwritten
  holds : ∃ id recipes, w.rest.heap.HoldsBook book id recipes (namesOf rs) (contentOf rs)

namespace Registry

variable {book : Value} {w : World State}

theorem of_extends {w' : World State} (h : Registry book rs w)
    (hheap : w.rest.heap.Extends w'.rest.heap) : Registry book rs w' where
  unwritten := hheap.unwritten h.unwritten
  holds := by
    obtain ⟨id, recipes, hholds⟩ := h.holds
    exact ⟨id, recipes, hheap.holdsBook hholds⟩

section Uses

variable (h : Registry book rs w)
include h

theorem exec_call {m : Method} (hm : m ∈ Method.ofKind .book) {arguments : List Argument}
    {vs : List Value} (hvs : (arguments.mapM Step.evalArgument).exec w = (.ok vs, w)) :
    (Step.call (.value book) m.name arguments).run.exec w =
      (m.run (applyWithin 999) book vs).exec w := by
  obtain ⟨id, recipes, hholds⟩ := h.holds
  exact exec_invoke_book hholds h.unwritten 999 hm hvs

/-- Whether the terminal shows it or not, what is registered is in the book. -/
theorem next_register (n : Name) (r : Value) :
    Registry book (rs ++ [(n, r)]) ((Use.register n r).exec book w).2 := by
  obtain ⟨id, recipes, hholds⟩ := h.holds
  have hput := hholds.put (namesOf (rs ++ [(n, r)])) (contentOf (rs ++ [(n, r)]))
  have hregister : (Use.register n r).exec book w = _ :=
    (h.exec_call (m := .register) (by decide) rfl).trans
      (Session.exec_register hholds (nodup_namesOf rs) 998 n r)
  rw [← namesOf_append, ← contentOf_append] at hregister
  have hrest : ((Use.register n r).exec book w).2.rest = _ :=
    (congrArg (·.2.rest) hregister).trans (World.rest_telling fun _ => rfl)
  refine Registry.of_extends (w := w.over (w.rest.heap.put recipes _))
    ⟨h.unwritten, id, recipes, hput⟩ ?_
  rw [hrest]
  exact .refl _

theorem exec_get (n : Name) : (Use.get n).exec book w = (.ok (contentOf rs n), w) := by
  obtain ⟨id, recipes, hholds⟩ := h.holds
  have hget := Session.exec_get hholds h.unwritten 998 n
  rw [chosen_eq] at hget
  exact (h.exec_call (m := .get) (by decide) rfl).trans hget

theorem exec_list :
    ∃ list heap, Use.list.exec book w = (.ok (.handle ⟨.list, list⟩), w.over heap) ∧
      w.rest.heap.Extends heap ∧
      heap.objects[list]? = some (.list ((namesOf rs).map Name.value)) := by
  obtain ⟨id, recipes, hholds⟩ := h.holds
  obtain ⟨list, heap, hlist, hheap⟩ := Session.exec_list hholds h.unwritten 998
  exact ⟨list, heap, (h.exec_call (m := .listRecipes) (by decide) rfl).trans hlist, hheap⟩

theorem exec_first :
    ∃ heap, Use.first.exec book w = (.ok ((found rs none).getD .null), w.over heap) ∧
      w.rest.heap.Extends heap := by
  obtain ⟨id, recipes, hholds⟩ := h.holds
  have hfirst := Session.exec_first hholds h.unwritten 998
  rw [chosen_eq] at hfirst
  exact ⟨_, (h.exec_call (m := .first) (by decide) rfl).trans hfirst, .push _ _⟩

theorem exec_length : Use.length.exec book w = (.ok (.int (namesOf rs).length), w) := by
  obtain ⟨id, recipes, hholds⟩ := h.holds
  have hrun : (Use.length.step book).run =
      (do pure (.int (← Act.seen (·.length book))) : Act Value) := rfl
  rw [Use.exec, hrun]
  simp only [Action.exec_bind, Act.exec_seen, length_book hholds, Action.exec_ofExcept_ok,
    Action.exec_pure]

theorem exec_select (asked : Option Name) :
    ∃ heap, (Use.select asked).exec book w =
        selected asked (orNothing (chosen (namesOf rs) (contentOf rs) asked)) (w.over heap) ∧
      w.rest.heap.Extends heap := by
  obtain ⟨id, recipes, hholds⟩ := h.holds
  obtain ⟨heap, hheap, hselect⟩ := exec_selectFrom hholds h.unwritten 998 asked
  -- No name is given as no argument at all.
  have hrun : ((Use.select asked).step book).run =
      selectFrom apply book (Value.ofOption Name.value asked) := by
    cases asked <;> rfl
  rw [Use.exec, hrun]
  exact ⟨heap, hselect, hheap⟩

/-- What is no registration changes no object, whether it succeeds or not. -/
theorem extends_exec {u : Use} (hu : u.registered? = none) :
    w.rest.heap.Extends (u.exec book w).2.rest.heap := by
  cases u with
  | register n r => cases hu
  | get n =>
    rw [h.exec_get]
    exact .refl _
  | list =>
    obtain ⟨list, heap, hlist, hheap, -⟩ := h.exec_list
    rw [hlist]
    exact hheap
  | first =>
    obtain ⟨heap, hfirst, hheap⟩ := h.exec_first
    rw [hfirst]
    exact hheap
  | length =>
    rw [h.exec_length]
    exact .refl _
  | select asked =>
    obtain ⟨heap, hselect, hheap⟩ := h.exec_select asked
    rw [hselect, heap_selected]
    exact hheap

theorem next (u : Use) : Registry book (rs ++ registrations [u]) (u.exec book w).2 := by
  cases hu : u.registered? with
  | none =>
    have hsame : rs ++ registrations [u] = rs := by simp [registrations, hu]
    rw [hsame]
    exact h.of_extends (h.extends_exec hu)
  | some p =>
    cases u with
    | register n r => exact h.next_register n r
    | _ => cases hu

theorem after (uses : List Use) :
    Registry book (rs ++ registrations uses) (afterUses book w uses) := by
  -- What has been registered so far is generalized: each use adds its own at the end.
  induction uses generalizing rs w with
  | nil => exact (List.append_nil rs).symm ▸ h
  | cons u uses ih =>
    have hrest := ih (h.next u)
    rwa [List.append_assoc, ← registrations_append] at hrest

end Uses

theorem exec_book (hw : w.rest.heap.Unwritten) :
    ∃ book w₀, Step.book.run.exec w = (.ok book, w₀) ∧ Registry book [] w₀ := by
  have hmapping := Heap.getElem?_push_size w.rest.heap (.mapping [])
  refine ⟨_, _, rfl, ((Heap.Extends.push _ _).trans (.push _ _)).unwritten hw,
    _, w.rest.heap.objects.size, rfl, Heap.getElem?_push_size _ _, Heap.getElem?_push hmapping _⟩

/-- A new book, and whatever has been done with it. -/
theorem of_uses (hw : w.rest.heap.Unwritten) (uses : List Use) :
    ∃ book w₀, Step.book.run.exec w = (.ok book, w₀) ∧
      Registry book (registrations uses) (afterUses book w₀ uses) := by
  obtain ⟨book, w₀, hbook, h⟩ := exec_book hw
  exact ⟨book, w₀, hbook, h.after uses⟩

end Registry

/-- A book lists names, in a list of its own. -/
def Lists (book : Value) (names : List Name) (w : World State) : Prop :=
  ∃ list heap, Use.list.exec book w = (.ok (.handle ⟨.list, list⟩), w.over heap) ∧
    heap.objects[list]? = some (.list (names.map Name.value))

namespace Registry

section Answers

variable {book : Value} {w : World State} (h : Registry book rs w)
include h

theorem lists : Lists book (namesOf rs) w := by
  obtain ⟨list, heap, hlist, -, hitems⟩ := h.exec_list
  exact ⟨list, heap, hlist, hitems⟩

theorem result_get (n : Name) : (Use.get n).result book w = .ok ((recipeOf rs n).getD .null) := by
  rw [Use.result, h.exec_get, contentOf]

theorem result_first : Use.first.result book w = .ok ((found rs none).getD .null) := by
  obtain ⟨heap, hfirst, -⟩ := h.exec_first
  rw [Use.result, hfirst]

theorem result_length : Use.length.result book w = .ok (.int (namesOf rs).length) := by
  rw [Use.result, h.exec_length]

theorem result_select_eq_ok (hrecipes : ∀ p ∈ rs, p.2 ≠ .null) {asked : Option Name} :
    (Use.select asked).result book w = .ok r ↔ found rs asked = some r := by
  obtain ⟨heap, hselect, -⟩ := h.exec_select asked
  rw [Use.result, hselect, orNothing_chosen hrecipes]
  cases found rs asked with
  | some r => simp [selected]
  | none =>
    obtain ⟨e, he⟩ := selected_none asked (w.over heap)
    simp [he]

end Answers

end Registry

/-- Whatever is done with a new book, its names are those of the registrations in the order in which
they first came, each once, and under each of them is what was registered last. The first recipe is
that of the first name, and is selected without a name as with this one; when it is registered
anew, its name stays where it is. What is no registration leaves all objects as they are. -/
theorem book_goes_by_registrations {world : World State} (hworld : world.rest.heap.Unwritten)
    (uses : List Use) (hrecipes : ∀ p ∈ registrations uses, p.2 ≠ .null) :
    ∃ book w₀, Step.book.run.exec world = (.ok book, w₀) ∧
      let rs := registrations uses
      let w := afterUses book w₀ uses
      (namesOf rs).Nodup ∧ Lists book (namesOf rs) w ∧
      Use.length.result book w = .ok (.int (namesOf rs).length) ∧
      (∀ n, (Use.get n).result book w = .ok ((recipeOf rs n).getD .null) ∧
        ((Use.get n).result book w = .ok .null ↔ n ∉ rs.map Prod.fst)) ∧
      (Use.first.result book w = .ok .null ↔ rs = []) ∧
      (∀ n ∈ (namesOf rs).head?, ∃ r, recipeOf rs n = some r ∧
        Use.first.result book w = .ok r ∧ (Use.get n).result book w = .ok r ∧
        (Use.select none).result book w = .ok r ∧ (Use.select (some n)).result book w = .ok r ∧
        ∀ new, let w' := ((Use.register n new).exec book w).2
          Lists book (namesOf rs) w' ∧ Use.first.result book w' = .ok new) ∧
      ∀ u : Use, u.registered? = none → w.rest.heap.Extends (u.exec book w).2.rest.heap := by
  obtain ⟨book, w₀, hbook, h⟩ := Registry.of_uses hworld uses
  refine ⟨book, w₀, hbook, nodup_namesOf _, h.lists, h.result_length, fun n => ⟨h.result_get n, ?_⟩,
    ?_, fun n hn => ?_, fun u hu => h.extends_exec hu⟩
  · rw [h.result_get, Except.ok.injEq, ← found_some, getD_found_eq_null hrecipes]
    exact found_eq_none
  · rw [h.result_first, Except.ok.injEq, getD_found_eq_null hrecipes]
    exact found_eq_none
  · have hhead : (namesOf (registrations uses)).head? = some n := hn
    have hmem : n ∈ namesOf (registrations uses) := List.mem_of_mem_head? hn
    obtain ⟨r, hr⟩ := Option.ne_none_iff_exists'.mp (mt recipeOf_eq_none.mp (not_not.mpr hmem))
    have hfound : found (registrations uses) none = some r := by
      rw [found, Option.none_or, hhead, Option.bind_some, hr]
    refine ⟨r, hr, ?_, ?_, (h.result_select_eq_ok hrecipes).mpr hfound,
      (h.result_select_eq_ok hrecipes).mpr hr, fun new => ?_⟩
    · rw [h.result_first, hfound, Option.getD_some]
    · rw [h.result_get, hr, Option.getD_some]
    · -- The first name is in the list already, so a registration under it moves nothing.
      have hnext := h.next_register n new
      have hsame : namesOf (registrations uses ++ [(n, new)]) = namesOf (registrations uses) := by
        rw [namesOf_append, if_pos hmem]
      have hnew : found (registrations uses ++ [(n, new)]) none = some new := by
        rw [found, Option.none_or, hsame, hhead, Option.bind_some, recipeOf_append,
          Function.update_self]
      refine ⟨hsame ▸ hnext.lists, ?_⟩
      rw [hnext.result_first, hnew, Option.getD_some]

/-- Names that are registered twice, with other uses of the book in between. -/
theorem book_goes_by_registrations_twice :
    let a := Name.whole "a"
    let b := Name.whole ""
    let uses := [.register a mineHandle, .select (some b), .register b clubHandle, .list,
      .register a clubHandle, .first, .register b mineHandle, .get a]
    let rs := [(a, mineHandle), (b, clubHandle), (a, clubHandle), (b, mineHandle)]
    World.initial.rest.heap.Unwritten ∧ registrations uses = rs ∧ (∀ p ∈ rs, p.2 ≠ .null) ∧
    ∃ book w₀, Step.book.run.exec World.initial = (.ok book, w₀) ∧
      let w := afterUses book w₀ uses
      Lists book [a, b] w ∧ Use.length.result book w = .ok (.int 2) ∧
        (Use.get a).result book w = .ok clubHandle ∧ (Use.get b).result book w = .ok mineHandle ∧
        Use.first.result book w = .ok clubHandle ∧
        (Use.select none).result book w = .ok clubHandle := by
  intro a b uses rs
  have hworld : World.initial.rest.heap.Unwritten := fun _ _ _ _ => rfl
  have hrs : registrations uses = rs := rfl
  have hrecipes : ∀ p ∈ rs, p.2 ≠ .null := by simp [rs, mineHandle, clubHandle]
  have hnames : namesOf rs = [a, b] := by simp [rs, a, b, namesOf, List.eraseDups_cons]
  obtain ⟨book, w₀, hbook, hanswers⟩ := book_goes_by_registrations hworld uses hrecipes
  simp only [hrs, hnames] at hanswers
  obtain ⟨-, hlist, hlength, hget, -, hhead, -⟩ := hanswers
  obtain ⟨r, hr, hfirst, -, hselect, -⟩ := hhead a rfl
  cases hr
  exact ⟨hworld, rfl, hrecipes, book, w₀, hbook, hlist, hlength, (hget a).1, (hget b).1,
    hfirst, hselect⟩

end Deli.Session
