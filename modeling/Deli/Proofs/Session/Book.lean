import Deli.Proofs.Kitchen
import Deli.Proofs.Session.Held
import Mathlib.Data.List.Nodup

/-! A recipe book on the heap. It keeps its recipes in a mapping, which is an object of its own, and
whatever is done with the book is done with that mapping. Names are text of any kind, and text is
equal to the same text only, so looking a name up and putting a recipe under it come to what they
come to for a list of different names and a function that tells their recipes. -/

namespace Deli

/-! ### Names -/

namespace Name

variable (n k : Name)

theorem isKey_value : n.value.isKey = true := by cases n <;> rfl

/-- Only the empty text does not count as present. -/
theorem isPresent_value : n.value.isPresent = decide (n ≠ .whole "") := by
  cases n with
  | whole s => by_cases hs : s = "" <;> simp [value, Value.isPresent, hs]
  | halved codes h => simp [value, Value.isPresent]

theorem sameWith_value {m : Type → Type} [Monad m] (f : Handle → Handle → m Bool) :
    n.value.sameWith f k.value = pure (decide (n = k)) := by
  have hsome (s t : String) : ((some t : Option String) == some s) = decide (s = t) := by
    by_cases h : s = t
    · simp [h]
    · simp [h, Ne.symm h]
  have hcodes (xs ys : List Nat) : (xs == ys) = decide (xs = ys) := by
    by_cases h : xs = ys <;> simp [h]
  cases n with
  | whole s =>
    cases k with
    | whole t => simp [value, Value.sameWith, Value.word?, hsome]
    | halved codes h => simp [value, Value.sameWith, Value.word?]
  | halved codes h =>
    cases k with
    | whole t => simp [value, Value.sameWith]
    | halved codes' h' => simp [value, Value.sameWith, hcodes]

/-! Seeing a name takes no look at the objects. -/

open Session

theorem same_value : (Scene.same n.value k.value : Act Bool) = pure (decide (n = k)) := by
  have hsame : (Scene.same n.value k.value : Act Bool) =
      Act.seen fun heap => n.value.sameWith (heap.sameHandle depthLimit) k.value := rfl
  simp only [hsame, sameWith_value]
  rfl

theorem text_value : (Scene.text n.value : Act String) = pure n.text := by cases n <;> rfl

theorem isPresent_seen : (Scene.isPresent n.value : Act Bool) = pure (decide (n ≠ .whole "")) := by
  rw [← isPresent_value]
  cases n <;> rfl

end Name

namespace Session

/-! ### Recipes under names -/

variable {w : World State} {v : Value} {id recipes : Nat} {names : List Name}
  {recipe : Name → Value}

def entriesOf (names : List Name) (recipe : Name → Value) : List (Value × Value) :=
  names.map fun n => (n.value, recipe n)

theorem findM_entriesOf (names : List Name) (recipe : Name → Value) (n : Name) :
    (entriesOf names recipe).findM? (m := Act) (fun (k, _) => Scene.same n.value k) =
      pure (if n ∈ names then some (n.value, recipe n) else none) := by
  induction names with
  | nil => rfl
  | cons k names ih =>
    rw [entriesOf, List.map_cons, List.findM?, ← entriesOf, ih]
    simp only [Name.same_value, pure_bind]
    by_cases hk : n = k <;> simp [hk]

theorem exec_valueUnder (names : List Name) (recipe : Name → Value) (n : Name) (w : World State) :
    (valueUnder? (entriesOf names recipe) n.value).exec w =
      (.ok (if n ∈ names then some (recipe n) else none), w) := by
  rw [valueUnder?, if_pos n.isKey_value, findM_entriesOf, pure_bind, Action.exec_pure]
  split <;> rfl

/-- A new name comes after all others; an old one stays where it is. -/
theorem replaceUnder_entriesOf (hnames : names.Nodup) (recipe : Name → Value) (n : Name)
    (r : Value) :
    replaceUnder n.value r (entriesOf names recipe) =
      pure (entriesOf (if n ∈ names then names else names ++ [n])
        (Function.update recipe n r)) := by
  induction names with
  | nil => simp [entriesOf, replaceUnder]
  | cons k names ih =>
    obtain ⟨hk, hnodup⟩ := List.nodup_cons.mp hnames
    simp only [entriesOf, List.map_cons, replaceUnder, Name.same_value, pure_bind] at ih ⊢
    by_cases hkn : k = n
    · -- Behind the entry that is replaced the name does not come again.
      subst hkn
      have hother : names.map (fun m => (m.value, Function.update recipe k r m)) =
          names.map fun m => (m.value, recipe m) := by
        refine List.map_congr_left fun m hm => ?_
        rw [Function.update_of_ne (by rintro rfl; exact hk hm)]
      simp [hother]
    · have hmem : n ∈ k :: names ↔ n ∈ names := by simp [Ne.symm hkn]
      simp only [hkn, decide_false, Bool.false_eq_true, ↓reduceIte, ih hnodup, pure_bind, hmem]
      by_cases hn : n ∈ names <;> simp [hn, Function.update_of_ne hkn]

/-! ### Asking objects -/

@[simp] theorem Act.exec_allocate (o : Object) (w : World State) :
    (Act.allocate o).exec w = (.ok (w.rest.heap.next o), w.over (w.rest.heap.push o)) := rfl

/-- Methods of one kind have different names. -/
theorem Method.named?_ofKind {kind : Kind} {m : Method} (hm : m ∈ Method.ofKind kind) (id : Nat) :
    Method.named? (.handle ⟨kind, id⟩) m.name = some m := by
  have hnames : ∀ m ∈ Method.ofKind kind,
      (Method.ofKind kind).find? (·.name == m.name) = some m := by
    cases kind <;> decide
  exact hnames m hm

/-- An object that has no field under the name of a method of its kind runs the method. -/
theorem exec_invoke_object {h : Handle} {o : Object} {m : Method} (hheap : w.rest.heap.Unwritten)
    (ho : w.rest.heap.objects[h.id]? = some o) (hlacks : w.rest.heap.Lacks o m.name)
    (hm : m ∈ Method.ofKind h.kind) {arguments : Act (List Value)} {vs : List Value}
    (hvs : arguments.exec w = (.ok vs, w)) (depth : Nat) :
    (invoke (applyWithin (depth + 1)) (.handle h) m.name arguments).exec w =
      (m.run (applyWithin depth) (.handle h) vs).exec w :=
  exec_invoke (hheap.attribute? hm ho hlacks) (Method.named?_ofKind hm h.id) hvs

namespace Heap

theorem lacks_mapping (heap : Heap) (entries : List (Value × Value)) (m : Method) :
    heap.Lacks (.mapping entries) m.name := ⟨rfl, rfl⟩

theorem lacks_book (heap : Heap) (recipes : Value) (m : Method) :
    heap.Lacks (.book recipes) m.name := ⟨by cases m <;> rfl, rfl⟩

/-- A value names a book whose recipes are in the mapping under the number `recipes`. -/
structure HoldsBook (heap : Heap) (v : Value) (id recipes : Nat) (names : List Name)
    (recipe : Name → Value) : Prop where
  value : v = .handle ⟨.book, id⟩
  book : heap.objects[id]? = some (.book (.handle ⟨.mapping, recipes⟩))
  recipes : heap.objects[recipes]? = some (.mapping (entriesOf names recipe))

theorem Extends.holdsBook {heap heap' : Heap} (hle : heap.Extends heap')
    (h : heap.HoldsBook v id recipes names recipe) : heap'.HoldsBook v id recipes names recipe :=
  ⟨h.value, hle.objects h.book, hle.objects h.recipes⟩

/-- Other entries in the mapping of a book. -/
theorem HoldsBook.put {heap : Heap} (h : heap.HoldsBook v id recipes names recipe)
    (names' : List Name) (recipe' : Name → Value) :
    (heap.put recipes (.mapping (entriesOf names' recipe'))).HoldsBook v id recipes names'
      recipe' where
  value := h.value
  book := by
    have hne : id ≠ recipes := by
      rintro rfl
      cases h.book.symm.trans h.recipes
    rw [getElem?_put_of_ne hne, h.book]
  recipes := getElem?_put h.recipes _

end Heap

section Mapping

variable {entries : List (Value × Value)} (hheap : w.rest.heap.Unwritten)
  (hentries : w.rest.heap.objects[recipes]? = some (.mapping entries)) (depth : Nat)
include hheap hentries

theorem exec_ask_mapping {m : Method} (hm : m ∈ Method.ofKind .mapping) (vs : List Value) :
    (ask (applyWithin (depth + 1)) (.handle ⟨.mapping, recipes⟩) m vs).exec w =
      (m.runMapping (items (applyWithin depth)) (.handle ⟨.mapping, recipes⟩) entries vs).exec w
    := by
  have hobject : w.rest.heap.object? (.handle ⟨.mapping, recipes⟩) = some (.mapping entries) :=
    hentries
  rw [ask, exec_invoke_object hheap hentries (Heap.lacks_mapping _ _ _) hm
    (Action.exec_pure _ _), Method.run]
  simp only [Action.exec_bind, Act.exec_object?, hobject]

theorem exec_keys :
    (ask (applyWithin (depth + 1)) (.handle ⟨.mapping, recipes⟩) .keys []).exec w =
      (Act.allocate (.list (entries.map Prod.fst))).exec w :=
  exec_ask_mapping hheap hentries depth (by decide) []

theorem exec_values :
    (ask (applyWithin (depth + 1)) (.handle ⟨.mapping, recipes⟩) .values []).exec w =
      (Act.allocate (.list (entries.map Prod.snd))).exec w :=
  exec_ask_mapping hheap hentries depth (by decide) []

end Mapping

/-! ### Asking a book -/

/-- What a book has for a name, or for nothing, which stands for the first name. -/
def chosen (names : List Name) (recipe : Name → Value) : Option Name → Value
  | none => (names.map recipe).headD .null
  | some n => if n ∈ names then recipe n else .null

/-- What comes of a selection: the recipe that has been found, or, when this has been told, a fault
that says what was asked for. -/
def selected (asked : Option Name) (found : Option Value) (w : World State) :
    Except Fault Value × World State :=
  let asked := Value.ofOption Name.value asked
  match found with
  | some recipe => (.ok recipe, w)
  | none =>
    w.telling (Book.refusalLine asked) fun w =>
      (.error (.mk w.nextFault (Book.unselected asked)), w.faulted)

theorem heap_selected (asked : Option Name) (found : Option Value) (w : World State) :
    (selected asked found w).2.rest.heap = w.rest.heap := by
  cases found with
  | some recipe => rfl
  | none =>
    simp only [selected]
    rw [World.rest_telling (ω := State) fun _ => rfl]

/-- Told or refused, a selection in vain raises a fault. -/
theorem selected_none (asked : Option Name) (w : World State) :
    ∃ e, (selected asked none w).1 = .error e := by
  simp only [selected, World.telling]
  split <;> exact ⟨_, rfl⟩

section Book

variable (h : w.rest.heap.HoldsBook v id recipes names recipe)
include h

/-- A book does nothing by itself. -/
theorem exec_run_book (depth : Nat) (m : Method) (vs : List Value) :
    (m.run (applyWithin depth) v vs).exec w =
      (m.runBook (applyWithin depth) (.handle ⟨.mapping, recipes⟩) vs).exec w := by
  have hobject : w.rest.heap.object? (.handle ⟨.book, id⟩) =
      some (.book (.handle ⟨.mapping, recipes⟩)) := h.book
  rw [h.value, Method.run]
  simp only [Action.exec_bind, Act.exec_object?, hobject]

theorem length_book : w.rest.heap.length v = .ok names.length := by
  have hlength : w.rest.heap.length v = .ok (entriesOf names recipe).length := by
    simp only [h.value, Heap.length, depthLimit, Heap.lengthWithin, Heap.object?, h.book,
      h.recipes, Heap.shallow]
    rfl
  rw [hlength, entriesOf, List.length_map]

/-- The recipe is in its place before anything is told. -/
theorem exec_register (hnames : names.Nodup) (depth : Nat) (n : Name) (r : Value) :
    (Method.register.run (applyWithin (depth + 1)) v [n.value, r]).exec w =
      (w.over (w.rest.heap.put recipes (.mapping
        (entriesOf (if n ∈ names then names else names ++ [n])
          (Function.update recipe n r))))).telling (Book.registeredLine n.text)
            fun w => (.ok .null, w) := by
  have hobject : w.rest.heap.object? (.handle ⟨.mapping, recipes⟩) =
      some (.mapping (entriesOf names recipe)) := h.recipes
  have htell (w : World State) : (do Book.tellRegistered n.text; pure .null : Act Value).exec w =
      w.telling (Book.registeredLine n.text) fun w => (.ok .null, w) := Action.exec_tell_bind _ _ _
  simp only [Action.exec_bind, Action.exec_pure] at htell
  rw [exec_run_book h, Method.runBook]
  simp only [Action.exec_bind, setSubscript, Act.exec_object?, hobject, withUnder, n.isKey_value,
    ↓reduceIte, replaceUnder_entriesOf hnames, Action.exec_pure, Act.exec_replace,
    Name.text_value, htell]

variable (hheap : w.rest.heap.Unwritten) (depth : Nat)
include hheap

theorem exec_invoke_book {m : Method} (hm : m ∈ Method.ofKind .book) {arguments : Act (List Value)}
    {vs : List Value} (hvs : arguments.exec w = (.ok vs, w)) :
    (invoke (applyWithin (depth + 1)) v m.name arguments).exec w =
      (m.run (applyWithin depth) v vs).exec w := by
  rw [h.value]
  exact exec_invoke_object hheap h.book (Heap.lacks_book _ _ _) hm hvs depth

theorem exec_get (n : Name) :
    (Method.get.run (applyWithin (depth + 1)) v [n.value]).exec w =
      (.ok (chosen names recipe (some n)), w) := by
  rw [exec_run_book h, Method.runBook, exec_ask_mapping hheap h.recipes depth (by decide)]
  simp only [Method.runMapping, Action.exec_bind, exec_valueUnder, Action.exec_pure, chosen]
  split <;> rfl

/-- All recipes are put in a list, to take the first one. -/
theorem exec_first :
    (Method.first.run (applyWithin (depth + 1)) v []).exec w =
      (.ok (chosen names recipe none), w.over (w.rest.heap.push (.list (names.map recipe)))) := by
  have hrecipes : (entriesOf names recipe).map Prod.snd = names.map recipe := by simp [entriesOf]
  rw [exec_run_book h, Method.runBook]
  simp only [Action.exec_bind, exec_values hheap h.recipes, Act.exec_allocate, hrecipes, Heap.next,
    Object.kind]
  rw [exec_items (Heap.getElem?_push_size _ _)]
  rfl

/-- The names are put in a list, and then in a new one. -/
theorem exec_list :
    ∃ list heap, (Method.listRecipes.run (applyWithin (depth + 1)) v []).exec w =
        (.ok (.handle ⟨.list, list⟩), w.over heap) ∧ w.rest.heap.Extends heap ∧
      heap.objects[list]? = some (.list (names.map Name.value)) := by
  have hnames : (entriesOf names recipe).map Prod.fst = names.map Name.value := by
    simp [entriesOf]
  rw [exec_run_book h, Method.runBook]
  simp only [Action.exec_bind, exec_keys hheap h.recipes, Act.exec_allocate, hnames, Heap.next,
    Object.kind]
  rw [exec_items (Heap.getElem?_push_size _ _)]
  exact ⟨_, _, rfl, (Heap.Extends.push _ _).trans (.push _ _), Heap.getElem?_push_size _ _⟩

/-! ### Selecting -/

/-- The recipe asked for is found, or nothing is; the objects there are stay as they are. -/
theorem exec_find_recipe (asked : Option Name) :
    ∃ heap, w.rest.heap.Extends heap ∧
      (Book.find? (do pure (orNothing (← ask (applyWithin (depth + 2)) v .first [])))
        (fun name => do pure (orNothing (← ask (applyWithin (depth + 2)) v .get [name])))
        (Value.ofOption Name.value asked)).exec w =
      (.ok (orNothing (chosen names recipe asked)), w.over heap) := by
  have hask {m : Method} (hm : m ∈ Method.ofKind .book) (vs : List Value) :
      (ask (applyWithin (depth + 2)) v m vs).exec w =
        (m.run (applyWithin (depth + 1)) v vs).exec w :=
    exec_invoke_book h hheap _ hm (Action.exec_pure _ _)
  cases asked with
  | none =>
    refine ⟨_, .push _ (.list (names.map recipe)), ?_⟩
    have hfirst := (hask (by decide) []).trans (exec_first h hheap depth)
    simp only [Value.ofOption, Book.find?, Action.exec_bind, hfirst, Action.exec_pure]
  | some n =>
    refine ⟨_, .refl _, ?_⟩
    have hget := (hask (by decide) [n.value]).trans (exec_get h hheap depth n)
    have hname (first : Act (Option Value)) (get : Value → Act (Option Value)) :
        Book.find? first get n.value = get n.value := by cases n <;> rfl
    rw [Value.ofOption, hname]
    simp only [Action.exec_bind, hget, Action.exec_pure]
    rfl

theorem exec_selectFrom (asked : Option Name) :
    ∃ heap, w.rest.heap.Extends heap ∧
      (selectFrom (applyWithin (depth + 2)) v (Value.ofOption Name.value asked)).exec w =
        selected asked (orNothing (chosen names recipe asked)) (w.over heap) := by
  obtain ⟨heap, hextends, hfind⟩ := exec_find_recipe h hheap depth asked
  refine ⟨heap, hextends, ?_⟩
  have hpresent : (Scene.isPresent (Value.ofOption Name.value asked) : Act Bool) =
      pure (Value.ofOption Name.value asked).isPresent := by
    cases asked with
    | none => rfl
    | some n => rw [Value.ofOption, n.isPresent_seen, n.isPresent_value]
  have htext : (Scene.text (Value.ofOption Name.value asked) : Act String) =
      pure (Value.ofOption Name.value asked).text := by
    cases asked with
    | none => rfl
    | some n => exact n.text_value
  rw [selectFrom, Book.selectFrom, Action.exec_bind, hfind]
  cases orNothing (chosen names recipe asked) with
  | some r => rfl
  | none =>
    simp only [hpresent, htext, pure_bind]
    exact Action.exec_tell_bind _ _ _

end Book

end Session

end Deli
