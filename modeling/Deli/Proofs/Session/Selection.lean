import Deli.Proofs.Service
import Deli.Proofs.Session.Registry

/-! What is told when no recipe can be selected. Whether there is a recipe goes by what has been
registered, but how this is told goes by whether the name counts as present, and the empty name does
not: for it a book is called empty that has recipes. -/

namespace Deli

namespace Session

variable {rs : List (Name × Value)} {book : Value} {w : World State} {asked : Option Name}

/-! ### Messages -/

/-- The message of a recipe that is not there. -/
def refusal : Option Name → String
  | none => "Recipe book is empty"
  | some n => if n = .whole "" then "Recipe book is empty" else "Recipe not found: " ++ n.text

theorem unselected_eq (asked : Option Name) : Book.unselected (Value.ofOption Name.value asked) =
    .recipe (refusal asked) (Value.ofOption Name.value asked) := by
  cases asked with
  | none => rfl
  | some n =>
    rw [Book.unselected, Value.ofOption, n.isPresent_value]
    by_cases hn : n = .whole "" <;> simp [refusal, hn, Name.text]

/-- A book is called empty when no name is asked for, and when the empty name is. -/
theorem refusal_eq_iff : refusal asked = "Recipe book is empty" ↔
    asked = none ∨ asked = some (.whole "") := by
  have hnamed (s : String) : "Recipe not found: " ++ s ≠ "Recipe book is empty" := by
    intro h
    have := congrArg String.toList h
    simp at this
  cases asked with
  | none => simp [refusal]
  | some n => by_cases hn : n = .whole "" <;> simp [refusal, hn, hnamed]

/-- Only the empty name is not told as it should be. -/
theorem refusal_eq_elim_iff :
    refusal asked = asked.elim "Recipe book is empty" (fun n => "Recipe not found: " ++ n.text) ↔
      asked ≠ some (.whole "") := by
  cases asked with
  | none => simp [refusal]
  | some n =>
    by_cases hn : n = .whole ""
    · subst hn
      simp only [refusal, ↓reduceIte, Option.elim_some, ne_eq, not_true_eq_false, iff_false]
      decide
    · simp [refusal, hn]

/-! ### Selecting in vain -/

/-- What is told when nothing is found for a name, or for none. -/
def missedLine (asked : Option Name) : Line := Book.refusalLine (Value.ofOption Name.value asked)

theorem Registry.result_select_eq_error (h : Registry book rs w)
    (hrecipes : ∀ p ∈ rs, p.2 ≠ .null) :
    (∃ e, (Use.select asked).result book w = .error e) ↔ found rs asked = none := by
  obtain ⟨heap, hselect, -⟩ := h.exec_select asked
  rw [Use.result, hselect, orNothing_chosen hrecipes]
  cases found rs asked with
  | some r => simp [selected]
  | none => simp [selected_none]

/-- The fault of a selection in vain is the one that says so, unless the terminal does not take what
is told about it. -/
theorem Registry.cause_of_select (h : Registry book rs w) {e : Fault}
    (he : (Use.select asked).result book w = .error e) :
    (w.Takes (missedLine asked) →
      e.cause = .recipe (refusal asked) (Value.ofOption Name.value asked)) ∧
    (¬ w.Takes (missedLine asked) → w.Refuses [missedLine asked] e) := by
  obtain ⟨heap, hselect, -⟩ := h.exec_select asked
  rw [Use.result, hselect] at he
  cases hchosen : orNothing (chosen (namesOf rs) (contentOf rs) asked) with
  | some r =>
    rw [hchosen] at he
    cases he
  | none =>
    rw [hchosen] at he
    cases hrefusal : w.terminal.refusal? (missedLine asked) with
    | none =>
      -- the terminal is the same on the larger heap
      have htakes : (w.over heap).Takes (missedLine asked) := hrefusal
      rw [selected, ← missedLine, World.telling_of_takes htakes] at he
      refine ⟨fun _ => ?_, fun hrefused => absurd hrefusal hrefused⟩
      rw [← unselected_eq, ← Except.error.inj he]
      rfl
    | some refusal =>
      have hrefused : (w.over heap).terminal.refusal? (missedLine asked) = some refusal := hrefusal
      rw [selected, ← missedLine, World.telling_of_refused hrefused] at he
      refine ⟨fun htakes => absurd (hrefusal.symm.trans htakes) (Option.some_ne_none _),
        fun _ => ⟨_, List.mem_singleton_self _, refusal, hrefusal, ?_⟩⟩
      rw [← Except.error.inj he]
      rfl

/-- However a book has been used, selecting fails where nothing is registered under the name, or
nothing at all when no name is given, and leaves all objects as they are. If the terminal takes what
is told about it, the fault has the name that was asked for, and its message has it too, unless it
is the empty name: this one is answered like no name, by calling the book empty. A service that is
set up with a name that its own book does not list closes with the same message. -/
theorem selection_fails_by_registrations {world : World State} (hworld : world.rest.heap.Unwritten)
    (uses : List Use) (hrecipes : ∀ p ∈ registrations uses, p.2 ≠ .null) :
    (∃ book w₀, Step.book.run.exec world = (.ok book, w₀) ∧
      let rs := registrations uses
      let w := afterUses book w₀ uses
      ∀ asked,
        ((∃ e, (Use.select asked).result book w = .error e) ↔ match asked with
          | none => rs = []
          | some n => n ∉ rs.map Prod.fst) ∧
        (∀ e, (Use.select asked).result book w = .error e →
          (w.Takes (missedLine asked) →
            e.cause = .recipe (refusal asked) (Value.ofOption Name.value asked) ∧
            (e.cause.message = "Recipe book is empty" → rs = [] ∨ asked = some (.whole "")) ∧
            (e.cause.message = asked.elim "Recipe book is empty" (fun n =>
              "Recipe not found: " ++ n.text) ↔ asked ≠ some (.whole ""))) ∧
          (¬ w.Takes (missedLine asked) → w.Refuses [missedLine asked] e)) ∧
        w.rest.heap.Extends ((Use.select asked).exec book w).2.rest.heap) ∧
    ∀ (docs : Documents) (env : Environment) (w w₁ : World Terminal) (c : Config) (n : Name),
      (Config.load docs env none).exec w = (.ok c, w₁) → c.NamesStyle → c.recipe = n.value →
      ¬ Book.house.Lists n.value → (∀ line ∈ Service.notices c, w₁.Takes line) →
      ∃ (e : Fault) (w₂ : World Terminal), (Service.run docs env).exec w =
          (.ok ⟨1, ""⟩, w₂.printed [Service.haltPanel e.cause]) ∧
        e.cause.message = refusal (some n) := by
  constructor
  · obtain ⟨book, w₀, hbook, h⟩ := Registry.of_uses hworld uses
    refine ⟨book, w₀, hbook, fun asked => ⟨?_, fun e he => ?_, h.extends_exec rfl⟩⟩
    · exact (h.result_select_eq_error hrecipes).trans found_eq_none
    · obtain ⟨htold, hrefused⟩ := h.cause_of_select he
      refine ⟨fun htakes => ?_, hrefused⟩
      have hcause := htold htakes
      have hmessage : e.cause.message = refusal asked := by
        rw [hcause]
        rfl
      refine ⟨hcause, fun hempty => ?_, by rw [hmessage, refusal_eq_elim_iff]⟩
      rw [hmessage] at hempty
      obtain rfl | hblank := refusal_eq_iff.mp hempty
      · have hnone := (h.result_select_eq_error hrecipes).mp ⟨e, he⟩
        exact .inl (found_eq_none.mp hnone)
      · exact .inr hblank
  · intro docs env w w₁ c n hload hstyle hn hlists htakes
    rw [← hn] at hlists
    have hc : c.WellMade := Config.wellMade_of_load hload
    -- with a technology that is known, only the recipe closes the kitchen
    obtain ⟨e, w₂, hserve, -, hcause⟩ :=
      Service.comesTo_serve_of_unknown hc (fun h => hlists h.2) w₁
    have he : e.cause = Book.unselected c.recipe := hcause hstyle
    have hrun : (Service.run docs env).exec w = (Service.serve c).exec w₁ := by
      rw [Service.run, Action.exec_bind, hload]
    refine ⟨e, w₂, hrun.trans (hserve.exec_of_takes htakes), ?_⟩
    have hcause := unselected_eq (some n)
    rw [Value.ofOption, ← hn, ← he] at hcause
    rw [hcause]
    rfl

/-- Names that nobody knows, in a book with one recipe and in a service. -/
theorem selection_fails_by_registrations_unknown :
    let a := Name.whole "a"
    let b := Name.whole "b"
    let uses := [.register a mineHandle]
    let docs : Documents := ⟨fun _ => .absent, fun _ => .ok .null, .whole "kitchen.yaml"⟩
    let env : Environment := ⟨none, none, some (.whole "soup")⟩
    World.initial.rest.heap.Unwritten ∧ (∀ p ∈ registrations uses, p.2 ≠ .null) ∧
    (∃ book w₀ e, Step.book.run.exec World.initial = (.ok book, w₀) ∧
      (Use.select (some b)).result book (afterUses book w₀ uses) = .error e ∧
      (afterUses book w₀ uses).Takes (missedLine (some b)) ∧
      e.cause = .recipe "Recipe not found: b" (.string "b")) ∧
    ∃ (e : Fault) (w₂ : World Terminal), (Service.run docs env).exec ⟨[], 0, .patient⟩ =
        (.ok ⟨1, ""⟩, w₂.printed [Service.haltPanel e.cause]) ∧
      e.cause.message = "Recipe not found: soup" := by
  intro a b uses docs env
  have hworld : World.initial.rest.heap.Unwritten := fun _ _ _ _ => rfl
  have hrs : registrations uses = [(a, mineHandle)] := rfl
  have hrecipes : ∀ p ∈ registrations uses, p.2 ≠ .null := by simp [hrs, mineHandle]
  obtain ⟨⟨book, w₀, hbook, hselect⟩, hservices⟩ :=
    selection_fails_by_registrations hworld uses hrecipes
  obtain ⟨hfails, hcause, -⟩ := hselect (some b)
  obtain ⟨e, he⟩ := hfails.mpr (by simp [hrs, a, b])
  have htakes : (afterUses book w₀ uses).Takes (missedLine (some b)) := by
    cases hbook
    rfl
  have hunlisted : ¬ Book.house.Lists (.string "soup") := by
    rintro (h | ⟨name, hname, h⟩)
    · cases h
    · cases h
      revert hname
      decide
  exact ⟨hworld, hrecipes, ⟨book, w₀, e, hbook, he, htakes, ((hcause e he).1 htakes).1⟩,
    hservices docs env _ _ ⟨.string "real", .string "soup", _, _⟩ (.whole "soup") rfl
      ⟨.real, rfl⟩ rfl hunlisted fun _ _ => rfl⟩

/-- The empty name is asked for where there is a recipe, and in the service of a document that has
it. -/
theorem empty_name_calls_book_empty :
    let uses := [.register (.whole "a") mineHandle]
    let docs : Documents := ⟨fun _ => .file "recipe: ''",
      fun _ => .ok (.mapping [(.string "recipe", .string "")]), .whole "kitchen.yaml"⟩
    let env : Environment := ⟨none, none, none⟩
    (∃ book w₀ e, Step.book.run.exec World.initial = (.ok book, w₀) ∧
      Use.length.result book (afterUses book w₀ uses) = .ok (.int 1) ∧
      (Use.select (some (.whole ""))).result book (afterUses book w₀ uses) = .error e ∧
      e.cause.message = "Recipe book is empty" ∧
      e.cause.message ≠ "Recipe not found: " ++ (Name.whole "").text) ∧
    Book.house.names.length = 2 ∧
    ((Service.run docs env).exec (⟨[], 0, ()⟩ : World Unit)).2.console.getLast? =
      some (.panel "[bold red]Recipe book is empty[/bold red]" "KITCHEN HALT" "red") :=
  ⟨⟨_, _, _, rfl, rfl, rfl, rfl, by decide⟩, rfl, by decide +kernel⟩

end Session

end Deli
