import Deli.Kitchen
import Deli.Proofs.Config
import Deli.Proofs.Dish

/-! What happens in a kitchen: a recipe is looked up in the book, announced and run, and what came
of it is told. The technology is chosen by its name, and whatever a kitchen is set up with, it is
either refused by name or cooks to the end. -/

namespace Deli

variable {ω : Type}

/-! ### Cooking with any book -/

namespace Book

variable {α : Type} [Scene ω] [HasTerminal ω]

/-- The name that a recipe is announced by. -/
def nameFor (first : Action ω String) (asked : Value) : Action ω String := do
  if ← Scene.isPresent asked then Scene.text asked else first

/-- A recipe that has been announced: it is run, and what came of it is told. -/
def carryOut (run : α → Action ω Value) (error : Value → Action ω Value) (recipe : α) :
    Action ω Value := do
  let result ← run recipe
  if ← Scene.isSuccess result then Action.print "[green][KITCHEN] Sandwich ready[/green]"
  else
    let text ← Scene.text (← error result)
    Action.tell (.text ("[red][KITCHEN] Sandwich failed: " ++ text ++ "[/red]"))
  pure result

theorem cookFrom_eq (select : Value → Action ω α) (first : Action ω String)
    (run : α → Action ω Value) (error : Value → Action ω Value) (asked : Value) :
    cookFrom select first run error asked = (do
      let recipe ← select asked
      let name ← nameFor first asked
      Action.tell (.text ("[cyan][KITCHEN] Cooking: " ++ name ++ "[/cyan]"))
      carryOut run error recipe) := by
  -- The name is chosen by a branch, and either side goes on in the same way.
  simp only [nameFor, bind_assoc]
  refine congrArg (select asked >>= ·) (funext fun recipe => ?_)
  refine congrArg (Scene.isPresent asked >>= ·) (funext fun present => ?_)
  cases present <;> rfl

end Book

/-! ### Selecting a recipe -/

section Plain

attribute [local instance] Scene.plain

namespace Book

variable {α : Type} (b : Book α) (asked : Value)

/-- The recipe that is selected, if there is one. -/
def selected? : Option α :=
  match asked with
  | .null => b.first?
  | asked => asked.word?.bind b.get?

/-- The fault of a recipe that is not there. -/
def unselected : Cause :=
  .recipe (if asked.isPresent then "Recipe not found: " ++ asked.text else "Recipe book is empty")
    asked

/-- What is told about it. -/
def refusalLine : Line :=
  .text ("[red][RECIPES] No recipe to select: " ++
    (if asked.isPresent then asked.text else "<first>") ++ "[/red]")

variable {b asked} {w w' : World ω} {lines : List Line}

theorem exec_find (hkey : asked.isKey) :
    (find? (pure b.first?) b.getNamed asked).exec w = (.ok (b.selected? asked), w) := by
  cases asked with
  | null => rfl
  | _ => simp only [find?, selected?, getNamed, hkey, ↓reduceIte, Action.exec_pure]

variable [HasTerminal ω]

theorem exec_select_of_none (hkey : asked.isKey) (h : b.selected? asked = none) :
    (b.select asked).exec w = w.telling (refusalLine asked) fun w =>
      (.error (.mk w.nextFault (unselected asked)), w.faulted) := by
  rw [select, selectFrom, Action.exec_bind, exec_find hkey, h]
  simp only [Scene.isPresent, Scene.text, pure_bind]
  exact Action.exec_tell_bind _ _ _

theorem comesTo_select (lines : List Line) (hkey : asked.isKey) (h : b.selected? asked = none)
    (hline : refusalLine asked ∈ lines) :
    (b.select asked).ComesTo lines w (.error (.mk w.nextFault (unselected asked)))
      (w.printed [refusalLine asked]).faulted := by
  rw [Action.ComesTo, exec_select_of_none hkey h]
  exact Action.comesTo_telling hline _

/-! ### Cooking -/

variable (b asked) in
/-- What is told before a recipe is run. -/
def announcement : Line :=
  .text ("[cyan][KITCHEN] Cooking: " ++
    (if asked.isPresent then asked.text else b.names.headD "") ++ "[/cyan]")

variable {run : α → Action ω Value} {recipe : α}

theorem comesTo_cook_of_unselected {e : Fault}
    (h : (b.select asked).ComesTo lines w (.error e) w') :
    (b.cook run asked).ComesTo lines w (.error e) w' := h.bind_error

/-- What is told of the outcome. -/
def outcomeLine : Value → Line
  | .failure e => .text ("[red][KITCHEN] Sandwich failed: " ++ e.text ++ "[/red]")
  | _ => .text "[green][KITCHEN] Sandwich ready[/green]"

/-- What is told when an ingredient was missing. -/
def missingLine (x : Ingredient) : Line :=
  outcomeLine (.failure (.fault (.mk 0 (.notFound x.name (.ofIngredient x)))))

/-- The two recipes of the house under their names. -/
def house : Book (Recipe Value) :=
  (empty.insert Recipe.mine.label (some Recipe.mine)).insert Recipe.club.label (some Recipe.club)

/-- What is told of a name that is registered. -/
def registeredLine (name : String) : Line :=
  .text ("[green][RECIPES] Registered: " ++ name ++ "[/green]")

/-- What is told when the book is made. -/
def houseLines : List Line :=
  [.text "[green][RECIPES] Registered: my_recipe[/green]",
    .text "[green][RECIPES] Registered: club_recipe[/green]"]

theorem comesTo_standard {lines : List Line} (hlines : ∀ line ∈ houseLines, line ∈ lines)
    (w : World ω) : standard.ComesTo lines w (.ok house) (w.printed houseLines) := by
  have hregister (b : Book (Recipe Value)) (name : String) (recipe : Recipe Value) (w : World ω)
      (hline : registeredLine name ∈ lines) :
      (b.register name (some recipe)).ComesTo lines w (.ok (b.insert name (some recipe)))
        (w.printed [registeredLine name]) :=
    .bind (Action.comesTo_tell hline) rfl (.inl rfl)
  have hclub := hregister (empty.insert Recipe.mine.label (some Recipe.mine)) Recipe.club.label
    Recipe.club (w.printed [registeredLine Recipe.mine.label]) (hlines _ (by decide))
  rw [World.printed_printed] at hclub
  exact .bind (hregister _ _ _ w (hlines _ (by decide))) rfl hclub

/-- Whether a recipe can be asked for like this. -/
def Lists (b : Book α) (asked : Value) : Prop :=
  asked = .null ∨ ∃ name ∈ b.names, asked = .string name

theorem get?_of_not_mem {name : String} (h : name ∉ b.names) : b.get? name = none := by
  have hlookup : b.entries.lookup name = none := by
    rw [List.lookup_eq_none_iff]
    intro entry hentry
    rw [bne_iff_ne]
    rintro rfl
    exact h (List.mem_map_of_mem hentry)
  rw [get?, hlookup]
  rfl

theorem selected?_of_not_lists {text : String} (h : ¬ b.Lists (.string text)) :
    b.selected? (.string text) = none := by
  have hname : text ∉ b.names := fun hmem => h (.inr ⟨text, hmem, rfl⟩)
  exact get?_of_not_mem hname

end Book

/-! ### Choosing a technology -/

variable [HasTerminal ω]

namespace Config

variable {c : Config} {w : World ω}

/-- Whether a technology is known by the name that a configuration gives. -/
def NamesStyle (c : Config) : Prop :=
  ∃ style : Style, c.interpreter = .string (Vocabulary.word style)

theorem allKeys_ofIngredient (items : List Ingredient) :
    Value.allKeys (items.map .ofIngredient) = true := by
  induction items with
  | nil => rfl
  | cons x items ih =>
    have hx : (Value.ofIngredient x).isKey = true := by cases x <;> rfl
    rw [List.map_cons, Value.allKeys, hx, ih]
    rfl

theorem stock_of_pantry {items : List Ingredient} (h : c.pantry = ofIngredients items) :
    c.stock = .ok (.ofIngredients items) := by
  have hkeys := allKeys_ofIngredient items
  simp only [stock, h, ofIngredients, Value.items?, Pantry.ofItems, hkeys, ↓reduceIte]
  rfl

theorem stock_eq_ok (hc : c.WellMade) : ∃ items, c.stock = .ok (.ofIngredients items) := by
  obtain ⟨items, hitems⟩ := hc.pantry
  exact ⟨items, stock_of_pantry hitems⟩

/-- A known technology can always be chosen, with what it takes from the configuration. -/
theorem exec_toInterpreter (hc : c.WellMade) (hstyle : c.NamesStyle) :
    ∃ i, c.toInterpreter.exec w = (.ok i, w) := by
  obtain ⟨style, hstyle⟩ := hstyle
  rw [toInterpreter, hstyle]
  cases style with
  | real => exact ⟨.real, rfl⟩
  | crazy => exact ⟨.crazy, rfl⟩
  | stocked =>
    obtain ⟨items, hitems⟩ := stock_eq_ok hc
    rw [hitems]
    exact ⟨.stocked (.ofIngredients items), rfl⟩
  | faulty => exact ⟨.faulty c.failAt, rfl⟩

/-- The technology that a configuration names, if there is one by this name. -/
def style? (c : Config) : Option Style := c.interpreter.word?.bind Vocabulary.ofWord?

theorem style?_of_namesStyle (h : c.NamesStyle) : ∃ style, c.style? = some style := by
  obtain ⟨style, hstyle⟩ := h
  rw [style?, hstyle]
  cases style <;> exact ⟨_, rfl⟩

theorem style?_eq_none (hc : c.WellMade) (h : ¬ c.NamesStyle) : c.style? = none := by
  unfold style?
  obtain ⟨s, hs⟩ | ⟨codes, hcodes⟩ := hc.interpreter
  · rw [hs]
    refine List.find?_eq_none.mpr fun style _ hword => h ⟨style, ?_⟩
    rw [hs, eq_of_beq hword]
  · rw [hcodes]
    rfl

/-- What is told of a technology that nobody knows. -/
def unknownLine (c : Config) : Line :=
  .text ("[red][KITCHEN] Unknown interpreter: " ++ c.interpreter.text ++ "[/red]")

theorem comesTo_toInterpreter (lines : List Line) (hc : c.WellMade) (hstyle : ¬ c.NamesStyle)
    (hline : unknownLine c ∈ lines) :
    c.toInterpreter.ComesTo lines w
      (.error (.mk w.nextFault (Interpreter.unknown c.interpreter.text)))
      (w.printed [unknownLine c]).faulted := by
  have hword : c.interpreter.word?.bind (Vocabulary.ofWord? (α := Style)) = none :=
    style?_eq_none hc hstyle
  have hkey : c.interpreter.isKey = true := by
    obtain ⟨s, hs⟩ | ⟨codes, hcodes⟩ := hc.interpreter
    · rw [hs]; rfl
    · rw [hcodes]; rfl
  rw [toInterpreter, Interpreter.choose, hword]
  simp only [hkey, ↓reduceIte, Scene.text, pure_bind]
  exact .bind (Action.comesTo_tell hline) rfl (.inl rfl)

end Config

namespace Kitchen

variable {c : Config} {i : Interpreter} {w w' : World ω} (lines : List Line)

theorem comesTo_ofConfig (hi : c.toInterpreter.exec w = (.ok i, w))
    (hlines : ∀ line ∈ Book.houseLines, line ∈ lines) :
    (ofConfig c).ComesTo lines w (.ok ⟨Book.house, i.technology⟩) (w.printed Book.houseLines) :=
  .bind (.inl hi) rfl (.bind (Book.comesTo_standard hlines w) rfl (.inl rfl))

end Kitchen

end Plain

end Deli
