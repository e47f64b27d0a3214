import Deli.Proofs.Complaints
import Deli.Proofs.Session.Builders
import Deli.Proofs.Session.Step

/-! The ways in which a body is made of a bottom and some items: from both as its fields, by a
function that takes both, or by a builder that is given one after the other, in any order and with
anything else done in between. A builder asks first whether there is something to build from, and so
does the function, which uses one. Apart from that all ways come to the same body, or complain about
the same values. -/

namespace Deli

namespace Value

/-- Neither text of any kind nor anything that is taken for text. -/
def IsMute (v : Value) : Prop := v.spelled? = none ∧ ∀ codes, v ≠ .broken codes

variable {α : Type} [Vocabulary α] {v : Value}

theorem IsMute.member? (h : v.IsMute) : v.member? α = none := by
  rw [Value.member?, h.1, Option.bind_none]

theorem IsMute.complaint? (h : v.IsMute) :
    Checked.complaint? α v = some (.notAmong (Vocabulary.words α)) := by
  rw [Checked.complaint?_eq, h.member?]
  cases v with
  | broken codes => exact absurd rfl (h.2 codes)
  | _ => rfl

end Value

namespace Session

namespace Heap

variable (heap : Heap) (depth : Nat)

/-! ### Fields that are looked into

What is found in an object is never a member, so looking into the objects among the values makes no
difference. -/

theorem shallow_handle_mute (h : Handle) : (heap.shallow (.handle h)).IsMute := by
  unfold shallow
  split <;> exact ⟨rfl, nofun⟩

theorem opened_eq_or_mute (v : Value) :
    heap.opened depth v = v ∨ v.IsMute ∧ (heap.opened depth v).IsMute := by
  cases depth with
  | zero => exact .inl rfl
  | succ depth =>
    have hlist (items : List Value) : (Value.list items).IsMute := ⟨rfl, nofun⟩
    have htuple (items : List Value) : (Value.tuple items).IsMute := ⟨rfl, nofun⟩
    have hmapping (entries : List (Value × Value)) : (Value.mapping entries).IsMute :=
      ⟨rfl, nofun⟩
    cases v with
    | handle h =>
      refine .inr ⟨⟨rfl, nofun⟩, ?_⟩
      have hshallow := heap.shallow_handle_mute h
      unfold opened
      split
      next => exact hlist _
      next => exact htuple _
      next => exact hmapping _
      next => exact hshallow
    | list items => exact .inr ⟨hlist _, hlist _⟩
    | tuple items => exact .inr ⟨htuple _, htuple _⟩
    | mapping entries => exact .inr ⟨hmapping _, hmapping _⟩
    | _ => exact .inl rfl

variable {α : Type} [Vocabulary α] (v : Value)

theorem member?_opened : (heap.opened depth v).member? α = v.member? α := by
  obtain h | ⟨h, h'⟩ := heap.opened_eq_or_mute depth v
  · rw [h]
  · rw [h.member?, h'.member?]

theorem complaint?_opened :
    Checked.complaint? α (heap.opened depth v) = Checked.complaint? α v := by
  obtain h | ⟨h, h'⟩ := heap.opened_eq_or_mute depth v
  · rw [h]
  · rw [h.complaint?, h'.complaint?]

theorem member_opened (name : String) :
    Checked.member α name (heap.opened depth v) = Checked.member α name v := by
  rw [Checked.member, Checked.member, member?_opened, complaint?_opened]

theorem members_opened (name : String) (items : List Value) :
    Checked.members α name (.tuple (items.map (heap.opened depth))) =
      Checked.members α name (.tuple items) := by
  simp only [Checked.members, Checked.strayItems, List.filterMap_map, List.zipIdx_map,
    Function.comp_def, member?_opened, Prod.map, complaint?_opened, id]

/-- Fields are checked as they are, however deep they are looked into. -/
theorem check_opened (n m : Nat) (bottom : Value) (items : List Value) :
    Body.check (some (heap.opened n bottom)) (some (.tuple (items.map (heap.opened m)))) =
      Body.check (some bottom) (some (.tuple items)) := by
  simp only [Body.check, Checked.required, member_opened, members_opened]

end Heap

/-! ### Terms for the components -/

/-- Some items in a row: a tuple, or a list that there is. -/
inductive Heap.Row (heap : Heap) : Value → List Value → Prop
  | tuple (items : List Value) : Row heap (.tuple items) items
  | list {id : Nat} {items : List Value} (held : heap.objects[id]? = some (.list items)) :
    Row heap (.handle ⟨.list, id⟩) items

/-- A term for some items in a row, which may be a list that is made for it. -/
inductive Term.Lists (heap : Heap) : Term → List Value → Prop
  | list (items : List Value) : Lists heap (.list (items.map .value)) items
  | value {v : Value} {items : List Value} (row : heap.Row v items) : Lists heap (.value v) items

variable {w : World State} {t : Term} {v : Value} {items : List Value}

theorem exec_evalAll_values (items : List Value) (w : World State) :
    (evalAll (items.map .value)).exec w = (.ok items, w) := by
  induction items with
  | nil => rfl
  | cons v items ih =>
    rw [List.map_cons, evalAll]
    simp only [Term.eval, Action.exec_bind, Action.exec_pure, ih]

theorem Term.Lists.exec_eval (h : t.Lists w.rest.heap items) :
    ∃ u w', t.eval.exec w = (.ok u, w') ∧ w'.rest.heap.Row u items := by
  cases h with
  | list =>
    rw [Term.eval, Action.exec_bind, exec_evalAll_values]
    exact ⟨_, _, rfl, .list (Heap.getElem?_push_size w.rest.heap _)⟩
  | value row => exact ⟨_, w, rfl, row⟩

theorem Heap.Row.exec_items (h : w.rest.heap.Row v items)
    (apply : Bound → List Value → Act Value) : (Session.items apply v).exec w = (.ok items, w) := by
  cases h with
  | tuple => rfl
  | list held => exact Session.exec_items held apply

theorem Heap.Row.check_opened {heap : Heap} (h : heap.Row v items) (bottom : Value) :
    Body.check (some (heap.opened 3 bottom)) (some (heap.opened 3 v)) =
      Body.check (some bottom) (some (.tuple items)) := by
  rw [← heap.check_opened 3 2]
  cases h with
  | tuple => rfl
  | @list id _ held =>
    have hlist : heap.opened 3 (.handle ⟨.list, id⟩) = .list (items.map (heap.opened 2)) := by
      rw [Heap.opened, Heap.shallow, Heap.object?]
      simp only [held]
    rw [hlist]
    rfl

/-! ### The makers -/

/-- What is returned or raised stands for what a check comes to: a new body, on its own or in an
outcome as `wrap` says, or a fault of that cause. -/
inductive Gives (wrap : Value → Value) : Except Cause Body → Except Fault Value × World State → Prop
  | ok {u : Value} {b : Body} {w : World State} (body : w.rest.heap.body? u = some b) :
    Gives wrap (.ok b) (.ok (wrap u), w)
  | error (c : Cause) (id : Nat) (w : World State) : Gives wrap (.error c) (.error (.mk id c), w)

theorem gives_made (x : Except Cause Body) (w : World State) : Gives id x (made x w) := by
  cases x with
  | ok b => exact .ok (u := w.rest.heap.next (.body b)) (Heap.body?_push _ _)
  | error c => exact .error c _ _

theorem gives_success (x : Except Cause Body) (w : World State) :
    Gives .success x ((do pure (.success (← Act.allocate (.body (← Action.ofExcept x)))) :
      Act Value).exec w) := by
  cases x with
  | ok b => exact .ok (u := w.rest.heap.next (.body b)) (Heap.body?_push _ _)
  | error c => exact .error c _ _

/-- A body from its fields is checked and nothing more. -/
theorem gives_newBody (h : t.Lists w.rest.heap items) (bottom : Value) :
    Gives id ((Body.check (some bottom) (some (.tuple items))).mapError (.invalid .body))
      ((Step.newBody [("bottom", .value bottom), ("components", t)]).run.exec w) := by
  obtain ⟨u, w', heval, hrow⟩ := h.exec_eval
  have hentries : (evalEntries [("bottom", .value bottom), ("components", t)]).exec w =
      (.ok [(.string "bottom", bottom), (.string "components", u)], w') := by
    simp only [evalEntries, Term.eval, Action.exec_bind, Action.exec_pure, heval]
  have hbottom : Value.entry? [(.string "bottom", bottom), (.string "components", u)] "bottom" =
      some bottom := rfl
  have hcomponents : Value.entry? [(.string "bottom", bottom), (.string "components", u)]
      "components" = some u := rfl
  rw [Step.run, Action.exec_bind, hentries]
  simp only
  rw [Action.exec_bind, exec_openedEntries]
  simp only
  rw [Body.ofEntries, entry?_map, entry?_map, hbottom, hcomponents, Option.map_some,
    Option.map_some, hrow.check_opened, exec_allocateBody]
  exact gives_made _ w'

/-- The function builds as a builder with both in it does. -/
theorem gives_sandwichBody (h : t.Lists w.rest.heap items) (bottom : Value) :
    Gives .success (BodyBuilder.build ⟨bottom, .list items⟩)
      ((Step.sandwichBody (some (.value bottom)) (some t)).run.exec w) := by
  obtain ⟨u, w', heval, hrow⟩ := h.exec_eval
  have hbottom : (evalOr .null (some (.value bottom))).exec w = (.ok bottom, w) := rfl
  have hcomponents : (evalOr (.tuple []) (some t)).exec w = (.ok u, w') := heval
  rw [Step.run, Action.exec_bind, hbottom]
  simp only
  rw [Action.exec_bind, hcomponents]
  simp only
  rw [Action.exec_bind, hrow.exec_items]
  exact gives_success _ w'

/-- A new builder builds what its own history has made of it. -/
theorem gives_build (hheap : w.rest.heap.Unwritten) (moves : List Move) :
    Gives id (historyOf 0 moves .null []).build
      ((((Bench.mk [] [] w).next .new).after moves).outcome (.build 0)) := by
  have hstart : (Bench.mk [] [] w).Apart [] :=
    ⟨hheap, .nil, List.nodup_nil, fun v hv => absurd hv List.not_mem_nil⟩
  obtain ⟨lists, hnew⟩ := (hstart.next .new).apart
  have hfresh : ((Bench.mk [] [] w).next .new).builder? 0 = some ⟨.null, .list []⟩ :=
    Bench.builder?_withBuilder _ _ _
  have hfollows := hnew.after moves
  obtain ⟨lists', hafter⟩ := hfollows.apart
  obtain ⟨id, list, items, hitems, hholds⟩ := Heap.builder?_eq_some.mp (hfollows.builders hfresh)
  rw [Bench.outcome_build hafter.unwritten hholds, ← hitems]
  exact gives_made _ _

/-- However a body is made of a bottom and some items, it comes to the same. The body has the
members that the bottom and the items stand for, if they all do and there are some; otherwise all
complaints are listed. A new builder that has been given these, whatever was done in between and
however often it was built, says first if there is no bottom, and next if there are no items; and so
does the function that takes both. -/
theorem makers_agree (bottom : Value) (items : List Value) :
    ∃ direct built : Except Cause Body,
      (∀ (w : World State) (t : Term), t.Lists w.rest.heap items →
        Gives id direct
          ((Step.newBody [("bottom", .value bottom), ("components", t)]).run.exec w) ∧
        Gives .success built ((Step.sandwichBody (some (.value bottom)) (some t)).run.exec w)) ∧
      (∀ (w : World State) (moves : List Move), w.rest.heap.Unwritten →
        (bottomsOf 0 moves).getLastD .null = bottom → componentsOf 0 moves = items →
        Gives id built ((((Bench.mk [] [] w).next .new).after moves).outcome (.build 0))) ∧
      (bottom = .null →
        built = .error (.construction "`bottom` must be initialized!" "bottom")) ∧
      (bottom ≠ .null → items = [] →
        built = .error (.construction "`components` must not be empty!" "components")) ∧
      (bottom ≠ .null → items ≠ [] → built = direct) ∧
      (∀ b, direct = .ok b ↔ bottom.StandsFor (.bread b.bottom) ∧
        List.Forall₂ (fun x c => x.StandsFor (.component c)) items b.components ∧ items ≠ []) ∧
      ∀ c, direct = .error c → c = .invalid .body (Body.complaints bottom items) := by
  refine ⟨(Body.check (some bottom) (some (.tuple items))).mapError (.invalid .body),
    BodyBuilder.build ⟨bottom, .list items⟩,
    fun w t ht => ⟨gives_newBody ht bottom, gives_sandwichBody ht bottom⟩, ?_, ?_, ?_,
    BodyBuilder.build_of_given, fun b => ?_, ?_⟩
  · rintro w moves hheap rfl rfl
    exact gives_build hheap moves
  · rintro rfl
    exact BodyBuilder.build_of_null _
  · rintro hbottom rfl
    exact BodyBuilder.build_of_nil hbottom
  · rw [Checked.mapError_eq_ok, Body.check_eq_ok_iff]
  · intro c hc
    cases hchecked : Body.check (some bottom) (some (.tuple items)) with
    | ok b =>
      rw [hchecked] at hc
      cases hc
    | error problems =>
      rw [hchecked] at hc
      cases hc
      rw [Body.eq_complaints_of_check hchecked]

/-- Cheese is no bottom and a number no component, in whatever order a builder is given them. -/
theorem makers_agree_wrong :
    let bottom : Value := .component .cheese
    let items : List Value := [.int 1, .string "salt"]
    let moves : List Move := [.addComponent 0 (.int 1), .build 0, .withBottom 0 (.string "toast"),
      .addComponent 0 (.string "salt"), .build 0, .withBottom 0 bottom]
    let problems : List Problem := [⟨[.field "bottom"], .notAmong ["baguette", "toast"]⟩,
      ⟨[.field "components", .item 0], .notAmong ["salt", "tomato", "cheese"]⟩]
    let wrong : Except Cause Body := .error (.invalid .body problems)
    let t : Term := .list (items.map .value)
    Gives id wrong ((Step.newBody [("bottom", .value bottom), ("components", t)]).run.exec
        World.initial) ∧
      Gives .success wrong ((Step.sandwichBody (some (.value bottom)) (some t)).run.exec
        World.initial) ∧
      Gives id wrong
        ((((Bench.mk [] [] World.initial).next .new).after moves).outcome (.build 0)) := by
  intro bottom items moves problems wrong t
  obtain ⟨direct, built, hfields, hmoves, -, -, hsame, hok, herror⟩ := makers_agree bottom items
  have hdirect : direct = wrong := by
    cases direct with
    | ok b =>
      have hcheese : (Value.component .cheese).StandsFor (.bread b.bottom) := ((hok b).mp rfl).1
      cases hcheese
    | error c =>
      have hcomplaints : Body.complaints bottom items = problems := by decide
      rw [herror c rfl, hcomplaints]
  have hbuilt : built = wrong := (hsame nofun nofun).trans hdirect
  obtain ⟨hnew, hmade⟩ := hfields World.initial t (.list items)
  have hlast := hmoves World.initial moves (fun _ _ _ _ => rfl) rfl rfl
  rw [hdirect] at hnew
  rw [hbuilt] at hmade hlast
  exact ⟨hnew, hmade, hlast⟩

/-- Of half a character it is not said that it is none of the words, and data in bytes that spell
words make a body. -/
theorem half_character_is_no_bottom :
    let make (bottom item : Value) : Except Fault Value × World State :=
      (Step.newBody [("bottom", .value bottom), ("components", .list [.value item])]).run.exec
        World.initial
    let half : Value := .broken [0xD800]
    let toast : Value := .bytes [0x74, 0x6F, 0x61, 0x73, 0x74]
    let salt : Value := .bytes [0x73, 0x61, 0x6C, 0x74]
    (make half salt).1 = .error (.mk 0 (.invalid .body [⟨[.field "bottom"], .notUnicode⟩])) ∧
    Complaint.notUnicode.code ≠ "enum" ∧
    ∃ u w, make toast salt = (.ok u, w) ∧ w.rest.heap.body? u = some ⟨.toast, [.salt]⟩ := by
  intro make half toast salt
  exact ⟨rfl, by decide, _, _, rfl, rfl⟩

end Session

end Deli
