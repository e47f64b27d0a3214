import Deli.Proofs.Session.Step

/-! Whole sessions. A session begins with no sandwiches at all, and every step keeps it in order
that does not write all fields of an object at once; so whatever such steps are taken, and in
whatever order, no body ever comes up that has nothing on it, and no finished sandwich that does not
lie on a body which is there. Steps are not written with sandwiches in them: whatever body there is
was made by a step. -/

namespace Deli.Session

/-- The world after all steps. -/
def afterAll (w : World State) (steps : List (Step × Option String)) : World State :=
  steps.foldl (fun w s => (advance w s.1 s.2).2) w

theorem sound_houseRecipe {h : Heap} {r : Recipe Value}
    (hr : Sound h (r.bottom :: r.first :: r.adds ++ [r.top])) :
    Sound h (Object.callable (.recipe (r.map .value))) := by
  simp only [List.cons_append, sound_cons, sound_append, sound_nil, and_true] at hr
  obtain ⟨hbottom, hfirst, hadds, htop⟩ := hr
  have hterm {v : Value} (hv : Sound h v) : Sound h (Term.value v) := sound_singleton hv
  have hadds : Sound h (r.adds.map Term.value) := sound_map.mpr fun v hv => hterm (hadds v hv)
  exact sound_recipe (r := r.map .value).mpr ⟨⟨hterm hbottom, hterm hfirst⟩, hadds, hterm htop⟩

theorem sound_firstObjects {h : Heap} : Sound h firstObjects := by
  rw [firstObjects, sound_append, sound_append, callables, sound_map, List.map_cons,
    List.map_singleton, sound_cons, sound_cons]
  refine ⟨⟨fun o _ => sound_nil (α := Value), ?_, ?_, sound_nil⟩, ?_⟩
  · exact sound_houseRecipe (by simp [Recipe.mine])
  · exact sound_houseRecipe (by simp [Recipe.club])
  · exact sound_cons.mpr ⟨sound_nil (α := Value), sound_cons.mpr ⟨sound_nil (α := Value), sound_nil⟩⟩

theorem State.initial_valid : State.initial.Valid where
  heap :=
    { objects := fun ho => sound_firstObjects _ (List.mem_toArray.mp (Array.mem_of_getElem? ho))
      attributes := by rintro e ⟨⟩ }
  registers := by rintro e ⟨⟩
  calls := by rintro c ⟨⟩

/-- Steps that can be taken in a heap and do not write all fields of an object at once. -/
def Orderly (h : Heap) (steps : List (Step × Option String)) : Prop :=
  ∀ s ∈ steps, Sound h s.1 ∧ s.1.writesAllFields = false

theorem keeps_perform {h : Heap} {step : Step} (hstep : Sound h step)
    (hfields : step.writesAllFields = false) (target : Option String) :
    Keeps h (perform step target) := by
  refine (Step.keeps_run hstep hfields).bind fun h₁ v _ hv => ?_
  cases target with
  | some name => exact (keeps_setRegister hv name).bind fun _ _ hle _ => .pure (hv.mono hle)
  | none => exact (Keeps.pure (x := ()) trivial).bind fun _ _ hle _ => .pure (hv.mono hle)

theorem advance_valid {w : World State} (hw : w.rest.Valid) {step : Step}
    (hstep : Sound w.rest.heap step) (hfields : step.writesAllFields = false)
    (target : Option String) :
    (advance w step target).1.Valid ∧ (advance w step target).2.rest.Valid ∧
      w.rest.heap ≤ (advance w step target).2.rest.heap := by
  let fresh : World State := { w with console := [], rest := { w.rest with calls := [] } }
  have hfresh : fresh.rest.Valid := ⟨hw.heap, hw.registers, by rintro c ⟨⟩⟩
  obtain ⟨hvalid, hle, hsound⟩ := keeps_perform hstep hfields target fresh hfresh le_rfl
  refine ⟨⟨hvalid.heap, hsound, fun c hc => ?_⟩, hvalid, hle⟩
  exact hvalid.calls c (List.mem_reverse.mp hc)

theorem Orderly.mono {h h' : Heap} {steps : List (Step × Option String)} (hsteps : Orderly h steps)
    (hle : h ≤ h') : Orderly h' steps := fun s hs => ⟨(hsteps s hs).1.mono hle, (hsteps s hs).2⟩

theorem afterAll_valid {w : World State} (hw : w.rest.Valid)
    {steps : List (Step × Option String)} (hsteps : Orderly w.rest.heap steps) :
    (afterAll w steps).rest.Valid ∧ w.rest.heap ≤ (afterAll w steps).rest.heap := by
  induction steps generalizing w with
  | nil => exact ⟨hw, le_rfl⟩
  | cons s rest ih =>
    obtain ⟨⟨hs, hfields⟩, hrest⟩ := List.forall_mem_cons.mp hsteps
    obtain ⟨-, hnext, hle⟩ := advance_valid hw hs hfields s.2
    obtain ⟨hafter, hle'⟩ := ih hnext (Orderly.mono hrest hle)
    exact ⟨hafter, hle.trans hle'⟩

/-- An answer is valid, and the sandwiches in it stay as they are to the end. -/
theorem runAll_valid {w : World State} (hw : w.rest.Valid) {steps : List (Step × Option String)}
    (hsteps : Orderly w.rest.heap steps) :
    ∀ a ∈ runAll w steps, a.Valid ∧ a.heap ≤ (afterAll w steps).rest.heap := by
  induction steps generalizing w with
  | nil => rintro a ⟨⟩
  | cons s rest ih =>
    obtain ⟨⟨hs, hfields⟩, hrest⟩ := List.forall_mem_cons.mp hsteps
    obtain ⟨hanswer, hnext, hle⟩ := advance_valid hw hs hfields s.2
    replace hrest := Orderly.mono hrest hle
    intro a ha
    rcases List.mem_cons.mp ha with rfl | ha
    · exact ⟨hanswer, (afterAll_valid hnext hrest).2⟩
    · exact ih hnext hrest a ha

/-- No step but one that writes all fields of an object at once, and no order of such steps, yields
a body with nothing on it, or a finished sandwich on anything but a body that is there. What is
there once stays as it is. -/
theorem sandwiches_well_made (steps : List (Step × Option String))
    (hsteps : ∀ s ∈ steps, Sound State.initial.heap s.1)
    (hfields : ∀ s ∈ steps, s.1.writesAllFields = false) :
    (∀ a ∈ runAll World.initial steps,
      a.Valid ∧ a.heap ≤ (afterAll World.initial steps).rest.heap) ∧
    (afterAll World.initial steps).rest.Valid := by
  have horderly : Orderly World.initial.rest.heap steps := fun s hs => ⟨hsteps s hs, hfields s hs⟩
  exact ⟨runAll_valid State.initial_valid horderly, (afterAll_valid State.initial_valid horderly).1⟩

/-- Salt on toast, then a body with one more thing on it, an attempt to clear that one, and a
finished sandwich. -/
def lunch : List (Step × Option String) :=
  [(.newBody [("bottom", .value (.bread .toast)), ("components", .value (.tuple [.string "salt"]))],
     some "salty"),
   (.plus (.register "salty") (.value (.component .tomato)), some "body"),
   (.set (.register "body") "components" (.value (.tuple [])), none),
   (.sandwichReady (some (.register "body")) (some (.value (.bread .baguette))), some "lunch")]

theorem sandwiches_well_made_lunch :
    (∀ s ∈ lunch, Sound State.initial.heap s.1) ∧ (∀ s ∈ lunch, s.1.writesAllFields = false) ∧
      ((∀ a ∈ runAll World.initial lunch,
        a.Valid ∧ a.heap ≤ (afterAll World.initial lunch).rest.heap) ∧
      (afterAll World.initial lunch).rest.Valid) ∧
      (afterAll World.initial lunch).rest.heap.objects[8]? =
        some (.body ⟨.toast, [.salt, .tomato]⟩) := by
  have hlunch : ∀ s ∈ lunch, Sound State.initial.heap s.1 := by
    simp [lunch, sound_step, Step.literals, entriesLiterals, optionalLiterals, Term.literals]
  have hfields : ∀ s ∈ lunch, s.1.writesAllFields = false := by
    simp [lunch, Step.writesAllFields, allFields]
  exact ⟨hlunch, hfields, sandwiches_well_made lunch hlunch hfields, rfl⟩

/-- Salt on toast, and a mapping without any components that is written in the place of all its
fields. -/
def emptied : List (Step × Option String) :=
  [(.newBody [("bottom", .value (.bread .toast)), ("components", .value (.tuple [.string "salt"]))],
     some "body"),
   (.give (.mapping [("bottom", .value (.bread .toast)), ("components", .list [])]), some "fields"),
   (.set (.register "body") "__dict__" (.register "fields"), none),
   (.get (.register "body") "components", some "components"),
   (.length (.register "components"), none)]

/-- What is written in the place of all fields is not checked, so there is a body with nothing on
it. -/
theorem emptied_body_has_no_components :
    (∀ s ∈ emptied, Sound State.initial.heap s.1) ∧
    (∃ body fields components, (runAll World.initial emptied).map Answer.result =
      [.ok (.handle ⟨.body, body⟩), .ok fields, .ok .null, .ok components, .ok (.int 0)]) ∧
    ¬ (afterAll World.initial emptied).rest.Valid := by
  have hobject : (afterAll World.initial emptied).rest.heap.objects[7]? =
      some (.loose .body (.handle ⟨.mapping, 9⟩)) := rfl
  refine ⟨?_, ⟨_, _, _, rfl⟩, fun hvalid => hvalid.heap.objects hobject⟩
  simp [emptied, sound_step, Step.literals, entriesLiterals, optionalLiterals, allLiterals,
    Term.literals]

end Deli.Session
