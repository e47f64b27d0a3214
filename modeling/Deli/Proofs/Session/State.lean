import Deli.Proofs.Session.Keeps

/-! Making objects and looking at them keeps a session in order. -/

namespace Deli.Session

variable {h : Heap}

/-! ### Making objects -/

theorem sound_consecutive (n : Nat) : Sound h (consecutive n) := by
  rw [sound_bindings]
  exact ⟨sound_handle_of_ne (by simp), sound_handle_of_ne (by simp), sound_handle_of_ne (by simp)⟩

theorem keeps_allocateTechnology {f : Operation → Callable} (hf : ∀ o, Sound h (f o)) :
    Keeps h (Act.allocateTechnology f) := by
  refine keeps_bind_heap fun h₁ hle₁ _ => (keeps_append fun o ho => ?_).bind fun h₂ _ hle₂ _ => ?_
  · obtain ⟨p, -, rfl⟩ := List.mem_map.mp (List.mem_toArray.mp ho)
    exact (hf p).mono hle₁
  · exact keeps_allocate (sound_consecutive _)

theorem keeps_allocateInterpreter {i : Interpreter} (hi : Sound h i) :
    Keeps h (Act.allocateInterpreter i) := by
  cases i with
  | crazy => exact keeps_allocate (sound_consecutive 0)
  | _ => exact keeps_allocateTechnology fun _ => hi

/-- A body that is an object already has to be the one that the finished sandwich lies on. -/
theorem keeps_allocateReady {body : Value} {r : Ready} (hr : Sound h r)
    (hsame : ∀ id, body = .handle ⟨.body, id⟩ → h.objects[id]? = some (.body r.body)) :
    Keeps h (Act.allocateReady body r) := by
  unfold Act.allocateReady
  split
  next id => exact keeps_allocate ⟨id, rfl, hsame id rfl⟩
  next =>
    refine keeps_bind_allocate hr fun h₁ id _ hid => ?_
    exact keeps_allocate ⟨id, rfl, hid⟩

/-- Whatever is made with a list of its own is made with a value that is sound. -/
theorem keeps_bind_ownList {α : Type} [Lasting α] {v : Value} (hv : Sound h v)
    {f : Value → Act α} (hf : KeepsFrom h f) :
    Keeps h (match v with
      | .list items => Act.allocate (.list items) >>= f
      | v => pure v >>= f) := by
  split
  · exact (keeps_allocate (sound_list.mp hv)).bind hf
  · exact (Keeps.pure hv).bind hf

theorem keeps_allocateConfig {c : Config} (hc : Sound h c) : Keeps h (Act.allocateConfig c) := by
  obtain ⟨hinterpreter, hrecipe, hpantry, hfailAt⟩ := sound_config.mp hc
  refine keeps_bind_ownList hpantry fun h₁ v hle hv => keeps_allocate ?_
  exact sound_config.mpr ⟨hinterpreter.mono hle, hrecipe.mono hle, hv, hfailAt.mono hle⟩

theorem keeps_allocateBodyBuilder {b : BodyBuilder} (hb : Sound h b) :
    Keeps h (Act.allocateBodyBuilder b) := by
  obtain ⟨hbottom, hcomponents⟩ := sound_bodyBuilder.mp hb
  refine keeps_bind_ownList hcomponents fun h₁ v hle hv => keeps_allocate ?_
  exact sound_bodyBuilder.mpr ⟨hbottom.mono hle, hv⟩

instance : Lasting (Book Value) := .ofHeld fun b => b.entries.filterMap Prod.snd

theorem sound_insert {b : Book Value} (hb : Sound h b) {v : Value} (hv : Sound h v)
    (name : String) : Sound h (b.insert name (some v)) := by
  have hentries (entries : List (String × Option Value)) (hall : Sound h (entries.filterMap Prod.snd)) :
      Sound h ((Book.setEntry name (some v) entries).filterMap Prod.snd) := by
    induction entries with
    | nil => exact sound_cons.mpr ⟨hv, sound_nil⟩
    | cons e rest ih =>
      obtain ⟨n, r⟩ := e
      unfold Book.setEntry
      cases r with
      | none =>
        split
        · exact sound_cons.mpr ⟨hv, hall⟩
        · exact ih hall
      | some w =>
        obtain ⟨hw, hrest⟩ := sound_cons.mp hall
        split
        · exact sound_cons.mpr ⟨hv, hrest⟩
        · exact sound_cons.mpr ⟨hw, ih hrest⟩
  exact hentries b.entries hb

theorem keeps_allocateBook {b : Book Value} (hb : Sound h b) : Keeps h (Act.allocateBook b) := by
  refine (keeps_allocate ?_).bind fun h₁ v _ hv => keeps_allocate hv
  refine sound_map.mpr fun e he => sound_pair.mpr ⟨sound_string e.1, ?_⟩
  obtain ⟨name, recipe⟩ := e
  cases recipe with
  | none => exact sound_null
  | some v => exact hb v (List.mem_filterMap.mpr ⟨_, he, rfl⟩)

/-! ### Finding -/

theorem keeps_find {v : Value} (hv : Sound h v) (name : String) : Keeps h (Act.find v name) := by
  refine keeps_bind_heap fun h₁ hle hh => ?_
  have hattribute := hh.attribute? (hv.mono hle) name
  cases hfound : h₁.attribute? v name with
  | some f => exact Keeps.pure (hattribute f hfound)
  | none =>
    cases Method.named? v name with
    | some m => exact Keeps.pure (hv.mono hle)
    | none => exact keeps_raise _

theorem keeps_getAttribute {v : Value} (hv : Sound h v) (name : String) :
    Keeps h (Act.getAttribute v name) := by
  refine (keeps_find hv name).bind fun h₁ f _ hf => ?_
  split
  next w => exact .pure hf
  next w m =>
    refine keeps_allocate ?_
    rintro _ hu
    cases List.mem_singleton.mp hu
    exact hf

theorem keeps_hasPresent {v : Value} (hv : Sound h v) (name : String) :
    Keeps h (Act.hasPresent v name) :=
  (keeps_getAttribute hv name).bind fun _ _ _ _ => keeps_seen fun _ _ _ _ _ => trivial

theorem keeps_textOf {v : Value} (hv : Sound h v) : Keeps h (Act.textOf v) := by
  unfold Act.textOf
  split
  · exact .pure hv
  · exact (keeps_seen fun _ _ _ _ _ => trivial).bind fun _ s _ _ => .pure (sound_string s)

/-! ### The scene -/

theorem keeps_sceneText (v : Value) : Keeps h (Scene.text v : Act String) :=
  keeps_seen fun _ _ _ _ _ => trivial

theorem keeps_isPresent (v : Value) : Keeps h (Scene.isPresent v : Act Bool) :=
  keeps_seen fun _ _ _ _ _ => trivial

theorem keeps_same (v w : Value) : Keeps h (Scene.same v w : Act Bool) :=
  keeps_seen fun _ _ _ _ _ => trivial

theorem keeps_name? (v : Value) : Keeps h (Scene.name? v : Act (Option String)) := by
  refine keeps_bind_heap fun h₁ _ _ => ?_
  split
  next name _ =>
    refine (keeps_seen fun _ _ _ _ _ => trivial).map fun _ s _ _ => ?_
    exact sound_some.mpr trivial
  next => exact .pure sound_none

theorem keeps_nameOf (v : Value) : Keeps h (Scene.nameOf v : Act String) := by
  refine (keeps_name? v).bind fun h₁ name? _ _ => ?_
  cases name? with
  | some name => exact .pure trivial
  | none => exact keeps_raise _

theorem keeps_isFailure {v : Value} (hv : Sound h v) : Keeps h (Scene.isFailure v : Act Bool) :=
  keeps_hasPresent hv _

theorem keeps_isSuccess {v : Value} (hv : Sound h v) : Keeps h (Scene.isSuccess v : Act Bool) :=
  keeps_hasPresent hv _

end Deli.Session
