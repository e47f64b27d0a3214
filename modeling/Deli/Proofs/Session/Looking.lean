import Deli.Proofs.Session.Valid

/-! What is found in sound values and in a valid heap is sound: parts of values, fields, attributes
and whatever there is to go through. -/

namespace Deli.Session

variable {h : Heap}

theorem sound_of_lookup {κ α : Type} [BEq κ] [LawfulBEq κ] [Lasting α] {xs : List (κ × α)}
    (hxs : ∀ e ∈ xs, Sound h e.2) (k : κ) : Sound h (xs.lookup k) := by
  intro a hk
  obtain ⟨before, after, rfl, -⟩ := List.lookup_eq_some_iff.mp hk
  exact hxs (k, a) (by simp)

theorem sound_orElse {α : Type} [Lasting α] {x y : Option α} (hx : Sound h x) (hy : Sound h y) :
    Sound h (x <|> y) := by
  cases x with
  | none => exact hy
  | some a => exact hx

/-! ### Parts of values -/

theorem sound_ofCodes (codes : List Nat) : Sound h (Value.ofCodes codes) := by
  unfold Value.ofCodes
  split <;> simp

theorem sound_ofOption_bread (top : Option Bread) : Sound h (Value.ofOption .bread top) := by
  cases top <;> simp [Value.ofOption]

theorem sound_ofIngredient (x : Ingredient) : Sound h (Value.ofIngredient x) := by
  cases x <;> simp [Value.ofIngredient]

theorem sound_componentsOf (b : Body) : Sound h (Value.componentsOf b) := by
  rw [Value.componentsOf, sound_tuple, sound_map]
  exact fun c _ => sound_component c

theorem sound_named {name : String} {v : Value} : Sound h (Value.named name v) ↔ Sound h v := by
  simp only [Value.named, sound_tuple, sound_cons, sound_string, sound_nil, true_and, and_true]

/-- Only a handle of a body has to name anything. -/
theorem sound_handle_of_ne {g : Handle} (hkind : g.kind ≠ .body) : Sound h (Value.handle g) := by
  obtain ⟨kind, id⟩ := g
  cases kind with
  | body => exact absurd rfl hkind
  | _ => exact sound_handle.mpr trivial

theorem sound_items? {v : Value} (hv : Sound h v) : Sound h v.items? := by
  have hcodes (codes? : Option (List Nat)) :
      Sound h (codes?.map fun codes => codes.map fun c => Value.ofCodes [c]) := by
    cases codes? with
    | none => exact sound_none
    | some codes => exact sound_some.mpr (sound_map.mpr fun c _ => sound_ofCodes [c])
  unfold Value.items?
  split
  · exact sound_some.mpr (sound_list.mp hv)
  · exact sound_some.mpr (sound_tuple.mp hv)
  · exact sound_some.mpr (sound_map.mpr fun e he => (sound_mapping.mp hv e he).1)
  · simp only [sound_some, sound_cons, sound_named, sound_bread, sound_componentsOf, sound_nil,
      and_self]
  · simp only [sound_some, sound_cons, sound_named, sound_body, sound_ofOption_bread, sound_nil,
      and_true]
    exact sound_ready.mp hv
  · exact hcodes _

theorem sound_ofRounded (x : Rounded) : Sound h (Value.ofRounded x) := by
  cases x <;> simp [Value.ofRounded]

theorem sound_join {v w x : Value} (hv : Sound h v) (hw : Sound h w) (hx : v.join w = .ok x) :
    Sound h x := by
  unfold Value.join at hx
  split at hx
  next =>
    cases hx
    exact sound_int _
  next =>
    split at hx
    next =>
      cases hx
      exact sound_ofCodes _
    next =>
      split at hx
      next =>
        cases hx
        exact sound_list.mpr (sound_append.mpr ⟨sound_list.mp hv, sound_list.mp hw⟩)
      next =>
        cases hx
        exact sound_tuple.mpr (sound_append.mpr ⟨sound_tuple.mp hv, sound_tuple.mp hw⟩)
      next =>
        cases hx
        exact sound_bytes _
      next =>
        cases hv' : v.rounded with
        | error c => simp [hv', bind, Except.bind] at hx
        | ok a =>
          cases hw' : w.rounded with
          | error c => simp [hv', hw', bind, Except.bind] at hx
          | ok b =>
            simp only [hv', hw', bind, Except.bind, pure, Except.pure, Except.ok.injEq] at hx
            exact hx ▸ sound_ofRounded _

/-! ### Objects -/

theorem sound_get {b : Bindings} (hb : Sound h b) (o : Operation) : Sound h (b.get o) := by
  obtain ⟨hstart, hadd, hfinish⟩ := sound_bindings.mp hb
  cases o <;> assumption

theorem sound_set {b : Bindings} (hb : Sound h b) {v : Value} (hv : Sound h v) (o : Operation) :
    Sound h (b.set v o) := by
  obtain ⟨hstart, hadd, hfinish⟩ := sound_bindings.mp hb
  rw [sound_bindings]
  cases o <;> exact ⟨‹_›, ‹_›, ‹_›⟩

theorem sound_checkedBindings {binding : Operation → Option Value}
    (hbinding : ∀ o, Sound h (binding o)) {b : Bindings} (hb : Bindings.check binding = .ok b) :
    Sound h b := by
  have hone (o : Operation) {x : Option Value} {v : Value} (hx : Sound h x)
      (hv : Checked.required (Vocabulary.word o) (fun v =>
        if v.isCallable then .ok v else .error [.atField (Vocabulary.word o) .notCallable]) x =
          .ok v) : Sound h v := by
    obtain ⟨w, rfl, hw⟩ := Checked.required_eq_ok.mp hv
    split at hw <;> cases hw
    exact sound_some.mp hx
  obtain ⟨⟨⟨s, a⟩, f⟩, hall, rfl⟩ := Checked.map_eq_ok.mp hb
  obtain ⟨hstartAdd, hfinish⟩ := Checked.both_eq_ok.mp hall
  obtain ⟨hstart, hadd⟩ := Checked.both_eq_ok.mp hstartAdd
  exact sound_bindings.mpr ⟨hone .start (hbinding .start) hstart, hone .add (hbinding .add) hadd,
    hone .finish (hbinding .finish) hfinish⟩

theorem sound_build {b c : Bindings} (hb : Sound h b) (hc : b.build = .ok c) : Sound h c := by
  unfold Bindings.build at hc
  split at hc
  · cases hc
  · refine sound_checkedBindings (fun o => ?_) (Checked.mapError_eq_ok.mp hc)
    exact sound_some.mpr (sound_get hb o)

theorem sound_fields {o : Object} (ho : Sound h o) : ∀ e ∈ o.fields, Sound h e.2 := by
  have hbindings {b : Bindings} (hb : Sound h b) :
      ∀ e ∈ (Vocabulary.members : List Operation).map fun o => (Vocabulary.word o, b.get o),
        Sound h e.2 := List.forall_mem_map.mpr fun o _ => sound_get hb o
  cases o with
  | body b => simp [Object.fields, sound_componentsOf]
  | ready v r =>
    obtain ⟨id, rfl, hb⟩ := ho
    have hv : Sound h (Value.handle ⟨.body, id⟩) := sound_handle.mpr ⟨_, hb⟩
    simp [Object.fields, hv, sound_ofOption_bread]
  | bodyBuilder b => simpa [Object.fields] using sound_bodyBuilder.mp ho
  | readyBuilder b => simpa [Object.fields] using sound_readyBuilder.mp ho
  | config c => simpa [Object.fields] using sound_config.mp ho
  | technologyBuilder b | technology b => exact hbindings ho
  | book v | pantry v =>
    have hv : Sound h v := ho
    simp [Object.fields, hv]
  | kitchen b t =>
    have hb : Sound h b := ho.1
    have ht : Sound h t := ho.2
    simp [Object.fields, hb, ht]
  | _ => simp [Object.fields]

/-- A field that can be written belongs to an object that is not final, and it takes any value. -/
theorem withField?_eq_some {o o' : Object} {name : String} {v : Value} (ho : Sound h o)
    (hv : Sound h v) (ho' : o.withField? name v = some o') :
    Sound h o' ∧ o'.kind = o.kind ∧ isFinal o.kind = false := by
  unfold Object.withField? at ho'
  split at ho'
  next b =>
    cases ho'
    exact ⟨sound_bodyBuilder.mpr ⟨hv, (sound_bodyBuilder.mp ho).2⟩, rfl, rfl⟩
  next b =>
    cases ho'
    exact ⟨sound_bodyBuilder.mpr ⟨(sound_bodyBuilder.mp ho).1, hv⟩, rfl, rfl⟩
  next b =>
    cases ho'
    exact ⟨sound_readyBuilder.mpr ⟨hv, (sound_readyBuilder.mp ho).2⟩, rfl, rfl⟩
  next b =>
    cases ho'
    exact ⟨sound_readyBuilder.mpr ⟨(sound_readyBuilder.mp ho).1, hv⟩, rfl, rfl⟩
  next b name =>
    obtain ⟨p, -, rfl⟩ := Option.map_eq_some_iff.mp ho'
    exact ⟨sound_set ho hv p, rfl, rfl⟩
  next c =>
    obtain ⟨-, hrecipe, hpantry, hfailAt⟩ := sound_config.mp ho
    cases ho'
    exact ⟨sound_config.mpr ⟨hv, hrecipe, hpantry, hfailAt⟩, rfl, rfl⟩
  next c =>
    obtain ⟨hinterpreter, -, hpantry, hfailAt⟩ := sound_config.mp ho
    cases ho'
    exact ⟨sound_config.mpr ⟨hinterpreter, hv, hpantry, hfailAt⟩, rfl, rfl⟩
  next c =>
    obtain ⟨hinterpreter, hrecipe, -, hfailAt⟩ := sound_config.mp ho
    cases ho'
    exact ⟨sound_config.mpr ⟨hinterpreter, hrecipe, hv, hfailAt⟩, rfl, rfl⟩
  next c =>
    obtain ⟨hinterpreter, hrecipe, hpantry, -⟩ := sound_config.mp ho
    cases ho'
    exact ⟨sound_config.mpr ⟨hinterpreter, hrecipe, hpantry, hv⟩, rfl, rfl⟩
  next =>
    cases ho'
    exact ⟨hv, rfl, rfl⟩
  next =>
    cases ho'
    exact ⟨hv, rfl, rfl⟩
  next b t =>
    cases ho'
    exact ⟨⟨hv, ho.2⟩, rfl, rfl⟩
  next b t =>
    cases ho'
    exact ⟨⟨ho.1, hv⟩, rfl, rfl⟩
  next => cases ho'

/-! ### The heap -/

namespace Heap.Valid

variable (hh : h.Valid)

include hh

theorem object? {v : Value} {o : Object} (ho : h.object? v = some o) : Sound h o := by
  cases v with
  | handle g => exact hh.objects ho
  | _ => cases ho

theorem shallow {v : Value} (hv : Sound h v) : Sound h (h.shallow v) := by
  unfold Heap.shallow
  split
  next items ho => exact sound_list.mpr (hh.object? ho)
  next entries ho => exact sound_mapping.mpr (hh.object? ho)
  next items ho => exact sound_tuple.mpr (hh.object? ho)
  next b ho => exact sound_body.mpr (hh.object? ho)
  next body r ho =>
    obtain ⟨id, -, hb⟩ := hh.object? ho
    exact sound_ready.mpr (hh.objects hb)
  next => exact hv

theorem opened (depth : Nat) {v : Value} (hv : Sound h v) : Sound h (h.opened depth v) := by
  induction depth generalizing v with
  | zero => exact hv
  | succ depth ih =>
    have hs := hh.shallow hv
    unfold Heap.opened
    split
    next items hi =>
      rw [hi, sound_list] at hs
      exact sound_list.mpr (sound_map.mpr fun x hx => ih (hs x hx))
    next items hi =>
      rw [hi, sound_tuple] at hs
      exact sound_tuple.mpr (sound_map.mpr fun x hx => ih (hs x hx))
    next entries hi =>
      rw [hi, sound_mapping] at hs
      exact sound_mapping.mpr (sound_map.mpr fun e he => ⟨(hs e he).1, ih (hs e he).2⟩)
    next => exact hs

theorem items? {v : Value} (hv : Sound h v) : Sound h (h.items? v) := by
  unfold Heap.items?
  split
  next items ho => exact sound_some.mpr (hh.object? ho)
  next items ho => exact sound_some.mpr (hh.object? ho)
  next entries ho =>
    have hentries : Sound h entries := hh.object? ho
    exact sound_some.mpr (sound_map.mpr fun e he => (hentries e he).1)
  next ho => exact (hh.object? ho).elim
  next o _ _ _ _ ho =>
    split
    · refine sound_some.mpr (sound_map.mpr fun e he => sound_named.mpr ?_)
      exact sound_fields (hh.object? ho) e he
    · exact sound_none
  next => exact sound_items? hv

theorem written? (v : Value) (name : String) : Sound h (h.written? v name) := by
  intro w hw
  obtain ⟨owner, -, hlookup⟩ := Option.bind_eq_some_iff.mp hw
  exact sound_of_lookup hh.attributes _ w hlookup

theorem arguments (e : Fault) : Sound h (h.arguments e) := by
  unfold Heap.arguments
  split
  next items hw => exact sound_tuple.mp (hh.written? _ _ _ hw)
  next => split <;> simp

end Heap.Valid

/-! ### Attributes -/

theorem sound_memberOwn? {α : Type} [Vocabulary α] (a : α) (name : String) :
    Sound h (Heap.memberOwn? a name) := by
  unfold Heap.memberOwn?
  split <;> simp

theorem sound_numberAttribute? (n : Int) (name : String) : Sound h (Heap.numberAttribute? n name) := by
  unfold Heap.numberAttribute?
  split <;> simp

theorem sound_objectAttribute? {o : Object} (ho : Sound h o) (name : String) :
    Sound h (Heap.objectAttribute? o name) := by
  unfold Heap.objectAttribute?
  refine sound_orElse (sound_of_lookup (sound_fields ho) name) ?_
  split
  next v r => exact sound_of_lookup (by simp [Object.fields, sound_componentsOf]) name
  next => exact sound_none

theorem sound_isBool (x : Except Cause Bool) : Sound h (x.toOption.map Value.bool) := by
  cases x <;> simp [Except.toOption]

theorem sound_memberFirst? {α : Type} [Vocabulary α] {member : α → Value}
    (hmember : ∀ a, Sound h (member a)) (a : α) (name : String) :
    Sound h (Heap.memberFirst? member a name) := by
  unfold Heap.memberFirst?
  split
  · simp
  · simp
  · cases Vocabulary.ofName? (α := α) name with
    | none => exact sound_none
    | some b => exact sound_some.mpr (hmember b)

theorem sound_makerOf? (name : String) : Sound h (Heap.makerOf? name) := by
  unfold Heap.makerOf?
  split
  · exact sound_some.mpr (sound_handle_of_ne (by simp))
  · exact sound_some.mpr (sound_handle_of_ne (by simp))
  · exact sound_none

theorem sound_faultAttribute? {c : Cause} (hc : Sound h c) (name : String) :
    Sound h (Heap.faultAttribute? c name) := by
  unfold Heap.faultAttribute?
  split
  · simp
  · simp
  · exact sound_some.mpr (hc _ (by simp [Cause.held]))
  · exact sound_some.mpr (hc _ (by simp [Cause.held]))
  · exact sound_some.mpr (hc _ (by simp [Cause.held]))
  · exact sound_none

theorem sound_firstAttribute? {v : Value} (hv : Sound h v) (name : String) :
    Sound h (Heap.firstAttribute? v name) := by
  unfold Heap.firstAttribute?
  split
  · exact sound_memberFirst? sound_bread _ _
  · exact sound_memberFirst? sound_component _ _
  · exact sound_memberFirst? sound_operation _ _
  · exact sound_faultAttribute? (sound_fault.mp hv) _
  · exact sound_makerOf? _
  · exact sound_makerOf? _
  · exact sound_makerOf? _
  · exact sound_none

theorem Heap.Valid.ownAttribute? (hh : h.Valid) {v : Value} (hv : Sound h v) (name : String) :
    Sound h (h.ownAttribute? v name) := by
  unfold Heap.ownAttribute?
  split
  · exact sound_numberAttribute? _ _
  · exact sound_numberAttribute? _ _
  · exact sound_memberOwn? _ _
  · exact sound_memberOwn? _ _
  · simp
  · exact sound_memberOwn? _ _
  · exact sound_some.mpr (sound_success.mp hv)
  · exact sound_some.mpr (sound_failure.mp hv)
  · exact sound_some.mpr (sound_tuple.mpr (hh.arguments _))
  · simp
  · exact sound_isBool _
  · exact sound_isBool _
  · intro w hw
    obtain ⟨o, ho, hattribute⟩ := Option.bind_eq_some_iff.mp hw
    exact sound_objectAttribute? (hh.object? ho) _ w hattribute

theorem Heap.Valid.looseAttribute? (hh : h.Valid) (v : Value) (name : String) :
    Sound h ((h.object? v).bind (h.looseAttribute? · name)) := by
  intro w hw
  obtain ⟨o, ho, hattribute⟩ := Option.bind_eq_some_iff.mp hw
  cases o with
  | loose kind fields => exact (hh.object? ho).elim
  | _ => cases hattribute

theorem Heap.Valid.attribute? (hh : h.Valid) {v : Value} (hv : Sound h v) (name : String) :
    Sound h (h.attribute? v name) :=
  sound_orElse (hh.ownAttribute? hv name)
    (sound_orElse (hh.looseAttribute? v name)
      (sound_orElse (hh.written? v name) (sound_firstAttribute? hv name)))

end Deli.Session
