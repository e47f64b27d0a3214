import Deli.Proofs.Complaints
import Deli.Proofs.Fusion
import Deli.Proofs.Session.Held

/-! Components put on a body by sums, one after the other, and the same components put into a
builder, to be checked all at once. Both come to the same body if every value stands for a
component. If some do not, building complains about each of them; the sums end with the first one,
and with the first of these complaints. -/

namespace Deli

/-- Components are equal to themselves, whatever objects are compared by. -/
theorem Value.allSameWith_components (f : Handle → Handle → Except Cause Bool)
    (components : List Component) :
    allSameWith f (components.map .component) (components.map .component) = .ok true := by
  induction components with
  | nil => rfl
  | cons c components ih =>
    have hc : sameWith f (.component c) (.component c) = .ok true := by cases c <;> rfl
    simp only [List.map_cons, allSameWith, BEq.rfl, ↓reduceIte, hc]
    exact ih

namespace Session

/-- Adds values to an outcome, one after the other. -/
def added (r : Value) (items : List Value) : Act Value :=
  items.foldlM (fun r x => (Step.plus (.value r) (.value x)).run) r

/-- Puts values into a builder, one after the other. -/
def putInto (builder : Value) (items : List Value) : Act Value :=
  items.foldlM (fun builder x => (Step.call (.value builder) Method.addComponent.name
    [.value (.value x)]).run) builder

/-- A body built on another one, with the values on top of what is there. -/
def rebuilt (v : Value) (items : List Value) : Act Value := do
  let builder ← (Step.call (.value v) Method.toBuilder.name []).run
  let builder ← putInto builder items
  (Step.call (.value builder) Method.build.name []).run

variable {w : World State} {b : Body} {v x : Value} {items : List Value}

/-! ### Sums -/

section Sums

theorem plus_success (v x : Value) :
    (Step.plus (.value (.success v)) (.value x)).run =
      Outcome.guarded (Step.plus (.value v) (.value x)).run := rfl

theorem plus_failure (e x : Value) :
    (Step.plus (.value (.failure e)) (.value x)).run = pure (.failure e) := rfl

theorem added_cons (r x : Value) (items : List Value) :
    added r (x :: items) = (Step.plus (.value r) (.value x)).run >>= (added · items) :=
  List.foldlM_cons

theorem added_append (r : Value) (xs ys : List Value) :
    added r (xs ++ ys) = added r xs >>= (added · ys) := List.foldlM_append

theorem added_failure (e : Value) (items : List Value) :
    added (.failure e) items = pure (.failure e) := by
  induction items with
  | nil => rfl
  | cons x items ih => rw [added_cons, plus_failure, pure_bind, ih]

variable (hv : w.rest.heap.body? v = some b) (hb : b.Filled)
include hv hb

theorem exec_plus_of_standsFor {c : Component} (hx : x.StandsFor (.component c)) :
    ∃ s w', (Step.plus (.value (.success v)) (.value x)).run.exec w = (.ok (.success s), w') ∧
      w'.rest.heap.body? s = some (b.withComponent c) ∧ w.rest.heap.Extends w'.rest.heap := by
  obtain ⟨id, rfl, hobject⟩ := Heap.body?_eq_some.mp hv
  rw [plus_success, Outcome.exec_guarded_step, Step.exec_plus hobject, Body.add_of_standsFor hb hx]
  exact ⟨_, _, rfl, Heap.body?_push _ _, .push _ _⟩

theorem exec_plus_of_stray (hx : ¬ x.IsComponent) :
    (Step.plus (.value (.success v)) (.value x)).run.exec w =
      (.ok (.failure (.fault (.mk w.nextFault
        (.invalid .body (strayComponents b.components.length [x]))))), w.faulted) := by
  obtain ⟨id, rfl, hobject⟩ := Heap.body?_eq_some.mp hv
  rw [plus_success, Outcome.exec_guarded_step, Step.exec_plus hobject, Body.add_of_stray hb hx]
  rfl

end Sums

/-- Values that stand for components come to lie on the others, in their order. -/
theorem exec_added_of_standsFor (hv : w.rest.heap.body? v = some b) (hb : b.Filled)
    {components : List Component}
    (h : List.Forall₂ (fun x c => x.StandsFor (.component c)) items components) :
    ∃ s w', (added (.success v) items).exec w = (.ok (.success s), w') ∧
      w'.rest.heap.body? s = some (b.withComponents components) ∧
      w.rest.heap.Extends w'.rest.heap := by
  induction h generalizing b v w with
  | nil => exact ⟨v, w, rfl, by rw [hv, Body.withComponents_nil], .refl _⟩
  | @cons x c items components hx hrest ih =>
    obtain ⟨s, w₁, hplus, hs, hheap⟩ := exec_plus_of_standsFor hv hb hx
    obtain ⟨t, w₂, hadded, ht, hheap'⟩ := ih hs (b.withComponent_filled c)
    refine ⟨t, w₂, ?_, ?_, hheap.trans hheap'⟩
    · rw [added_cons, Action.exec_bind, hplus]
      exact hadded
    · rw [ht, Body.withComponents_cons]

/-- The sums come to the first complaint if there is any. -/
theorem exec_added_of_stray (hv : w.rest.heap.body? v = some b) (hb : b.Filled) {p : Problem}
    {more : List Problem} (h : strayComponents b.components.length items = p :: more) :
    ∃ n w', (added (.success v) items).exec w =
        (.ok (.failure (.fault (.mk n (.invalid .body [p])))), w') ∧
      w.rest.heap.Extends w'.rest.heap := by
  induction items generalizing b v w with
  | nil => cases h
  | cons x items ih =>
    rw [added_cons, Action.exec_bind]
    by_cases hx : x.IsComponent
    · obtain ⟨c, hc⟩ := hx
      obtain ⟨s, w₁, hplus, hs, hheap⟩ := exec_plus_of_standsFor hv hb hc
      have hrest : strayComponents (b.withComponent c).components.length items = p :: more := by
        rw [strayComponents, if_pos ⟨c, hc⟩] at h
        rw [Body.withComponent, List.length_append]
        exact h
      obtain ⟨n, w₂, hadded, hheap'⟩ := ih hs (b.withComponent_filled c) hrest
      rw [hplus]
      exact ⟨n, w₂, hadded, hheap.trans hheap'⟩
    · have hp : strayComponents b.components.length [x] = [p] := by
        rw [strayComponents, if_neg hx] at h ⊢
        cases h
        rfl
      rw [exec_plus_of_stray hv hb hx, hp]
      simp only [added_failure]
      exact ⟨_, _, rfl, .refl _⟩

theorem exists_stray {n : Nat} (h : ∃ x ∈ items, ¬ x.IsComponent) :
    ∃ p more, strayComponents n items = p :: more := by
  refine List.exists_cons_of_ne_nil fun hnil => ?_
  obtain ⟨x, hmem, hx⟩ := h
  exact hx (strayComponents_eq_nil.mp hnil x hmem)

/-- What would come after a value that stands for no component is not added. -/
theorem exec_added_append (hv : w.rest.heap.body? v = some b) (hb : b.Filled)
    (hitems : ∃ x ∈ items, ¬ x.IsComponent) (back : List Value) :
    (added (.success v) (items ++ back)).exec w = (added (.success v) items).exec w := by
  obtain ⟨p, more, hstrays⟩ := exists_stray hitems
  obtain ⟨n, w', hadded, -⟩ := exec_added_of_stray hv hb hstrays
  rw [added_append, Action.exec_bind, hadded]
  simp only [added_failure, Action.exec_pure]

/-! ### Builders -/

variable {builder bottom : Value} {id list : Nat}

/-- A builder that is made from a body holds what the body holds. -/
theorem exec_reopen (hheap : w.rest.heap.Unwritten) (hv : w.rest.heap.body? v = some b) :
    ∃ builder id list w', (Step.call (.value v) Method.toBuilder.name []).run.exec w =
        (.ok builder, w') ∧ w'.rest.heap.Unwritten ∧
      w'.rest.heap.Holds builder id list (.bread b.bottom) (b.components.map .component) ∧
      w.rest.heap ≤ w'.rest.heap := by
  obtain ⟨body, rfl, hobject⟩ := Heap.body?_eq_some.mp hv
  have hextends : w.rest.heap.Extends (w.rest.heap.withBuilder (.bread b.bottom)
      (b.components.map .component)) := (Heap.Extends.push _ _).trans (.push _ _)
  rw [Step.exec_toBuilder hheap hobject]
  exact ⟨_, _, _, _, rfl, hextends.unwritten hheap, Heap.holds_withBuilder _ _ _, hextends.le⟩

theorem exec_putInto {here : List Value} (hheap : w.rest.heap.Unwritten)
    (h : w.rest.heap.Holds builder id list bottom here) (items : List Value) :
    ∃ w', (putInto builder items).exec w = (.ok builder, w') ∧ w'.rest.heap.Unwritten ∧
      w'.rest.heap.Holds builder id list bottom (here ++ items) ∧ w.rest.heap ≤ w'.rest.heap := by
  induction items generalizing here w with
  | nil => exact ⟨w, rfl, hheap, by rwa [List.append_nil], le_rfl⟩
  | cons x items ih =>
    have hadd : (Step.call (.value builder) Method.addComponent.name [.value (.value x)]).run.exec w
        = (.ok builder, w.over (w.rest.heap.put list (.list (here ++ [x])))) := by
      rw [h.value, Step.exec_addComponent hheap h.builder rfl h.components]
    have hholds := h.put_list h (here ++ [x])
    have hle : w.rest.heap ≤ w.rest.heap.put list (.list (here ++ [x])) :=
      Heap.le_set h.components rfl rfl
    rw [if_pos rfl] at hholds
    obtain ⟨w', hput, hheap', hholds', hle'⟩ :=
      ih (w := w.over (w.rest.heap.put list (.list (here ++ [x])))) hheap hholds
    rw [List.append_assoc] at hholds'
    refine ⟨w', ?_, hheap', hholds', hle.trans hle'⟩
    have hcons : putInto builder (x :: items) = (Step.call (.value builder)
        Method.addComponent.name [.value (.value x)]).run >>= (putInto · items) := List.foldlM_cons
    rw [hcons, Action.exec_bind, hadd]
    exact hput

/-- A body is rebuilt by what a builder with all the components in it builds. -/
theorem exec_rebuilt (hheap : w.rest.heap.Unwritten) (hv : w.rest.heap.body? v = some b)
    (items : List Value) :
    ∃ w', (rebuilt v items).exec w = made (b.reopened items).build w' ∧
      w.rest.heap ≤ w'.rest.heap := by
  obtain ⟨builder, id, list, w₁, hreopen, hheap₁, hholds₁, hle₁⟩ := exec_reopen hheap hv
  obtain ⟨w₂, hput, hheap₂, hholds₂, hle₂⟩ := exec_putInto hheap₁ hholds₁ items
  refine ⟨w₂, ?_, hle₁.trans hle₂⟩
  rw [rebuilt, Action.exec_bind, hreopen]
  simp only [Action.exec_bind, hput]
  rw [hholds₂.value, Step.exec_build hheap₂ hholds₂.builder rfl hholds₂.components]
  rfl

/-! ### Both ways -/

namespace Heap

/-- Two objects that are the same body are equal. -/
theorem same_of_body? {heap : Heap} {u : Value} (hv : heap.body? v = some b)
    (hu : heap.body? u = some b) : heap.same v u = .ok true := by
  obtain ⟨id, rfl, hid⟩ := body?_eq_some.mp hv
  obtain ⟨id', rfl, hid'⟩ := body?_eq_some.mp hu
  have hfields (f : Handle → Handle → Except Cause Bool) :
      (heap.contents ⟨.body, id⟩).sameWith f (heap.contents ⟨.body, id'⟩) = .ok true := by
    have hbottom : (Value.bread b.bottom).sameWith f (.bread b.bottom) = .ok true := by
      cases b.bottom <;> rfl
    have hcomponents : (Value.componentsOf b).sameWith f (.componentsOf b) = .ok true :=
      Value.allSameWith_components f b.components
    have hboth : Value.allSameWith f [.bread b.bottom, .componentsOf b]
        [.bread b.bottom, .componentsOf b] = .ok true := by
      simp only [Value.allSameWith, hbottom, hcomponents]
      rfl
    rw [contents, contents, hid, hid']
    exact hboth
  have hsame : heap.same (.handle ⟨.body, id⟩) (.handle ⟨.body, id'⟩) =
      if id == id' then pure true else
        (heap.contents ⟨.body, id⟩).sameWith (heap.sameHandle 999) (heap.contents ⟨.body, id'⟩) :=
    rfl
  rw [hsame, hfields]
  split <;> rfl

end Heap

theorem exec_same_success {u : Value} (hv : w.rest.heap.body? v = some b)
    (hu : w.rest.heap.body? u = some b) :
    (Scene.same (.success v) (.success u) : Act Bool).exec w = (.ok true, w) := by
  have hsame : (Scene.same (.success v) (.success u) : Act Bool) = Act.seen (·.same v u) := rfl
  rw [hsame, Act.exec_seen, Heap.same_of_body? hv hu, Action.exec_ofExcept_ok]

/-- Sums that add values to a body one by one, and a builder that takes them all and is built at the
end. If every value stands for a component both come to the same: a body with these components on
top of the others. If some do not, building fails with a complaint about each of them and no other,
and the sums with the first complaint alone; what would be added after that makes no difference. The
body stays as it is in any case. -/
theorem sums_agree_with_building {w : World State} (hheap : w.rest.heap.Unwritten) {v : Value}
    {b : Body} (hv : w.rest.heap.body? v = some b) (hb : b.Filled) (items : List Value) :
    ∃ r w₁ built w₂, (added (.success v) items).exec w = (.ok r, w₁) ∧
      (rebuilt v items).exec w₁ = (built, w₂) ∧
      ((∀ x ∈ items, x.IsComponent) → ∃ components s u,
        List.Forall₂ (fun x c => x.StandsFor (.component c)) items components ∧
        r = .success s ∧ built = .ok u ∧
        w₂.rest.heap.body? s = some (b.withComponents components) ∧
        w₂.rest.heap.body? u = some (b.withComponents components) ∧
        (Scene.same r (.success u)).exec w₂ = (.ok true, w₂)) ∧
      ((∃ x ∈ items, ¬ x.IsComponent) → ∃ p more m n,
        strayComponents b.components.length items = p :: more ∧
        r = .failure (.fault (.mk m (.invalid .body [p]))) ∧
        built = .error (.mk n (.invalid .body (p :: more)))) ∧
      (∀ front x back, items = front ++ x :: back → ¬ x.IsComponent →
        (added (.success v) (front ++ [x])).exec w = (.ok r, w₁)) ∧
      w₁.rest.heap.body? v = some b ∧ w₂.rest.heap.body? v = some b := by
  have hback : ∀ front x back, items = front ++ x :: back → ¬ x.IsComponent →
      (added (.success v) (front ++ [x])).exec w = (added (.success v) items).exec w := by
    rintro front x back rfl hx
    rw [List.append_cons front x back]
    exact (exec_added_append hv hb ⟨x, List.mem_concat_self, hx⟩ back).symm
  by_cases hall : ∀ x ∈ items, x.IsComponent
  · obtain ⟨components, hcomponents⟩ := Value.exists_standsFor hall
    obtain ⟨s, w₁, hadded, hs, hheap₁⟩ := exec_added_of_standsFor hv hb hcomponents
    have hv₁ := Heap.body?_of_le hheap₁.le hv
    obtain ⟨w₂, hrebuilt, hle⟩ := exec_rebuilt (hheap₁.unwritten hheap) hv₁ items
    rw [Body.build_reopened_of_standsFor hb hcomponents] at hrebuilt
    have hle' : w₂.rest.heap ≤ w₂.rest.heap.push (.body (b.withComponents components)) :=
      (Heap.Extends.push _ _).le
    have hs' := Heap.body?_of_le (hle.trans hle') hs
    have hu := Heap.body?_push w₂.rest.heap (b.withComponents components)
    rw [hadded] at hback
    refine ⟨_, w₁, _, w₂.over (w₂.rest.heap.push _), hadded, hrebuilt, fun _ =>
      ⟨components, s, _, hcomponents, rfl, rfl, hs', hu, exec_same_success hs' hu⟩, ?_, hback, hv₁,
      Heap.body?_of_le (hle.trans hle') hv₁⟩
    exact fun ⟨x, hmem, hx⟩ => absurd (hall x hmem) hx
  · have hstray : ∃ x ∈ items, ¬ x.IsComponent := by simpa using hall
    obtain ⟨p, more, hstrays⟩ := exists_stray hstray
    obtain ⟨n, w₁, hadded, hheap₁⟩ := exec_added_of_stray hv hb hstrays
    have hv₁ := Heap.body?_of_le hheap₁.le hv
    obtain ⟨w₂, hrebuilt, hle⟩ := exec_rebuilt (hheap₁.unwritten hheap) hv₁ items
    have hne : strayComponents b.components.length items ≠ [] := by rw [hstrays]; simp
    rw [Body.build_reopened_of_stray hb hne, hstrays] at hrebuilt
    rw [hadded] at hback
    exact ⟨_, w₁, _, w₂.faulted, hadded, hrebuilt, fun h => absurd h hall,
      fun _ => ⟨p, more, _, _, hstrays, rfl, rfl⟩, hback, hv₁, Heap.body?_of_le hle hv₁⟩

/-- A number and a bread are no components, and the cheese between them is not added. -/
theorem sums_agree_with_building_mixed :
    let b : Body := ⟨.toast, [.salt]⟩
    let w := World.initial.over (State.initial.heap.push (.body b))
    let v := State.initial.heap.next (.body b)
    let items : List Value := [.string "tomato", .int 1, .component .cheese, .bread .toast]
    let stray (i : Nat) : Problem :=
      ⟨[.field "components", .item i], .notAmong ["salt", "tomato", "cheese"]⟩
    w.rest.heap.Unwritten ∧ w.rest.heap.body? v = some b ∧ b.Filled ∧
      ∃ m n w₁ w₂,
        (added (.success v) items).exec w =
          (.ok (.failure (.fault (.mk m (.invalid .body [stray 2])))), w₁) ∧
        (added (.success v) [.string "tomato", .int 1]).exec w =
          (.ok (.failure (.fault (.mk m (.invalid .body [stray 2])))), w₁) ∧
        (rebuilt v items).exec w₁ = (.error (.mk n (.invalid .body [stray 2, stray 4])), w₂) ∧
        w₂.rest.heap.body? v = some b := by
  intro b w v items stray
  have hheap : w.rest.heap.Unwritten := fun _ _ _ _ => rfl
  have hb : b.Filled := List.cons_ne_nil _ _
  have hone : ¬ (Value.int 1).IsComponent := by decide
  obtain ⟨r, w₁, built, w₂, hadded, hrebuilt, -, hstray, hback, -, hsame⟩ :=
    sums_agree_with_building hheap (v := v) (b := b) rfl hb items
  obtain ⟨p, more, m, n, hstrays, rfl, rfl⟩ := hstray ⟨.int 1, by simp [items], hone⟩
  have hexpected : strayComponents 1 items = [stray 2, stray 4] := by decide
  cases hexpected.symm.trans hstrays
  exact ⟨hheap, rfl, hb, m, n, w₁, w₂, hadded, hback [.string "tomato"] _ _ rfl hone, hrebuilt,
    hsame⟩

/-- Half of a character is no component, but it is not said of it that it is none of the words; and
data in bytes that spell a word are added. -/
theorem half_character_is_not_added :
    let b : Body := ⟨.toast, [.salt]⟩
    let w := World.initial.over (State.initial.heap.push (.body b))
    let v := State.initial.heap.next (.body b)
    let half : Value := .broken [0xD800]
    let salt : Value := .bytes [0x73, 0x61, 0x6C, 0x74]
    let problem : Problem := ⟨[.field "components", .item 1], .notUnicode⟩
    (∃ m n w₁ w₂, (added (.success v) [half]).exec w =
        (.ok (.failure (.fault (.mk m (.invalid .body [problem])))), w₁) ∧
      (rebuilt v [half]).exec w₁ = (.error (.mk n (.invalid .body [problem])), w₂)) ∧
    problem.complaint.code ≠ "enum" ∧
    ∃ s w₁, (added (.success v) [salt]).exec w = (.ok (.success s), w₁) ∧
      w₁.rest.heap.body? s = some ⟨.toast, [.salt, .salt]⟩ :=
  ⟨⟨_, _, _, _, rfl, rfl⟩, by decide, _, _, rfl, rfl⟩

end Session

end Deli
