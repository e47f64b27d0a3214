import Deli.Proofs.Exec
import Deli.Recipe

/-! Recipes against an arbitrary technology, one that keeps accounts, refuses what it likes and
raises faults. A recipe starts, adds its components one by one, each to the outcome that the call
before has given, and finishes in any case. The first failure ends the additions and is what is
finished; the first fault ends everything. The calls are observed by a technology that does as
another does and notes them down. -/

namespace Deli

variable {ω : Type}

inductive Outcome.Settled : Value → Prop
  | success (v : Value) : Settled (.success v)
  | failure (v : Value) : Settled (.failure v)

/-- One call of an operation: its arguments, and what it returned or raised. -/
structure Noted where
  operation : Operation
  first : Value
  second : Value
  result : Except Fault Value

/-- The world with a list of calls beside the rest. -/
def World.noting (w : World ω) (calls : List Noted) : World (ω × List Noted) :=
  ⟨w.console, w.nextFault, w.rest, calls⟩

namespace Technology

/-- Starting, and adding to a success, give a success or a failure unless they raise. -/
structure Settles (t : Technology ω) : Prop where
  start (bread component : Value) {w w' : World ω} {r : Value} :
    (t.start bread component).exec w = (.ok r, w') → Outcome.Settled r
  add (v component : Value) {w w' : World ω} {r : Value} :
    (t.add (.success v) component).exec w = (.ok r, w') → Outcome.Settled r

/-- Does a call on the rest of the world, and notes it down with its result. -/
def noted (t : Technology ω) (o : Operation) (first second : Value) :
    Action (ω × List Noted) Value :=
  ExceptT.mk fun w =>
    let (result, w') := (t.run o first second).exec ⟨w.console, w.nextFault, w.rest.1⟩
    (result, w'.noting (w.rest.2 ++ [⟨o, first, second, result⟩]))

/-- The same technology under observation. -/
def noting (t : Technology ω) : Technology (ω × List Noted) where
  start := t.noted .start
  add := t.noted .add
  finish := t.noted .finish

theorem exec_noted (t : Technology ω) {o : Operation} {first second : Value} {w w' : World ω}
    {result : Except Fault Value} (h : (t.run o first second).exec w = (result, w'))
    (calls : List Noted) : (t.noted o first second).exec (w.noting calls) =
      (result, w'.noting (calls ++ [⟨o, first, second, result⟩])) := by
  exact congrArg (fun x => (x.1, x.2.noting (calls ++ [⟨o, first, second, x.1⟩]))) h

end Technology

namespace Recipe

/-- The additions of components one after the other, the first of them to `r 0`, when the `i`-th
one gives `r i`. -/
def additions (components : List Value) (r : Nat → Value) : List Noted :=
  components.mapIdx fun i component => ⟨.add, r i, component, .ok (r (i + 1))⟩

/-- The calls of a recipe, and what it returns or raises in the end. Starting has given `r 0`, and
the `i`-th addition `r i`. -/
inductive ShortCircuit (recipe : Recipe Value) : List Noted → Except Fault Value → Prop
  | startRaises (e : Fault) :
    ShortCircuit recipe [⟨.start, recipe.bottom, recipe.first, .error e⟩] (.error e)
  | addRaises (r : Nat → Value) (k : Nat) (component : Value) (e : Fault)
      (succeeded : ∀ i ≤ k, ∃ v, r i = .success v) (next : recipe.adds[k]? = some component) :
    ShortCircuit recipe
      (⟨.start, recipe.bottom, recipe.first, .ok (r 0)⟩ :: additions (recipe.adds.take k) r ++
        [⟨.add, r k, component, .error e⟩]) (.error e)
  | finishes (r : Nat → Value) (k : Nat) (result : Except Fault Value)
      (succeeded : ∀ i < k, ∃ v, r i = .success v) (within : k ≤ recipe.adds.length)
      (ended : (∃ v, r k = .failure v) ∨ k = recipe.adds.length) :
    ShortCircuit recipe
      (⟨.start, recipe.bottom, recipe.first, .ok (r 0)⟩ :: additions (recipe.adds.take k) r ++
        [⟨.finish, r k, recipe.top, result⟩]) result

theorem additions_cons (component : Value) (components : List Value) (r : Nat → Value) :
    additions (component :: components) r =
      ⟨.add, r 0, component, .ok (r 1)⟩ :: additions components (fun i => r (i + 1)) := by
  simp [additions, List.mapIdx_cons]

/-- The outcomes `r` with another one before them. -/
def preceded (s : Value) (r : Nat → Value) : Nat → Value
  | 0 => s
  | i + 1 => r i

/-- The calls that add components to `s`, up to the first failure or fault, and what they come
to. -/
inductive AddsUp (components : List Value) (s : Value) : List Noted → Except Fault Value → Prop
  | raises (r : Nat → Value) (k : Nat) (component : Value) (e : Fault) (first : r 0 = s)
      (succeeded : ∀ i ≤ k, ∃ v, r i = .success v) (next : components[k]? = some component) :
    AddsUp components s (additions (components.take k) r ++ [⟨.add, r k, component, .error e⟩])
      (.error e)
  | ends (r : Nat → Value) (k : Nat) (first : r 0 = s)
      (succeeded : ∀ i < k, ∃ v, r i = .success v) (within : k ≤ components.length)
      (ended : (∃ v, r k = .failure v) ∨ k = components.length) :
    AddsUp components s (additions (components.take k) r) (.ok (r k))

theorem AddsUp.cons {components : List Value} {s : Value} {calls : List Noted}
    {result : Except Fault Value} (h : AddsUp components s calls result) (v component : Value) :
    AddsUp (component :: components) (.success v)
      (⟨.add, .success v, component, .ok s⟩ :: calls) result := by
  -- an index over the shorter list is one less than over the longer
  have hadd (r : Nat → Value) (k : Nat) (first : r 0 = s) :
      ⟨.add, .success v, component, .ok s⟩ :: additions (components.take k) r =
        additions ((component :: components).take (k + 1)) (preceded (.success v) r) := by
    rw [List.take_succ_cons, additions_cons, ← first]
    rfl
  cases h with
  | raises r k c e first succeeded next =>
    rw [← List.cons_append, hadd r k first]
    refine .raises (preceded (.success v) r) (k + 1) c e rfl (fun i hi => ?_) (by simpa using next)
    cases i with
    | zero => exact ⟨v, rfl⟩
    | succ i => exact succeeded i (by omega)
  | ends r k first succeeded within ended =>
    rw [hadd r k first]
    refine .ends (preceded (.success v) r) (k + 1) rfl (fun i hi => ?_)
      (by simpa using within) (by rwa [List.length_cons, Nat.add_right_cancel_iff])
    cases i with
    | zero => exact ⟨v, rfl⟩
    | succ i => exact succeeded i (by omega)

/-! ### Running a recipe -/

variable {t : Technology ω}

theorem finishWith_of_settled (t : Technology ω) {r : Value} (hr : Outcome.Settled r)
    (top : Value) : finishWith t r top = t.finish r top := by
  cases hr <;> rfl

theorem foldlM_addNext_failure (t : Technology ω) (v : Value) (components : List Value) :
    components.foldlM (addNext t) (.failure v) = pure (.failure v) := by
  induction components with
  | nil => rfl
  | cons component components ih =>
    rw [List.foldlM_cons]
    exact ih

/-- Adding components one by one comes to the same with and without observation. -/
theorem exec_foldlM_addNext (ht : t.Settles) (components : List Value) {s : Value}
    (hs : Outcome.Settled s) (w : World ω) (calls : List Noted) :
    ∃ result w' more, (components.foldlM (addNext t) s).exec w = (result, w') ∧
      (components.foldlM (addNext t.noting) s).exec (w.noting calls) =
        (result, w'.noting (calls ++ more)) ∧
      AddsUp components s more result ∧ ∀ r, result = .ok r → Outcome.Settled r := by
  induction components generalizing s w calls with
  | nil =>
    refine ⟨.ok s, w, [], rfl, by rw [List.append_nil]; rfl, ?_, ?_⟩
    · exact .ends (fun _ => s) 0 rfl (by simp) (by simp) (.inr rfl)
    · rintro r ⟨⟩
      exact hs
  | cons component components ih =>
    cases hs with
    | failure v =>
      refine ⟨.ok (.failure v), w, [], ?_, ?_, ?_, ?_⟩
      · rw [foldlM_addNext_failure, Action.exec_pure]
      · rw [foldlM_addNext_failure, Action.exec_pure, List.append_nil]
      · exact .ends (fun _ => .failure v) 0 rfl (by simp) (by simp) (.inl ⟨v, rfl⟩)
      · rintro r ⟨⟩
        exact .failure v
    | success v =>
      have hnext : addNext t (.success v) component = t.run .add (.success v) component := rfl
      have hnoted : addNext t.noting (.success v) component =
          t.noted .add (.success v) component := rfl
      rw [List.foldlM_cons, List.foldlM_cons, Action.exec_bind, Action.exec_bind, hnext, hnoted]
      cases hadd : (t.run .add (.success v) component).exec w with
      | mk result w₁ =>
      rw [t.exec_noted hadd calls]
      cases result with
      | error e =>
        refine ⟨.error e, w₁, _, rfl, rfl, ?_, by simp⟩
        refine .raises (fun _ => .success v) 0 component e rfl (fun _ _ => ⟨v, rfl⟩) rfl
      | ok r =>
        obtain ⟨result, w₂, more, hrun, hnoting, hmore, hresult⟩ :=
          ih (ht.add _ _ hadd) w₁ (calls ++ [⟨.add, .success v, component, .ok r⟩])
        rw [List.append_assoc] at hnoting
        exact ⟨result, w₂, _, hrun, hnoting, hmore.cons v component, hresult⟩

/-- The calls of a recipe on any technology. It starts, and it adds its components one after the
other to what the call before has given, but none after a failure or a fault. After a failure it
finishes what has failed, after a fault it does not. What it comes to is what the last call has
returned or raised. -/
theorem short_circuits (ht : t.Settles) (recipe : Recipe Value) (w : World ω) :
    ∃ result w' calls, (recipe.run t).exec w = (result, w') ∧
      (recipe.run t.noting).exec (w.noting []) = (result, w'.noting calls) ∧
      recipe.ShortCircuit calls result := by
  have hnoted : t.noting.start recipe.bottom recipe.first =
      t.noted .start recipe.bottom recipe.first := rfl
  simp only [run, follow, Action.exec_bind, hnoted]
  cases hstart : (t.start recipe.bottom recipe.first).exec w with
  | mk result w₁ =>
  rw [t.exec_noted (o := .start) hstart, List.nil_append]
  cases result with
  | error e => exact ⟨.error e, w₁, _, rfl, rfl, .startRaises e⟩
  | ok s =>
    obtain ⟨result, w₂, more, hrun, hnoting, hmore, hresult⟩ :=
      exec_foldlM_addNext ht recipe.adds (ht.start _ _ hstart) w₁
        [⟨.start, recipe.bottom, recipe.first, .ok s⟩]
    simp only [hrun, hnoting, List.cons_append, List.nil_append]
    cases hmore with
    | raises r k component e first succeeded next =>
      subst first
      exact ⟨.error e, w₂, _, rfl, rfl, .addRaises r k component e succeeded next⟩
    | ends r k first succeeded within ended =>
      subst first
      have hr := hresult (r k) rfl
      have hfinish : t.noting.finish (r k) recipe.top = t.noted .finish (r k) recipe.top := rfl
      simp only [finishWith_of_settled _ hr, hfinish]
      cases hlast : (t.finish (r k) recipe.top).exec w₂ with
      | mk result w₃ =>
      rw [t.exec_noted (o := .finish) hlast]
      exact ⟨result, w₃, _, rfl, rfl, .finishes r k result succeeded within ended⟩

/-- A technology that puts down one more component in all, and refuses all that come later. -/
def stingy : Technology Nat where
  start _ _ := pure (.success .null)
  add _ _ := ExceptT.mk fun w =>
    (.ok (if w.rest = 0 then .success .null else .failure .null), { w with rest := w.rest + 1 })
  finish r _ := pure r

theorem stingy_settles : stingy.Settles where
  start _ _ _ _ _ h := by
    obtain ⟨⟨⟩, -⟩ := Prod.mk.inj h
    exact .success .null
  add _ _ w _ _ h := by
    obtain ⟨⟨⟩, -⟩ := Prod.mk.inj h
    by_cases hw : w.rest = 0
    · exact if_pos hw ▸ .success .null
    · exact if_neg hw ▸ .failure .null

theorem short_circuits_stingy :
    ∃ result w' calls, (mine.run stingy.noting).exec (World.noting ⟨[], 0, 0⟩ []) =
        (result, World.noting w' calls) ∧ mine.ShortCircuit calls result ∧
      result = .ok (.failure .null) ∧
      calls.map (·.operation) = [.start, .add, .add, .finish] := by
  obtain ⟨result, w', calls, -, hrun, hcalls⟩ := short_circuits stingy_settles mine ⟨[], 0, 0⟩
  have hresult : result = .ok (.failure .null) := (congrArg Prod.fst hrun).symm
  have hoperations : calls.map (·.operation) = [.start, .add, .add, .finish] :=
    (congrArg (·.2.rest.2.map (·.operation)) hrun).symm
  exact ⟨result, w', calls, hrun, hcalls, hresult, hoperations⟩

end Recipe

end Deli
