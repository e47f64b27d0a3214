import Deli.Proofs.Program

/-! Where sandwiches come from. In a run on any of the four technologies no call raises, and every
body that comes out goes back to one starting call and to additions made each to the outcome of
the one before: it has the bread that was started with and just the components of those calls, in
their order. A finished sandwich is the body that was finished, with the top asked for. -/

namespace Deli

attribute [local instance] Scene.plain

variable {ω α : Type} {n : Nat}

def Outcome.IsFailure (v : Value) : Prop := ∃ e, v = .failure e

/-- The calls that start and add; outcomes are numbered by them. -/
def makers (events : List Event) : List Event :=
  events.filter fun e => e.request.operation != .finish

/-- The call numbered `k` starts with a bread or adds to the outcome of an earlier call that goes
back to it, and these calls put down the components `cs` one after the other. -/
inductive GoesBack (made : List Event) : Nat → Bread → List Component → Prop
  | start {k : Nat} {bread : Bread} {component : Component} {r : Value}
      (h : made[k]? = some ⟨.start bread component, none, r⟩) :
      GoesBack made k bread [component]
  | add {j k : Nat} {bread : Bread} {cs : List Component} {e : Event} {component : Component}
      {r : Value} (before : GoesBack made j bread cs) (hlt : j < k) (hj : made[j]? = some e)
      (h : made[k]? = some ⟨.add e.result component, some j, r⟩) :
      GoesBack made k bread (cs ++ [component])

/-- Every starting or adding call has failed, or made a body that goes back to its calls. -/
def BodiesGoBack (made : List Event) : Prop :=
  ∀ k e, made[k]? = some e → Outcome.IsFailure e.result ∨
    ∃ b : Body, e.result = .success (.body b) ∧ GoesBack made k b.bottom b.components

/-- Every finishing call has failed, or it was given the body that a call before it had made, and
has made a finished sandwich of just that body and its own top. -/
def FinishesBodies (made events : List Event) : Prop :=
  ∀ before r top taken result after, events = before ++ ⟨.finish r top, taken, result⟩ :: after →
    Outcome.IsFailure result ∨ ∃ b j d, r = .success (.body b) ∧ taken = some j ∧
      (made ++ makers before)[j]? = some d ∧ d.result = r ∧ result = .success (.ready ⟨b, top⟩)

theorem getElem?_append_of_eq_some {made : List Event} {k : Nat} {e : Event}
    (h : made[k]? = some e) (more : List Event) : (made ++ more)[k]? = some e := by
  obtain ⟨hk, -⟩ := List.getElem?_eq_some_iff.mp h
  rw [List.getElem?_append_left hk, h]

theorem GoesBack.append {made : List Event} {k : Nat} {bread : Bread} {cs : List Component}
    (h : GoesBack made k bread cs) (more : List Event) : GoesBack (made ++ more) k bread cs := by
  induction h with
  | start h => exact .start (getElem?_append_of_eq_some h more)
  | add _ hlt hj h ih =>
    exact .add ih hlt (getElem?_append_of_eq_some hj more) (getElem?_append_of_eq_some h more)

/-- A new call keeps the property if it does right by itself. -/
theorem BodiesGoBack.concat {made : List Event} (hmade : BodiesGoBack made) {e : Event}
    (he : Outcome.IsFailure e.result ∨ ∃ b : Body, e.result = .success (.body b) ∧
      GoesBack (made ++ [e]) made.length b.bottom b.components) : BodiesGoBack (made ++ [e]) := by
  intro k d hd
  rcases Nat.lt_trichotomy k made.length with hk | rfl | hk
  · rw [List.getElem?_append_left hk] at hd
    rcases hmade k d hd with hf | ⟨b, hb, h⟩
    · exact .inl hf
    · exact .inr ⟨b, hb, h.append [e]⟩
  · simp only [List.getElem?_concat_length, Option.some.injEq] at hd
    subst hd
    exact he
  · rw [List.getElem?_eq_none (by simp; omega)] at hd
    cases hd

/-- The first call of a run, as it is the next one of those that start and add. -/
theorem FinishesBodies.cons_maker {made : List Event} {e : Event}
    (he : e.request.operation ≠ .finish) {events : List Event}
    (h : FinishesBodies (made ++ [e]) events) : FinishesBodies made (e :: events) := by
  intro before r top taken result after hsplit
  cases before with
  | nil =>
    simp only [List.nil_append, List.cons.injEq] at hsplit
    exact absurd (by rw [hsplit.1]; rfl) he
  | cons d before =>
    simp only [List.cons_append, List.cons.injEq] at hsplit
    obtain ⟨rfl, hsplit⟩ := hsplit
    have hmakers : made ++ makers (e :: before) = made ++ [e] ++ makers before := by
      simp [makers, he]
    rw [hmakers]
    exact h before r top taken result after hsplit

theorem FinishesBodies.cons_finish {made : List Event} {r : Value} {top : Option Bread}
    {taken : Option Nat} {result : Value} {events : List Event}
    (he : Outcome.IsFailure result ∨ ∃ b j d, r = .success (.body b) ∧ taken = some j ∧
      made[j]? = some d ∧ d.result = r ∧ result = .success (.ready ⟨b, top⟩))
    (h : FinishesBodies made events) :
    FinishesBodies made (⟨.finish r top, taken, result⟩ :: events) := by
  intro before r' top' taken' result' after hsplit
  cases before with
  | nil =>
    simp only [List.nil_append, List.cons.injEq, Event.mk.injEq, Request.finish.injEq] at hsplit
    obtain ⟨⟨⟨rfl, rfl⟩, rfl, rfl⟩, rfl⟩ := hsplit
    simpa [makers] using he
  | cons d before =>
    simp only [List.cons_append, List.cons.injEq] at hsplit
    obtain ⟨rfl, hsplit⟩ := hsplit
    exact h before r' top' taken' result' after hsplit

namespace Program

/-- From the calls `made` on, an action does not raise, and what it lists does right by every
sandwich. -/
def Traced (made : List Event) (run : Action ω (List Event × α)) (w : World ω) : Prop :=
  ∃ events a w', run.exec w = (.ok (events, a), w') ∧ BodiesGoBack (made ++ makers events) ∧
    FinishesBodies made events

section Runs

variable {made : List Event} {outcomes : Vector Value n}

theorem getElem?_made (hmade : made.map (·.result) = outcomes.toList) (i : Fin n) :
    ∃ e, made[(i : Nat)]? = some e ∧
      e.result = (Source.earlier i : Source Outcome.IsFailure n).value outcomes := by
  have h : (made.map (·.result))[(i : Nat)]? =
      some ((Source.earlier i : Source Outcome.IsFailure n).value outcomes) := by
    rw [hmade]
    simp [Source.value]
  rw [List.getElem?_map, Option.map_eq_some_iff] at h
  exact h

/-- What a program takes is a failure, or a body made by the call whose outcome it takes. -/
theorem source_made (hmade : made.map (·.result) = outcomes.toList) (hback : BodiesGoBack made)
    (source : Source Outcome.IsFailure n) :
    Outcome.IsFailure (source.value outcomes) ∨
      ∃ (b : Body) (j : Nat) (d : Event), source.value outcomes = .success (.body b) ∧
        source.place? = some j ∧ made[j]? = some d ∧ d.result = source.value outcomes ∧
        GoesBack made j b.bottom b.components := by
  cases source with
  | outside v hv => exact .inl hv
  | earlier i =>
    obtain ⟨d, hd, hr⟩ := getElem?_made hmade i
    rw [← hr]
    rcases hback i d hd with hf | ⟨b, hb, h⟩
    · exact .inl hf
    · exact .inr ⟨b, i, d, hb, rfl, hd, rfl, h⟩

theorem ofBody_of_source {source : Source Outcome.IsFailure n}
    (h : Outcome.IsFailure (source.value outcomes) ∨
      ∃ (b : Body) (j : Nat) (d : Event), source.value outcomes = .success (.body b) ∧
        source.place? = some j ∧ made[j]? = some d ∧ d.result = source.value outcomes ∧
        GoesBack made j b.bottom b.components) : Outcome.OfBody (source.value outcomes) := by
  rcases h with ⟨e, h⟩ | ⟨b, -, -, h, -⟩
  · rw [h]
    exact .failure e
  · rw [h]
    exact .body b

end Runs

section Calls

variable {made : List Event} {t : Technology ω} {q : Request} {taken : Option Nat} {r : Value}
  {next : Value → Action ω (List Event × α)} {w w' : World ω}

theorem Traced.maker (hserve : (t.serve q).exec w = (.ok r, w')) (hmaker : q.operation ≠ .finish)
    (hnext : Traced (made ++ [⟨q, taken, r⟩]) (next r) w') :
    Traced made (call t q taken next) w := by
  obtain ⟨events, a, w', hrun, hbodies, hfinishes⟩ := hnext
  refine ⟨⟨q, taken, r⟩ :: events, a, w', ?_, ?_, hfinishes.cons_maker hmaker⟩
  · simp only [call, Action.exec_bind, hserve, hrun, Action.exec_pure]
  · simpa [makers, hmaker] using hbodies

theorem Traced.finish {v : Value} {top : Option Bread}
    (hserve : (t.serve (.finish v top)).exec w = (.ok r, w'))
    (hr : Outcome.IsFailure r ∨ ∃ b j d, v = .success (.body b) ∧ taken = some j ∧
      made[j]? = some d ∧ d.result = v ∧ r = .success (.ready ⟨b, top⟩))
    (hnext : Traced made (next r) w') : Traced made (call t (.finish v top) taken next) w := by
  obtain ⟨events, a, w', hrun, hbodies, hfinishes⟩ := hnext
  refine ⟨⟨.finish v top, taken, r⟩ :: events, a, w', ?_, ?_, hfinishes.cons_finish hr⟩
  · simp only [call, Action.exec_bind, hserve, hrun, Action.exec_pure]
  · simpa [makers, Request.operation] using hbodies

end Calls

/-- The run of a program raises nothing and does right by every sandwich. -/
theorem exec_run_traced (i : Interpreter) (p : Program Outcome.IsFailure α n) (made : List Event)
    (outcomes : Vector Value n) (hmade : made.map (·.result) = outcomes.toList)
    (hback : BodiesGoBack made) (w : World ω) :
    Traced made (p.run i.technology outcomes) w := by
  induction p generalizing made w with
  | done a => exact ⟨[], a, w, rfl, by simpa [makers] using hback, by simp [FinishesBodies]⟩
  | start bread component next ih =>
    obtain ⟨r, w', hserve, hr⟩ := i.exec_serve (q := .start bread component) trivial w
    refine .maker hserve (by simp [Request.operation])
      (ih r _ _ (by simp [hmade, Vector.toList_push]) (hback.concat ?_) w')
    rcases hr with rfl | hr
    · exact .inr ⟨⟨bread, [component]⟩, rfl, .start List.getElem?_concat_length⟩
    · exact .inl hr
  | add source component next ih =>
    have hsource := source_made hmade hback source
    obtain ⟨r, w', hserve, hr⟩ :=
      i.exec_serve (q := .add (source.value outcomes) component) (ofBody_of_source hsource) w
    refine .maker hserve (by simp [Request.operation])
      (ih r _ _ (by simp [hmade, Vector.toList_push]) (hback.concat ?_) w')
    rcases hr with rfl | hr
    · rcases hsource with ⟨e, he⟩ | ⟨b, j, d, hb, hplace, hd, hv, h⟩
      · exact .inl ⟨e, by simp [he, Request.outcome]⟩
      · have hj : j < made.length := (List.getElem?_eq_some_iff.mp hd).1
        refine .inr ⟨b.withComponent component, by simp [hb, Request.outcome], ?_⟩
        rw [hplace, ← hv]
        exact .add (h.append _) hj (getElem?_append_of_eq_some hd _) List.getElem?_concat_length
    · exact .inl hr
  | finish source top next ih =>
    have hsource := source_made hmade hback source
    obtain ⟨r, w', hserve, hr⟩ :=
      i.exec_serve (q := .finish (source.value outcomes) top) (ofBody_of_source hsource) w
    refine .finish hserve ?_ (ih r _ _ hmade hback w')
    rcases hr with rfl | hr
    · rcases hsource with ⟨e, he⟩ | ⟨b, j, d, hb, hplace, hd, hv, -⟩
      · exact .inl ⟨e, by simp [he, Request.outcome]⟩
      · exact .inr ⟨b, j, d, hb, hplace, hd, hv, by simp [hb, Request.outcome]⟩
    · exact .inl hr

/-- No technology raises in a run of its operations on members, on their own outcomes and on
failures from outside. Each call succeeds or fails, and every sandwich that comes out is what the
calls that it goes back to have put together. -/
theorem sandwiches_go_back (p : Program Outcome.IsFailure α 0) (i : Interpreter) (w : World ω) :
    ∃ events a w', (p.run i.technology #v[]).exec w = (.ok (events, a), w') ∧
      (∀ e ∈ events, Outcome.IsFailure e.result ∨ ∃ v, e.result = .success v) ∧
      BodiesGoBack (makers events) ∧ FinishesBodies [] events := by
  have hnil : BodiesGoBack [] := by simp [BodiesGoBack]
  obtain ⟨events, a, w', hrun, hbodies, hfinishes⟩ := p.exec_run_traced i [] #v[] rfl hnil w
  rw [List.nil_append] at hbodies
  refine ⟨events, a, w', hrun, fun e he => ?_, hbodies, hfinishes⟩
  by_cases hmaker : e.request.operation = .finish
  · obtain ⟨before, after, hsplit⟩ := List.append_of_mem he
    obtain ⟨q, taken, result⟩ := e
    cases q with
    | finish r top =>
      rcases hfinishes before r top taken result after hsplit with hf | ⟨b, _, _, -, -, -, -, h⟩
      · exact .inl hf
      · exact .inr ⟨_, h⟩
    | start bread component => cases hmaker
    | add r component => cases hmaker
  · have hmem : e ∈ makers events := List.mem_filter.mpr ⟨he, by simpa using hmaker⟩
    obtain ⟨k, hk⟩ := List.mem_iff_getElem?.mp hmem
    rcases hbodies k e hk with hf | ⟨b, hb, -⟩
    · exact .inl hf
    · exact .inr ⟨_, hb⟩

end Program

end Deli
