import Deli.Proofs.Calls
import Deli.Proofs.Guarded
import Deli.Proofs.Request

/-! Nothing goes on a sandwich that is not in stock. Each operation of the stocked technology looks
up what is new to it and nothing else, and the fields read a value only after it has been looked
up; so it takes all the operations together, over any run of calls, to see that no sandwich is
returned with something on it that was not there. -/

namespace Deli

attribute [local instance] Scene.plain

variable {ω : Type}

/-! ### What is read is what was looked up -/

namespace Value

/-- A value that is read as a text equals that text, unless both are data that encode it. -/
theorem word?_of_same {v s : Value} {t : String} (hsame : v.same s = true)
    (ht : v.spelled? = some t) (hs : ∀ data, s ≠ .bytes data) : s.word? = some t := by
  have hspelled {u : String} (hu : v.spelled? = some u) (h : (s.word? == some u) = true) :
      s.word? = some t := by
    rw [eq_of_beq h, ← hu, ht]
  cases v with
  | string u => exact hspelled rfl hsame
  | bread b => exact hspelled rfl hsame
  | component c => exact hspelled rfl hsame
  | operation o => exact hspelled rfl hsame
  | bytes data =>
    cases s with
    | bytes others => exact absurd rfl (hs others)
    | _ => cases hsame
  | _ => cases ht

end Value

theorem Checked.memberOrNull_eq_some {α : Type} [Vocabulary α] {name : String} {v : Value} {a : α}
    (h : Checked.memberOrNull α name v = .ok (some a)) : v.member? α = some a := by
  unfold Checked.memberOrNull at h
  split at h
  next => cases h
  next =>
    obtain ⟨b, hb, ha⟩ := Checked.map_eq_ok.mp h
    cases ha
    exact Checked.member_eq_ok.mp hb

/-! ### What is made of what was read -/

theorem Body.ofParts_eq_ok {bread component : Value} {b : Body}
    (h : Body.ofParts bread (.list [component]) = .ok b) :
    ∃ c, bread.member? Bread = some b.bottom ∧ component.member? Component = some c ∧
      b.components = [c] := by
  have hbuild : BodyBuilder.build ⟨bread, .list [component]⟩ = .ok b := h
  obtain ⟨hbottom, hmap, -⟩ := BodyBuilder.build_eq_ok.mp hbuild
  obtain ⟨c, hc, hcomponent⟩ := List.map_eq_singleton_iff.mp hmap.symm
  exact ⟨c, hbottom, hcomponent.symm, hc⟩

theorem Body.add_eq_ok {b d : Body} {v : Value} (h : b.add v = .ok d) :
    ∃ c, v.member? Component = some c ∧ d = b.withComponent c := by
  have hbuild : BodyBuilder.build ⟨.bread b.bottom, .list (b.components.map .component ++ [v])⟩ =
      .ok d := h
  obtain ⟨hbottom, hmap, -⟩ := BodyBuilder.build_eq_ok.mp hbuild
  rw [List.map_append, List.map_map, eq_comm, List.map_eq_append_iff] at hmap
  obtain ⟨cs, last, hcomponents, hcs, hlast⟩ := hmap
  obtain ⟨c, rfl, hc⟩ := List.map_eq_singleton_iff.mp hlast
  have hkept : cs = b.components := by
    simpa [Function.comp_def, List.map_inj_right] using hcs
  obtain ⟨bottom, components⟩ := d
  simp only [Value.member?_bread, Option.some.injEq] at hbottom
  refine ⟨c, hc.symm, ?_⟩
  rw [Body.withComponent, hbottom, ← hkept]
  exact congrArg _ hcomponents

theorem Ready.ofParts_top {body top : Value} {r : Ready} (h : Ready.ofParts body top = .ok r)
    {t : Bread} (ht : r.top = some t) : top.member? Bread = some t := by
  unfold Ready.ofParts ReadyBuilder.build at h
  split at h
  next => cases h
  next =>
    obtain ⟨⟨b, t'⟩, hboth, rfl⟩ := Checked.map_eq_ok.mp (Checked.mapError_eq_ok.mp h)
    obtain ⟨-, htop⟩ := Checked.both_eq_ok.mp hboth
    cases ht
    exact Checked.memberOrNull_eq_some htop

def Body.ingredients (b : Body) : List Ingredient :=
  .bread b.bottom :: b.components.map .component

def Ready.ingredients (r : Ready) : List Ingredient :=
  r.body.ingredients ++ r.top.toList.map .bread

namespace Pantry

variable {p : Pantry}

theorem contains_of_spelled (hp : ∀ data, .bytes data ∉ p.stock) {v : Value} {x : Ingredient}
    (hv : p.stock.any v.same = true) (hx : v.spelled? = some x.word) : p.contains x := by
  obtain ⟨s, hs, hsame⟩ := List.any_eq_true.mp hv
  have hword := Value.word?_of_same hsame hx fun data hdata => hp data (hdata ▸ hs)
  refine List.any_eq_true.mpr ⟨s, hs, ?_⟩
  cases x <;> exact beq_iff_eq.mpr hword

theorem contains_bread (hp : ∀ data, .bytes data ∉ p.stock) {v : Value} {b : Bread}
    (hv : p.stock.any v.same = true) (hb : v.member? Bread = some b) : p.contains (.bread b) :=
  contains_of_spelled hp hv (Value.spelled?_of_member? hb)

theorem contains_component (hp : ∀ data, .bytes data ∉ p.stock) {v : Value} {c : Component}
    (hv : p.stock.any v.same = true) (hc : v.member? Component = some c) :
    p.contains (.component c) :=
  contains_of_spelled hp hv (Value.spelled?_of_member? hc)

/-- A body or a finished sandwich of nothing but what is in stock. -/
inductive Supplies (p : Pantry) : Value → Prop
  | body (b : Body) (h : ∀ x ∈ b.ingredients, p.contains x) : p.Supplies (.body b)
  | ready (r : Ready) (h : ∀ x ∈ r.ingredients, p.contains x) : p.Supplies (.ready r)

/-- What an outcome carries, if it is a success, is of nothing but what is in stock. -/
def Backs (p : Pantry) (r : Value) : Prop := ∀ v, r = .success v → p.Supplies v

theorem backs_failure (p : Pantry) (e : Value) : p.Backs (.failure e) := fun _ h => nomatch h

end Pantry

/-! ### One call -/

namespace Interpreter

variable {p : Pantry}

/-- An ingredient is in stock and the operation goes on, or it does not go on at all. -/
theorem whenFound_cases (p : Pantry) (v : Value) (rest : Action ω Value) :
    (p.stock.any v.same = true ∧ whenFound p.get v rest = rest) ∨
      ∃ reply, (whenFound p.get v rest).Replies reply ∧ ∀ K, reply.Returns K := by
  have hany : p.stock.anyM (m := Action ω) (Scene.same v) = pure (p.stock.any v.same) :=
    List.anyM_pure
  by_cases hkey : v.isKey
  · have hholds : (p.holds v : Action ω Bool) = pure (p.stock.any v.same) := by
      rw [Pantry.holds, if_pos hkey, hany]
    cases hstock : p.stock.any v.same with
    | true =>
      rw [hstock] at hholds
      left
      refine ⟨rfl, ?_⟩
      simp only [whenFound, Pantry.get, Pantry.getFrom, hholds, pure_bind, ↓reduceIte]
      rfl
    | false =>
      rw [hstock] at hholds
      right
      cases hname : v.name? with
      | none =>
        refine ⟨.raises .noAttribute, fun w => ?_, fun K => trivial⟩
        have hnameOf : (Scene.nameOf v : Action ω String) = Action.raise .noAttribute := by
          simp only [Scene.nameOf, Scene.name?, hname, pure_bind]
        simp only [whenFound, Pantry.get, Pantry.getFrom, hholds, pure_bind, hnameOf,
          Action.exec_bind, Action.exec_raise, Bool.false_eq_true, ↓reduceIte]
        rfl
      | some name =>
        refine ⟨.fails (.notFound name v), fun w => ?_, fun K => trivial⟩
        have hnameOf : (Scene.nameOf v : Action ω String) = pure name := by
          simp only [Scene.nameOf, Scene.name?, hname, pure_bind]
        simp only [whenFound, Pantry.get, Pantry.getFrom, hholds, pure_bind, hnameOf,
          Action.exec_bind, Action.exec_print, Pantry.notFound, Action.exec_newFault,
          Action.exec_pure, Bool.false_eq_true, ↓reduceIte]
        rfl
  · right
    refine ⟨.raises .misuse, fun w => ?_, fun K => trivial⟩
    simp only [whenFound, Pantry.get, Pantry.getFrom, Pantry.holds, if_neg hkey, Action.exec_bind,
      Action.exec_raise]
    rfl

theorem replies_start (bread component : Value) :
    (start bread component : Action ω Value).Replies
      (match Body.ofParts bread (.list [component]) with
        | .ok b => .returns (.success (.body b))
        | .error c => .raises c) := by
  intro w
  rw [start]
  cases Body.ofParts bread (.list [component]) <;> rfl

theorem replies_add (b : Body) (v : Value) :
    (add (.success (.body b)) v : Action ω Value).Replies
      (match b.add v with
        | .ok c => .returns (.success (.body c))
        | .error c => .fails c) := by
  intro w
  rw [exec_add]
  cases b.add v <;> rfl

theorem replies_finish (b : Body) (top : Value) :
    (finish (.success (.body b)) top : Action ω Value).Replies
      (match Ready.ofParts (.body b) top with
        | .ok r => .returns (.success (.ready r))
        | .error c => .fails c) := by
  intro w
  rw [exec_finish]
  cases Ready.ofParts (.body b) top <;> rfl

theorem replies_add_ready (r : Ready) (v : Value) :
    (add (.success (.ready r)) v : Action ω Value).Replies (.raises .misuse) :=
  fun w => congrArg Prod.fst (exec_add_ready r v w)

theorem replies_finish_ready (r : Ready) (top : Value) :
    ∃ c, (finish (.success (.ready r)) top : Action ω Value).Replies (.fails c) := by
  obtain ⟨problems, hfinish⟩ := exec_finish_ready (ω := ω) r top
  exact ⟨_, fun w => congrArg Prod.fst (hfinish w)⟩

section Stocked

variable (hp : ∀ data, .bytes data ∉ p.stock)
include hp

theorem replies_stocked_start (bread component : Value) :
    ∃ reply, ((stocked p).technology.start bread component : Action ω Value).Replies reply ∧
      reply.Returns p.Backs := by
  change ∃ reply, (whenFound p.get bread (whenFound p.get component (start bread component)) :
    Action ω Value).Replies reply ∧ _
  obtain ⟨hbread, heq⟩ | ⟨reply, hreply, hnone⟩ :=
    whenFound_cases p bread (whenFound p.get component (start bread component) : Action ω Value)
  · rw [heq]
    obtain ⟨hcomponent, heq⟩ | ⟨reply, hreply, hnone⟩ :=
      whenFound_cases p component (start bread component : Action ω Value)
    · rw [heq]
      refine ⟨_, replies_start bread component, ?_⟩
      cases h : Body.ofParts bread (.list [component]) with
      | error c => trivial
      | ok b =>
        obtain ⟨c, hb, hc, hcs⟩ := Body.ofParts_eq_ok h
        rintro v ⟨⟩
        refine .body b fun x hx => ?_
        rw [Body.ingredients, hcs, List.map_singleton, List.mem_pair] at hx
        rcases hx with rfl | rfl
        · exact Pantry.contains_bread hp hbread hb
        · exact Pantry.contains_component hp hcomponent hc
    · exact ⟨reply, hreply, hnone _⟩
  · exact ⟨reply, hreply, hnone _⟩

theorem replies_stocked_add {r : Value} (hr : p.Backs r) (component : Value) :
    ∃ reply, ((stocked p).technology.add r component : Action ω Value).Replies reply ∧
      reply.Returns p.Backs := by
  cases r with
  | success v =>
    change ∃ reply, (whenFound p.get component (add (.success v) component) :
      Action ω Value).Replies reply ∧ _
    obtain ⟨hcomponent, heq⟩ | ⟨reply, hreply, hnone⟩ :=
      whenFound_cases p component (add (.success v) component : Action ω Value)
    · rw [heq]
      cases hr v rfl with
      | ready q => exact ⟨_, replies_add_ready q component, trivial⟩
      | body b hb =>
        refine ⟨_, replies_add b component, ?_⟩
        cases h : b.add component with
        | error c => trivial
        | ok d =>
          obtain ⟨c, hc, rfl⟩ := Body.add_eq_ok h
          rintro v ⟨⟩
          refine .body _ fun x hx => ?_
          rw [Body.ingredients, Body.withComponent, List.map_append, ← List.cons_append,
            List.mem_append, List.map_singleton, List.mem_singleton] at hx
          rcases hx with hx | rfl
          · exact hb x hx
          · exact Pantry.contains_component hp hcomponent hc
    · exact ⟨reply, hreply, hnone _⟩
  | failure e => exact ⟨.returns (.failure e), fun _ => rfl, p.backs_failure e⟩
  | handle h =>
    obtain ⟨kind, id⟩ := h
    cases kind with
    | outcome =>
      change ∃ reply, (whenFound p.get component (add (.handle ⟨.outcome, id⟩) component) :
        Action ω Value).Replies reply ∧ _
      obtain ⟨-, heq⟩ | ⟨reply, hreply, hnone⟩ :=
        whenFound_cases p component (add (.handle ⟨.outcome, id⟩) component : Action ω Value)
      · rw [heq]
        exact ⟨.raises .unimplemented, fun _ => rfl, trivial⟩
      · exact ⟨reply, hreply, hnone _⟩
    | _ => exact ⟨.raises .noAttribute, fun _ => rfl, trivial⟩
  | _ => exact ⟨.raises .noAttribute, fun _ => rfl, trivial⟩

theorem replies_stocked_finish {r : Value} (hr : p.Backs r) (top : Value) :
    ∃ reply, ((stocked p).technology.finish r top : Action ω Value).Replies reply ∧
      reply.Returns p.Backs := by
  -- what is made of a body, once the top is known to be in stock if there is one
  have hfinish {v : Value} (hv : p.Supplies v)
      (htop : top = .null ∨ p.stock.any top.same = true) :
      ∃ reply, (finish (.success v) top : Action ω Value).Replies reply ∧
        reply.Returns p.Backs := by
    cases hv with
    | ready q =>
      obtain ⟨c, hc⟩ := replies_finish_ready (ω := ω) q top
      exact ⟨.fails c, hc, trivial⟩
    | body b hb =>
      refine ⟨_, replies_finish b top, ?_⟩
      cases h : Ready.ofParts (.body b) top with
      | error c => trivial
      | ok q =>
        have hbody : b = q.body := Except.ok.inj (Ready.ofParts_nested h)
        rintro v ⟨⟩
        refine .ready q fun x hx => ?_
        rcases List.mem_append.mp hx with hx | hx
        · exact hb x (hbody ▸ hx)
        · obtain ⟨t, ht, rfl⟩ := List.mem_map.mp hx
          have ht := Ready.ofParts_top h (Option.mem_toList.mp ht)
          rcases htop with rfl | htop
          · cases ht
          · exact Pantry.contains_bread hp htop ht
  cases r with
  | success v =>
    have hv := hr v rfl
    by_cases hnull : top = .null
    · subst hnull
      exact hfinish hv (.inl rfl)
    · have hlook : ((stocked p).technology.finish (.success v) top : Action ω Value) =
          whenFound p.get top (finish (.success v) top) := by
        cases top with
        | null => exact absurd rfl hnull
        | _ => rfl
      rw [hlook]
      obtain ⟨htop, heq⟩ | ⟨reply, hreply, hnone⟩ :=
        whenFound_cases p top (finish (.success v) top : Action ω Value)
      · rw [heq]
        exact hfinish hv (.inr htop)
      · exact ⟨reply, hreply, hnone _⟩
  | failure e => exact ⟨.returns (.failure e), fun _ => rfl, p.backs_failure e⟩
  | handle h =>
    obtain ⟨kind, id⟩ := h
    cases kind with
    | outcome => exact ⟨.raises .unimplemented, fun _ => rfl, trivial⟩
    | _ => exact ⟨.raises .noAttribute, fun _ => rfl, trivial⟩
  | _ => exact ⟨.raises .noAttribute, fun _ => rfl, trivial⟩

/-- The stocked technology replies to its arguments alone, and with nothing that is not in stock. -/
theorem stocked_replies : ((stocked p).technology : Technology ω).Replies p.Backs where
  failure := p.backs_failure
  start := replies_stocked_start hp
  add := replies_stocked_add hp
  finish := replies_stocked_finish hp
  add_failure _ _ _ := rfl
  finish_failure _ _ _ := rfl

end Stocked

end Interpreter

/-! ### Runs -/

/-- What comes from outside is no success. -/
def Outcome.NoSuccess (v : Value) : Prop := ∀ u, v ≠ .success u

namespace Technology

/-- Whatever calls are made on the stocked technology, with whatever ingredients, on outcomes that
it has returned before and on failures from outside: every success that it returns carries a body or
a finished sandwich, and nothing is on it that is not in stock. The calls that raise may as well be
left out, as the others return the like of what they have returned. A stock of ingredients and texts
holds no data in bytes. -/
theorem stays_in_stock {stock : List Value} (hstock : ∀ data, .bytes data ∉ stock)
    (calls : List (Invocation Outcome.NoSuccess)) (w : World ω) :
    let pantry : Pantry := ⟨stock⟩
    let t : Technology ω := (Interpreter.stocked pantry).technology
    let events := (t.perform calls [] w).1
    (∀ e ∈ events, ∀ v, e.result = .ok (.success v) → pantry.Supplies v) ∧
    ∀ w', List.Forall₂ Noted.Alike (events.filter (·.result.isOk))
      (t.perform (returning calls events) [] w').1 := by
  intro pantry t events
  have ht : t.Replies pantry.Backs := Interpreter.stocked_replies hstock
  have houtside (v : Value) (hv : Outcome.NoSuccess v) : pantry.Backs v :=
    fun u hu => absurd hu (hv u)
  have hnull : pantry.Backs .null := fun _ h => nomatch h
  have hnone : ∀ v ∈ ([] : List Value), pantry.Backs v := by simp
  refine ⟨fun e he v hv => ?_, fun w' => ?_⟩
  · exact ht.perform_kept houtside hnull calls hnone w e he _ hv v rfl
  · exact ht.perform_returning houtside hnull calls hnone .nil w w'

/-- Cheese is not there, and a list cannot even be looked up; the body goes on being used. -/
theorem stays_in_stock_reused :
    let stock : List Value := [.string "toast", .component .salt]
    let calls : List (Invocation Outcome.NoSuccess) := [
      .start (.bread .toast) (.string "salt"), .add (.earlier 0) (.component .cheese),
      .add (.earlier 0) (.list []), .add (.earlier 0) (.component .salt),
      .finish (.outside (.failure .null) fun _ h => nomatch h) .null,
      .finish (.earlier 2) (.string "toast")]
    let t : Technology Unit := (Interpreter.stocked ⟨stock⟩).technology
    let events := (t.perform calls [] ⟨[], 0, ()⟩).1
    let sandwich : Ready := ⟨⟨.toast, [.salt, .salt]⟩, some .toast⟩
    (∀ data, .bytes data ∉ stock) ∧
      events.map (·.result.isOk) = [true, true, false, true, true, true] ∧
      (events.map (·.result)).getLast? = some (.ok (.success (.ready sandwich))) ∧
      (⟨stock⟩ : Pantry).Supplies (.ready sandwich) ∧
      List.Forall₂ Noted.Alike (events.filter (·.result.isOk))
        (t.perform (calls.eraseIdx 2) [] ⟨[], 7, ()⟩).1 := by
  intro stock calls t events sandwich
  have hstock : ∀ data, .bytes data ∉ stock := by simp [stock]
  obtain ⟨hsupplies, hrest⟩ := stays_in_stock hstock calls (⟨[], 0, ()⟩ : World Unit)
  have hlast : ∃ e ∈ events, e.result = .ok (.success (.ready sandwich)) :=
    ⟨_, List.getLast_mem (List.cons_ne_nil _ _), rfl⟩
  obtain ⟨e, he, hresult⟩ := hlast
  exact ⟨hstock, rfl, rfl, hsupplies e he _ hresult, hrest ⟨[], 7, ()⟩⟩

/-- Data that encode a word are read as the member but do not equal it. -/
example :
    let toast : Value := .bytes [116, 111, 97, 115, 116]
    let salt : Value := .bytes [115, 97, 108, 116]
    let pantry : Pantry := ⟨[toast, salt]⟩
    (((Interpreter.stocked pantry).technology.start toast salt).exec (⟨[], 0, ()⟩ : World Unit)).1 =
      .ok (.success (.body ⟨.toast, [.salt]⟩)) ∧ pantry.contains (.bread .toast) = false :=
  ⟨rfl, rfl⟩

end Technology

end Deli
