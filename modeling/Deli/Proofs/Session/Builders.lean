import Deli.Proofs.Session.Bench
import Mathlib.Data.List.Forall2
import Mathlib.Data.List.GetD

/-! Builders in use at the same time keep out of each other's way. Each has a list of its own, so
what is done with one of them shows in no other, and a body that has been built from a builder has
nothing to do with it any more. Whatever is done in between, a builder is what its own history has
made of it. -/

namespace Deli.Session.Bench

/-- The builders there are have a list each, the lists `lists` in their order, and no two of them
have the same one. -/
structure Apart (s : Bench) (lists : List Nat) : Prop where
  unwritten : s.heap.Unwritten
  builders : List.Forall₂
    (fun v list => ∃ id bottom items, s.heap.Holds v id list bottom items) s.builders lists
  distinct : lists.Nodup
  bodies : ∀ v ∈ s.bodies, (s.heap.body? v).isSome

/-- What has become of `s` by some moves: all is apart, the builders are what their own histories
have made of them, under their old numbers, and all that was final is there as it was. -/
structure Follows (s t : Bench) (moves : List Move) : Prop where
  apart : ∃ lists, t.Apart lists
  builders {i : Nat} {bottom : Value} {items : List Value} :
    s.builder? i = some ⟨bottom, .list items⟩ → t.builder? i = some (historyOf i moves bottom items)
  same {i : Nat} : i < s.builders.length → t.builder i = s.builder i
  heap : s.heap ≤ t.heap

variable {s t : Bench} {lists more : List Nat} {i j id list : Nat} {bottom : Value}
  {items : List Value} {m : Move} {x : Except Cause Body}

/-! ### What is on the bench -/

theorem builder_eq_null (hi : ¬ i < s.builders.length) : s.builder i = .null :=
  List.getD_eq_default _ _ (by omega)

theorem lt_of_builder? {b : BodyBuilder} (h : s.builder? i = some b) : i < s.builders.length := by
  by_contra hi
  rw [builder?, builder_eq_null hi] at h
  cases h

theorem builder_append (hi : i < s.builders.length) (vs : List Value)
    (ht : t.builders = s.builders ++ vs) : t.builder i = s.builder i := by
  rw [builder, builder, ht, List.getD_append _ _ _ _ hi]

theorem Apart.index (h : s.Apart lists) (hi : i < s.builders.length) :
    ∃ id list bottom items, lists[i]? = some list ∧
      s.heap.Holds (s.builder i) id list bottom items := by
  obtain ⟨hlength, hall⟩ := List.forall₂_iff_get.mp h.builders
  have hi' : i < lists.length := hlength ▸ hi
  obtain ⟨id, bottom, items, hholds⟩ := hall i hi hi'
  refine ⟨id, lists[i], bottom, items, List.getElem?_eq_getElem hi', ?_⟩
  rw [builder, List.getD_eq_getElem _ _ hi]
  exact hholds

theorem Apart.lt_of_mem (h : s.Apart lists) (hl : list ∈ lists) : list < s.heap.objects.size := by
  obtain ⟨i, hi, rfl⟩ := List.mem_iff_getElem.mp hl
  obtain ⟨id, list, bottom, items, hlist, hholds⟩ := h.index (h.builders.length_eq ▸ hi)
  rw [List.getElem?_eq_getElem hi, Option.some.injEq] at hlist
  rw [hlist]
  exact Heap.lt_of_getElem? hholds.components

theorem Apart.body_cases (h : s.Apart lists) (j : Nat) :
    (∃ b, s.body? j = some b) ∨ s.body j = .null := by
  by_cases hj : j < s.bodies.length
  · left
    have hbody : s.body j ∈ s.bodies := by
      rw [body, List.getD_eq_getElem _ _ hj]
      exact List.getElem_mem hj
    exact Option.isSome_iff_exists.mp (h.bodies _ hbody)
  · exact .inr (List.getD_eq_default _ _ (by omega))

theorem Apart.bodies_of_le (h : s.Apart lists) (hle : s.heap ≤ t.heap) :
    ∀ v ∈ s.bodies, (t.heap.body? v).isSome := by
  intro v hv
  obtain ⟨b, hb⟩ := Option.isSome_iff_exists.mp (h.bodies v hv)
  rw [Heap.body?_of_le hle hb]
  rfl

section Different

variable {id' list' : Nat} {bottom' : Value} {items' : List Value} (h : s.Apart lists)
  (hi : i < s.builders.length) (hj : j < s.builders.length)
  (hholds : s.heap.Holds (s.builder i) id list bottom items)
  (hholds' : s.heap.Holds (s.builder j) id' list' bottom' items')
include h hi hj hholds hholds'

/-- Different builders have different lists. -/
theorem Apart.list_eq_iff : list' = list ↔ i = j := by
  constructor
  · rintro rfl
    obtain ⟨_, _, _, _, hlist, hfound⟩ := h.index hi
    obtain ⟨_, _, _, _, hlist', hfound'⟩ := h.index hj
    rw [(hholds.unique hfound).2.1] at hlist
    rw [(hholds'.unique hfound').2.1] at hlist'
    have hlt : i < lists.length := (List.getElem?_eq_some_iff.mp hlist).1
    exact (List.getElem?_inj hlt h.distinct).mp (hlist.trans hlist'.symm)
  · rintro rfl
    exact (hholds.unique hholds').2.1

theorem Apart.id_eq_iff : id' = id ↔ i = j := by
  constructor
  · rintro rfl
    have hsame := hholds.builder.symm.trans hholds'.builder
    cases hsame
    exact (h.list_eq_iff hi hj hholds hholds').mp rfl
  · rintro rfl
    exact (hholds.unique hholds').1

end Different

/-! ### One move -/

/-- After a move that sets nothing all is there as it was, besides new builders and bodies. -/
theorem Apart.grown (h : s.Apart lists) (hheap : s.heap.Extends t.heap) {vs us : List Value}
    (hbuilders : t.builders = s.builders ++ vs) (hbodies : t.bodies = s.bodies ++ us)
    (hvs : List.Forall₂
      (fun v list => ∃ id bottom items, t.heap.Holds v id list bottom items) vs more)
    (hmore : (lists ++ more).Nodup) (hus : ∀ v ∈ us, (t.heap.body? v).isSome)
    (hm : ∀ i < s.builders.length, m.sets? ≠ some i) : s.Follows t [m] where
  apart := by
    refine ⟨lists ++ more, hheap.unwritten h.unwritten, ?_, hmore, fun v hv => ?_⟩
    · rw [hbuilders]
      refine List.rel_append (h.builders.imp ?_) hvs
      rintro v list ⟨id, bottom, items, hv⟩
      exact ⟨id, bottom, items, hheap.holds hv⟩
    · rw [hbodies] at hv
      exact (List.mem_append.mp hv).elim (h.bodies_of_le hheap.le v) (hus v)
  builders := by
    intro i bottom items hi
    have hlt := lt_of_builder? hi
    obtain ⟨id, list, items', hitems, hholds⟩ := Heap.builder?_eq_some.mp hi
    cases hitems
    rw [historyOf_of_ne (hm i hlt), builder?, builder_append hlt vs hbuilders]
    exact (hheap.holds hholds).builder?
  same := fun hi => builder_append hi vs hbuilders
  heap := hheap.le

/-- A new builder has a list that no other has. -/
theorem Apart.withBuilder (h : s.Apart lists) (bottom : Value) (items : List Value)
    (hm : m.sets? = none) : s.Follows (s.withBuilder bottom items) [m] := by
  have hextends : s.heap.Extends (s.withBuilder bottom items).heap :=
    (Heap.Extends.push _ _).trans (.push _ _)
  have hfresh : (lists ++ [s.heap.objects.size]).Nodup := by
    refine List.nodup_append.mpr ⟨h.distinct, by simp, ?_⟩
    rintro l hl _ hsize rfl
    rw [List.mem_singleton] at hsize
    exact absurd (h.lt_of_mem hl) (by omega)
  exact h.grown hextends rfl (List.append_nil _).symm
    (.cons ⟨_, bottom, items, Heap.holds_withBuilder s.heap bottom items⟩ .nil) hfresh
    (fun v hv => absurd hv List.not_mem_nil) (fun i _ => Move.sets?_ne hm i)

theorem builder?_withBuilder (s : Bench) (bottom : Value) (items : List Value) :
    (s.withBuilder bottom items).builder? s.builders.length = some ⟨bottom, .list items⟩ := by
  have hnew : (s.withBuilder bottom items).builder s.builders.length =
      .handle ⟨.bodyBuilder, (s.heap.push (.list items)).objects.size⟩ := by
    rw [builder, Bench.withBuilder, List.getD_append_right _ _ _ _ (Nat.le_refl _), Nat.sub_self]
    rfl
  rw [builder?, hnew]
  exact (Heap.holds_withBuilder s.heap bottom items).builder?

/-- A body more, or a fault, and no builder is any different. -/
theorem Apart.withMade (h : s.Apart lists) (x : Except Cause Body)
    (hm : ∀ i < s.builders.length, m.sets? ≠ some i) : s.Follows (s.withMade x) [m] := by
  have hlists : (lists ++ []).Nodup := by simpa using h.distinct
  exact h.grown (Heap.extends_made x s.world) (List.append_nil _).symm rfl .nil hlists
    (Heap.isSome_made x s.world) hm

/-- Another object in the place of one: where all builders are held as a history of one move tells,
it is this move that has been made. -/
theorem Apart.put (h : s.Apart lists) {o p : Object} (hp : s.heap.objects[id]? = some p)
    (hkind : o.kind = p.kind) (hfinal : isFinal p.kind = false) {f : Nat → Value → Value}
    {g : Nat → List Value → List Value}
    (hholds : ∀ {v id' list' bottom items}, s.heap.Holds v id' list' bottom items →
      (s.heap.put id o).Holds v id' list' (f id' bottom) (g list' items))
    (hhistory : ∀ {j id' list' bottom items}, j < s.builders.length →
      s.heap.Holds (s.builder j) id' list' bottom items →
        historyOf j [m] bottom items = ⟨f id' bottom, .list (g list' items)⟩) :
    s.Follows (s.withHeap (s.heap.put id o)) [m] := by
  have hle : s.heap ≤ s.heap.put id o := Heap.le_set hp hkind hfinal
  refine ⟨⟨lists, h.unwritten, h.builders.imp ?_, h.distinct, h.bodies_of_le hle⟩, ?_,
    fun _ => rfl, hle⟩
  · rintro v list ⟨id', bottom, items, hv⟩
    exact ⟨id', _, _, hholds hv⟩
  · intro j bottom items hj
    obtain ⟨id', list', _, ⟨⟩, hv⟩ := Heap.builder?_eq_some.mp hj
    rw [hhistory (lt_of_builder? hj) hv]
    exact (hholds hv).builder?

section Setting

variable (h : s.Apart lists) (hi : i < s.builders.length)
include h hi

theorem Apart.follows_withBottom (v : Value) :
    s.Follows (s.next (.withBottom i v)) [.withBottom i v] := by
  obtain ⟨id, list, bottom, items, -, hholds⟩ := h.index hi
  rw [next_withBottom h.unwritten hholds]
  refine h.put (f := fun id' old => if id' = id then v else old) (g := fun _ old => old)
    hholds.builder rfl rfl (fun hother => hholds.put_builder hother v) fun hj hother => ?_
  rw [historyOf_withBottom]
  simp only [h.id_eq_iff hi hj hholds hother]

theorem Apart.follows_addComponent (v : Value) :
    s.Follows (s.next (.addComponent i v)) [.addComponent i v] := by
  obtain ⟨id, list, bottom, items, -, hholds⟩ := h.index hi
  rw [next_addComponent h.unwritten hholds]
  refine h.put (f := fun _ old => old)
    (g := fun list' old => if list' = list then items ++ [v] else old) hholds.components rfl rfl
    (fun hother => hholds.put_list hother (items ++ [v]))
    fun {j} _ _ _ _ hj hother => ?_
  rw [historyOf_addComponent]
  simp only [h.list_eq_iff hi hj hholds hother]
  by_cases hij : i = j
  · subst hij
    obtain ⟨-, -, -, rfl⟩ := hholds.unique hother
    rfl
  · simp only [if_neg hij]

end Setting

/-- What a move leaves: all is apart, and nothing has happened to a builder beyond its own
history. -/
theorem Apart.next (h : s.Apart lists) (m : Move) : s.Follows (s.next m) [m] := by
  -- A number that is no builder's, or no body's, stands for nothing, which has no methods.
  cases m with
  | new => exact h.withBuilder .null [] rfl
  | reopen j =>
    obtain ⟨b, hb⟩ | hnull := h.body_cases j
    · rw [next_reopen h.unwritten hb]
      exact h.withBuilder _ _ rfl
    · rw [next_of_fault (by rw [outcome, step, hnull, Step.exec_call_null])]
      exact h.withMade _ fun i _ => Move.sets?_ne rfl i
  | withBottom i v =>
    by_cases hi : i < s.builders.length
    · exact h.follows_withBottom hi v
    · rw [next_of_fault (by rw [outcome, step, builder_eq_null hi, Step.exec_call_null])]
      exact h.withMade _ fun _ hj hset => hi (Option.some.inj hset ▸ hj)
  | addComponent i v =>
    by_cases hi : i < s.builders.length
    · exact h.follows_addComponent hi v
    · rw [next_of_fault (by rw [outcome, step, builder_eq_null hi, Step.exec_call_null])]
      exact h.withMade _ fun _ hj hset => hi (Option.some.inj hset ▸ hj)
  | build i =>
    by_cases hi : i < s.builders.length
    · obtain ⟨id, list, bottom, items, -, hholds⟩ := h.index hi
      rw [next_build h.unwritten hholds]
      exact h.withMade _ fun i _ => Move.sets?_ne rfl i
    · rw [next_of_fault (by rw [outcome, step, builder_eq_null hi, Step.exec_call_null])]
      exact h.withMade _ fun i _ => Move.sets?_ne rfl i
  | plus j v =>
    obtain ⟨b, hb⟩ | hnull := h.body_cases j
    · rw [next_plus hb]
      exact h.withMade _ fun i _ => Move.sets?_ne rfl i
    · rw [next_of_fault (by rw [outcome, step, hnull, Step.exec_plus_null])]
      exact h.withMade _ fun i _ => Move.sets?_ne rfl i

/-! ### Runs -/

theorem Apart.follows_nil (h : s.Apart lists) : s.Follows s [] where
  apart := ⟨lists, h⟩
  builders hi := by
    rw [historyOf_nil]
    exact hi
  same _ := rfl
  heap := le_rfl

theorem Follows.trans {u : Bench} {xs ys : List Move} (h : s.Follows t xs)
    (hlength : s.builders.length ≤ t.builders.length) (h' : t.Follows u ys) :
    s.Follows u (xs ++ ys) where
  apart := h'.apart
  builders := by
    intro i bottom items hi
    rw [historyOf_append]
    exact h'.builders (h.builders hi)
  same hi := (h'.same (by omega)).trans (h.same hi)
  heap := h.heap.trans h'.heap

theorem length_le_next (s : Bench) (m : Move) : s.builders.length ≤ (s.next m).builders.length := by
  cases m <;> simp [Bench.next, take]

/-- After any moves all is apart, and each builder is what its own history has made of it. -/
theorem Apart.after (h : s.Apart lists) (moves : List Move) :
    s.Follows (s.after moves) moves := by
  induction moves generalizing s lists with
  | nil => exact h.follows_nil
  | cons m moves ih =>
    have hfollows := h.next m
    obtain ⟨lists', hnext⟩ := hfollows.apart
    exact hfollows.trans (s.length_le_next m) (ih hnext)

/-! ### What is made -/

/-- What comes of a move by which a sandwich is made: a new body, which nothing has named before, or
a fault is raised. -/
def Yields (s : Bench) (m : Move) : Except Cause Body → Prop
  | .ok b => ∃ v, (s.outcome m).1 = .ok v ∧ s.heap.object? v = none ∧
    (s.next m).heap.body? v = some b ∧ (s.next m).bodies = s.bodies ++ [v]
  | .error c => ∃ e, (s.outcome m).1 = .error e ∧ e.cause = c

/-- A move yields what is made by a check, and changes no builder and no body that there is. -/
structure Makes (s : Bench) (m : Move) (x : Except Cause Body) : Prop where
  result : s.Yields m x
  builders (i : Nat) : (s.next m).builder? i = s.builder? i
  bodies {v : Value} {b : Body} : s.heap.body? v = some b → (s.next m).heap.body? v = some b

theorem yields_of_made (hout : s.outcome m = made x s.world) (hnext : s.next m = s.withMade x) :
    s.Yields m x := by
  cases x with
  | error c =>
    rw [Yields, hout]
    exact ⟨_, rfl, rfl⟩
  | ok b =>
    rw [Yields, hout, hnext]
    exact ⟨_, rfl, Array.getElem?_size, Heap.body?_push _ _, rfl⟩

theorem Apart.makes (h : s.Apart lists) (hout : s.outcome m = made x s.world)
    (hnext : s.next m = s.withMade x) (hm : m.sets? = none) : s.Makes m x where
  result := yields_of_made hout hnext
  builders i := by
    by_cases hi : i < s.builders.length
    · obtain ⟨id, list, bottom, items, -, hholds⟩ := h.index hi
      have hbuilder : s.builder? i = some ⟨bottom, .list items⟩ := hholds.builder?
      rw [hbuilder, (h.next m).builders hbuilder, historyOf_of_ne (Move.sets?_ne hm i)]
    · have hnull : (s.next m).builder i = .null := by
        rw [hnext]
        exact builder_eq_null (s := s.withMade x) hi
      rw [builder?, builder?, hnull, builder_eq_null hi]
      rfl
  bodies hb := Heap.body?_of_le (h.next m).heap hb

theorem Apart.makes_build (h : s.Apart lists) {b : BodyBuilder} (hb : s.builder? i = some b) :
    s.Makes (.build i) b.build := by
  obtain ⟨id, list, items, hitems, hholds⟩ := Heap.builder?_eq_some.mp hb
  obtain ⟨bottom, components⟩ := b
  subst hitems
  exact h.makes (outcome_build h.unwritten hholds) (next_build h.unwritten hholds) rfl

theorem Apart.makes_plus (h : s.Apart lists) {b : Body} (hb : s.body? j = some b) (v : Value) :
    s.Makes (.plus j v) (b.add v) := h.makes (outcome_plus hb v) (next_plus hb v) rfl

/-- A builder that has `bottom` and `items` is in the end what its own part of the moves has made of
it, and builds what such a builder would build if it were the only one. -/
def GoesBy (s : Bench) (i : Nat) (bottom : Value) (items : List Value) (moves : List Move) : Prop :=
  (s.after moves).builder? i = some (historyOf i moves bottom items) ∧
    (s.after moves).Makes (.build i) (historyOf i moves bottom items).build

theorem Apart.goesBy (h : s.Apart lists) (hb : s.builder? i = some ⟨bottom, .list items⟩)
    (moves : List Move) : s.GoesBy i bottom items moves := by
  have hfollows := h.after moves
  obtain ⟨lists', hafter⟩ := hfollows.apart
  have hbuilder := hfollows.builders hb
  exact ⟨hbuilder, hafter.makes_build hbuilder⟩

/-- A builder that is started goes by its history from then on. -/
theorem Apart.goesBy_withBuilder (h : s.Apart lists) (hm : m.sets? = none)
    (hnext : s.next m = s.withBuilder bottom items) (moves : List Move) :
    (s.next m).GoesBy s.builders.length bottom items moves := by
  obtain ⟨lists', hnew⟩ := (h.withBuilder bottom items hm).apart
  rw [hnext]
  exact hnew.goesBy (builder?_withBuilder s bottom items) moves

/-- Builders that are made afresh or from bodies, and used in any order, with whatever values. Each
of them goes by its own history, from what it starts with; neither building nor adding to a body
changes any builder or body. Setting something gives back the builder. A body is the same for
good. -/
theorem builders_keep_apart {world : World State} (hworld : world.rest.heap.Unwritten)
    {bodies : List Value} (hbodies : ∀ v ∈ bodies, (world.rest.heap.body? v).isSome)
    (earlier later : List Move) :
    let s := (Bench.mk [] bodies world).after earlier
    let t := s.after later
    (∀ i < s.builders.length, ∃ bottom items, s.builder? i = some ⟨bottom, .list items⟩ ∧
      s.GoesBy i bottom items later ∧ t.builder i = s.builder i) ∧
    (s.next .new).GoesBy s.builders.length .null [] later ∧
    (∀ j b, s.body? j = some b → (s.next (.reopen j)).GoesBy s.builders.length (.bread b.bottom)
      (b.components.map .component) later) ∧
    (∀ i < s.builders.length, ∀ v, (s.outcome (.withBottom i v)).1 = .ok (s.builder i) ∧
      (s.outcome (.addComponent i v)).1 = .ok (s.builder i)) ∧
    (∀ j b v, s.body? j = some b → s.Makes (.plus j v) (b.add v)) ∧
    (∀ v b, s.heap.body? v = some b → t.heap.body? v = some b) := by
  intro s t
  have hstart : (Bench.mk [] bodies world).Apart [] := ⟨hworld, .nil, List.nodup_nil, hbodies⟩
  obtain ⟨lists, hs⟩ := (hstart.after earlier).apart
  have hfollows := hs.after later
  refine ⟨fun i hi => ?_, hs.goesBy_withBuilder rfl (next_new s) later,
    fun j b hb => hs.goesBy_withBuilder rfl (next_reopen hs.unwritten hb) later,
    fun i hi v => ?_, fun j b v hb => hs.makes_plus hb v,
    fun v b hb => Heap.body?_of_le hfollows.heap hb⟩
  · obtain ⟨id, list, bottom, items, -, hholds⟩ := hs.index hi
    have hbuilder : s.builder? i = some ⟨bottom, .list items⟩ := hholds.builder?
    exact ⟨bottom, items, hbuilder, hs.goesBy hbuilder later, hfollows.same hi⟩
  · obtain ⟨id, list, bottom, items, -, hholds⟩ := hs.index hi
    rw [outcome_withBottom hs.unwritten hholds, outcome_addComponent hs.unwritten hholds]
    exact ⟨rfl, rfl⟩

/-- A builder goes on after it has built, and a second one goes on from what it built. -/
theorem builders_keep_apart_reopened :
    let earlier : List Move := [.new, .withBottom 0 (.string "toast"),
      .addComponent 0 (.component .salt), .build 0]
    let later : List Move := [.addComponent 0 (.component .cheese), .plus 0 (.int 1),
      .addComponent 1 (.string "tomato"), .build 0]
    let s := (Bench.mk [] [] World.initial).after earlier
    let body : Body := ⟨.toast, [.salt]⟩
    World.initial.rest.heap.Unwritten ∧ s.builders.length = 1 ∧ s.body? 0 = some body ∧
      s.GoesBy 0 (.string "toast") [.component .salt] later ∧
      (s.next (.reopen 0)).GoesBy 1 (.bread .toast) [.component .salt] later ∧
      s.Makes (.plus 0 (.int 1)) (body.add (.int 1)) ∧
      (s.after later).heap.body? (s.body 0) = some body := by
  intro earlier later s body
  have hworld : World.initial.rest.heap.Unwritten := fun _ _ _ _ => rfl
  have hbody : s.body? 0 = some body := rfl
  obtain ⟨hbuilders, -, hreopened, -, hplus, hbodies⟩ := builders_keep_apart hworld
    (fun v (hv : v ∈ []) => absurd hv List.not_mem_nil) earlier later
  obtain ⟨bottom, items, hbuilder, hgoes, -⟩ := hbuilders 0 Nat.zero_lt_one
  cases hbuilder
  exact ⟨hworld, rfl, hbody, hgoes, hreopened 0 body hbody, hplus 0 body _ hbody,
    hbodies _ body hbody⟩

end Deli.Session.Bench
