import Deli.Proofs.ShortCircuit
import Mathlib.Data.List.Forall2

/-! Calls on values of any kind, one after the other. A call works on an outcome that some call
before it has returned or on one from outside; a call that raises is over and done with, and the
next one is made all the same. Where every reply depends on the arguments alone, what holds of all
replies holds of all that a run returns, and the calls that raise may be left out. -/

namespace Deli

variable {ω : Type} {P : Value → Prop}

/-- The outcome that a call works on: the `i`-th of those that have been returned so far, or one
from outside, of which `P` holds. -/
inductive Operand (P : Value → Prop) where
  | earlier (i : Nat)
  | outside (v : Value) (h : P v)

/-- Nothing is there until it has been returned. -/
def Operand.value (returned : List Value) : Operand P → Value
  | earlier i => returned.getD i .null
  | outside v _ => v

/-- A call of an operation, with ingredients that can be anything. -/
inductive Invocation (P : Value → Prop) where
  | start (bread component : Value)
  | add (r : Operand P) (component : Value)
  | finish (r : Operand P) (top : Value)

namespace Invocation

def operation : Invocation P → Operation
  | start .. => .start
  | add .. => .add
  | finish .. => .finish

def first (returned : List Value) : Invocation P → Value
  | start bread _ => bread
  | add r _ | finish r _ => r.value returned

def second : Invocation P → Value
  | start _ component => component
  | add _ component => component
  | finish _ top => top

end Invocation

/-- Makes one call after the other: all of them with what they have returned or raised, in order,
and the world afterwards. -/
def Technology.perform (t : Technology ω) :
    List (Invocation P) → List Value → World ω → List Noted × World ω
  | [], _, w => ([], w)
  | call :: calls, returned, w =>
    let first := call.first returned
    let (result, w₁) := (t.run call.operation first call.second).exec w
    let (events, w₂) := t.perform calls (returned ++ result.toOption.toList) w₁
    (⟨call.operation, first, call.second, result⟩ :: events, w₂)

/-- The calls of a run that have returned something. -/
def returning (calls : List (Invocation P)) (events : List Noted) : List (Invocation P) :=
  ((calls.zip events).filter fun (_, e) => e.result.isOk).map Prod.fst

/-! ### Replies -/

/-- What an action comes to in whatever world it is done: it returns a value, or it returns a
failure that holds a new fault, or it raises one. -/
inductive Reply where
  | returns (v : Value)
  | fails (c : Cause)
  | raises (c : Cause)

namespace Reply

def result (id : Nat) : Reply → Except Fault Value
  | returns v => .ok v
  | fails c => .ok (.failure (.fault (.mk id c)))
  | raises c => .error (.mk id c)

/-- What is returned, if it is not a new failure, has the property `K`. -/
def Returns (K : Value → Prop) : Reply → Prop
  | returns v => K v
  | fails _ | raises _ => True

end Reply

def Action.Replies (a : Action ω Value) (reply : Reply) : Prop :=
  ∀ w, (a.exec w).1 = reply.result w.nextFault

/-- Two outcomes that are the same, or fail for one cause. -/
inductive Outcome.Alike : Value → Value → Prop
  | same (v : Value) : Alike v v
  | failures (m n : Nat) (c : Cause) :
    Alike (.failure (.fault (.mk m c))) (.failure (.fault (.mk n c)))

/-- Two calls that have returned the like, done alike. -/
def Noted.Alike (e e' : Noted) : Prop :=
  e.operation = e'.operation ∧ e.second = e'.second ∧
    ∃ r r', e.result = .ok r ∧ e'.result = .ok r' ∧ Outcome.Alike r r'

namespace Action.Replies

variable {a : Action ω Value} {reply : Reply} {w w₁ : World ω} {r : Value}

/-- What is returned in one world is the like of what is returned in another. -/
theorem alike (h : a.Replies reply) (hr : a.exec w = (.ok r, w₁)) (w' : World ω) :
    ∃ r' w₁', a.exec w' = (.ok r', w₁') ∧ Outcome.Alike r r' := by
  have hresult : reply.result w.nextFault = .ok r := by rw [← h w, hr]
  have hresult' : (a.exec w').1 = reply.result w'.nextFault := h w'
  cases reply with
  | returns v =>
    cases hresult
    exact ⟨_, _, Prod.ext hresult' rfl, .same r⟩
  | fails c =>
    cases hresult
    exact ⟨_, _, Prod.ext hresult' rfl, .failures _ _ c⟩
  | raises c => cases hresult

theorem kept {K : Value → Prop} (h : a.Replies reply) (hK : reply.Returns K)
    (hfailure : ∀ e, K (.failure e)) (hr : a.exec w = (.ok r, w₁)) : K r := by
  have hresult : reply.result w.nextFault = .ok r := by rw [← h w, hr]
  cases reply with
  | returns v =>
    cases hresult
    exact hK
  | fails c =>
    cases hresult
    exact hfailure _
  | raises c => cases hresult

end Action.Replies

/-- An operation that passes failures on returns the like for outcomes that are alike. -/
theorem Outcome.Alike.passed_on {f : Value → Action ω Value} {x x' : Value} {reply : Reply}
    (hx : Outcome.Alike x x') (hpass : ∀ e, (f (.failure e)).Replies (.returns (.failure e)))
    (hreply : (f x).Replies reply) {w w₁ : World ω} {r : Value}
    (hr : (f x).exec w = (.ok r, w₁)) (w' : World ω) :
    ∃ r' w₁', (f x').exec w' = (.ok r', w₁') ∧ Outcome.Alike r r' := by
  cases hx with
  | same => exact hreply.alike hr w'
  | failures m n c =>
    have hsame : Except.ok r = .ok (.failure (.fault (.mk m c))) :=
      (congrArg Prod.fst hr).symm.trans (hpass _ w)
    cases hsame
    exact ⟨_, _, Prod.ext (hpass _ w') rfl, .failures m n c⟩

/-- A technology whose replies depend on nothing but the arguments. It passes failures on, and as
long as it works on outcomes with the property `K` it returns such outcomes. -/
structure Technology.Replies (t : Technology ω) (K : Value → Prop) : Prop where
  failure (e : Value) : K (.failure e)
  start (bread component : Value) :
    ∃ reply, (t.start bread component).Replies reply ∧ reply.Returns K
  add {x : Value} (hx : K x) (component : Value) :
    ∃ reply, (t.add x component).Replies reply ∧ reply.Returns K
  finish {x : Value} (hx : K x) (top : Value) :
    ∃ reply, (t.finish x top).Replies reply ∧ reply.Returns K
  add_failure (e component : Value) :
    (t.add (.failure e) component).Replies (.returns (.failure e))
  finish_failure (e top : Value) : (t.finish (.failure e) top).Replies (.returns (.failure e))

namespace Technology

variable {t : Technology ω} {K : Value → Prop} {returned returned' : List Value}

theorem value_of_returned (hP : ∀ v, P v → K v) (hnull : K .null) (h : ∀ v ∈ returned, K v)
    (r : Operand P) : K (r.value returned) := by
  cases r with
  | earlier i =>
    rw [Operand.value, List.getD_eq_getElem?_getD]
    cases hi : returned[i]? with
    | none => exact hnull
    | some v => exact h v (List.mem_of_getElem? hi)
  | outside v hv => exact hP v hv

theorem value_alike (h : List.Forall₂ Outcome.Alike returned returned') (r : Operand P) :
    Outcome.Alike (r.value returned) (r.value returned') := by
  cases r with
  | outside v hv => exact .same v
  | earlier i =>
    rw [Operand.value, Operand.value]
    induction h generalizing i with
    | nil => exact .same .null
    | cons hv _ ih =>
      cases i with
      | zero => exact hv
      | succ i => exact ih i

/-- What a call returns has the property of what it works on. -/
theorem Replies.kept (ht : t.Replies K) (hP : ∀ v, P v → K v) (hnull : K .null)
    (h : ∀ v ∈ returned, K v) (call : Invocation P) {w w₁ : World ω} {r : Value}
    (hr : (t.run call.operation (call.first returned) call.second).exec w = (.ok r, w₁)) :
    K r := by
  have hvalue := value_of_returned hP hnull h
  cases call with
  | start bread component =>
    obtain ⟨reply, hreply, hK⟩ := ht.start bread component
    exact hreply.kept hK ht.failure hr
  | add o component =>
    obtain ⟨reply, hreply, hK⟩ := ht.add (hvalue o) component
    exact hreply.kept hK ht.failure hr
  | finish o top =>
    obtain ⟨reply, hreply, hK⟩ := ht.finish (hvalue o) top
    exact hreply.kept hK ht.failure hr

/-- One call in two worlds, on outcomes that are alike: what it returns in one of them is the like
of what it returns in the other. -/
theorem Replies.alike (ht : t.Replies K) (hP : ∀ v, P v → K v) (hnull : K .null)
    (h : ∀ v ∈ returned, K v) (halike : List.Forall₂ Outcome.Alike returned returned')
    (call : Invocation P) {w w₁ : World ω} {r : Value}
    (hr : (t.run call.operation (call.first returned) call.second).exec w = (.ok r, w₁))
    (w' : World ω) :
    ∃ r' w₁', (t.run call.operation (call.first returned') call.second).exec w' =
      (.ok r', w₁') ∧ Outcome.Alike r r' := by
  have hvalue := value_of_returned hP hnull h
  cases call with
  | start bread component =>
    obtain ⟨reply, hreply, -⟩ := ht.start bread component
    exact hreply.alike hr w'
  | add o component =>
    obtain ⟨reply, hreply, -⟩ := ht.add (hvalue o) component
    exact (value_alike halike o).passed_on (f := fun x => t.add x component)
      (fun e => ht.add_failure e component) hreply hr w'
  | finish o top =>
    obtain ⟨reply, hreply, -⟩ := ht.finish (hvalue o) top
    exact (value_alike halike o).passed_on (f := fun x => t.finish x top)
      (fun e => ht.finish_failure e top) hreply hr w'

/-! ### Runs -/

theorem perform_cons (call : Invocation P) (calls : List (Invocation P)) {w w₁ : World ω}
    {result : Except Fault Value}
    (h : (t.run call.operation (call.first returned) call.second).exec w = (result, w₁)) :
    t.perform (call :: calls) returned w =
      (⟨call.operation, call.first returned, call.second, result⟩ ::
        (t.perform calls (returned ++ result.toOption.toList) w₁).1,
      (t.perform calls (returned ++ result.toOption.toList) w₁).2) := by
  simp only [perform, h]

theorem mem_append_toList {x : Except Fault Value} (h : ∀ v ∈ returned, K v)
    (hx : ∀ r, x = .ok r → K r) : ∀ v ∈ returned ++ x.toOption.toList, K v := by
  intro v hv
  rcases List.mem_append.mp hv with hv | hv
  · exact h v hv
  · cases x with
    | error e => cases hv
    | ok r =>
      cases List.mem_singleton.mp hv
      exact hx v rfl

/-- All that a run returns has the property. -/
theorem Replies.perform_kept (ht : t.Replies K) (hP : ∀ v, P v → K v) (hnull : K .null)
    (calls : List (Invocation P)) (h : ∀ v ∈ returned, K v) (w : World ω) :
    ∀ e ∈ (t.perform calls returned w).1, ∀ r, e.result = .ok r → K r := by
  induction calls generalizing returned w with
  | nil => simp [perform]
  | cons call calls ih =>
    cases hcall : (t.run call.operation (call.first returned) call.second).exec w with
    | mk result w₁ =>
    have hresult (r : Value) (hr : result = .ok r) : K r :=
      ht.kept hP hnull h call (hr ▸ hcall)
    rw [perform_cons call calls hcall]
    intro e he
    rcases List.mem_cons.mp he with rfl | he
    · exact hresult
    · exact ih (mem_append_toList h hresult) w₁ e he

/-- Without the calls that raise, in whatever world, the others return what they have returned. -/
theorem Replies.perform_returning (ht : t.Replies K) (hP : ∀ v, P v → K v) (hnull : K .null)
    (calls : List (Invocation P)) (h : ∀ v ∈ returned, K v)
    (halike : List.Forall₂ Outcome.Alike returned returned') (w w' : World ω) :
    List.Forall₂ Noted.Alike ((t.perform calls returned w).1.filter (·.result.isOk))
      (t.perform (returning calls (t.perform calls returned w).1) returned' w').1 := by
  induction calls generalizing returned returned' w w' with
  | nil => exact .nil
  | cons call calls ih =>
    cases hcall : (t.run call.operation (call.first returned) call.second).exec w with
    | mk result w₁ =>
    rw [perform_cons call calls hcall]
    cases result with
    | error e =>
      have hreturned : returned ++ (Except.error e : Except Fault Value).toOption.toList = returned :=
        List.append_nil returned
      rw [hreturned]
      exact ih h halike w₁ w'
    | ok r =>
      obtain ⟨r', w₁', hcall', hr⟩ := ht.alike hP hnull h halike call hcall w'
      have hK : ∀ v ∈ returned ++ [r], K v :=
        mem_append_toList (x := .ok r) h fun _ hv => by
          cases hv
          exact ht.kept hP hnull h call hcall
      have hrest := ih hK (List.rel_append halike (.cons hr .nil)) w₁ w₁'
      have hkept : returning (call :: calls)
          (⟨call.operation, call.first returned, call.second, .ok r⟩ ::
            (t.perform calls (returned ++ [r]) w₁).1) =
          call :: returning calls (t.perform calls (returned ++ [r]) w₁).1 := rfl
      have hreturned (v : Value) (vs : List Value) :
          vs ++ (Except.ok v : Except Fault Value).toOption.toList = vs ++ [v] := rfl
      rw [hreturned, hkept, perform_cons call _ hcall', hreturned, List.filter_cons_of_pos rfl]
      exact .cons ⟨rfl, rfl, r, r', rfl, rfl, hr⟩ hrest

end Technology

end Deli
