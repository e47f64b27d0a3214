import Deli.Proofs.Request
import Mathlib.Data.List.Basic

/-! Programs over the three operations. A program calls nothing but the operations of the
technology it is given, on members and on outcomes: those of earlier calls, each as often as it
likes, and such as come from outside. What it calls next may depend on every result so far. The
technologies cannot be told apart by a program that gives them no reason to refuse: its calls and
their results are those of the silent technology, and only the console differs. -/

namespace Deli

attribute [local instance] Scene.plain

variable {ω α : Type} {P : Value → Prop} {n : Nat}

/-- Where a program takes an outcome from: one of the `n` that it has got by starting and adding
so far, or one from outside, of which `P` holds. -/
inductive Source (P : Value → Prop) (n : Nat) where
  | earlier (i : Fin n)
  | outside (v : Value) (h : P v)

namespace Source

def value (outcomes : Vector Value n) : Source P n → Value
  | earlier i => outcomes[i]
  | outside v _ => v

/-- Which of the outcomes so far it is, if it is one of them. -/
def place? : Source P n → Option Nat
  | earlier i => some i
  | outside .. => none

end Source

/-- A program that has got `n` outcomes by starting and adding so far. -/
inductive Program (P : Value → Prop) (α : Type) : Nat → Type where
  | done {n : Nat} (a : α) : Program P α n
  | start {n : Nat} (bread : Bread) (component : Component)
      (next : Value → Program P α (n + 1)) : Program P α n
  | add {n : Nat} (source : Source P n) (component : Component)
      (next : Value → Program P α (n + 1)) : Program P α n
  | finish {n : Nat} (source : Source P n) (top : Option Bread)
      (next : Value → Program P α n) : Program P α n

/-- One call of a program, with its result. -/
structure Event where
  request : Request
  /-- Which outcome the call works on, if it is an earlier one. -/
  taken : Option Nat
  result : Value

namespace Program

/-- One call, and what comes after it. -/
def call (t : Technology ω) (q : Request) (taken : Option Nat)
    (next : Value → Action ω (List Event × α)) : Action ω (List Event × α) := do
  let r ← t.serve q
  let (events, a) ← next r
  pure (⟨q, taken, r⟩ :: events, a)

/-- Runs a program: all its calls with their results, in order, and what it comes to. -/
def run (t : Technology ω) : {n : Nat} → Program P α n → Vector Value n →
    Action ω (List Event × α)
  | _, done a, _ => pure ([], a)
  | _, start bread component next, outcomes =>
    call t (.start bread component) none fun r => (next r).run t (outcomes.push r)
  | _, add source component next, outcomes =>
    call t (.add (source.value outcomes) component) source.place? fun r =>
      (next r).run t (outcomes.push r)
  | _, finish source top next, outcomes =>
    call t (.finish (source.value outcomes) top) source.place? fun r => (next r).run t outcomes

/-! ### The run on which nothing is refused -/

def answered (q : Request) (taken : Option Nat) (rest : List Event × α) : List Event × α :=
  (⟨q, taken, q.outcome⟩ :: rest.1, rest.2)

/-- The calls of a program all of whose requests come to their own outcomes. -/
def smooth : {n : Nat} → Program P α n → Vector Value n → List Event × α
  | _, done a, _ => ([], a)
  | _, start bread component next, outcomes =>
    let q := Request.start bread component
    answered q none ((next q.outcome).smooth (outcomes.push q.outcome))
  | _, add source component next, outcomes =>
    let q := Request.add (source.value outcomes) component
    answered q source.place? ((next q.outcome).smooth (outcomes.push q.outcome))
  | _, finish source top next, outcomes =>
    let q := Request.finish (source.value outcomes) top
    answered q source.place? ((next q.outcome).smooth outcomes)

theorem outcome_ofBody {q : Request} (hq : q.Proper) (hf : q.operation ≠ .finish) :
    Outcome.OfBody q.outcome := by
  cases q with
  | start bread component => exact .body _
  | add r component =>
    cases hq with
    | body b => exact .body _
    | failure e => exact .failure e
  | finish r top => exact absurd rfl hf

theorem source_ofBody (hP : ∀ v, P v → Outcome.OfBody v) {outcomes : Vector Value n}
    (h : ∀ v ∈ outcomes, Outcome.OfBody v) (source : Source P n) :
    Outcome.OfBody (source.value outcomes) := by
  cases source with
  | earlier i => exact h _ (Vector.getElem_mem i.2)
  | outside v hv => exact hP v hv

theorem push_ofBody {outcomes : Vector Value n} (h : ∀ v ∈ outcomes, Outcome.OfBody v)
    {r : Value} (hr : Outcome.OfBody r) : ∀ v ∈ outcomes.push r, Outcome.OfBody v := by
  intro v hv
  rcases Vector.mem_push.mp hv with hv | rfl
  · exact h v hv
  · exact hr

section Smooth

variable {t : Technology ω} (lines : Request → List Line) (Fits : Request → Prop)

theorem exec_call {q : Request} {taken : Option Nat} {next : Value → Action ω (List Event × α)}
    {rest : List Event × α} {w : World ω}
    (ht : (t.serve q).exec w = (.ok q.outcome, w.printed (lines q)))
    (hnext : (next q.outcome).exec (w.printed (lines q)) =
      (.ok rest, (w.printed (lines q)).printed (rest.1.flatMap (lines ·.request)))) :
    (call t q taken next).exec w =
      (.ok (answered q taken rest),
        w.printed ((answered q taken rest).1.flatMap (lines ·.request))) := by
  simp only [call, Action.exec_bind, ht, hnext, Action.exec_pure, answered, List.flatMap_cons,
    World.printed_printed]

/-- A technology that answers every fitting request with its own outcome, and does nothing beside
but printing `lines`, runs a program of fitting requests smoothly. -/
theorem exec_run_of_serves
    (ht : ∀ q : Request, q.Proper → Fits q → ∀ w,
      (t.serve q).exec w = (.ok q.outcome, w.printed (lines q)))
    (hP : ∀ v, P v → Outcome.OfBody v) (p : Program P α n) (outcomes : Vector Value n)
    (h : ∀ v ∈ outcomes, Outcome.OfBody v) (hfits : ∀ e ∈ (p.smooth outcomes).1, Fits e.request)
    (w : World ω) :
    (p.run t outcomes).exec w =
      (.ok (p.smooth outcomes), w.printed ((p.smooth outcomes).1.flatMap (lines ·.request))) := by
  induction p generalizing w with
  | done a => simp [run, smooth]
  | start bread component next ih =>
    have hq : (Request.start bread component).Proper := trivial
    have hr := outcome_ofBody hq (by simp [Request.operation])
    simp only [smooth, answered, List.mem_cons, forall_eq_or_imp] at hfits
    exact exec_call lines (ht _ hq hfits.1 w) (ih _ _ (push_ofBody h hr) hfits.2 _)
  | add source component next ih =>
    have hq : (Request.add (source.value outcomes) component).Proper := source_ofBody hP h source
    have hr := outcome_ofBody hq (by simp [Request.operation])
    simp only [smooth, answered, List.mem_cons, forall_eq_or_imp] at hfits
    exact exec_call lines (ht _ hq hfits.1 w) (ih _ _ (push_ofBody h hr) hfits.2 _)
  | finish source top next ih =>
    have hq : (Request.finish (source.value outcomes) top).Proper := source_ofBody hP h source
    simp only [smooth, answered, List.mem_cons, forall_eq_or_imp] at hfits
    exact exec_call lines (ht _ hq hfits.1 w) (ih _ _ h hfits.2 _)

end Smooth

/-- Whatever a program does, it does on every technology alike. The silent one changes nothing; the
real one prints one line for each call, in order; the stocked one is silent if it holds what the
program puts to use, and the faulty one if the program has no need of its operation. -/
theorem substitutable (p : Program Outcome.OfBody α 0) :
    ∃ events a, ∀ w : World ω,
      (p.run Interpreter.crazy.technology #v[]).exec w = (.ok (events, a), w) ∧
      (p.run Interpreter.real.technology #v[]).exec w =
        (.ok (events, a), w.printed (events.map fun e => .text e.request.line)) ∧
      (∀ pantry : Pantry, (∀ e ∈ events, ∀ x ∈ e.request.used, pantry.contains x) →
        (p.run (Interpreter.stocked pantry).technology #v[]).exec w = (.ok (events, a), w)) ∧
      (∀ failAt, (∀ e ∈ events, e.request.isAtFault failAt = false) →
        (p.run (Interpreter.faulty failAt).technology #v[]).exec w = (.ok (events, a), w)) := by
  have hnone : ∀ v ∈ (#v[] : Vector Value 0), Outcome.OfBody v := by simp
  -- every interpreter is the same instance of one simulation, with its own lines and conditions
  have silent (t : Technology ω) (Fits : Request → Prop)
      (ht : ∀ q : Request, q.Proper → Fits q → ∀ w, (t.serve q).exec w = (.ok q.outcome, w))
      (hfits : ∀ e ∈ (p.smooth #v[]).1, Fits e.request) (w : World ω) :
      (p.run t #v[]).exec w = (.ok (p.smooth #v[]), w) := by
    have h := exec_run_of_serves (fun _ => []) Fits (fun q hq hf w => by
      rw [ht q hq hf w, World.printed_nil]) (fun _ => id) p #v[] hnone hfits w
    rwa [List.flatMap_eq_nil_iff.mpr (fun _ _ => rfl), World.printed_nil] at h
  refine ⟨(p.smooth #v[]).1, (p.smooth #v[]).2, fun w => ⟨?_, ?_, ?_, ?_⟩⟩
  · exact silent _ (fun _ => True) (fun q hq _ w => Interpreter.exec_serve_crazy hq w)
      (fun _ _ => trivial) w
  · have h := exec_run_of_serves (fun q => [.text q.line]) (fun _ => True)
      (fun q hq _ w => Interpreter.exec_serve_real hq w) (fun _ => id) p #v[] hnone
      (fun _ _ => trivial) w
    rw [h, ← List.map_eq_flatMap]
  · intro pantry hall
    refine silent _ (fun q => ∀ x ∈ q.used, pantry.contains x) (fun q hq hf w => ?_) hall w
    have hmissing : q.missing pantry = none := by simpa [Request.missing] using hf
    rw [Interpreter.exec_serve_stocked pantry hq, hmissing]
  · intro failAt hall
    refine silent _ (fun q => q.isAtFault failAt = false) (fun q hq hf w => ?_) hall w
    rw [Interpreter.exec_serve_faulty failAt hq, hf]
    rfl

/-- The second addition comes after a failure from outside, and so does the finish. -/
def detour : Program Outcome.OfBody Unit 0 :=
  start .toast .tomato fun _ =>
    add (.outside (.failure .null) (.failure .null)) .cheese fun _ =>
      add (.earlier 0) .salt fun _ =>
        finish (.earlier 1) (some .baguette) fun _ => done ()

theorem substitutable_detour :
    (detour.run (Interpreter.stocked ⟨[.bread .toast, .component .tomato, .string "salt"]⟩).technology
        #v[]).exec ⟨[], 0, ()⟩ =
      (detour.run Interpreter.crazy.technology #v[]).exec ⟨[], 0, ()⟩ ∧
    (detour.run (Interpreter.faulty (.operation .finish)).technology #v[]).exec ⟨[], 0, ()⟩ =
      (detour.run Interpreter.crazy.technology #v[]).exec ⟨[], 0, ()⟩ := by
  obtain ⟨events, a, h⟩ := substitutable (ω := Unit) detour
  obtain ⟨hcrazy, -, hstocked, hfaulty⟩ := h ⟨[], 0, ()⟩
  have hsmooth := exec_run_of_serves (fun _ => []) (fun _ => True)
    (fun q hq _ w => by rw [Interpreter.exec_serve_crazy hq w, World.printed_nil]) (fun _ => id)
    detour #v[] (by simp) (fun _ _ => trivial) (⟨[], 0, ()⟩ : World Unit)
  have hevents : events = (detour.smooth #v[]).1 := by
    rw [hcrazy] at hsmooth
    simp only [Prod.mk.injEq, Except.ok.injEq] at hsmooth
    exact congrArg Prod.fst hsmooth.1
  subst hevents
  refine ⟨(hstocked _ ?_).trans hcrazy.symm, (hfaulty _ ?_).trans hcrazy.symm⟩
  · decide
  · decide

end Program

end Deli
