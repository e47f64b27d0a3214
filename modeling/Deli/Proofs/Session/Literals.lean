import Deli.Proofs.Session.Sound
import Deli.Session.Step

/-! The values that steps are written with. They are written out in the terms, functions and
bindings of a step; all other values come out of earlier steps. -/

namespace Deli.Session

mutual

/-- The values that a term is written with. -/
def Term.literals : Term → List Value
  | .value v => [v]
  | .list items => allLiterals items
  | .mapping entries => entriesLiterals entries
  | .register _ => []
  | .fault e => e.literals
  | .recipe r => r.literals

def allLiterals : List Term → List Value
  | [] => []
  | t :: rest => t.literals ++ allLiterals rest

def entriesLiterals : List (String × Term) → List Value
  | [] => []
  | (_, t) :: rest => t.literals ++ entriesLiterals rest

def FaultTerm.literals : FaultTerm → List Value
  | .recipe _ asked => [asked]
  | .storage _ ingredient | .notFound ingredient => ingredient.literals
  | _ => []

def RecipeTerm.literals : RecipeTerm → List Value
  | .steps ⟨_, bottom, first, adds, top⟩ =>
    bottom.literals ++ first.literals ++ allLiterals adds ++ top.literals
  | _ => []

end

def Callback.literals : Callback → List Value
  | identity | text | get _ => []
  | const t | raise t | plus t | succeed t | fail t => t.literals
  | map f => f.literals
  | call technology _ t => technology.literals ++ t.literals

def BindingTerm.literals : BindingTerm → List Value
  | unbound => []
  | value t | forward t | raise t | fail t => t.literals

def optionalLiterals : Option Term → List Value
  | none => []
  | some t => t.literals

def bindingsLiterals (bindings : BindingTerms) : List Value :=
  bindings.flatMap fun (_, b) => b.literals

def Argument.literals : Argument → List Value
  | value t => t.literals
  | function f => f.literals

/-- The values that a step is written with. -/
def Step.literals : Step → List Value
  | give t | text t | length t | get t _ | success t | failure t | buildTechnology t => t.literals
  | equal a b | set a _ b | plus a b | item a b | contains a b | runRecipe a b | stock a b =>
    a.literals ++ b.literals
  | distinct items => allLiterals items
  | newBody fields | newReady fields | config fields => entriesLiterals fields
  | bodyBuilder a b | readyBuilder a b | sandwichBody a b | sandwichReady a b
  | interpreter _ a b | kitchen a b => optionalLiterals a ++ optionalLiterals b
  | call on _ arguments => on.literals ++ arguments.flatMap Argument.literals
  | technology bindings | technologyBuilder bindings | newTechnology bindings =>
    bindingsLiterals bindings
  | bind on _ binding => on.literals ++ binding.literals
  | pantry t => optionalLiterals t
  | select on t | kitchenOfConfig on t => on.literals ++ optionalLiterals t
  | outcome | book | standardBook => []

instance : Lasting Term := .ofHeld Term.literals

instance : Lasting FaultTerm := .ofHeld FaultTerm.literals

instance : Lasting RecipeTerm := .ofHeld RecipeTerm.literals

instance : Lasting (Recipe Term) := .ofHeld fun r => (RecipeTerm.steps r).literals

instance : Lasting Callback := .ofHeld Callback.literals

instance : Lasting BindingTerm := .ofHeld BindingTerm.literals

instance : Lasting Argument := .ofHeld Argument.literals

instance : Lasting Step := .ofHeld Step.literals

variable {h : Heap}

theorem sound_term {t : Term} : Sound h t ↔ Sound h t.literals := Iff.rfl

theorem sound_allLiterals {ts : List Term} : Sound h (allLiterals ts) ↔ Sound h ts := by
  induction ts with
  | nil => simp [allLiterals]
  | cons t rest ih => rw [allLiterals, sound_append, ih, ← sound_term, sound_cons]

theorem sound_entriesLiterals {entries : List (String × Term)} :
    Sound h (entriesLiterals entries) ↔ Sound h entries := by
  induction entries with
  | nil => simp [entriesLiterals]
  | cons e rest ih =>
    obtain ⟨name, t⟩ := e
    simp [entriesLiterals, ih, ← sound_term]

theorem sound_recipe {r : Recipe Term} : Sound h r ↔
    (Sound h r.bottom ∧ Sound h r.first) ∧ Sound h r.adds ∧ Sound h r.top := by
  change Sound h (r.bottom.literals ++ r.first.literals ++ allLiterals r.adds ++ r.top.literals) ↔ _
  rw [sound_append, sound_append, sound_append, sound_allLiterals, and_assoc]
  rfl

theorem sound_step {step : Step} : Sound h step ↔ Sound h step.literals := Iff.rfl

theorem sound_flatMap {α : Type} {f : α → List Value} {xs : List α} :
    Sound h (xs.flatMap f) ↔ ∀ x ∈ xs, Sound h (f x) := List.forall_mem_flatMap

theorem sound_optionalLiterals {t : Option Term} : Sound h (optionalLiterals t) ↔ Sound h t := by
  cases t with
  | none => simp [optionalLiterals]
  | some t => rw [optionalLiterals, sound_some, sound_term]

theorem sound_bindingsLiterals {bindings : BindingTerms} :
    Sound h (bindingsLiterals bindings) ↔ Sound h bindings := by
  rw [bindingsLiterals, sound_flatMap]
  exact forall₂_congr fun _ _ => (and_iff_right trivial).symm

end Deli.Session
