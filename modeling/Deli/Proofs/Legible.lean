import Deli.Session.View
import Mathlib.Logic.Function.Basic

/-! Texts that can be read back. What is printed of a sandwich shows where it ends: whatever stands
behind it, no other sandwich is printed in the same way. No name begins like another one, and what
stands between the names is no beginning of a name, so this holds of lists of any length and of what
is put together from them. In the end an outcome is known by its text. -/

namespace Deli

/-- Every text shows where it ends, so texts can be told apart whatever stands behind them. -/
def Legible {α : Type} (f : α → String) : Prop :=
  ∀ {a b : α} {s t : String}, f a ++ s = f b ++ t → a = b ∧ s = t

/-- One of two texts begins with the other. -/
def Overlap (x y : String) : Prop := x.toList <+: y.toList ∨ y.toList <+: x.toList

instance (x y : String) : Decidable (Overlap x y) :=
  inferInstanceAs (Decidable (x.toList <+: y.toList ∨ y.toList <+: x.toList))

theorem overlap_of_append_eq {x y s t : String} (h : x ++ s = y ++ t) : Overlap x y := by
  have hlists : y.toList ++ t.toList = x.toList ++ s.toList := by
    rw [← String.toList_append, ← String.toList_append, h]
  exact List.prefix_or_prefix_of_prefix (List.prefix_append _ _) (hlists ▸ List.prefix_append _ _)

namespace Legible

variable {α β : Type} {f : α → String}

/-- It is enough that no text begins with another. -/
theorem of_overlap (h : ∀ a b, Overlap (f a) (f b) → a = b) : Legible f := by
  intro a b s t hab
  obtain rfl := h a b (overlap_of_append_eq hab)
  exact ⟨rfl, (String.append_right_inj _).mp hab⟩

theorem injective (hf : Legible f) : Function.Injective f := by
  intro a b hab
  exact (hf (s := "") (t := "") (by rw [hab])).1

theorem comp (hf : Legible f) {g : β → α} (hg : Function.Injective g) :
    Legible fun b => f (g b) := by
  intro a b s t hab
  obtain ⟨h, hst⟩ := hf hab
  exact ⟨hg h, hst⟩

end Legible

/-! ### Lists -/

/-- The texts that follow a first one in a list, and what closes the list. -/
def continued (closing : String) : List String → String
  | [] => closing
  | x :: xs => ", " ++ (x ++ continued closing xs)

theorem intercalate_cons_append (x : String) (xs : List String) (closing : String) :
    ", ".intercalate (x :: xs) ++ closing = x ++ continued closing xs := by
  induction xs generalizing x with
  | nil => rw [String.intercalate_singleton, continued]
  | cons y xs ih =>
    rw [String.intercalate_cons_cons, String.append_assoc, ih, continued, String.append_assoc]

theorem continued_append (closing s : String) (xs : List String) :
    continued closing xs ++ s = continued (closing ++ s) xs := by
  induction xs with
  | nil => rfl
  | cons x xs ih => rw [continued, continued, String.append_assoc, String.append_assoc, ih]

section Lists

variable {α : Type} {f : α → String} {closing : String} (hf : Legible f)
  (hcomma : ¬ Overlap closing ", ")
include hf hcomma

/-- The list goes on with a comma, and what closes it does not begin with one. -/
theorem legible_continued : Legible fun xs : List α => continued closing (xs.map f) := by
  intro xs ys s t h
  simp only [continued_append] at h
  induction xs generalizing ys with
  | nil =>
    cases ys with
    | nil => exact ⟨rfl, (String.append_right_inj _).mp h⟩
    | cons y ys => exact absurd (overlap_of_append_eq h) hcomma
  | cons x xs ih =>
    cases ys with
    | nil => exact absurd (overlap_of_append_eq h.symm) hcomma
    | cons y ys =>
      obtain ⟨rfl, hrest⟩ := hf ((String.append_right_inj _).mp h)
      obtain ⟨rfl, hst⟩ := ih hrest
      exact ⟨rfl, hst⟩

theorem legible_listed (hclosing : ∀ a, ¬ Overlap closing (f a)) :
    Legible fun xs : List α => ", ".intercalate (xs.map f) ++ closing := by
  intro xs ys s t h
  have hempty (a : α) (as : List α) (u v : String) : closing ++ u ≠
      ", ".intercalate ((a :: as).map f) ++ closing ++ v := by
    intro h
    rw [List.map_cons, intercalate_cons_append, String.append_assoc] at h
    exact hclosing a (overlap_of_append_eq h)
  cases xs with
  | nil =>
    simp only [List.map_nil, String.intercalate_nil, String.empty_append] at h
    cases ys with
    | nil => exact ⟨rfl, (String.append_right_inj _).mp h⟩
    | cons y ys => exact absurd h (hempty y ys s t)
  | cons x xs =>
    cases ys with
    | nil => exact absurd h.symm (hempty x xs t s)
    | cons y ys =>
      simp only [List.map_cons, intercalate_cons_append, String.append_assoc] at h
      obtain ⟨rfl, hrest⟩ := hf h
      obtain ⟨rfl, hst⟩ := legible_continued hf hcomma hrest
      exact ⟨rfl, hst⟩

end Lists

/-! ### Sandwiches -/

theorem legible_ingredient : Legible Ingredient.name := by
  refine Legible.of_overlap fun x y h => ?_
  revert h
  rcases x with (_ | _) | (_ | _ | _) <;> rcases y with (_ | _) | (_ | _ | _) <;> decide

theorem legible_bread : Legible (Vocabulary.name : Bread → String) :=
  legible_ingredient.comp fun _ _ => Ingredient.bread.inj

theorem legible_component : Legible (Vocabulary.name : Component → String) :=
  legible_ingredient.comp fun _ _ => Ingredient.component.inj

/-- The name of a bread, or of none. -/
def topName (top : Option Bread) : String := (top.map Vocabulary.name).getD "None"

theorem legible_topName : Legible topName := by
  refine Legible.of_overlap fun x y h => ?_
  revert h
  rcases x with _ | _ | _ <;> rcases y with _ | _ | _ <;> decide

theorem legible_components : Legible fun components : List Component =>
    ", ".intercalate (components.map Vocabulary.name) ++ "])" :=
  legible_listed legible_component (by decide) fun c => by cases c <;> decide

theorem Body.legible_text : Legible Body.text := by
  intro b c s t h
  unfold Body.text at h
  simp only [String.append_assoc, String.append_right_inj] at h
  obtain ⟨hbottom, hrest⟩ := legible_bread h
  rw [String.append_right_inj, ← String.append_assoc, ← String.append_assoc] at hrest
  obtain ⟨hcomponents, hst⟩ := legible_components hrest
  refine ⟨?_, hst⟩
  cases b
  cases c
  rw [Body.mk.injEq]
  exact ⟨hbottom, hcomponents⟩

theorem Ready.legible_text : Legible Ready.text := by
  intro r q s t h
  unfold Ready.text at h
  simp only [String.append_assoc, String.append_right_inj] at h
  obtain ⟨hbody, hrest⟩ := Body.legible_text h
  rw [String.append_right_inj] at hrest
  obtain ⟨htop, hst⟩ := legible_topName hrest
  refine ⟨?_, (String.append_right_inj _).mp hst⟩
  cases r
  cases q
  rw [Ready.mk.injEq]
  exact ⟨hbody, htop⟩

/-! ### Outcomes -/

/-- What a guest is told: here is the sandwich, or this ingredient is not there. -/
inductive Serving where
  | ready (r : Ready)
  | missing (x : Ingredient)
  deriving DecidableEq, Repr

namespace Serving

def text : Serving → String
  | ready r => "Success(" ++ (r.text ++ ")")
  | missing x => "Failure(IngredientNotFoundError: Ingredient " ++ (x.name ++ " not found!)")

theorem text_ready (r : Ready) : (ready r).text = "Success(" ++ (r.text ++ ")") := rfl

theorem text_missing (x : Ingredient) : (missing x).text =
    "Failure(IngredientNotFoundError: Ingredient " ++ (x.name ++ " not found!)") := rfl

theorem text_ready_ne_missing (r : Ready) (x : Ingredient) (s t : String) :
    (ready r).text ++ s ≠ (missing x).text ++ t := by
  have hbegin : ¬ Overlap "Success(" "Failure(IngredientNotFoundError: Ingredient " := by decide
  intro h
  simp only [text_ready, text_missing, String.append_assoc] at h
  exact hbegin (overlap_of_append_eq h)

theorem legible_text : Legible text := by
  intro a b s t h
  cases a with
  | ready r =>
    cases b with
    | ready q =>
      simp only [text_ready, String.append_assoc, String.append_right_inj] at h
      obtain ⟨hr, hst⟩ := Ready.legible_text h
      exact ⟨congrArg ready hr, (String.append_right_inj _).mp hst⟩
    | missing y => exact absurd h (text_ready_ne_missing r y s t)
  | missing x =>
    cases b with
    | ready q => exact absurd h.symm (text_ready_ne_missing q x t s)
    | missing y =>
      simp only [text_missing, String.append_assoc, String.append_right_inj] at h
      obtain ⟨hx, hst⟩ := legible_ingredient h
      exact ⟨congrArg missing hx, (String.append_right_inj _).mp hst⟩

/-- The outcome by which a guest is told. Every fault has a number of its own. -/
def outcome (id : Nat) : Serving → Value
  | ready r => .success (.ready r)
  | missing x => .failure (.fault (.mk id (.notFound x.name (.ofIngredient x))))

/-- The text of a failure, put together from what the fault is called and what it says. -/
theorem text_failure (x : Ingredient) : "Failure(" ++ "IngredientNotFoundError" ++ ": " ++
    ("Ingredient " ++ x.name ++ " not found!") ++ ")" = (missing x).text := by
  have hbegin : "Failure(" ++ "IngredientNotFoundError" ++ ": " ++ "Ingredient " =
      "Failure(IngredientNotFoundError: Ingredient " := by decide
  have hend : " not found!" ++ ")" = " not found!)" := by decide
  rw [text_missing, ← hbegin, ← hend]
  simp only [String.append_assoc]

theorem text_outcome (id : Nat) (a : Serving) : (a.outcome id).text = a.text := by
  cases a with
  | ready r => exact String.append_assoc
  | missing x => exact text_failure x

end Serving

namespace Session.Heap

variable {heap : Heap} {v : Value}

theorem textWith_ready {r : Ready} (h : heap.shallow v = .ready r) (depth : Nat) :
    v.textWith (heap.sight (depth + 1)) = pure r.text := by
  cases v with
  | handle g =>
    unfold shallow at h
    split at h <;> cases h
    next _ ho =>
      have hobject : heap.objects[g.id]? = some (.ready _ r) := ho
      simp only [Value.textWith, sight, objectAlone, hobject]
  | ready q =>
    cases h
    rfl
  | _ => cases h

theorem textWith_body {b : Body} (h : heap.shallow v = .body b) (depth : Nat) :
    v.textWith (heap.sight (depth + 1)) = pure b.text := by
  cases v with
  | handle g =>
    unfold shallow at h
    split at h <;> cases h
    next ho =>
      have hobject : heap.objects[g.id]? = some (.body b) := ho
      simp only [Value.textWith, sight, objectAlone, hobject]
  | body c =>
    cases h
    rfl
  | _ => cases h

theorem text_body {b : Body} (h : heap.shallow v = .body b) : heap.text v = .ok b.text := by
  rw [text, depthLimit, textWith_body h]
  rfl

/-- An outcome that a guest can be told: it carries a finished sandwich, or the fault of an
ingredient that is not there, with what it was made with. -/
inductive Carries (heap : Heap) : Value → Serving → Prop
  | ready {v : Value} {r : Ready} (shown : heap.shallow v = .ready r) :
    Carries heap (.success v) (.ready r)
  | missing {e : Fault} {x : Ingredient} (cause : e.cause = .notFound x.name (.ofIngredient x))
    (asMade : heap.written? (.fault e) "args" = none) :
    Carries heap (.failure (.fault e)) (.missing x)

theorem Carries.text_eq {a : Serving} (h : heap.Carries v a) : heap.text v = .ok a.text := by
  cases h with
  | ready shown =>
    rw [Serving.text_ready, ← String.append_assoc, text, Value.textWith, depthLimit,
      textWith_ready shown]
    rfl
  | @missing e x cause asMade =>
    have harguments : heap.arguments e = [.string ("Ingredient " ++ x.name ++ " not found!")] := by
      simp only [arguments, asMade, cause]
      rfl
    have hmessage (depth : Nat) : (Value.fault e).textWith (heap.sight (depth + 1)) =
        pure ("Ingredient " ++ x.name ++ " not found!") := by
      simp only [Value.textWith, sight, faultMessage, cause, harguments]
    have htitle : (Value.fault e).title = "IngredientNotFoundError" := by
      rw [Value.title, cause]
      rfl
    rw [text, Value.textWith, depthLimit, hmessage, htitle, ← Serving.text_failure]
    rfl

end Session.Heap

/-! ### What a text tells -/

/-- What has legible texts can be read back from them. -/
theorem Legible.partialInv {α : Type} {f : α → String} (hf : Legible f) (a : α) :
    Function.partialInv f (f a) = some a := Function.partialInv_left hf.injective a

open Session in
/-- Two outcomes that a guest can be told have the same text only if they carry the same: equal
sandwiches, or the fault of one ingredient. This holds of outcomes on their own as of those that
carry objects, be they printed at different times; so there is a way back from every text to what it
is printed for. The same holds of bodies. -/
theorem Serving.known_by_text :
    (∀ (a b : Serving) (i j : Nat), (a.outcome i).text = (b.outcome j).text ↔ a = b) ∧
    (∀ (heap heap' : Heap) (v w : Value) (a b : Serving), heap.Carries v a → heap'.Carries w b →
      (heap.text v = heap'.text w ↔ a = b)) ∧
    (∃ read : String → Option Serving, (∀ a i, read (a.outcome i).text = some a) ∧
      ∀ (heap : Heap) (v : Value) (a : Serving), heap.Carries v a →
        ∃ s, heap.text v = .ok s ∧ read s = some a) ∧
    (∀ b c : Body, b.text = c.text ↔ b = c) ∧
    ∃ read : String → Option Body, (∀ b : Body, read b.text = some b) ∧
      ∀ (heap : Heap) (v : Value) (b : Body), heap.shallow v = .body b →
        ∃ s, heap.text v = .ok s ∧ read s = some b := by
  refine ⟨fun a b i j => ?_, fun heap heap' v w a b hv hw => ?_,
    ⟨Function.partialInv text, fun a i => ?_, fun heap v a hv => ?_⟩,
    fun b c => Body.legible_text.injective.eq_iff,
    ⟨Function.partialInv Body.text, Body.legible_text.partialInv, fun heap v b hv => ?_⟩⟩
  · rw [text_outcome, text_outcome, legible_text.injective.eq_iff]
  · rw [hv.text_eq, hw.text_eq, Except.ok.injEq, legible_text.injective.eq_iff]
  · rw [text_outcome, legible_text.partialInv]
  · exact ⟨a.text, hv.text_eq, legible_text.partialInv a⟩
  · exact ⟨b.text, Heap.text_body hv, Body.legible_text.partialInv b⟩

open Session in
/-- A sandwich among the objects, and a fault that has been raised before. -/
theorem Serving.known_by_text_lunch :
    let r : Ready := ⟨⟨.toast, [.salt, .tomato]⟩, none⟩
    let lunch := Serving.ready r
    let missing := Serving.missing (.bread .toast)
    let heap : Heap := ⟨#[.body r.body, .ready (.handle ⟨.body, 0⟩) r], []⟩
    let v := Value.success (.handle ⟨.ready, 1⟩)
    heap.Carries v lunch ∧ heap.Carries (missing.outcome 4) missing ∧
      heap.text v ≠ heap.text (missing.outcome 4) ∧ ∃ read : String → Option Serving,
        read ("Success(SandwichReady(body=" ++
          "SandwichBody(bottom=TOAST, components=[SALT, TOMATO])" ++ ", top=None))") = some lunch ∧
        read "Failure(IngredientNotFoundError: Ingredient TOAST not found!)" = some missing := by
  intro r lunch missing heap v
  have hlunch : heap.Carries v lunch := .ready rfl
  have hmissing : heap.Carries (missing.outcome 4) missing := .missing rfl rfl
  obtain ⟨-, hsame, ⟨read, hplain, -⟩, -⟩ := known_by_text
  have hdifferent : lunch ≠ missing := nofun
  exact ⟨hlunch, hmissing, (hsame heap heap v _ _ _ hlunch hmissing).not.mpr hdifferent, read,
    hplain lunch 0, hplain missing 4⟩

end Deli
