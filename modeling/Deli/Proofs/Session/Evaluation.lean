import Deli.Proofs.Session.State
import Deli.Session.Evaluation

/-! Terms with sound literals stand for sound values, and working them out keeps a session in
order. -/

namespace Deli.Session

variable {h : Heap}

mutual

theorem keeps_term : (t : Term) → {h : Heap} → Sound h t → Keeps h t.eval
  | .value v, _, ht => .pure (ht v (List.mem_singleton.mpr rfl))
  | .list items, _, ht => by
    rw [Term.eval]
    exact (keeps_terms items (sound_allLiterals.mp ht)).bind fun _ vs _ hvs => keeps_allocate hvs
  | .mapping entries, _, ht => by
    rw [Term.eval]
    exact (keeps_entries entries (sound_entriesLiterals.mp ht)).bind fun _ es _ hes =>
      keeps_allocate hes
  | .register name, _, _ => keeps_register name
  | .fault e, _, ht => by
    rw [Term.eval]
    refine (keeps_faultTerm e ht).bind fun h₁ c _ hc => (keeps_newFault hc).bind fun h₂ f _ hf => ?_
    exact .pure (sound_fault.mpr hf)
  | .recipe r, _, ht => keeps_recipeTerm r ht

theorem keeps_terms : (ts : List Term) → {h : Heap} → Sound h ts → Keeps h (evalAll ts)
  | [], _, _ => .pure sound_nil
  | t :: rest, _, hts => by
    obtain ⟨ht, hrest⟩ := sound_cons.mp hts
    rw [evalAll]
    refine (keeps_term t ht).bind fun h₁ v hle₁ hv => ?_
    refine (keeps_terms rest (hrest.mono hle₁)).bind fun h₂ vs hle₂ hvs => .pure ?_
    exact sound_cons.mpr ⟨hv.mono hle₂, hvs⟩

theorem keeps_entries : (entries : List (String × Term)) → {h : Heap} → Sound h entries →
    Keeps h (evalEntries entries)
  | [], _, _ => .pure sound_nil
  | (name, t) :: rest, _, hentries => by
    obtain ⟨ht, hrest⟩ := sound_cons.mp hentries
    rw [evalEntries]
    refine (keeps_term t ht.2).bind fun h₁ v hle₁ hv => ?_
    refine (keeps_entries rest (hrest.mono hle₁)).bind fun h₂ es hle₂ hes => .pure ?_
    exact sound_cons.mpr ⟨⟨sound_string name, hv.mono hle₂⟩, hes⟩

theorem keeps_faultTerm : (e : FaultTerm) → {h : Heap} → Sound h e → Keeps h e.eval
  | .plain .., _, _ | .construction .., _, _ | .configuration .., _, _ =>
    .pure (by simp [Sound, Cause.held])
  | .recipe message asked, _, he => .pure he
  | .storage message ingredient, _, he => by
    rw [FaultTerm.eval]
    refine (keeps_term ingredient he).bind fun h₁ v _ hv => .pure ?_
    exact sound_cons.mpr ⟨hv, sound_nil⟩
  | .notFound ingredient, _, he => by
    rw [FaultTerm.eval]
    refine (keeps_term ingredient he).bind fun h₁ v _ hv => ?_
    refine (keeps_nameOf v).bind fun h₂ name hle _ => .pure ?_
    exact sound_cons.mpr ⟨hv.mono hle, sound_nil⟩

theorem keeps_recipeTerm : (r : RecipeTerm) → {h : Heap} → Sound h r → Keeps h r.eval
  | .mine, _, _ | .club, _, _ => .pure (sound_handle_of_ne (by simp))
  | .absent, _, _ => .pure sound_null
  | .steps r, _, hr => keeps_allocate hr

end

theorem keeps_evalOr {fallback : Value} (hfallback : Sound h fallback) {t : Option Term}
    (ht : Sound h t) : Keeps h (evalOr fallback t) := by
  cases t with
  | none => exact .pure hfallback
  | some t => exact keeps_term t (sound_some.mp ht)

theorem keeps_bindingTerm (name : String) {b : BindingTerm} (hb : Sound h b) :
    Keeps h (b.eval name) := by
  cases b with
  | unbound => exact .pure sound_null
  | value t => exact keeps_term t hb
  | forward t | raise t | fail t => exact keeps_allocate hb

theorem keeps_evalBindings {bindings : BindingTerms} (hbindings : Sound h bindings) :
    Keeps h (evalBindings bindings) := by
  induction bindings generalizing h with
  | nil => exact .pure sound_nil
  | cons e rest ih =>
    obtain ⟨name, t⟩ := e
    obtain ⟨ht, hrest⟩ := sound_cons.mp hbindings
    refine (keeps_bindingTerm name ht.2).bind fun h₁ v hle₁ hv => ?_
    refine (ih (hrest.mono hle₁)).bind fun h₂ vs hle₂ hvs => .pure ?_
    exact sound_cons.mpr ⟨⟨trivial, hv.mono hle₂⟩, hvs⟩

end Deli.Session
