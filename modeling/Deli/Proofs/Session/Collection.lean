import Deli.Proofs.Session.State
import Deli.Session.Collection

/-! Whatever lists and mappings are asked for, and however they are changed, a session stays in
order. -/

namespace Deli.Session

variable {h : Heap}

/-! ### Keys -/

theorem keeps_valueUnder? {entries : List (Value × Value)} (hentries : Sound h entries)
    (key : Value) : Keeps h (valueUnder? entries key) := by
  unfold valueUnder?
  split
  · have hsame (e : Value × Value) : Keeps h (Scene.same key e.1 : Act Bool) := keeps_same key e.1
    refine (keeps_findM? hsame hentries).bind fun h₁ found _ hfound => ?_
    cases found with
    | none => exact .pure sound_none
    | some e => exact .pure (sound_some.mpr (sound_some.mp hfound).2)
  · exact keeps_raise _

theorem keeps_replaceUnder {key v : Value} {entries : List (Value × Value)} (hkey : Sound h key)
    (hv : Sound h v) (hentries : Sound h entries) : Keeps h (replaceUnder key v entries) := by
  induction entries generalizing h with
  | nil => exact .pure (sound_cons.mpr ⟨⟨hkey, hv⟩, sound_nil⟩)
  | cons e rest ih =>
    obtain ⟨he, hrest⟩ := sound_cons.mp hentries
    refine (keeps_same e.1 key).bind fun h₁ found hle _ => ?_
    split
    · exact .pure (sound_cons.mpr ⟨⟨he.1.mono hle, hv.mono hle⟩, hrest.mono hle⟩)
    · refine (ih (hkey.mono hle) (hv.mono hle) (hrest.mono hle)).bind fun h₂ rest' hle₂ hrest' => ?_
      exact .pure (sound_cons.mpr ⟨he.mono (hle.trans hle₂), hrest'⟩)

theorem keeps_withUnder {key v : Value} {entries : List (Value × Value)} (hkey : Sound h key)
    (hv : Sound h v) (hentries : Sound h entries) : Keeps h (withUnder entries key v) :=
  .ite (keeps_replaceUnder hkey hv hentries) (keeps_raise _)

theorem keeps_withoutKey {entries : List (Value × Value)} (hentries : Sound h entries)
    (key : Value) : Keeps h (withoutKey entries key) := by
  refine keeps_filterM (fun e => ?_) hentries
  obtain ⟨k, w⟩ := e
  exact (keeps_same k key).bind fun _ _ _ _ => .pure trivial

theorem keeps_missingKey {α : Type} [Lasting α] (key : Value) :
    Keeps h (missingKey key : Act α) := by
  have hquoted : Keeps h (Act.seen fun heap => heap.quoted key) :=
    keeps_seen fun _ _ _ _ _ => trivial
  exact hquoted.bind fun _ _ _ _ => keeps_raise _

/-! ### Places -/

theorem keeps_placeIn (what : String) (length : Nat) (place : Int) :
    Keeps h (placeIn what length place) := by
  refine .ite (keeps_raise _) ?_
  exact .ite (keeps_raise _) (.pure trivial)

theorem sound_getD {items : List Value} (hitems : Sound h items) (n : Nat) :
    Sound h (items.getD n .null) := by
  rw [List.getD_eq_getElem?_getD]
  cases hn : items[n]? with
  | none => exact sound_null
  | some v => exact hitems v (List.mem_of_getElem? hn)

theorem keeps_itemAt (what : String) {items : List Value} (hitems : Sound h items) (place : Int) :
    Keeps h (itemAt what items place) :=
  (keeps_placeIn what items.length place).bind fun _ n hle _ => .pure (sound_getD (hitems.mono hle) n)

theorem keeps_firstPlace? (v : Value) (items : List Value) : Keeps h (firstPlace? v items) := by
  induction items generalizing h with
  | nil => exact .pure sound_none
  | cons item rest ih =>
    refine (keeps_same item v).bind fun h₁ found _ _ => .ite ?_ ?_
    · exact .pure (sound_some.mpr trivial)
    · refine ih.bind fun h₂ place? _ _ => .pure ?_
      exact fun _ _ => trivial

theorem keeps_placeOf {v : Value} {items : List Value} {missing : Act Nat}
    (hmissing : Keeps h missing) : Keeps h (placeOf v items missing) := by
  refine (keeps_firstPlace? v items).bind fun h₁ place? hle _ => ?_
  cases place? with
  | some n => exact .pure trivial
  | none => exact hmissing.mono hle

theorem keeps_countOf (v : Value) {items : List Value} (hitems : Sound h items) :
    Keeps h (countOf v items) :=
  (keeps_filterM (fun x => keeps_same v x) hitems).bind fun _ _ _ _ => .pure (sound_int _)

theorem keeps_placeNumber (v : Value) : Keeps h (placeNumber v) := by
  unfold placeNumber
  split
  · exact .pure trivial
  · exact keeps_raise _

theorem keeps_listPlace (v : Value) : Keeps h (listPlace v) :=
  (keeps_placeNumber v).bind fun _ _ _ _ => .ite (keeps_raise _) (.pure trivial)

/-! ### Methods -/

/-- Other items for a list. -/
theorem keeps_replaceList {v : Value} (hv : h.Names v .list) {now : List Value}
    (hnow : Sound h now) : Keeps h (Act.replace v (.list now)) :=
  keeps_replace (o := .list now) hnow hv rfl

theorem keeps_replaceMapping {v : Value} (hv : h.Names v .mapping)
    {now : List (Value × Value)} (hnow : Sound h now) : Keeps h (Act.replace v (.mapping now)) :=
  keeps_replace (o := .mapping now) hnow hv rfl

theorem sound_eraseIdx {items : List Value} (hitems : Sound h items) (n : Nat) :
    Sound h (items.eraseIdx n) := fun v hv => hitems v (List.mem_of_mem_eraseIdx hv)

theorem keeps_popAt {v : Value} (hv : h.Names v .list) {here : List Value} (hhere : Sound h here)
    (place : Int) : Keeps h (popAt v here place) := by
  unfold popAt
  split
  · exact keeps_raise _
  · refine (keeps_placeIn "pop" here.length place).bind fun h₁ n hle₁ _ => ?_
    have hhere := hhere.mono hle₁
    refine (keeps_replaceList (hv.mono hle₁) (sound_eraseIdx hhere n)).bind fun h₂ _ hle₂ _ => ?_
    exact .pure (sound_getD (hhere.mono hle₂) n)

section Items

variable {items : Value → Act (List Value)}

theorem keeps_runList (hitems : KeepsFrom h items) {v : Value}
    (hv : h.Names v .list) {here : List Value} (hhere : Sound h here) (m : Method)
    {arguments : List Value} (harguments : Sound h arguments) :
    Keeps h (m.runList items v here arguments) := by
  have hbecome {h' : Heap} (hle : h ≤ h') {now : List Value} (hnow : Sound h' now) :
      Keeps h' (do
        Act.replace v (.list now)
        pure Value.null) :=
    (keeps_replaceList (hv.mono hle) hnow).bind fun _ _ _ _ => .pure sound_null
  unfold Method.runList
  dsimp only
  split
  next w =>
    exact hbecome le_rfl (sound_append.mpr ⟨hhere, harguments⟩)
  next w =>
    refine (hitems h w le_rfl (sound_cons.mp harguments).1).bind fun h₁ more hle hmore => ?_
    exact hbecome hle (sound_append.mpr ⟨hhere.mono hle, hmore⟩)
  next place w =>
    refine (keeps_listPlace place).bind fun h₁ n hle _ => ?_
    obtain ⟨-, hrest⟩ := sound_cons.mp harguments
    obtain ⟨hw, -⟩ := sound_cons.mp hrest
    refine hbecome hle fun x hx => ?_
    rcases (List.mem_insertIdx (Nat.min_le_right _ _)).mp hx with rfl | hx
    · exact hw.mono hle
    · exact hhere.mono hle x hx
  next => exact keeps_popAt hv hhere _
  next place =>
    exact (keeps_listPlace place).bind fun h₁ n hle _ => keeps_popAt (hv.mono hle) (hhere.mono hle) n
  next w =>
    refine (keeps_placeOf (keeps_raise _)).bind fun h₁ n hle _ => ?_
    exact hbecome hle (sound_eraseIdx (hhere.mono hle) n)
  next => exact hbecome le_rfl sound_nil
  next w =>
    refine (keeps_placeOf ?_).bind fun h₁ n _ _ => .pure (sound_int _)
    exact (keeps_seen fun _ _ _ _ _ => trivial).bind fun _ _ _ _ => keeps_raise _
  next w => exact keeps_countOf w hhere
  next => exact hbecome le_rfl fun x hx => hhere x (List.mem_reverse.mp hx)
  next => exact keeps_allocate hhere
  next => exact keeps_raise _

theorem keeps_runTuple {here : List Value} (hhere : Sound h here) (m : Method)
    (arguments : List Value) : Keeps h (Method.runTuple here m arguments) := by
  unfold Method.runTuple
  split
  next w => exact (keeps_placeOf (keeps_raise _)).bind fun _ n _ _ => .pure (sound_int _)
  next w => exact keeps_countOf w hhere
  next => exact keeps_raise _

theorem keeps_popUnder {v : Value} (hv : h.Names v .mapping) {here : List (Value × Value)}
    (hhere : Sound h here) (key : Value) {missing : Act Value} (hmissing : Keeps h missing) :
    Keeps h (popUnder v here key missing) := by
  unfold popUnder
  split
  · exact hmissing
  · refine (keeps_valueUnder? hhere key).bind fun h₁ found hle₁ hfound => ?_
    cases found with
    | some w =>
      refine (keeps_withoutKey (hhere.mono hle₁) key).bind fun h₂ now hle₂ hnow => ?_
      refine (keeps_replaceMapping (hv.mono (hle₁.trans hle₂)) hnow).bind fun h₃ _ hle₃ _ => ?_
      exact .pure ((sound_some.mp hfound).mono (hle₂.trans hle₃))
    | none => exact hmissing.mono hle₁

theorem keeps_settled {v : Value} (hv : h.Names v .mapping) {here : List (Value × Value)}
    (hhere : Sound h here) {key fallback : Value} (hkey : Sound h key)
    (hfallback : Sound h fallback) : Keeps h (settled v here key fallback) := by
  refine (keeps_valueUnder? hhere key).bind fun h₁ found hle₁ hfound => ?_
  cases found with
  | some w => exact .pure (sound_some.mp hfound)
  | none =>
    have hentry : Sound h₁ [(key, fallback)] :=
      sound_cons.mpr ⟨⟨hkey.mono hle₁, hfallback.mono hle₁⟩, sound_nil⟩
    refine (keeps_replaceMapping (hv.mono hle₁)
      (sound_append.mpr ⟨hhere.mono hle₁, hentry⟩)).bind fun h₂ _ hle₂ _ => ?_
    exact .pure (hfallback.mono (hle₁.trans hle₂))

theorem keeps_putPairs (hitems : KeepsFrom h items) {v : Value}
    (hv : h.Names v .mapping) {here : List (Value × Value)} (hhere : Sound h here) (n : Nat)
    {pairs : List Value} (hpairs : Sound h pairs) : Keeps h (putPairs items v here n pairs) := by
  induction pairs generalizing h here n with
  | nil => exact .pure trivial
  | cons pair rest ih =>
    obtain ⟨hpair, hrest⟩ := sound_cons.mp hpairs
    refine (hitems h pair le_rfl hpair).bind fun h₁ parts hle₁ hparts => ?_
    split
    next key w =>
      obtain ⟨hkey, hparts⟩ := sound_cons.mp hparts
      obtain ⟨hw, -⟩ := sound_cons.mp hparts
      refine (keeps_withUnder hkey hw (hhere.mono hle₁)).bind fun h₂ now hle₂ hnow => ?_
      refine (keeps_replaceMapping (hv.mono (hle₁.trans hle₂)) hnow).bind fun h₃ _ hle₃ _ => ?_
      have hle := (hle₁.trans hle₂).trans hle₃
      exact ih (hitems.mono hle) (hv.mono hle) (hnow.mono hle₃) _
        (hrest.mono hle)
    next => exact keeps_raise _

theorem keeps_runMapping (hitems : KeepsFrom h items) {v : Value}
    (hv : h.Names v .mapping) {here : List (Value × Value)} (hhere : Sound h here) (m : Method)
    {arguments : List Value} (harguments : Sound h arguments) :
    Keeps h (m.runMapping items v here arguments) := by
  have hunder (key : Value) {fallback : Value} (hfallback : Sound h fallback) : Keeps h (do
      let found ← valueUnder? here key
      pure (found.getD fallback)) := by
    refine (keeps_valueUnder? hhere key).bind fun h₁ found hle hfound => .pure ?_
    cases found with
    | some w => exact sound_some.mp hfound
    | none => exact hfallback.mono hle
  unfold Method.runMapping
  split
  next key => exact hunder key sound_null
  next key fallback =>
    simp only [sound_cons, sound_nil, and_true] at harguments
    exact hunder key harguments.2
  next => exact keeps_allocate (sound_map.mpr fun e he => (hhere e he).1)
  next => exact keeps_allocate (sound_map.mpr fun e he => (hhere e he).2)
  next key => exact keeps_popUnder hv hhere key (keeps_missingKey key)
  next key fallback =>
    simp only [sound_cons, sound_nil, and_true] at harguments
    exact keeps_popUnder hv hhere key (.pure harguments.2)
  next key =>
    simp only [sound_cons, sound_nil, and_true] at harguments
    exact keeps_settled hv hhere harguments sound_null
  next key fallback =>
    simp only [sound_cons, sound_nil, and_true] at harguments
    exact keeps_settled hv hhere harguments.1 harguments.2
  next => exact .pure sound_null
  next other =>
    simp only [sound_cons, sound_nil, and_true] at harguments
    have hput (h' : Heap) (pairs : List Value) (hle : h ≤ h') (hpairs : Sound h' pairs) :
        Keeps h' (do
          putPairs items v here 0 pairs
          pure Value.null) :=
      (keeps_putPairs (hitems.mono hle) (hv.mono hle)
        (hhere.mono hle) 0 hpairs).bind fun _ _ _ _ => .pure sound_null
    refine keeps_bind_object? fun h₁ hle₁ hh => ?_
    dsimp only
    split
    next entries hentries =>
      have hentries : Sound h₁ entries := hh.object? hentries
      refine (Keeps.pure (sound_map.mpr fun e he => ?_)).bind fun h₂ pairs hle₂ => ?_
      · obtain ⟨hk, hw⟩ := hentries e he
        exact sound_tuple.mpr (sound_cons.mpr ⟨hk, sound_cons.mpr ⟨hw, sound_nil⟩⟩)
      · exact hput h₂ pairs (hle₁.trans hle₂)
    next =>
      exact (hitems h₁ other hle₁ (harguments.mono hle₁)).bind fun h₂ pairs hle₂ =>
        hput h₂ pairs (hle₁.trans hle₂)
  next =>
    exact (keeps_replaceMapping hv sound_nil).bind fun _ _ _ _ => .pure sound_null
  next => exact keeps_allocate hhere
  next => exact keeps_raise _

end Items

end Deli.Session
