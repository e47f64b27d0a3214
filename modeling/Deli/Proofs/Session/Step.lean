import Deli.Proofs.Session.Assignment

/-! Every step keeps a session in order, if the values that it is written with are sound. -/

namespace Deli.Session

variable {h : Heap}

/-! ### Parts of steps -/

theorem keeps_evalArgument {a : Argument} (ha : Sound h a) : Keeps h (Step.evalArgument a) := by
  cases a with
  | value t => exact keeps_term t ha
  | function f => exact keeps_allocate ha

theorem exec_opened (v : Value) (w : World State) :
    Action.exec (Act.opened v) w = (.ok (w.rest.heap.opened 3 v), w) := rfl

theorem exec_openedEntries (entries : List (Value × Value)) (w : World State) :
    Action.exec (Step.openedEntries entries) w =
      (.ok (entries.map fun (k, v) => (k, w.rest.heap.opened 3 v)), w) := by
  induction entries with
  | nil => rfl
  | cons e rest ih =>
    rw [Step.openedEntries] at ih ⊢
    rw [List.mapM_cons]
    simp only [Action.exec_bind, exec_opened, Action.exec_pure, ih, List.map_cons]

/-- What comes after looking into fields may count on what is in them. -/
theorem keeps_bind_openedEntries {α : Type} [Lasting α] {entries : List (Value × Value)}
    {f : List (Value × Value) → Act α}
    (hf : ∀ h', h ≤ h' → h'.Valid →
      Keeps h' (f (entries.map fun (k, v) => (k, h'.opened 3 v)))) :
    Keeps h (Step.openedEntries entries >>= f) := by
  intro w hw hle
  rw [Action.exec_bind, exec_openedEntries]
  exact hf w.rest.heap hle hw.heap w hw le_rfl

theorem entry?_map (g : Value → Value) (entries : List (Value × Value)) (key : String) :
    Value.entry? (entries.map fun (k, v) => (k, g v)) key = (Value.entry? entries key).map g := by
  rw [Value.entry?, Value.entry?, List.find?_map, Option.map_map, Option.map_map]
  rfl

theorem sound_entry {entries : List (Value × Value)} (hentries : Sound h entries) (key : String) :
    Sound h (Value.entry? entries key) := by
  intro v hv
  obtain ⟨e, he, rfl⟩ := Option.map_eq_some_iff.mp hv
  exact (hentries e (List.mem_of_find?_eq_some he)).2

theorem sound_bindingsOf {bound : List (String × Value)} (hbound : Sound h bound) :
    Sound h (Step.bindingsOf bound) := by
  have hone (o : Operation) : Sound h ((bound.lookup (Vocabulary.word o)).getD .null) := by
    have hfound := sound_of_lookup (fun e he => (hbound e he).2) (Vocabulary.word o)
    cases hlookup : bound.lookup (Vocabulary.word o) with
    | none => exact sound_null
    | some v => exact hfound v hlookup
  exact sound_bindings.mpr ⟨hone .start, hone .add, hone .finish⟩

theorem keeps_evalOperations {bindings : BindingTerms} (hbindings : Sound h bindings) :
    Keeps h (Step.evalOperations bindings) :=
  (keeps_evalBindings hbindings).bind fun _ _ _ hbound =>
    .ite (.pure (sound_bindingsOf hbound)) (keeps_raise _)

theorem keeps_makeInterpreter (name : Style) {storage failAt : Option Term}
    (hstorage : Sound h storage) (hfailAt : Sound h failAt) :
    Keeps h (Step.makeInterpreter name storage failAt) := by
  cases name with
  | real => exact keeps_allocateInterpreter (i := .real) (sound_nil (α := Value))
  | crazy => exact keeps_allocateInterpreter (i := .crazy) (sound_nil (α := Value))
  | stocked =>
    cases storage with
    | none => exact keeps_raise _
    | some t =>
      refine (keeps_term t (sound_some.mp hstorage)).bind fun h₁ v _ hv => ?_
      exact keeps_allocateTechnology fun _ => sound_singleton hv
  | faulty =>
    refine (keeps_evalOr (sound_operation .add) hfailAt).bind fun h₁ v _ hv => ?_
    exact keeps_allocateInterpreter (sound_singleton hv)

theorem sound_text {name : String} {v w : Value} (hw : Checked.text name v = .ok w) :
    Sound h w := by
  unfold Checked.text at hw
  split at hw <;> cases hw
  · exact sound_string _
  · exact sound_broken _

theorem sound_textOrNull {name : String} {v w : Value} (hw : Checked.textOrNull name v = .ok w) :
    Sound h w := by
  unfold Checked.textOrNull at hw
  split at hw
  · cases hw
    exact sound_null
  · exact sound_text hw

theorem sound_optional {fallback w : Value} {check : Value → Checked Value} {v : Option Value}
    (hfallback : Sound h fallback) (hcheck : ∀ v w, check v = .ok w → Sound h w)
    (hw : Checked.optional fallback check v = .ok w) : Sound h w := by
  cases v with
  | none =>
    cases hw
    exact hfallback
  | some v => exact hcheck v w hw

/-- A configuration that passes its check holds plain data. -/
theorem sound_ofEntries {entries : List (Value × Value)} {c : Config}
    (hc : Config.ofEntries entries = .ok c) : Sound h c := by
  obtain ⟨⟨⟨i, r⟩, p, f⟩, hboth, rfl⟩ := Checked.map_eq_ok.mp (Checked.mapError_eq_ok.mp hc)
  obtain ⟨hir, -⟩ := Checked.both_eq_ok.mp hboth
  obtain ⟨hi, hr⟩ := Checked.both_eq_ok.mp hir
  refine sound_config.mpr ⟨?_, ?_, ?_, sound_operation f⟩
  · exact sound_optional (sound_string _) (fun _ _ => sound_text) hi
  · exact sound_optional sound_null (fun _ _ => sound_textOrNull) hr
  · exact sound_list.mpr (sound_map.mpr fun x _ => sound_ofIngredient x)

theorem sound_distinct {values kept : List Value} (hvalues : Sound h values)
    (hkept : h.distinct values = .ok kept) : Sound h kept := by
  have hloop (before : List Value) (hbefore : Sound h before)
      (hall : values.foldlM (fun kept v => do
        if ← kept.anyM (h.same v) then pure kept else pure (kept ++ [v])) before = .ok kept) :
      Sound h kept := by
    clear hkept
    induction values generalizing before with
    | nil =>
      cases hall
      exact hbefore
    | cons v rest ih =>
      obtain ⟨hv, hrest⟩ := sound_cons.mp hvalues
      rw [List.foldlM_cons] at hall
      cases hfound : before.anyM (h.same v) with
      | error e =>
        rw [hfound] at hall
        cases hall
      | ok found =>
        rw [hfound] at hall
        cases found with
        | true => exact ih hrest before hbefore hall
        | false => exact ih hrest _ (sound_append.mpr ⟨hbefore, sound_singleton hv⟩) hall
  exact hloop [] sound_nil hkept

/-! ### Single steps -/

theorem keeps_bind_terms {α : Type} [Lasting α] {a b : Term}
    (hab : Sound h (a.literals ++ b.literals)) {f : Value → Value → Act α}
    (hf : KeepsFrom₂ h f) : Keeps h (a.eval >>= fun v => b.eval >>= f v) := by
  obtain ⟨ha, hb⟩ := sound_append.mp hab
  refine (keeps_term a ha).bind fun h₁ v hle₁ hv => ?_
  refine (keeps_term b (Lasting.Sound.mono hb hle₁)).bind fun h₂ w hle₂ hw => ?_
  exact hf h₂ v w (hle₁.trans hle₂) (hv.mono hle₂) hw

theorem keeps_bind_optionals {α : Type} [Lasting α] {a b : Option Term}
    (hab : Sound h (optionalLiterals a ++ optionalLiterals b)) {v₀ w₀ : Value}
    (hv₀ : Sound h v₀) (hw₀ : Sound h w₀) {f : Value → Value → Act α} (hf : KeepsFrom₂ h f) :
    Keeps h (evalOr v₀ a >>= fun v => evalOr w₀ b >>= f v) := by
  rw [sound_append, sound_optionalLiterals, sound_optionalLiterals] at hab
  obtain ⟨ha, hb⟩ := hab
  refine (keeps_evalOr hv₀ ha).bind fun h₁ v hle₁ hv => ?_
  refine (keeps_evalOr (hw₀.mono hle₁) (hb.mono hle₁)).bind fun h₂ w hle₂ hw => ?_
  exact hf h₂ v w (hle₁.trans hle₂) (hv.mono hle₂) hw

namespace Step

theorem keeps_newBody {fields : List (String × Term)} (hfields : Sound h fields) :
    Keeps h (newBody fields).run := by
  refine (keeps_entries fields hfields).bind fun h₁ entries _ _ => ?_
  refine keeps_bind_openedEntries fun h₂ _ _ => keeps_bind_ofExcept fun b hb => ?_
  exact keeps_allocate (Body.ofEntries_filled (Checked.mapError_eq_ok.mp hb))

theorem keeps_newReady {fields : List (String × Term)} (hfields : Sound h fields) :
    Keeps h (newReady fields).run := by
  refine (keeps_entries fields hfields).bind fun h₁ entries hle₁ hentries => ?_
  refine keeps_bind_openedEntries fun h₂ hle₂ hh => ?_
  dsimp only
  refine keeps_bind_object? fun h₃ hle₃ hh₃ => ?_
  split
  next hloose => exact (hh₃.object? hloose).elim
  next =>
    refine keeps_bind_ofExcept fun r hr => ?_
    obtain ⟨v, hv, hnested⟩ := Ready.check_nested (Checked.mapError_eq_ok.mp hr)
    rw [entry?_map] at hv
    obtain ⟨body, hbody, rfl⟩ := Option.map_eq_some_iff.mp hv
    rw [hbody]
    exact (keeps_readyOn hh ((sound_entry hentries "body" body hbody).mono hle₂) hnested).mono hle₃

theorem keeps_sandwichBody {bottom components : Option Term}
    (hparts : Sound h (optionalLiterals bottom ++ optionalLiterals components)) :
    Keeps h (sandwichBody bottom components).run := by
  refine keeps_bind_optionals hparts sound_null (sound_tuple.mpr sound_nil)
    fun h₁ v w _ _ hw => ?_
  refine (keepsFrom_items keepsFrom₂_apply h₁ w le_rfl hw).bind fun h₂ items _ _ => ?_
  refine keeps_bind_ofExcept fun b hb => ?_
  exact (keeps_allocate (Body.ofParts_filled hb)).bind fun _ _ _ hv => .pure (sound_success.mpr hv)

theorem keeps_pantry {t : Option Term} (ht : Sound h t) : Keeps h (pantry t).run := by
  refine (keeps_evalOr (sound_tuple.mpr sound_nil) ht).bind fun h₁ v _ hv => ?_
  refine (keepsFrom_items keepsFrom₂_apply h₁ v le_rfl hv).bind fun h₂ items _ hitems => ?_
  refine keeps_bind_ofExcept fun p hp => ?_
  have hstock : Sound h₂ p.stock := sound_ofItems hitems hp
  refine (keeps_seen fun h' hle _ kept hkept =>
    sound_distinct (hstock.mono hle) hkept).bind fun h₃ stock _ hset => ?_
  exact (keeps_allocate hset).bind fun _ _ _ hv => keeps_allocate hv

theorem keeps_newTechnology {bindings : BindingTerms} (hbindings : Sound h bindings) :
    Keeps h (newTechnology bindings).run := by
  refine (keeps_evalBindings hbindings).bind fun h₁ bound _ hbound => ?_
  refine keeps_bind_ofExcept fun b hb => keeps_allocate ?_
  refine sound_checkedBindings (fun o => ?_) (Checked.mapError_eq_ok.mp hb)
  exact sound_of_lookup (fun e he => (hbound e he).2) _

/-- Whether a step writes what stands for all fields of an object at once. -/
def writesAllFields : Step → Bool
  | set _ name _ | bind _ name _ => name == allFields
  | _ => false

theorem keeps_run {step : Step} (hstep : Sound h step) (hfields : step.writesAllFields = false) :
    Keeps h step.run := by
  cases step with
  | give t => exact keeps_term t hstep
  | text t => exact (keeps_term t hstep).bind fun _ _ _ hv => keeps_textOf hv
  | equal a b =>
    exact keeps_bind_terms hstep fun _ v w _ _ _ =>
      (keeps_same v w).map fun _ _ _ _ => sound_bool _
  | distinct items =>
    refine (keeps_terms items (sound_allLiterals.mp hstep)).bind fun h₁ vs _ hvs => ?_
    refine .ite ?_ (keeps_raise _)
    exact (keeps_seen fun _ hle _ _ hx => sound_distinct (hvs.mono hle) hx).bind
      fun _ _ _ _ => .pure (sound_int _)
  | length t =>
    refine (keeps_term t hstep).bind fun h₁ v _ _ => ?_
    exact (keeps_seen (α := Nat) fun _ _ _ _ _ => trivial).bind fun _ _ _ _ => .pure (sound_int _)
  | get t field => exact (keeps_term t hstep).bind fun _ _ _ hv => keeps_getAttribute hv field
  | set a field b =>
    exact keeps_bind_terms hstep fun _ v w _ _ hw =>
      (keeps_setAttribute (beq_eq_false_iff_ne.mp hfields) hw).bind fun _ _ _ _ => .pure sound_null
  | newBody fields => exact keeps_newBody (sound_entriesLiterals.mp hstep)
  | newReady fields => exact keeps_newReady (sound_entriesLiterals.mp hstep)
  | bodyBuilder bottom components =>
    exact keeps_bind_optionals hstep sound_null (sound_list.mpr sound_nil) fun _ _ _ _ hv hw =>
      keeps_allocateBodyBuilder (sound_bodyBuilder.mpr ⟨hv, hw⟩)
  | readyBuilder body top =>
    exact keeps_bind_optionals hstep sound_null sound_null fun _ _ _ _ hv hw =>
      keeps_allocate (sound_readyBuilder.mpr ⟨hv, hw⟩)
  | sandwichBody bottom components => exact keeps_sandwichBody hstep
  | sandwichReady body top =>
    exact keeps_bind_optionals hstep sound_null sound_null fun _ _ w _ hv _ => keeps_closed hv w
  | plus a b =>
    exact keeps_bind_terms hstep fun h₁ v w _ hv hw =>
      keepsFrom₂_sum keepsFrom₂_apply h₁ v w le_rfl hv hw
  | success t => exact (keeps_term t hstep).map fun _ _ _ hv => sound_success.mpr hv
  | failure t => exact (keeps_term t hstep).map fun _ _ _ hv => sound_failure.mpr hv
  | outcome => exact keeps_allocate trivial
  | call on method arguments =>
    obtain ⟨hon, harguments⟩ := sound_append.mp hstep
    refine (keeps_term on hon).bind fun h₁ v hle hv => keeps_invoke keepsFrom₂_apply hv method ?_
    refine keeps_mapM fun a ha => keeps_evalArgument ?_
    exact Lasting.mono hle (sound_flatMap.mp harguments a ha)
  | interpreter name storage failAt =>
    obtain ⟨hstorage, hfailAt⟩ := sound_append.mp hstep
    exact keeps_makeInterpreter name (sound_optionalLiterals.mp hstorage)
      (sound_optionalLiterals.mp hfailAt)
  | technology bindings =>
    refine (keeps_evalOperations (sound_bindingsLiterals.mp hstep)).bind fun h₁ b _ hb => ?_
    exact keeps_bind_ofExcept fun c hc => keeps_allocate (sound_build hb hc)
  | technologyBuilder bindings =>
    exact (keeps_evalOperations (sound_bindingsLiterals.mp hstep)).bind fun _ _ _ hb =>
      keeps_allocate hb
  | newTechnology bindings => exact keeps_newTechnology (sound_bindingsLiterals.mp hstep)
  | bind on name binding =>
    obtain ⟨hon, hbinding⟩ := sound_append.mp hstep
    refine (keeps_term on hon).bind fun h₁ v hle₁ _ => ?_
    refine (keeps_bindingTerm name (Lasting.Sound.mono hbinding hle₁)).bind fun h₂ w _ hw => ?_
    exact (keeps_setAttribute (beq_eq_false_iff_ne.mp hfields) hw).bind
      fun _ _ _ _ => .pure sound_null
  | pantry t => exact keeps_pantry (sound_optionalLiterals.mp hstep)
  | item a b =>
    exact keeps_bind_terms hstep fun h₁ v w _ hv hw =>
      keepsFrom₂_subscript keepsFrom₂_apply h₁ v w le_rfl hv hw
  | contains a b =>
    refine keeps_bind_terms (sound_append.mpr (sound_append.mp hstep).symm) fun _ v w _ _ hw => ?_
    exact (keeps_holds keepsFrom₂_apply hw v).map fun _ _ _ _ => sound_bool _
  | book => exact keeps_allocateBook (sound_nil (α := Value))
  | standardBook => exact keeps_standardBook
  | select on name =>
    obtain ⟨hon, hname⟩ := sound_append.mp hstep
    refine (keeps_term on hon).bind fun h₁ v hle₁ hv => ?_
    refine (keeps_evalOr sound_null ((sound_optionalLiterals.mp hname).mono hle₁)).bind
      fun h₂ asked hle₂ hasked => ?_
    exact keepsFrom_selectFrom keepsFrom₂_apply (hv.mono hle₂) h₂ asked le_rfl hasked
  | runRecipe a b =>
    exact keeps_bind_terms hstep fun h₁ v w _ hv hw =>
      keepsFrom_call keepsFrom₂_apply hv h₁ w le_rfl hw
  | config fields =>
    refine (keeps_entries fields (sound_entriesLiterals.mp hstep)).bind fun h₁ entries _ _ => ?_
    refine keeps_bind_openedEntries fun h₂ _ _ => keeps_bind_ofExcept fun c hc => ?_
    exact keeps_allocateConfig (sound_ofEntries hc)
  | stock on t =>
    obtain ⟨hon, ht⟩ := sound_append.mp hstep
    refine (keeps_term on hon).bind fun h₁ v hle₁ hv => ?_
    refine (keeps_getAttribute hv _).bind fun h₂ items hle₂ hitems => ?_
    refine keeps_invoke keepsFrom₂_apply hitems _ ?_
    refine (keeps_term t (Lasting.Sound.mono ht (hle₁.trans hle₂))).bind fun _ w _ hw => .pure ?_
    exact sound_singleton hw
  | buildTechnology c =>
    exact (keeps_term c hstep).bind fun _ _ _ hv => keeps_technologyFor keepsFrom₂_apply hv
  | kitchen book technology =>
    exact keeps_bind_optionals hstep sound_null sound_null fun _ _ _ _ hv hw =>
      keeps_makeKitchen hv hw
  | kitchenOfConfig c book =>
    obtain ⟨hc, hbook⟩ := sound_append.mp hstep
    refine (keeps_term c hc).bind fun h₁ v hle₁ hv => ?_
    refine (keeps_evalOr sound_null ((sound_optionalLiterals.mp hbook).mono hle₁)).bind
      fun h₂ b hle₂ hb => ?_
    exact keeps_kitchenFor keepsFrom₂_apply (hv.mono hle₂) hb

end Step

end Deli.Session
