import Deli.Proofs.Session.Collection
import Deli.Proofs.Session.Evaluation
import Deli.Proofs.Session.Kitchen
import Deli.Session.Call

/-! Calls of functions and methods keep a session in order. Everything that is called from inside
of a call is called by `apply`; so all of this is shown for any `apply` that keeps a session in
order, and then for calls inside of each other by induction on how many there may be. -/

namespace Deli.Session

variable {h : Heap} {apply : Bound → List Value → Act Value}

theorem sound_singleton {v : Value} (hv : Sound h v) : Sound h [v] :=
  sound_cons.mpr ⟨hv, sound_nil⟩

/-! ### Calling what is found -/

theorem keeps_invoke (happly : KeepsFrom₂ h apply) {v : Value} (hv : Sound h v) (name : String)
    {arguments : Act (List Value)} (harguments : Keeps h arguments) :
    Keeps h (invoke apply v name arguments) := by
  refine (keeps_find hv name).bind fun h₁ f hle₁ hf => ?_
  refine (harguments.mono hle₁).bind fun h₂ xs hle₂ hxs => ?_
  exact happly h₂ f xs (hle₁.trans hle₂) (hf.mono hle₂) hxs

theorem keeps_ask (happly : KeepsFrom₂ h apply) {v : Value} (hv : Sound h v) (m : Method)
    {arguments : List Value} (harguments : Sound h arguments) :
    Keeps h (ask apply v m arguments) :=
  keeps_invoke happly hv m.name (.pure harguments)

theorem keepsFrom_call (happly : KeepsFrom₂ h apply) {f : Value} (hf : Sound h f) :
    KeepsFrom h fun x => call apply f [x] :=
  fun h' _ hle hx => happly h' (.value f) _ hle (hf.mono hle) (sound_singleton hx)

theorem keeps_itemsFrom {item : Nat → Act Value} (hitem : ∀ n, Keeps h (item n))
    (fuel n : Nat) : Keeps h (itemsFrom item fuel n) := by
  induction fuel generalizing h n with
  | zero => exact keeps_raise _
  | succ fuel ih =>
    -- running out of items is a fault that ends the loop
    refine Keeps.bind (α := Option Value) ?_ fun h₁ next hle₁ hx => ?_
    · refine ((hitem n).map fun _ _ _ hx => sound_some.mpr hx).tryCatch fun e => ?_
      split
      · exact .pure sound_none
      · exact .throw e
    cases next with
    | none => exact .pure sound_nil
    | some v =>
      refine (ih (fun n => (hitem n).mono hle₁) (n + 1)).bind fun h₂ rest hle₂ hrest => .pure ?_
      exact sound_cons.mpr ⟨(sound_some.mp hx).mono hle₂, hrest⟩

theorem keepsFrom_items (happly : KeepsFrom₂ h apply) : KeepsFrom h (items apply) := by
  intro h' v hle hv
  refine keeps_bind_heap fun h₁ hle₁ hh => ?_
  have hitems := hh.items? (hv.mono hle₁)
  split
  next xs hxs => exact .pure (hitems xs hxs)
  next id _ =>
    refine keeps_itemsFrom (fun n => ?_) _ _
    exact keeps_ask (happly.mono (hle.trans hle₁)) (hv.mono hle₁) .get (sound_singleton (sound_int n))
  next => exact keeps_raise _

theorem keepsFrom₂_subscript (happly : KeepsFrom₂ h apply) : KeepsFrom₂ h (subscript apply) := by
  intro h' v key hle hv hkey
  refine keeps_bind_object? fun h₁ hle₁ hh => ?_
  split
  next stock _ =>
    exact keeps_ask (happly.mono (hle.trans hle₁)) (hv.mono hle₁) .get
      (sound_singleton (hkey.mono hle₁))
  next entries _ hentries =>
    refine (keeps_valueUnder? (hh.object? hentries) key).bind fun h₂ found _ hfound => ?_
    cases found with
    | some w => exact .pure (sound_some.mp hfound)
    | none => exact keeps_missingKey key
  next xs place _ hxs => exact keeps_itemAt _ (hh.object? hxs) place
  next xs place _ _ => exact keeps_itemAt _ (sound_tuple.mp (hv.mono hle₁)) place
  next =>
    split
    · exact keeps_itemAt _ (sound_map.mpr fun c _ => sound_ofCodes [c]) _
    · exact keeps_raise _
  next => exact keeps_raise _

theorem sound_codes (codes : List Nat) : Sound h codes := fun _ _ => trivial

theorem keeps_standIn (happly : KeepsFrom₂ h apply) {table : Value} (htable : Sound h table)
    (code : Nat) : Keeps h (standIn apply table code) := by
  refine Keeps.bind (α := Option Value) ?_ fun h₁ found hle₁ _ => ?_
  · have hlook := keepsFrom₂_subscript happly h table (.int code) le_rfl htable (sound_int code)
    refine (hlook.map fun _ _ _ hv => sound_some.mpr hv).tryCatch fun e => ?_
    exact .ite (.pure sound_none) (.throw e)
  split
  next => exact .pure (sound_codes _)
  next => exact .pure (sound_codes _)
  next =>
    split
    next n _ => exact .ite (.pure (sound_codes [n.toNat])) (keeps_raise _)
    next => exact .pure (sound_codes _)
    next => exact keeps_raise _

theorem keeps_translated (happly : KeepsFrom₂ h apply) (codes : List Nat) {table : Value}
    (htable : Sound h table) : Keeps h (translated apply codes table) := by
  refine (keeps_mapM fun code _ => ?_).bind fun _ all _ _ => .pure (sound_ofCodes _)
  exact keeps_standIn happly htable code

theorem keeps_setSubscript {v key new : Value} (hkey : Sound h key) (hnew : Sound h new) :
    Keeps h (setSubscript v key new) := by
  refine keeps_bind_object? fun h₁ hle₁ hh => ?_
  split
  next entries hentries =>
    have hv : h₁.Names v .mapping := ⟨_, hentries, rfl⟩
    refine (keeps_withUnder (hkey.mono hle₁) (hnew.mono hle₁)
      (hh.object? hentries)).bind fun h₂ now hle₂ hnow => ?_
    exact keeps_replaceMapping (hv.mono hle₂) hnow
  next xs hxs =>
    have hv : h₁.Names v .list := ⟨_, hxs, rfl⟩
    have hitems : Sound h₁ xs := hh.object? hxs
    refine (keeps_placeNumber key).bind fun h₂ place hle₂ _ => ?_
    refine (keeps_placeIn _ xs.length place).bind fun h₃ n hle₃ _ => ?_
    have hle := hle₂.trans hle₃
    refine keeps_replaceList (hv.mono hle) fun x hx => ?_
    rcases List.mem_or_eq_of_mem_set hx with hx | rfl
    · exact hitems.mono hle x hx
    · exact hnew.mono (hle₁.trans hle)
  next => exact keeps_raise _

theorem keeps_holdsWithin (happly : KeepsFrom₂ h apply) (depth : Nat) {v : Value}
    (hv : Sound h v) (item : Value) : Keeps h (holdsWithin apply depth v item) := by
  induction depth generalizing h v with
  | zero => exact keeps_raise _
  | succ depth ih =>
    refine keeps_bind_object? fun h₁ hle₁ hh => ?_
    split
    next stock _ hstock => exact ih (happly.mono hle₁) (hh.object? hstock)
    next entries _ hentries =>
      exact (keeps_valueUnder? (hh.object? hentries) item).bind fun _ _ _ _ => .pure trivial
    next => exact .ite (keeps_anyM (fun x => keeps_same item x) _) (keeps_raise _)
    next =>
      split
      · exact .pure trivial
      · exact keeps_raise _
    next =>
      refine (keepsFrom_items happly h₁ v hle₁ (hv.mono hle₁)).bind fun h₂ xs _ _ => ?_
      exact keeps_anyM (fun x => keeps_same item x) xs

theorem keeps_holds (happly : KeepsFrom₂ h apply) {v : Value} (hv : Sound h v) (item : Value) :
    Keeps h (holds apply v item) := keeps_holdsWithin happly depthLimit hv item

/-! ### Sums and the bare operations -/

theorem keeps_plainSum (happly : KeepsFrom₂ h apply) {v w : Value} (hv : Sound h v)
    (hw : Sound h w) : Keeps h (plainSum apply v w) := by
  refine keeps_bind_object? fun h₁ hle₁ hh₁ => keeps_bind_object? fun h₂ hle₂ hh₂ => ?_
  have hle := hle₁.trans hle₂
  split
  next b _ hb =>
    refine (keeps_ofExcept fun c hc => Body.add_filled hc).bind fun h₃ c _ hc => ?_
    exact keeps_allocate hc
  next hloose => exact (hh₁.object? hloose).elim
  next =>
    refine (keeps_allocate (sound_singleton (hw.mono hle))).bind fun h₃ f hle₃ hf => ?_
    exact keeps_ask (happly.mono (hle.trans hle₃)) (hv.mono (hle.trans hle₃)) .mapCatching
      (sound_singleton hf)
  next xs ys hxs hys =>
    have hxs : Sound h₁ xs := hh₁.object? hxs
    have hys : Sound h₂ ys := hh₂.object? hys
    exact keeps_allocate (sound_append.mpr ⟨hxs.mono hle₂, hys⟩)
  next => exact keeps_ofExcept fun x hx => sound_join (hv.mono hle) (hw.mono hle) hx

theorem keepsFrom₂_sum (happly : KeepsFrom₂ h apply) : KeepsFrom₂ h (sum apply) :=
  fun _ _ _ hle hv hw =>
    keeps_plusWith (fun _ _ hv hw => keeps_plainSum (happly.mono hle) hv hw) hv hw

/-- A body that is an object is found in its own place. -/
theorem opened_body {id : Nat} {b : Body} (hb : h.objects[id]? = some (.body b)) (depth : Nat) :
    h.opened (depth + 1) (.handle ⟨.body, id⟩) = .body b := by
  have hshallow : h.shallow (.handle ⟨.body, id⟩) = .body b := by
    simp only [Heap.shallow, Heap.object?, hb]
  rw [Heap.opened, hshallow]

/-- A finished sandwich lies on the body that it was made with, whatever stood for that. -/
theorem keeps_readyOn (hh : h.Valid) {body : Value} (hbody : Sound h body) {r : Ready}
    (hnested : Body.nested "body" (h.opened 3 body) = .ok r.body) :
    Keeps h (Act.allocateReady body r) := by
  have hopened := hh.opened 3 hbody
  refine keeps_allocateReady (Body.nested_filled hnested fun c hc => ?_) fun id hid => ?_
  · rw [hc] at hopened
    exact sound_body.mp hopened
  · subst hid
    obtain ⟨b, hb⟩ := sound_handle.mp hbody
    rw [opened_body hb] at hnested
    cases hnested
    exact hb

theorem keeps_closed {body : Value} (hbody : Sound h body) (top : Value) :
    Keeps h (closed body top) := by
  refine keeps_bind_object? fun h₁ hle₁ hh₁ => ?_
  split
  next hloose => exact (hh₁.object? hloose).elim
  next =>
    exact keeps_bind_opened fun _ hle hh => keeps_bind_ofExcept fun _ hr =>
      keeps_readyOn hh (hbody.mono (hle₁.trans hle)) (Ready.ofParts_nested hr)

theorem sturdy_bare (happly : KeepsFrom₂ h apply) : Sturdy h (bareTechnology apply) := by
  intro o h' x y hle hx hy
  cases o with
  | start =>
    refine keeps_bind_ofExcept fun b hb => ?_
    exact (keeps_allocate (Body.ofParts_filled hb)).bind fun _ _ _ hv => .pure (sound_success.mpr hv)
  | add => exact keepsFrom₂_sum happly h' x y hle hx hy
  | finish =>
    refine (keeps_find hx _).bind fun h₁ f hle₁ hf => ?_
    refine (keeps_allocate (sound_singleton (hy.mono hle₁))).bind fun h₂ g hle₂ hg => ?_
    exact happly h₂ f [g] ((hle.trans hle₁).trans hle₂) (hf.mono hle₂) (sound_singleton hg)

/-! ### Recipes and kitchens -/

theorem sound_orNothing {v : Value} (hv : Sound h v) : Sound h (orNothing v) := by
  unfold orNothing
  split
  · exact sound_none
  · exact sound_some.mpr hv

theorem keepsFrom_selectFrom (happly : KeepsFrom₂ h apply) {book : Value} (hbook : Sound h book) :
    KeepsFrom h (selectFrom apply book) := by
  intro h' asked hle hasked
  have happly := happly.mono hle
  have hbook := hbook.mono hle
  refine keeps_selectFrom ?_ (fun h₁ name hle₁ hname => ?_) hasked
  · exact (keeps_ask happly hbook .first sound_nil).bind fun _ _ _ hv => .pure (sound_orNothing hv)
  · refine (keeps_ask (happly.mono hle₁) (hbook.mono hle₁) .get
      (sound_singleton hname)).bind fun _ _ _ hv => ?_
    exact .pure (sound_orNothing hv)

theorem keeps_firstName (happly : KeepsFrom₂ h apply) {book : Value} (hbook : Sound h book) :
    Keeps h (firstName apply book) := by
  refine (keeps_ask happly hbook .listRecipes sound_nil).bind fun h₁ names hle₁ hnames => ?_
  refine (keepsFrom₂_subscript happly h₁ names _ hle₁ hnames (sound_int 0)).bind fun h₂ v _ _ => ?_
  exact keeps_sceneText v

theorem keeps_cookIn (happly : KeepsFrom₂ h apply) {book technology asked : Value}
    (hbook : Sound h book) (htechnology : Sound h technology) (hasked : Sound h asked) :
    Keeps h (cookIn apply book technology asked) := by
  refine keeps_cookFrom (keepsFrom_selectFrom happly hbook) (keeps_firstName happly hbook)
    (fun h₁ recipe hle₁ hrecipe => ?_) (fun h₁ r hle₁ hr => ?_) hasked
  · exact happly h₁ (.value recipe) _ hle₁ hrecipe (sound_singleton (htechnology.mono hle₁))
  · exact keeps_ask (happly.mono hle₁) hr .errorOrNull sound_nil

theorem keeps_runRecipe (happly : KeepsFrom₂ h apply) {r : Recipe Term} (hr : Sound h r)
    {technology : Value} (htechnology : Sound h technology) :
    Keeps h (runRecipe apply r technology) := by
  have hheld {h' : Heap} {t : Term} (hle : h ≤ h') (ht : Sound h' t) :
      Sound h' (technology :: t.literals) := sound_cons.mpr ⟨htechnology.mono hle, ht⟩
  refine keeps_follow hr (fun h₁ bottom first hle₁ hbottom hfirst => ?_)
    (fun h₁ x component hle₁ hx hcomponent => ?_) (fun h₁ x top hle₁ hx htop => ?_)
  · refine keeps_invoke (happly.mono hle₁) (htechnology.mono hle₁) _ ?_
    refine (keeps_term bottom hbottom).bind fun h₂ v hle₂ hv => ?_
    refine (keeps_term first (hfirst.mono hle₂)).bind fun h₃ w hle₃ hw => .pure ?_
    exact sound_cons.mpr ⟨hv.mono hle₃, sound_singleton hw⟩
  · refine keeps_invoke (happly.mono hle₁) hx _ ?_
    exact (keeps_allocate (o := .callable (.addNext technology component))
      (hheld hle₁ hcomponent)).bind fun _ _ _ hf => .pure (sound_singleton hf)
  · refine keeps_invoke (happly.mono hle₁) hx _ ?_
    exact (keeps_allocate (o := .callable (.finishWith technology top))
      (hheld hle₁ htop)).bind fun _ _ _ hf => .pure (sound_singleton hf)

theorem keeps_standardBook : Keeps h standardBook := by
  have hmine {h' : Heap} : Sound h' mineHandle := sound_handle_of_ne (by simp)
  have hclub {h' : Heap} : Sound h' clubHandle := sound_handle_of_ne (by simp)
  refine (keeps_bookRegister (sound_nil (α := Value)) hmine _).bind fun h₁ b _ hb => ?_
  exact (keeps_bookRegister hb hclub _).bind fun h₂ c _ hc => keeps_allocateBook hc

/-- What is not given is made. -/
theorem keeps_bind_given {α : Type} [Lasting α] {v : Value} (hv : Sound h v) {make : Act Value}
    (hmake : Keeps h make) {f : Value → Act α} (hf : KeepsFrom h f) :
    Keeps h (match v with
      | .null => make >>= f
      | v => pure v >>= f) := by
  split
  · exact hmake.bind hf
  · exact (Keeps.pure hv).bind hf

theorem keeps_makeKitchen {book technology : Value} (hbook : Sound h book)
    (htechnology : Sound h technology) : Keeps h (makeKitchen book technology) := by
  refine keeps_bind_given hbook keeps_standardBook fun h₁ b hle₁ hb => ?_
  have hreal : Keeps h₁ (Act.allocateInterpreter .real) :=
    keeps_allocateInterpreter (sound_nil (α := Value))
  refine keeps_bind_given (htechnology.mono hle₁) hreal fun h₂ t hle₂ ht => keeps_allocate ?_
  exact ⟨hb.mono hle₂, ht⟩

theorem keeps_technologyFor (happly : KeepsFrom₂ h apply) {config : Value}
    (hconfig : Sound h config) : Keeps h (technologyFor apply config) := by
  refine (keeps_getAttribute hconfig _).bind fun h₁ name hle₁ _ => ?_
  have hconfig := hconfig.mono hle₁
  have hpantry : Keeps h₁ (do
      let stock ← items apply (← Act.getAttribute config "pantry")
      Action.ofExcept (Pantry.ofItems stock)) := by
    refine (keeps_getAttribute hconfig _).bind fun h₂ v hle₂ hv => ?_
    refine (keepsFrom_items happly h₂ v (hle₁.trans hle₂) hv).bind fun h₃ stock _ hstock => ?_
    exact keeps_ofExcept fun p hp => sound_ofItems hstock hp
  refine (keeps_choose hpantry (keeps_getAttribute hconfig _)).bind fun h₂ i _ hi => ?_
  exact keeps_allocateInterpreter hi

theorem keeps_kitchenFor (happly : KeepsFrom₂ h apply) {config book : Value}
    (hconfig : Sound h config) (hbook : Sound h book) : Keeps h (kitchenFor apply config book) :=
  (keeps_technologyFor happly hconfig).bind fun _ _ hle ht => keeps_makeKitchen (hbook.mono hle) ht

/-! ### Methods -/

theorem keeps_updated {v : Value} (hv : Sound h v) {o : Object} (ho : Sound h o)
    (hnames : h.Names v o.kind) (hfinal : isFinal o.kind = false) : Keeps h (updated v o) :=
  (keeps_replace ho hnames hfinal).bind fun _ _ hle _ => .pure (hv.mono hle)

theorem keeps_buildBody (happly : KeepsFrom₂ h apply) {b : BodyBuilder} (hb : Sound h b) :
    Keeps h (buildBody apply b) := by
  obtain ⟨-, hcomponents⟩ := sound_bodyBuilder.mp hb
  unfold buildBody
  split
  · exact keeps_raise _
  · refine (keeps_isPresent b.components).bind fun h₁ present hle₁ _ => .ite ?_ (keeps_raise _)
    refine (keepsFrom_items happly h₁ _ hle₁ (hcomponents.mono hle₁)).bind fun h₂ xs _ _ => ?_
    refine keeps_bind_ofExcept fun c hc => keeps_allocate ?_
    exact Body.check_filled (Checked.mapError_eq_ok.mp hc)

section Methods

variable {m : Method} {arguments : List Value}

theorem keeps_runBodyBuilder (happly : KeepsFrom₂ h apply) {v : Value} (hv : Sound h v)
    {b : BodyBuilder} (hb : Sound h b) (hnames : h.Names v .bodyBuilder)
    (harguments : Sound h arguments) : Keeps h (m.runBodyBuilder apply v b arguments) := by
  obtain ⟨-, hcomponents⟩ := sound_bodyBuilder.mp hb
  unfold Method.runBodyBuilder
  split
  next w =>
    obtain ⟨hw, -⟩ := sound_cons.mp harguments
    exact keeps_updated hv (o := .bodyBuilder (b.withBottom w))
      (sound_bodyBuilder.mpr ⟨hw, hcomponents⟩) hnames rfl
  next w =>
    exact (keeps_ask happly hcomponents .append harguments).bind fun _ _ hle _ => .pure (hv.mono hle)
  next => exact keeps_buildBody happly hb
  next => exact keeps_raise _

theorem keeps_runReadyBuilder {v : Value} (hv : Sound h v) {b : ReadyBuilder} (hb : Sound h b)
    (hnames : h.Names v .readyBuilder) (harguments : Sound h arguments) :
    Keeps h (m.runReadyBuilder v b arguments) := by
  obtain ⟨hbody, htop⟩ := sound_readyBuilder.mp hb
  unfold Method.runReadyBuilder
  split
  next w =>
    obtain ⟨hw, -⟩ := sound_cons.mp harguments
    exact keeps_updated hv (o := .readyBuilder (b.withBody w))
      (sound_readyBuilder.mpr ⟨hw, htop⟩) hnames rfl
  next w =>
    obtain ⟨hw, -⟩ := sound_cons.mp harguments
    exact keeps_updated hv (o := .readyBuilder (b.withTop w))
      (sound_readyBuilder.mpr ⟨hbody, hw⟩) hnames rfl
  next => exact keeps_closed hbody b.top
  next => exact keeps_raise _

theorem keeps_runBook (happly : KeepsFrom₂ h apply) {recipes : Value} (hrecipes : Sound h recipes)
    (harguments : Sound h arguments) : Keeps h (m.runBook apply recipes arguments) := by
  unfold Method.runBook
  split
  next name recipe =>
    simp only [sound_cons, sound_nil, and_true] at harguments
    refine (keeps_setSubscript harguments.1 harguments.2).bind fun h₁ _ _ _ => ?_
    refine (keeps_sceneText name).bind fun h₂ text _ _ => ?_
    exact (keeps_tell _).bind fun _ _ _ _ => .pure sound_null
  next name => exact keeps_ask happly hrecipes .get harguments
  next =>
    refine (keeps_ask happly hrecipes .keys sound_nil).bind fun h₁ names hle₁ hnames => ?_
    exact (keepsFrom_items happly h₁ names hle₁ hnames).bind fun _ _ _ hxs => keeps_allocate hxs
  next =>
    refine (keeps_ask happly hrecipes .values sound_nil).bind fun h₁ all hle₁ hall => ?_
    refine (keepsFrom_items happly h₁ all hle₁ hall).bind fun h₂ xs _ hxs => .pure ?_
    cases xs with
    | nil => exact sound_null
    | cons x xs => exact (sound_cons.mp hxs).1
  next => exact keeps_raise _

theorem keeps_runKitchen (happly : KeepsFrom₂ h apply) {book technology : Value}
    (hbook : Sound h book) (htechnology : Sound h technology) (harguments : Sound h arguments) :
    Keeps h (m.runKitchen apply book technology arguments) := by
  unfold Method.runKitchen
  split
  next => exact keeps_cookIn happly hbook htechnology sound_null
  next asked => exact keeps_cookIn happly hbook htechnology (sound_cons.mp harguments).1
  next config => exact keeps_kitchenFor happly (sound_cons.mp harguments).1 sound_null
  next config book =>
    simp only [sound_cons, sound_nil, and_true] at harguments
    exact keeps_kitchenFor happly harguments.1 harguments.2
  next => exact keeps_raise _

theorem keeps_runOutcome (happly : KeepsFrom₂ h apply) {v : Value} (hv : Sound h v)
    (harguments : Sound h arguments) : Keeps h (m.runOutcome apply v arguments) := by
  unfold Method.runOutcome
  split
  next => exact keeps_ofExcept fun _ hx => sound_getOrNull hv hx
  next => exact keeps_getOrRaise hv
  next => exact keeps_ofExcept fun _ hx => sound_errorOrNull hv hx
  next f => exact keeps_mapCatching (keepsFrom_call happly (sound_cons.mp harguments).1) hv
  next f => exact keeps_outcomeNext (keepsFrom_call happly (sound_cons.mp harguments).1) hv
  next f => exact keeps_outcomeFinish (keepsFrom_call happly (sound_cons.mp harguments).1) hv
  next f g =>
    simp only [sound_cons, sound_nil, and_true] at harguments
    exact keeps_fold (keepsFrom_call happly harguments.1) (keepsFrom_call happly harguments.2) hv
  next => exact keeps_raise _

theorem keeps_runPlain (happly : KeepsFrom₂ h apply) {v : Value} (hv : Sound h v)
    (harguments : Sound h arguments) : Keeps h (m.runPlain apply v arguments) := by
  unfold Method.runPlain
  split
  next codes table _ => exact keeps_translated happly codes (sound_cons.mp harguments).1
  next => exact keeps_runOutcome happly hv harguments

theorem keeps_methodRun (happly : KeepsFrom₂ h apply) {v : Value} (hv : Sound h v)
    (harguments : Sound h arguments) : Keeps h (m.run apply v arguments) := by
  refine keeps_bind_object? fun h₁ hle₁ hh => ?_
  replace happly := happly.mono hle₁
  replace hv := hv.mono hle₁
  replace harguments := harguments.mono hle₁
  split
  next here _ hhere =>
    exact keeps_runList (keepsFrom_items happly) ⟨_, hhere, rfl⟩ (hh.object? hhere) m harguments
  next here _ hhere =>
    exact keeps_runMapping (keepsFrom_items happly) ⟨_, hhere, rfl⟩ (hh.object? hhere) m harguments
  next here _ => exact keeps_runTuple (sound_tuple.mp hv) m arguments
  next b _ hb => exact keeps_runBodyBuilder happly hv (hh.object? hb) ⟨_, hb, rfl⟩ harguments
  next b _ hb => exact keeps_runReadyBuilder hv (hh.object? hb) ⟨_, hb, rfl⟩ harguments
  next recipes _ hrecipes => exact keeps_runBook happly (hh.object? hrecipes) harguments
  next book technology _ hkitchen =>
    obtain ⟨hbook, htechnology⟩ := hh.object? hkitchen
    exact keeps_runKitchen happly hbook htechnology harguments
  next o _ _ _ _ _ _ ho =>
    have ho : Sound h₁ o := hh.object? ho
    clear * - happly hv harguments ho
    split
    next => exact .pure hv
    next b =>
      refine keeps_allocateBodyBuilder (sound_bodyBuilder.mpr ⟨sound_bread b.bottom, ?_⟩)
      exact sound_list.mpr (sound_map.mpr fun c _ => sound_component c)
    next => exact ho.elim
    next b => exact keeps_bind_ofExcept fun c hc => keeps_allocate (sound_build ho hc)
    next stock w => exact keeps_getFrom (sound_cons.mp harguments).1 (keeps_holds happly ho w)
    next => exact keeps_runOutcome happly hv harguments
    next => exact keeps_raise _
  next => exact keeps_runPlain happly hv harguments

end Methods

/-! ### Functions -/

theorem keeps_callbackRun (happly : KeepsFrom₂ h apply) {f : Callback} (hf : Sound h f)
    {x : Value} (hx : Sound h x) : Keeps h (f.run apply x) := by
  refine (keeps_note (s := .argument x) hx).bind fun h₁ _ hle₁ _ => ?_
  replace happly := happly.mono hle₁
  replace hf := hf.mono hle₁
  replace hx := hx.mono hle₁
  cases f with
  | identity => exact .pure hx
  | const t => exact keeps_term t hf
  | raise t => exact (keeps_term t hf).bind fun _ v _ _ => keeps_raiseValue v
  | text => exact keeps_textOf hx
  | plus t =>
    exact (keeps_term t hf).bind fun h₂ v hle hv =>
      keepsFrom₂_sum happly h₂ x v hle (hx.mono hle) hv
  | get field => exact keeps_getAttribute hx field
  | succeed t => exact (keeps_term t hf).map fun _ _ _ hv => sound_success.mpr hv
  | fail t => exact (keeps_term t hf).map fun _ _ _ hv => sound_failure.mpr hv
  | map g =>
    refine keeps_invoke happly hx _ ?_
    exact (keeps_allocate (o := .callable (.callback g)) hf).bind fun _ _ _ hg =>
      .pure (sound_singleton hg)
  | call technology method t =>
    obtain ⟨htechnology, ht⟩ := sound_append.mp hf
    refine (keeps_term technology htechnology).bind fun h₂ v hle₂ hv => ?_
    refine keeps_invoke (happly.mono hle₂) hv method ?_
    refine (keeps_term t (Lasting.Sound.mono ht hle₂)).bind fun h₃ w hle₃ hw => .pure ?_
    exact sound_cons.mpr ⟨hx.mono (hle₂.trans hle₃), sound_singleton hw⟩

theorem keeps_callableRun (happly : KeepsFrom₂ h apply) {c : Callable} (hc : Sound h c)
    {arguments : List Value} (harguments : Sound h arguments) :
    Keeps h (c.run apply arguments) := by
  have hone {x y : Value} (hxy : Sound h [x, y]) : Sound h x ∧ Sound h y := by
    simpa only [sound_cons, sound_nil, and_true] using hxy
  unfold Callable.run
  split
  next v m =>
    exact happly h (.method v m) arguments le_rfl (hc v (List.mem_singleton.mpr rfl)) harguments
  next f x => exact keeps_callbackRun happly hc (sound_cons.mp harguments).1
  next x => exact .pure (sound_success.mpr (sound_cons.mp harguments).1)
  next x => exact .pure (sound_failure.mpr (sound_cons.mp harguments).1)
  next r technology => exact keeps_runRecipe happly hc (sound_cons.mp harguments).1
  next component x =>
    have hcomponent : Sound h component := hc component (List.mem_singleton.mpr rfl)
    exact keepsFrom₂_sum happly h x component le_rfl (sound_cons.mp harguments).1 hcomponent
  next top x => exact keeps_closed (sound_cons.mp harguments).1 top
  next technology component x =>
    obtain ⟨htechnology, hcomponent⟩ := sound_cons.mp hc
    obtain ⟨hx, -⟩ := sound_cons.mp harguments
    refine keeps_invoke happly htechnology _ ?_
    refine (keeps_term component hcomponent).bind fun h₁ v hle hv => .pure ?_
    exact sound_cons.mpr ⟨hx.mono hle, sound_singleton hv⟩
  next technology top x =>
    obtain ⟨htechnology, htop⟩ := sound_cons.mp hc
    obtain ⟨hx, -⟩ := sound_cons.mp harguments
    refine keeps_invoke happly htechnology _ ?_
    refine (keeps_term top htop).bind fun h₁ v hle hv => .pure ?_
    exact sound_cons.mpr ⟨hx.mono hle, sound_singleton hv⟩
  next i o x y =>
    obtain ⟨hx, hy⟩ := hone harguments
    exact sturdy_technologyOver (sturdy_bare happly) i o h x y le_rfl hx hy
  next storage o x y =>
    obtain ⟨hx, hy⟩ := hone harguments
    have hstorage : Sound h storage := hc storage (List.mem_singleton.mpr rfl)
    refine sturdy_stocked (sturdy_bare happly) (fun h₁ v hle hv => ?_) o h x y le_rfl hx hy
    exact keeps_ask (happly.mono hle) (hstorage.mono hle) .get (sound_singleton hv)
  next operation technology x y =>
    obtain ⟨hx, hy⟩ := hone harguments
    refine (keeps_note (s := .operation operation x y) ⟨hx, hy⟩).bind fun h₁ _ hle₁ _ => ?_
    refine (keeps_term technology (hc.mono hle₁)).bind fun h₂ v hle₂ hv => ?_
    refine keeps_invoke (happly.mono (hle₁.trans hle₂)) hv _ (.pure ?_)
    exact harguments.mono (hle₁.trans hle₂)
  next operation fault x y =>
    refine (keeps_note (s := .operation operation x y) (hone harguments)).bind fun h₁ _ hle₁ _ => ?_
    exact (keeps_term fault (hc.mono hle₁)).bind fun _ v _ _ => keeps_raiseValue v
  next operation error x y =>
    refine (keeps_note (s := .operation operation x y) (hone harguments)).bind fun h₁ _ hle₁ _ => ?_
    exact (keeps_term error (hc.mono hle₁)).map fun _ _ _ hv => sound_failure.mpr hv
  next => exact keeps_raise _

theorem keepsFrom₂_applyWithin (depth : Nat) : KeepsFrom₂ h (applyWithin depth) := by
  induction depth with
  | zero => exact fun h' f arguments _ _ _ => keeps_raise _
  | succ depth ih =>
    intro h' f arguments hle hf harguments
    cases f with
    | method v m => exact keeps_methodRun (ih.mono hle) hf harguments
    | value f =>
      refine keeps_bind_object? fun h₁ hle₁ hh => ?_
      split
      next c hc =>
        exact keeps_callableRun (ih.mono (hle.trans hle₁)) (hh.object? hc) (harguments.mono hle₁)
      next => exact keeps_raise _

theorem keepsFrom₂_apply : KeepsFrom₂ h Session.apply := keepsFrom₂_applyWithin depthLimit

end Deli.Session
