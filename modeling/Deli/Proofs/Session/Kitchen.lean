import Deli.Kitchen
import Deli.Proofs.Session.State

/-! The outcomes, technologies and books of the library keep a session in order if what they call
does. -/

namespace Deli.Session

variable {h : Heap}

/-! ### Outcomes -/

/-- The faults that become failures were made with texts only. -/
theorem held_of_isCatchable {c : Cause} (hc : c.isCatchable) : c.held = [] := by
  cases c with
  | recipe message asked => cases hc
  | storage message ingredient => cases hc
  | notFound name ingredient => cases hc
  | _ => rfl

theorem keeps_guarded {step : Act Value} (hstep : Keeps h step) :
    Keeps h (Outcome.guarded step) := by
  refine (hstep.map fun _ _ _ hx => sound_success.mpr hx).tryCatch fun e => ?_
  split
  next hc =>
    have he : Sound h e.cause.held := by
      rw [held_of_isCatchable hc]
      exact sound_nil
    exact .pure (sound_failure.mpr (sound_fault.mpr he))
  next => exact .throw e

section Outcomes

variable {step : Value → Act Value} {r : Value}

theorem keeps_mapCatching (hstep : KeepsFrom h step) (hr : Sound h r) :
    Keeps h (Outcome.mapCatching r step) := by
  unfold Outcome.mapCatching
  split
  next v => exact keeps_guarded (hstep h v le_rfl (sound_success.mp hr))
  next => exact .pure hr
  next => exact keeps_raise _

theorem keeps_fold {other : Value → Act Value} (hstep : KeepsFrom h step) (hother : KeepsFrom h other)
    (hr : Sound h r) : Keeps h (Outcome.fold r step other) := by
  unfold Outcome.fold
  split
  next v => exact hstep h v le_rfl (sound_success.mp hr)
  next v => exact hother h v le_rfl (sound_failure.mp hr)
  next => exact keeps_raise _

theorem keeps_outcomeNext (hstep : KeepsFrom h step) (hr : Sound h r) :
    Keeps h (Outcome.next r step) := by
  refine (keeps_ofExcept fun _ _ => trivial).bind fun h₁ failed hle _ => ?_
  exact .ite (.pure (hr.mono hle)) (hstep h₁ r hle (hr.mono hle))

theorem keeps_outcomeFinish (hstep : KeepsFrom h step) (hr : Sound h r) :
    Keeps h (Outcome.finish r step) :=
  (keeps_ofExcept fun _ _ => trivial).bind fun h₁ _ hle _ => hstep h₁ r hle (hr.mono hle)

theorem sound_getOrNull (hr : Sound h r) {v : Value} (hv : Outcome.getOrNull r = .ok v) :
    Sound h v := by
  unfold Outcome.getOrNull at hv
  split at hv <;> cases hv
  · exact sound_success.mp hr
  · exact sound_null

theorem sound_errorOrNull (hr : Sound h r) {v : Value} (hv : Outcome.errorOrNull r = .ok v) :
    Sound h v := by
  unfold Outcome.errorOrNull at hv
  split at hv <;> cases hv
  · exact sound_null
  · exact sound_failure.mp hr

theorem keeps_getOrRaise (hr : Sound h r) : Keeps h (Outcome.getOrRaise r : Act Value) := by
  unfold Outcome.getOrRaise
  split
  next v => exact .pure (sound_success.mp hr)
  next v => exact keeps_raiseValue v
  next => exact keeps_raise _

end Outcomes

theorem keeps_plusWith {inner : Value → Value → Act Value}
    (hinner : ∀ v w, Sound h v → Sound h w → Keeps h (inner v w)) {v w : Value}
    (hv : Sound h v) (hw : Sound h w) : Keeps h (Value.plusWith inner v w) := by
  fun_induction Value.plusWith inner v w with
  | case1 w v ih => exact keeps_guarded (ih (sound_success.mp hv) hw)
  | case2 w v => exact .pure hv
  | case3 v w _ _ => exact hinner v w hv hw

/-! ### Looking up -/

theorem keeps_notFound (name : String) {v : Value} (hv : Sound h v) :
    Keeps h (Pantry.notFound name v : Act Value) := by
  have hc : Sound h (Cause.notFound name v) := sound_cons.mpr ⟨hv, sound_nil⟩
  exact (keeps_newFault hc).bind fun _ e _ he => .pure (sound_failure.mpr (sound_fault.mpr he))

theorem keeps_getFrom {holds : Value → Act Bool} {v : Value} (hv : Sound h v)
    (hholds : Keeps h (holds v)) : Keeps h (Pantry.getFrom holds v) := by
  refine hholds.bind fun h₁ found hle₁ _ => .ite (.pure (sound_success.mpr (hv.mono hle₁))) ?_
  refine (keeps_nameOf v).bind fun h₂ name hle₂ _ => (keeps_print _).bind fun h₃ _ hle₃ _ => ?_
  exact keeps_notFound name (hv.mono ((hle₁.trans hle₂).trans hle₃))

theorem sound_ofItems {items : List Value} (hitems : Sound h items) {p : Pantry}
    (hp : Pantry.ofItems items = .ok p) : Sound h p := by
  unfold Pantry.ofItems at hp
  split at hp <;> cases hp
  exact hitems

theorem keeps_pantryGet (p : Pantry) : KeepsFrom h (p.get : Value → Act Value) := by
  intro h' v _ hv
  refine keeps_getFrom hv ?_
  unfold Pantry.holds
  split
  · exact keeps_anyM (fun x => keeps_same v x) p.stock
  · exact keeps_raise _

/-! ### Technologies -/

/-- The operations of a technology keep a session in order on sound arguments. -/
def Sturdy (h : Heap) (t : Technology State) : Prop := ∀ o, KeepsFrom₂ h (t.run o)

section Technologies

variable {bare : Technology State}

theorem keeps_whenFound {look : Value → Act Value} (hlook : KeepsFrom h look) {x : Value}
    (hx : Sound h x) {rest : Act Value} (hrest : Keeps h rest) :
    Keeps h (Interpreter.whenFound look x rest) := by
  refine (hlook h x le_rfl hx).bind fun h₁ found hle₁ hfound => ?_
  refine (keeps_isFailure hfound).bind fun h₂ failed hle₂ _ => ?_
  exact .ite (.pure (hfound.mono hle₂)) (hrest.mono (hle₁.trans hle₂))

theorem sturdy_real (hbare : Sturdy h bare) : Sturdy h (Interpreter.realTechnology bare) := by
  intro o h' x y hle hx hy
  have hprinted (s : String) {h₁ : Heap} {r : Value} (hr : Sound h₁ r) :
      Keeps h₁ (do
        Action.print s
        pure r) := (keeps_print s).bind fun _ _ hle _ => .pure (hr.mono hle)
  cases o with
  | start => exact (hbare .start h' x y hle hx hy).bind fun _ r _ hr => hprinted _ hr
  | add => exact (hbare .add h' x y hle hx hy).bind fun _ r _ hr => hprinted _ hr
  | finish =>
    refine (hbare .finish h' x y hle hx hy).bind fun h₁ r _ hr => ?_
    refine (keeps_isFailure hr).bind fun h₂ failed hle₂ _ => ?_
    exact .ite (hprinted _ (hr.mono hle₂)) (hprinted _ (hr.mono hle₂))

theorem sturdy_stocked (hbare : Sturdy h bare) {look : Value → Act Value}
    (hlook : KeepsFrom h look) : Sturdy h (Interpreter.stockedTechnology bare look) := by
  intro o h' x y hle hx hy
  cases o with
  | start =>
    exact keeps_whenFound (hlook.mono hle) hx
      (keeps_whenFound (hlook.mono hle) hy (hbare .start h' x y hle hx hy))
  | add =>
    refine (keeps_isFailure hx).bind fun h₁ failed hle₁ _ => .ite (.pure (hx.mono hle₁)) ?_
    exact (keeps_whenFound (hlook.mono hle) hy (hbare .add h' x y hle hx hy)).mono hle₁
  | finish =>
    have hfinish := hbare .finish h' x y hle hx hy
    refine (keeps_isSuccess hx).bind fun h₁ succeeded hle₁ _ => .ite ?_ (hfinish.mono hle₁)
    split
    · exact hfinish.mono hle₁
    · exact (keeps_whenFound (hlook.mono hle) hy hfinish).mono hle₁

theorem keeps_fail (o : Operation) {x : Value} (hx : Sound h x) :
    Keeps h (Interpreter.fail o x : Act Value) := by
  refine (keeps_print _).bind fun h₁ _ hle₁ _ => (keeps_nameOf x).bind fun h₂ name hle₂ _ => ?_
  exact keeps_notFound name (hx.mono (hle₁.trans hle₂))

theorem sturdy_faulty (hbare : Sturdy h bare) (failAt : Value) :
    Sturdy h (Interpreter.faultyTechnology bare failAt) := by
  intro o h' x y hle hx hy
  cases o with
  | start => exact .ite (keeps_fail .start hx) (hbare .start h' x y hle hx hy)
  | add =>
    refine (keeps_isFailure hx).bind fun h₁ failed hle₁ _ => .ite (.pure (hx.mono hle₁)) ?_
    exact .ite (keeps_fail .add (hy.mono hle₁)) ((hbare .add h' x y hle hx hy).mono hle₁)
  | finish =>
    have hfinish := hbare .finish h' x y hle hx hy
    refine (keeps_isSuccess hx).bind fun h₁ succeeded hle₁ _ => .ite ?_ (hfinish.mono hle₁)
    have htop : Sound h' (Interpreter.topOrToast y) := by
      unfold Interpreter.topOrToast
      split
      · exact sound_bread _
      · exact hy
    exact .ite (keeps_fail .finish (htop.mono hle₁)) (hfinish.mono hle₁)

theorem sturdy_technologyOver (hbare : Sturdy h bare) (i : Interpreter) :
    Sturdy h (i.technologyOver bare) := by
  cases i with
  | real => exact sturdy_real hbare
  | crazy => exact hbare
  | stocked pantry => exact sturdy_stocked hbare (keeps_pantryGet pantry)
  | faulty failAt => exact sturdy_faulty hbare failAt

end Technologies

theorem keeps_choose {name : Value} {pantry : Act Pantry} {failAt : Act Value}
    (hpantry : Keeps h pantry) (hfailAt : Keeps h failAt) :
    Keeps h (Interpreter.choose name pantry failAt) := by
  unfold Interpreter.choose
  split
  · exact .pure (sound_nil (α := Value))
  · exact .pure (sound_nil (α := Value))
  · exact hpantry.map fun _ _ _ hp => hp
  · exact hfailAt.map fun _ _ _ hv => sound_cons.mpr ⟨hv, sound_nil⟩
  · refine .ite ?_ (keeps_raise _)
    refine (keeps_sceneText name).bind fun h₁ shown _ _ => ?_
    exact (keeps_tell _).bind fun _ _ _ _ => keeps_raise _

/-! ### Books and recipes -/

theorem keeps_bookRegister {b : Book Value} (hb : Sound h b) {v : Value} (hv : Sound h v)
    (name : String) : Keeps h (b.register name (some v) : Act (Book Value)) :=
  (keeps_tell _).bind fun _ _ hle _ => .pure (sound_insert (hb.mono hle) (hv.mono hle) name)

theorem keeps_selectFrom {first : Act (Option Value)} {get : Value → Act (Option Value)}
    (hfirst : Keeps h first) (hget : KeepsFrom h get) {asked : Value} (hasked : Sound h asked) :
    Keeps h (Book.selectFrom first get asked) := by
  have hfind : Keeps h (Book.find? first get asked) := by
    unfold Book.find?
    split
    · exact hfirst
    · exact hget h asked le_rfl hasked
  refine hfind.bind fun h₁ found _ hfound => ?_
  cases found with
  | some recipe => exact .pure (sound_some.mp hfound)
  | none =>
    refine (keeps_isPresent asked).bind fun h₂ isNamed _ _ => ?_
    refine (keeps_sceneText asked).bind fun h₃ name _ _ => ?_
    exact (keeps_tell _).bind fun _ _ _ _ => keeps_raise _

theorem keeps_cookFrom {select : Value → Act Value} {first : Act String}
    {run error : Value → Act Value} (hselect : KeepsFrom h select) (hfirst : Keeps h first)
    (hrun : KeepsFrom h run) (herror : KeepsFrom h error) {asked : Value}
    (hasked : Sound h asked) : Keeps h (Book.cookFrom select first run error asked) := by
  -- what is done once there is a name to announce
  have hannounced {h₁ : Heap} {recipe : Value} (hle₁ : h ≤ h₁) (hrecipe : Sound h₁ recipe)
      (name : String) : Keeps h₁ (do
        Action.tell (.text ("[cyan][KITCHEN] Cooking: " ++ name ++ "[/cyan]"))
        let result ← run recipe
        if ← Scene.isSuccess result then Action.print "[green][KITCHEN] Sandwich ready[/green]"
        else
          let text ← Scene.text (← error result)
          Action.tell (.text ("[red][KITCHEN] Sandwich failed: " ++ text ++ "[/red]"))
        pure result) := by
    refine (keeps_tell _).bind fun h₂ _ hle₂ _ => ?_
    refine (hrun h₂ recipe (hle₁.trans hle₂) (hrecipe.mono hle₂)).bind fun h₃ r hle₃ hr => ?_
    refine (keeps_isSuccess hr).bind fun h₄ succeeded hle₄ _ => .ite ?_ ?_
    · exact (keeps_print _).bind fun _ _ hle₅ _ => .pure (hr.mono (hle₄.trans hle₅))
    · have hle : h ≤ h₄ := ((hle₁.trans hle₂).trans hle₃).trans hle₄
      refine (herror h₄ r hle (hr.mono hle₄)).bind fun h₅ e hle₅ _ => ?_
      refine (keeps_sceneText e).bind fun h₆ text hle₆ _ => (keeps_tell _).bind fun h₇ _ hle₇ _ => ?_
      exact .pure (hr.mono (((hle₄.trans hle₅).trans hle₆).trans hle₇))
  refine (hselect h asked le_rfl hasked).bind fun h₁ recipe hle₁ hrecipe => ?_
  refine (keeps_isPresent asked).bind fun h₂ isNamed hle₂ _ => ?_
  have hle := hle₁.trans hle₂
  refine .ite ((keeps_sceneText asked).bind fun h₃ name hle₃ _ => ?_)
    ((hfirst.mono hle).bind fun h₃ name hle₃ _ => ?_)
  · exact hannounced (hle.trans hle₃) (hrecipe.mono (hle₂.trans hle₃)) name
  · exact hannounced (hle.trans hle₃) (hrecipe.mono (hle₂.trans hle₃)) name

theorem keeps_follow {r : Recipe Term} (hr : Sound h r) {start : Term → Term → Act Value}
    {next finish : Value → Term → Act Value} (hstart : KeepsFrom₂ h start)
    (hnext : KeepsFrom₂ h next) (hfinish : KeepsFrom₂ h finish) :
    Keeps h (r.follow start next finish) := by
  obtain ⟨⟨hbottom, hfirst⟩, hadds, htop⟩ := sound_recipe.mp hr
  refine (hstart h _ _ le_rfl hbottom hfirst).bind fun h₁ x hle₁ hx => ?_
  refine (keeps_foldlM (fun h' a t hle => hnext h' a t (hle₁.trans hle)) hx
    (hadds.mono hle₁)).bind fun h₂ y hle₂ hy => ?_
  exact hfinish h₂ y r.top (hle₁.trans hle₂) hy (htop.mono (hle₁.trans hle₂))

end Deli.Session
