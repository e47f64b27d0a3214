import Deli.Pantry
import Mathlib.Tactic.Common

/-! Actions as functions of the world they are done in: each gives what it returns or raises
together with the world it leaves. Chains of actions, guards and what is printed are worked out by
rewriting with the equations below, so nothing else has to look inside of an action. -/

namespace Deli

variable {ω α β : Type}

namespace World

/-- The world with more lines on its console. -/
def printed (w : World ω) (lines : List Line) : World ω :=
  { w with console := w.console ++ lines }

/-- The world in which one more fault has come up. -/
def faulted (w : World ω) : World ω := { w with nextFault := w.nextFault + 1 }

@[simp] theorem printed_nil (w : World ω) : w.printed [] = w := by
  simp [printed]

@[simp] theorem printed_printed (w : World ω) (xs ys : List Line) :
    (w.printed xs).printed ys = w.printed (xs ++ ys) := by
  simp [printed]

section Terminal

variable [HasTerminal ω]

def terminal (w : World ω) : Terminal := HasTerminal.terminal w.rest

/-- Whether the terminal of a world shows a line. -/
def Takes (w : World ω) (line : Line) : Prop := w.terminal.refusal? line = none

/-- What comes of telling a line and going on with `next`. Nothing goes on after a line that the
terminal refuses. -/
def telling (w : World ω) (line : Line) (next : World ω → Except Fault α × World ω) :
    Except Fault α × World ω :=
  match w.terminal.refusal? line with
  | none => next (w.printed [line])
  | some refusal => (.error (.mk w.nextFault refusal.cause), w.faulted)

theorem telling_of_takes {w : World ω} {line : Line} (h : w.Takes line)
    (next : World ω → Except Fault α × World ω) :
    w.telling line next = next (w.printed [line]) := by
  rw [telling, h]

theorem telling_of_refused {w : World ω} {line : Line} {refusal : Refusal}
    (h : w.terminal.refusal? line = some refusal) (next : World ω → Except Fault α × World ω) :
    w.telling line next = (.error (.mk w.nextFault refusal.cause), w.faulted) := by
  rw [telling, h]

theorem rest_telling {w : World ω} {line : Line} {next : World ω → Except Fault α × World ω}
    (h : ∀ w', (next w').2.rest = w'.rest) : (w.telling line next).2.rest = w.rest := by
  unfold telling
  cases w.terminal.refusal? line with
  | none => exact h _
  | some refusal => rfl

/-- Whether a fault is the refusal of one of these lines. -/
def Refuses (w : World ω) (lines : List Line) (e : Fault) : Prop :=
  ∃ line ∈ lines, ∃ refusal, w.terminal.refusal? line = some refusal ∧ e.cause = refusal.cause

theorem Refuses.of_terminal_eq {w w' : World ω} {lines : List Line} {e : Fault}
    (h : w'.Refuses lines e) (hterminal : w'.terminal = w.terminal) : w.Refuses lines e := by
  rwa [Refuses, ← hterminal]

end Terminal

end World

namespace Action

/-- What an action returns or raises in a world, and the world afterwards. -/
def exec (a : Action ω α) (w : World ω) : Except Fault α × World ω := a.run w

@[simp] theorem exec_pure (x : α) (w : World ω) : exec (pure x) w = (.ok x, w) := rfl

@[simp] theorem exec_throw (e : Fault) (w : World ω) :
    exec (throw e : Action ω α) w = (.error e, w) := rfl

@[simp] theorem exec_bind (a : Action ω α) (f : α → Action ω β) (w : World ω) :
    exec (a >>= f) w = match exec a w with
      | (.ok x, w) => exec (f x) w
      | (.error e, w) => (.error e, w) := by
  change ExceptT.run (a >>= f) w = match ExceptT.run a w with
    | (.ok x, w) => _
    | (.error e, w) => _
  rw [ExceptT.run_bind]
  simp only [bind, StateT.bind]
  rcases ExceptT.run a w with ⟨_ | _, _⟩ <;> rfl

/-- What a chain returns is returned by its last action, in the world that the first one left. -/
theorem exec_bind_eq_ok {a : Action ω α} {f : α → Action ω β} {w w' : World ω} {y : β} :
    exec (a >>= f) w = (.ok y, w') ↔
      ∃ x w₁, exec a w = (.ok x, w₁) ∧ exec (f x) w₁ = (.ok y, w') := by
  rw [exec_bind]
  rcases exec a w with ⟨_ | x, w₁⟩ <;> simp

@[simp] theorem exec_map (f : α → β) (a : Action ω α) (w : World ω) :
    exec (f <$> a) w = match exec a w with
      | (.ok x, w) => (.ok (f x), w)
      | (.error e, w) => (.error e, w) := by
  rw [map_eq_pure_bind, exec_bind]
  rfl

@[simp] theorem exec_tryCatch (a : Action ω α) (f : Fault → Action ω α) (w : World ω) :
    exec (tryCatch a f) w = match exec a w with
      | (.ok x, w) => (.ok x, w)
      | (.error e, w) => exec (f e) w := by
  change ExceptT.run (tryCatch a f) w = match ExceptT.run a w with
    | (.ok x, w) => _
    | (.error e, w) => _
  rw [ExceptT.run_tryCatch]
  simp only [bind, StateT.bind]
  rcases ExceptT.run a w with ⟨_ | _, _⟩ <;> rfl

@[simp] theorem exec_print (s : String) (w : World ω) :
    exec (print s) w = (.ok (), w.printed [.text s]) := rfl

@[simp] theorem exec_newFault (c : Cause) (w : World ω) :
    exec (newFault c) w = (.ok (.mk w.nextFault c), w.faulted) := rfl

@[simp] theorem exec_raise (c : Cause) (w : World ω) :
    exec (raise c : Action ω α) w = (.error (.mk w.nextFault c), w.faulted) := rfl

@[simp] theorem exec_ofExcept_ok (x : α) (w : World ω) :
    exec (ofExcept (.ok x)) w = (.ok x, w) := rfl

@[simp] theorem exec_ofExcept_error (c : Cause) (w : World ω) :
    exec (ofExcept (.error c) : Action ω α) w = exec (raise c) w := rfl

theorem exec_ofExcept_eq_ok {x : Except Cause α} {a : α} {w w' : World ω} :
    exec (ofExcept x) w = (.ok a, w') ↔ x = .ok a ∧ w' = w := by
  cases x <;> simp [eq_comm]

section Telling

variable [HasTerminal ω] (line : Line) (w : World ω)

theorem exec_tell : exec (tell line) w = w.telling line fun w => (.ok (), w) := by
  have hget : exec (get : Action ω (World ω)) w = (.ok w, w) := rfl
  simp only [tell, exec_bind, hget, World.telling]
  rw [← World.terminal]
  cases w.terminal.refusal? line <;> rfl

theorem exec_tell_bind (f : Unit → Action ω α) :
    exec (tell line >>= f) w = w.telling line (exec (f ())) := by
  rw [exec_bind, exec_tell]
  unfold World.telling
  cases w.terminal.refusal? line <;> rfl

end Telling

/-! ### Up to refusals -/

section ComesTo

variable [HasTerminal ω] {a : Action ω α} {f : α → Action ω β} {lines : List Line}
  {w w₁ w' w'' : World ω} {x : Except Fault α} {y : Except Fault β} {e : Fault}

/-- What an action returns or raises and the world it leaves, unless the terminal refuses one of
these lines. Then that is what is raised. -/
def ComesTo (a : Action ω α) (lines : List Line) (w : World ω) (x : Except Fault α)
    (w' : World ω) : Prop :=
  a.exec w = (x, w') ∨ ∃ e w'', a.exec w = (.error e, w'') ∧ w.Refuses lines e

theorem ComesTo.exec_of_takes (h : a.ComesTo lines w x w') (hlines : ∀ line ∈ lines, w.Takes line) :
    a.exec w = (x, w') := by
  obtain h | ⟨e, w'', -, line, hline, refusal, hrefusal, -⟩ := h
  · exact h
  · rw [hlines line hline] at hrefusal
    cases hrefusal

theorem comesTo_telling {line : Line} (hline : line ∈ lines)
    (next : World ω → Except Fault α × World ω) :
    w.telling line next = next (w.printed [line]) ∨
      ∃ e w', w.telling line next = (.error e, w') ∧ w.Refuses lines e := by
  cases h : w.terminal.refusal? line with
  | none => exact .inl (World.telling_of_takes h next)
  | some refusal =>
    exact .inr ⟨_, _, World.telling_of_refused h next, line, hline, refusal, h, rfl⟩

theorem comesTo_tell {line : Line} (hline : line ∈ lines) :
    (tell line).ComesTo lines w (.ok ()) (w.printed [line]) := by
  rw [ComesTo, exec_tell]
  exact comesTo_telling hline _

theorem ComesTo.bind {b : α} (ha : a.ComesTo lines w (.ok b) w₁)
    (hterminal : w₁.terminal = w.terminal) (hf : (f b).ComesTo lines w₁ y w') :
    (a >>= f).ComesTo lines w y w' := by
  rw [ComesTo, exec_bind]
  obtain h | ⟨e, w₂, h, hrefuses⟩ := ha
  · rw [h]
    obtain hf | ⟨e, w₂, hf, hrefuses⟩ := hf
    · exact .inl hf
    · exact .inr ⟨e, w₂, hf, hrefuses.of_terminal_eq hterminal⟩
  · rw [h]
    exact .inr ⟨e, w₂, rfl, hrefuses⟩

theorem ComesTo.bind_error (ha : a.ComesTo lines w (.error e) w') :
    (a >>= f).ComesTo lines w (.error e) w' := by
  rw [ComesTo, exec_bind]
  obtain h | ⟨e', w₂, h, hrefuses⟩ := ha
  · rw [h]
    exact .inl rfl
  · rw [h]
    exact .inr ⟨e', w₂, rfl, hrefuses⟩

end ComesTo

/-- Nothing is printed in a pure step. -/
theorem console_ofExcept (x : Except Cause α) (w : World ω) :
    (exec (ofExcept x) w).2.console = w.console := by
  cases x <;> rfl

/-- Pure steps in a row are one pure step. -/
theorem ofExcept_bind (x : Except Cause α) (f : α → Except Cause β) :
    (ofExcept (x >>= f) : Action ω β) = ofExcept x >>= fun a => ofExcept (f a) := by
  funext w
  cases x <;> rfl

end Action

end Deli
