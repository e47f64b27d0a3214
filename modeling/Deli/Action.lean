import Deli.Value.Text

/-! What the kitchen does besides returning values: it prints on a console, faults come up and
are raised, and whatever else there is, the rest `ω`, may change.

What is printed is shown by a terminal, which reads the markup in it and writes it to the standard
output. The kitchen's own texts are shown by every terminal. A text with something in it that comes
from outside may be refused. -/

namespace Deli

/-- What is printed on the console in one go. -/
inductive Line where
  | text (s : String)
  | panel (text title border : String)
  deriving DecidableEq, Repr

structure World (ω : Type) where
  /-- In the order in which it was printed. -/
  console : List Line
  /-- The identity that the next fault gets. -/
  nextFault : Nat
  rest : ω

/-- Why a line is not shown. -/
inductive Refusal where
  /-- Something is closed in it that was not opened. -/
  | markup (message : String)
  /-- It has a character that the output has no bytes for. -/
  | encoding (message : String)
  deriving DecidableEq, Repr

def Refusal.cause : Refusal → Cause
  | markup message => .plain .markup message
  | encoding message => .plain .encoding message

/-- What shows lines. Half a character counts as the sign that it shows as: a terminal that refuses
the one refuses the other. -/
structure Terminal where
  refusal? : Line → Option Refusal

/-- A terminal that only keeps what it is given. -/
def Terminal.patient : Terminal := ⟨fun _ => none⟩

/-- Worlds in which there is a terminal. -/
class HasTerminal (ω : Type) where
  terminal : ω → Terminal

instance : HasTerminal Terminal := ⟨id⟩

instance : HasTerminal Unit := ⟨fun _ => .patient⟩

/-- Something that is done: it returns a value or raises a fault. What was printed and changed
before a fault was raised stays. -/
abbrev Action (ω α : Type) := ExceptT Fault (StateM (World ω)) α

namespace Action

variable {ω α : Type}

/-- Prints a text of the kitchen's own. -/
def print (s : String) : Action ω Unit :=
  modify fun w => { w with console := w.console ++ [.text s] }

/-- A fault that is the same as no other. -/
def newFault (c : Cause) : Action ω Fault := do
  let w ← get
  set { w with nextFault := w.nextFault + 1 }
  pure (.mk w.nextFault c)

def raise (c : Cause) : Action ω α := do throw (← newFault c)

/-- Prints a line with something in it that comes from outside, if the terminal shows it. -/
def tell [HasTerminal ω] (line : Line) : Action ω Unit := do
  match (HasTerminal.terminal (← get).rest).refusal? line with
  | none => modify fun w => { w with console := w.console ++ [line] }
  | some refusal => raise refusal.cause

/-- Raises the fault that a value is. Nothing else can be raised. -/
def raiseValue : Value → Action ω α
  | .fault e => throw e
  | _ => raise .misuse

/-- Something pure that may go wrong, as a step. -/
def ofExcept : Except Cause α → Action ω α
  | .ok a => pure a
  | .error c => raise c

end Action

end Deli
