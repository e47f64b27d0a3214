import Deli.Value

/-! A place in a text that is being read, and the classes of characters that the layout of a
document is made of. -/

namespace Deli.Document

/-- What is being read is no readable document. -/
def refuse {m : Type → Type} [MonadExceptOf Cause m] {α : Type} : m α := throw .unreadable

/-- Line ends, after `\r\n` and `\r` have been read as `\n`. -/
def isBreak (c : Char) : Bool := c == '\n' || c == '\x85' || c == '\u2028' || c == '\u2029'

def isBlank (c : Char) : Bool := c == ' ' || c == '\t' || isBreak c

def isWordChar (c : Char) : Bool := c.isAlphanum || c == '-' || c == '_'

/-- A mark that does not show and takes no column. -/
def byteOrderMark : Char := '\ufeff'

/-- The characters that may stand in a document at all. -/
def isAllowed (c : Char) : Bool :=
  let n := c.toNat
  c == '\t' || c == '\n' || (0x20 ≤ n && n ≤ 0x7e) || n == 0x85 || (0xa0 ≤ n && n ≤ 0xd7ff)
    || (0xe000 ≤ n && n ≤ 0xfffd) || 0x10000 ≤ n

structure Cursor where
  rest : List Char
  /-- Characters, lines and columns passed so far. -/
  index : Nat
  line : Nat
  column : Nat

namespace Cursor

def ofChars (cs : List Char) : Cursor := ⟨cs, 0, 0, 0⟩

def forward (c : Cursor) : Cursor :=
  match c.rest with
  | [] => c
  | x :: rest =>
    if isBreak x then ⟨rest, c.index + 1, c.line + 1, 0⟩
    else ⟨rest, c.index + 1, c.line, if x == byteOrderMark then c.column else c.column + 1⟩

def advance : Nat → Cursor → Cursor
  | 0, c => c
  | n + 1, c => advance n c.forward

def peek (c : Cursor) : Option Char := c.rest.head?

def peekAt (c : Cursor) (n : Nat) : Option Char := c.rest[n]?

/-- The next character is `x`. -/
def sees (c : Cursor) (x : Char) : Bool := c.peek == some x

/-- A blank comes `n` characters on, or nothing more. -/
def blankAt (c : Cursor) (n : Nat) : Bool := (c.peekAt n).all isBlank

/-- The line ends here. -/
def atLineEnd (c : Cursor) : Bool := c.peek.all isBreak

/-- Nothing but a space or the end of the line follows. -/
def atSpaceOrLineEnd (c : Cursor) : Bool := c.peek.all fun x => x == ' ' || isBreak x

/-- A line that starts with three dashes or three dots and no more sets documents apart. -/
def atSeparator (c : Cursor) (x : Char) : Bool :=
  c.rest.take 3 == [x, x, x] && c.blankAt 3

end Cursor

/-- Reads on from a place, or tells why it cannot. -/
abbrev Scan := StateT Cursor (Except Cause)

namespace Scan

def skip (n : Nat) : Scan Unit := modify (Cursor.advance n)

/-- The longest run of characters of a class. -/
def longest (p : Char → Bool) : Scan (List Char) := do
  let cs := (← get).rest.takeWhile p
  skip cs.length
  pure cs

def skipSpaces : Scan Unit := do let _ ← longest (· == ' ')

def require (holds : Cursor → Bool) : Scan Unit := do
  if holds (← get) then pure () else refuse

/-- A line end, read as a newline unless it separates lines or paragraphs by its own. -/
def lineBreak : Scan (Option Char) := do
  match (← get).peek with
  | some x =>
    if isBreak x then
      skip 1
      pure (some (if x == '\x85' then '\n' else x))
    else pure none
  | none => pure none

/-- The rest of a line that may hold nothing but a comment. -/
def emptyLineEnd : Scan Unit := do
  skipSpaces
  if (← get).sees '#' then let _ ← longest (!isBreak ·)
  require Cursor.atLineEnd
  let _ ← lineBreak

end Scan

end Deli.Document
