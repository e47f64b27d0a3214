import Deli.Document.Cursor

/-! Texts in a document: plain, between quotes, and in blocks of lines. A line end inside a
text becomes a space, and of several line ends all but the first are kept. Loops that read on
as long as there is text to read are bounded by its length. -/

namespace Deli.Document.Scan

open Cursor

/-- Room enough for any loop that reads something every time round. -/
def fuel : Scan Nat := do pure ((← get).rest.length + 1)

/-- What a line end and the line ends after it stand for. -/
def folded (first : Char) (more : List Char) : List Char :=
  if first != '\n' then first :: more
  else if more.isEmpty then [' ']
  else more

/-! ### Plain -/

/-- A run of plain text, without blanks. Inside brackets, their own characters end it too. -/
def plainRun (flow : Bool) : List Char → List Char
  | [] => []
  | c :: rest =>
    let colonEnds := c == ':' && rest.head?.all fun d => isBlank d || (flow && ",[]\x7b\x7d".contains d)
    if isBlank c || colonEnds || (flow && ",?[]\x7b\x7d".contains c) then []
    else c :: plainRun flow rest

/-- Line ends and spaces up to the next text, unless a document ends before. -/
def plainBreaks : Nat → List Char → Scan (Option (List Char))
  | 0, _ => refuse
  | n + 1, breaks => do
    let _ ← longest (· == ' ')
    match ← lineBreak with
    | none => pure (some breaks.reverse)
    | some x =>
      let c ← get
      if c.atSeparator '-' || c.atSeparator '.' then pure none else plainBreaks n (x :: breaks)

/-- What stands for the blanks after a run of plain text, and whether a line ended there.
Nothing does when the text cannot go on. -/
def plainSpaces : Scan (List Char × Bool) := do
  let spaces ← longest (· == ' ')
  match ← lineBreak with
  | none => pure (spaces, false)
  | some x =>
    let c ← get
    if c.atSeparator '-' || c.atSeparator '.' then pure ([], true)
    else
      match ← plainBreaks (← fuel) [] with
      | none => pure ([], true)
      | some breaks => pure (folded x breaks, true)

def plainLoop (flow : Bool) (margin : Nat) :
    Nat → List Char → List Char → Bool → Scan (List Char × Bool)
  | 0, _, _, _ => refuse
  | n + 1, text, spaces, ended => do
    let chunk := plainRun flow (← get).rest
    if chunk.isEmpty || (← get).sees '#' then pure (text, ended)
    else
      skip chunk.length
      let text := text ++ spaces ++ chunk
      let (spaces, ended) ← plainSpaces
      let c ← get
      if spaces.isEmpty || c.sees '#' || (!flow && c.column < margin) then pure (text, ended)
      else plainLoop flow margin n text spaces ended

/-- Plain text, indented by `margin` at least, and whether the last line it is on has ended. -/
def plain (flow : Bool) (margin : Nat) : Scan (List Char × Bool) := do
  plainLoop flow margin (← fuel) [] [] false

/-! ### Between quotes -/

def hexValue (digits : List Char) : Option Nat :=
  digits.foldlM (fun n c =>
    if c.isDigit then some (16 * n + (c.toNat - '0'.toNat))
    else if 'a' ≤ c ∧ c ≤ 'f' then some (16 * n + (c.toNat - 'a'.toNat + 10))
    else if 'A' ≤ c ∧ c ≤ 'F' then some (16 * n + (c.toNat - 'A'.toNat + 10))
    else none) 0

/-- The code of a character, in exactly `width` hexadecimal digits. -/
def hexCode (width : Nat) : Scan Nat := do
  let digits := (← get).rest.take width
  if digits.length < width then refuse
  match hexValue digits with
  | some n =>
    skip width
    pure n
  | none => refuse

/-- A code point by its number, which may be half of a character but has to be one there is. -/
def codePoint (width : Nat) : Scan Nat := do
  let n ← hexCode width
  if n < 0x110000 then pure n
  else if n < 0x80000000 then throw (.plain .value "chr() arg not in range(0x110000)")
  else throw (.plain .overflow "Python int too large to convert to C int")

/-- What a single character after a backslash stands for. -/
def escapes : List (Char × Char) :=
  [('0', '\x00'), ('a', '\x07'), ('b', '\x08'), ('t', '\t'), ('\t', '\t'), ('n', '\n'),
   ('v', '\x0b'), ('f', '\x0c'), ('r', '\r'), ('e', '\x1b'), (' ', ' '), ('"', '"'),
   ('\\', '\\'), ('/', '/'), ('N', '\x85'), ('_', '\xa0'), ('L', '\u2028'), ('P', '\u2029')]

/-- Line ends inside quotes. Documents must not be set apart there. -/
def quotedBreaks : Nat → List Char → Scan (List Char)
  | 0, _ => refuse
  | n + 1, breaks => do
    require fun c => !(c.atSeparator '-' || c.atSeparator '.')
    let _ ← longest fun x => x == ' ' || x == '\t'
    match ← lineBreak with
    | none => pure breaks.reverse
    | some x => quotedBreaks n (x :: breaks)

def quotedSpaces : Scan (List Char) := do
  let spaces ← longest fun x => x == ' ' || x == '\t'
  if (← get).rest.isEmpty then refuse
  match ← lineBreak with
  | none => pure spaces
  | some x => do pure (folded x (← quotedBreaks (← fuel) []))

def codesOf (cs : List Char) : List Nat := cs.map Char.toNat

/-- What a backslash and what comes after it stand for. -/
def escaped : Scan (List Nat) := do
  match (← get).peek with
  | none => refuse
  | some x =>
    match escapes.lookup x with
    | some y =>
      skip 1
      pure [y.toNat]
    | none =>
      if isBreak x then
        let _ ← lineBreak
        codesOf <$> quotedBreaks (← fuel) []
      else
        skip 1
        match x with
        | 'x' => do pure [← codePoint 2]
        | 'u' => do pure [← codePoint 4]
        | 'U' => do pure [← codePoint 8]
        | _ => refuse

/-- One piece of quoted text, or nothing at the closing quote. -/
def quotedPiece (mark : Char) : Scan (Option (List Nat)) := do
  match (← get).peek with
  | none => refuse
  | some x =>
    if x == mark then
      if mark == '\'' && (← get).peekAt 1 == some '\'' then
        skip 2
        pure (some [x.toNat])
      else pure none
    else if isBlank x then (some ∘ codesOf) <$> quotedSpaces
    else if x == '\\' && mark == '"' then
      skip 1
      some <$> escaped
    else
      skip 1
      pure (some [x.toNat])

def quotedLoop (mark : Char) : Nat → List (List Nat) → Scan (List Nat)
  | 0, _ => refuse
  | n + 1, pieces => do
    match ← quotedPiece mark with
    | some piece => quotedLoop mark n (piece :: pieces)
    | none => pure pieces.reverse.flatten

/-- Text up to the closing quote, starting at the opening one. -/
def quoted (mark : Char) : Scan (List Nat) := do
  skip 1
  let codes ← quotedLoop mark (← fuel) []
  skip 1
  pure codes

/-! ### Blocks of lines -/

/-- Which line ends at the end of a block are kept. -/
inductive Chomping where
  | clip | strip | keep
  deriving DecidableEq, Repr

def chomping? : Scan (Option Chomping) := do
  match (← get).peek with
  | some '+' =>
    skip 1
    pure (some .keep)
  | some '-' =>
    skip 1
    pure (some .strip)
  | _ => pure none

def indentDigit? : Scan (Option Nat) := do
  match (← get).peek with
  | some x =>
    if x.isDigit then
      if x == '0' then refuse
      skip 1
      pure (some (x.toNat - '0'.toNat))
    else pure none
  | none => pure none

/-- How a block is to be read, in either order. -/
def blockHeader : Scan (Chomping × Option Nat) := do
  let header ← match ← chomping? with
    | some chomping => do pure (chomping, ← indentDigit?)
    | none => do
      let digit ← indentDigit?
      match digit with
      | none => pure (.clip, none)
      | some _ => do pure ((← chomping?).getD .clip, digit)
  require atSpaceOrLineEnd
  emptyLineEnd
  pure header

/-- Empty lines at the beginning of a block, and the deepest indentation among them and the
first line of text. -/
def blockIndent : Nat → Nat → List Char → Scan (Nat × List Char)
  | 0, _, _ => refuse
  | n + 1, deepest, breaks => do
    let _ ← longest (· == ' ')
    let deepest := max deepest (← get).column
    match ← lineBreak with
    | some x => blockIndent n deepest (x :: breaks)
    | none => pure (deepest, breaks.reverse)

def skipIndent (indent : Nat) : Scan Unit := do
  let c ← get
  skip ((c.rest.take (indent - c.column)).takeWhile (· == ' ')).length

/-- Empty lines between lines of a block. -/
def blockBreaks (indent : Nat) : Nat → List Char → Scan (List Char)
  | 0, _ => refuse
  | n + 1, breaks => do
    skipIndent indent
    match ← lineBreak with
    | some x => blockBreaks indent n (x :: breaks)
    | none => pure breaks.reverse

def isSpaceOrTab (o : Option Char) : Bool := o == some ' ' || o == some '\t'

/-- The lines of a block: the text, the last line end, and the empty lines after it. Folding
joins two lines by a space if neither is indented further. -/
def blockLines (fold : Bool) (indent : Nat) : Nat → List Char → List (List Char) →
    Option Char → Scan (List Char × Option Char × List Char)
  | 0, _, _, _ => refuse
  | n + 1, breaks, text, ended => do
    let c ← get
    if c.column != indent || c.rest.isEmpty then pure (text.reverse.flatten, ended, breaks)
    else
      let flush := !isSpaceOrTab c.peek
      let content ← longest (!isBreak ·)
      let text := content :: breaks :: text
      let ended ← lineBreak
      let breaks ← blockBreaks indent (← fuel) []
      let c ← get
      if c.column != indent || c.rest.isEmpty then pure (text.reverse.flatten, ended, breaks)
      else
        let joint :=
          if fold && ended == some '\n' && flush && !isSpaceOrTab c.peek then
            if breaks.isEmpty then [' '] else []
          else ended.toList
        blockLines fold indent n breaks (joint :: text) none

/-- A block of lines that are indented by `margin` at least, and by one. -/
def block (fold : Bool) (margin : Nat) : Scan (List Char) := do
  skip 1
  let (chomping, digit) ← blockHeader
  let least := max margin 1
  let (indent, breaks) ← match digit with
    | none => do
      let (deepest, breaks) ← blockIndent (← fuel) 0 []
      pure (max least deepest, breaks)
    | some d => do
      let indent := least + d - 1
      pure (indent, ← blockBreaks indent (← fuel) [])
  let (text, ended, breaks) ← blockLines fold indent (← fuel) breaks [] none
  let tail := match chomping with
    | .strip => []
    | .clip => ended.toList
    | .keep => ended.toList ++ breaks
  pure (text ++ tail)

end Deli.Document.Scan
