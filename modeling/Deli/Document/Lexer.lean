import Deli.Document.Number
import Deli.Document.Scalar
import Deli.Document.Token

/-! Tokens from a text. What a key is shows only at the colon after it, so places where a key
may have begun are remembered, one for each depth of brackets, and the tokens that were missing
are put in there when the colon comes. A key stays on one line and within 1024 characters.

Indentation is counted as a level: the column plus one, so that level zero is outside of all
blocks. -/

namespace Deli.Document

/-- A place where a key may have begun. -/
structure Candidate where
  tokenIndex : Nat
  /-- Nothing but a key can stand here. -/
  required : Bool
  index : Nat
  line : Nat
  level : Nat

/-- Whether there may still be a key when the reading has come to a place. -/
def Candidate.isFresh (c : Candidate) (place : Cursor) : Bool :=
  c.line == place.line && place.index - c.index ≤ 1024

structure Lexer where
  cursor : Cursor
  tokens : Array Token
  /-- How many brackets are open. -/
  depth : Nat
  /-- The level of the innermost block, and those of the blocks around it. -/
  level : Nat
  outer : List Nat
  keyAllowed : Bool
  /-- At most one for each depth. -/
  candidates : List (Nat × Candidate)

abbrev Lex := StateT Lexer (Except Cause)

namespace Lex

def scan {α : Type} (s : Scan α) : Lex α := fun l => do
  let (a, cursor) ← s.run l.cursor
  pure (a, { l with cursor })

def cursor : Lex Cursor := do pure (← get).cursor

def emit (t : Token) : Lex Unit := modify fun l => { l with tokens := l.tokens.push t }

def allowKey (b : Bool) : Lex Unit := modify fun l => { l with keyAllowed := b }

def inFlow : Lex Bool := do pure ((← get).depth != 0)

/-! ### Blocks -/

/-- Closes blocks down to a level; brackets have no blocks inside. -/
def closeBlocks (goal : Nat) : Lex Unit := do
  unless ← inFlow do
    let l ← get
    let levels := (l.level :: l.outer).dropWhile (goal < ·)
    let closed := l.outer.length + 1 - levels.length
    set { l with
      level := levels.headD 0
      outer := levels.drop 1
      tokens := l.tokens ++ Array.replicate closed Token.blockEnd }

/-- Opens a block at a level, unless one is open there; answers whether it did. -/
def openBlock (goal : Nat) : Lex Bool := do
  let l ← get
  if l.level < goal then
    set { l with level := goal, outer := l.level :: l.outer }
    pure true
  else pure false

/-! ### Keys -/

/-- Forgets the candidate at the present depth, which must not be required. -/
def dropCandidate : Lex Unit := do
  let l ← get
  match l.candidates.lookup l.depth with
  | some c =>
    if c.required then refuse
    set { l with candidates := l.candidates.filter (·.1 != l.depth) }
  | none => pure ()

/-- Forgets the candidates that have become too old. -/
def dropStale : Lex Unit := do
  let l ← get
  if l.candidates.any fun (_, c) => !c.isFresh l.cursor && c.required then refuse
  set { l with candidates := l.candidates.filter fun (_, c) => c.isFresh l.cursor }

def saveCandidate : Lex Unit := do
  let l ← get
  let level := l.cursor.column + 1
  if l.keyAllowed then
    dropCandidate
    let c : Candidate := ⟨l.tokens.size, l.depth == 0 && l.level == level, l.cursor.index,
      l.cursor.line, level⟩
    modify fun l => { l with candidates := (l.depth, c) :: l.candidates }

def insertToken (i : Nat) (t : Token) : Lex Unit :=
  modify fun l => { l with tokens := l.tokens.insertIdxIfInBounds i t }

/-! ### Blanks and comments -/

def skipBlanks : Nat → Lex Unit
  | 0 => refuse
  | n + 1 => do
    scan Scan.skipSpaces
    if (← cursor).sees '#' then let _ ← scan (Scan.longest (!isBreak ·))
    match ← scan Scan.lineBreak with
    | some _ => do
      unless ← inFlow do allowKey true
      skipBlanks n
    | none => pure ()

/-! ### Single tokens -/

def single (t : Token) : Lex Unit := do
  scan (Scan.skip 1)
  emit t

def openFlow (t : Token) : Lex Unit := do
  saveCandidate
  modify fun l => { l with depth := l.depth + 1 }
  allowKey true
  single t

def closeFlow (t : Token) : Lex Unit := do
  dropCandidate
  unless ← inFlow do refuse
  modify fun l => { l with depth := l.depth - 1 }
  allowKey false
  single t

def flowEntry : Lex Unit := do
  allowKey true
  dropCandidate
  single .flowEntry

/-- In a block, a sequence or a mapping begins with its first item, where a key may stand. -/
def beginBlock (t : Token) : Lex Unit := do
  unless ← inFlow do
    unless (← get).keyAllowed do refuse
    if ← openBlock ((← cursor).column + 1) then emit t

def blockEntry : Lex Unit := do
  beginBlock .blockSequenceStart
  allowKey true
  dropCandidate
  single .blockEntry

def explicitKey : Lex Unit := do
  beginBlock .blockMappingStart
  allowKey (!(← inFlow))
  dropCandidate
  single .key

/-- A colon makes the candidate a key. Without one it has an empty key. -/
def value : Lex Unit := do
  let l ← get
  match l.candidates.lookup l.depth with
  | some c =>
    set { l with candidates := l.candidates.filter (·.1 != l.depth) }
    insertToken c.tokenIndex .key
    unless ← inFlow do
      if ← openBlock c.level then insertToken c.tokenIndex .blockMappingStart
    allowKey false
  | none =>
    beginBlock .blockMappingStart
    allowKey (!(← inFlow))
    dropCandidate
  single .value

def separator (t : Token) : Lex Unit := do
  closeBlocks 0
  dropCandidate
  allowKey false
  scan (Scan.skip 3)
  emit t

/-! ### Names, tags and directives -/

/-- The name of an anchor or an alias, up to something that cannot belong to it. -/
def name : Scan String := do
  Scan.skip 1
  let cs ← Scan.longest isWordChar
  if cs.isEmpty then refuse
  Scan.require fun c => c.blankAt 0 || c.peek.any fun x => "?:,]\x7d%@`".contains x
  pure (String.ofList cs)

def isUriChar (c : Char) : Bool := c.isAlphanum || "-;/?:@&=+$,_.!~*'()[]%".contains c

/-- Characters written as the bytes of their encoding. -/
def uriBytes : Nat → List UInt8 → Scan (List Char)
  | 0, _ => refuse
  | n + 1, bytes => do
    if (← get).sees '%' then
      Scan.skip 1
      let b ← Scan.hexCode 2
      uriBytes n (b.toUInt8 :: bytes)
    else
      match String.fromUTF8? (ByteArray.mk bytes.reverse.toArray) with
      | some s => pure s.toList
      | none => refuse

def uriLoop : Nat → List Char → Scan (List Char)
  | 0, _ => refuse
  | n + 1, text => do
    let cs ← Scan.longest fun c => isUriChar c && c != '%'
    if (← get).sees '%' then
      uriLoop n (text ++ cs ++ (← uriBytes (← Scan.fuel) []))
    else pure (text ++ cs)

def uri : Scan String := do
  let cs ← uriLoop (← Scan.fuel) []
  if cs.isEmpty then refuse
  pure (String.ofList cs)

/-- A single mark, or a word between two of them. -/
def tagHandle : Scan String := do
  Scan.require (·.sees '!')
  Scan.skip 1
  if (← get).sees ' ' then pure "!"
  else
    let cs ← Scan.longest isWordChar
    Scan.require (·.sees '!')
    Scan.skip 1
    pure ("!" ++ String.ofList cs ++ "!")

/-- Whether a second mark comes before the next blank. -/
def hasHandle (c : Cursor) : Bool :=
  ((c.rest.drop 1).takeWhile fun x => !(x == ' ' || isBreak x)).contains '!'

def tag : Scan Token := do
  let c ← get
  let t ←
    if c.peekAt 1 == some '<' then do
      Scan.skip 2
      let suffix ← uri
      Scan.require (·.sees '>')
      Scan.skip 1
      pure (Token.tag none suffix)
    else if c.blankAt 1 then do
      Scan.skip 1
      pure (Token.tag none "!")
    else if hasHandle c then do
      let handle ← tagHandle
      pure (Token.tag (some handle) (← uri))
    else do
      Scan.skip 1
      pure (Token.tag (some "!") (← uri))
  Scan.require Cursor.atSpaceOrLineEnd
  pure t

def digits : Scan Nat := do
  let cs ← Scan.longest Char.isDigit
  if cs.isEmpty then refuse
  if cs.length > Number.maxDigits then throw (Number.tooLong cs.length)
  pure (Number.valueIn 10 cs)

def versionDirective : Scan Directive := do
  Scan.skipSpaces
  let major ← digits
  Scan.require (·.sees '.')
  Scan.skip 1
  let _ ← digits
  Scan.require Cursor.atSpaceOrLineEnd
  pure (.version major)

def handleDirective : Scan Directive := do
  Scan.skipSpaces
  let handle ← tagHandle
  Scan.require (·.sees ' ')
  Scan.skipSpaces
  let expansion ← uri
  Scan.require Cursor.atSpaceOrLineEnd
  pure (.handle handle expansion)

def directive : Scan Token := do
  Scan.skip 1
  let title ← Scan.longest isWordChar
  if title.isEmpty then refuse
  Scan.require Cursor.atSpaceOrLineEnd
  let d ← match String.ofList title with
    | "YAML" => versionDirective
    | "TAG" => handleDirective
    | _ => do
      let _ ← Scan.longest (!isBreak ·)
      pure .other
  Scan.emptyLineEnd
  pure (.directive d)

/-! ### All tokens -/

/-- A token that may be or begin a key. -/
def keyable (s : Scan Token) : Lex Unit := do
  saveCandidate
  allowKey false
  emit (← scan s)

def plain : Lex Unit := do
  saveCandidate
  let l ← get
  let (text, ended) ← scan (Scan.plain (l.depth != 0) l.level)
  allowKey ended
  emit (.scalar (Scan.codesOf text) true)

def block (fold : Bool) : Lex Unit := do
  allowKey true
  dropCandidate
  emit (.scalar (Scan.codesOf (← scan (Scan.block fold (← get).level))) false)

/-- Plain text begins with a character of no other use, or with one whose use would need a
blank after it. -/
def beginsPlain (c : Cursor) (flow : Bool) : Bool :=
  c.peek.any fun x =>
    !(isBlank x || "-?:,[]\x7b\x7d#&*!|>'\"%@`".contains x)
      || (!c.blankAt 1 && (x == '-' || (!flow && (x == '?' || x == ':'))))

/-- The next token, by its first character; `false` at the end of the text. -/
def next : Lex Bool := do
  skipBlanks ((← cursor).rest.length + 1)
  dropStale
  let c ← cursor
  closeBlocks (c.column + 1)
  let flow ← inFlow
  match c.peek with
  | none => do
    closeBlocks 0
    dropCandidate
    pure false
  | some x => do
    if x == '%' && c.column == 0 then
      closeBlocks 0
      dropCandidate
      allowKey false
      emit (← scan directive)
    else if c.column == 0 && c.atSeparator '-' then separator .documentStart
    else if c.column == 0 && c.atSeparator '.' then separator .documentEnd
    else if x == '[' then openFlow .flowSequenceStart
    else if x == '\x7b' then openFlow .flowMappingStart
    else if x == ']' then closeFlow .flowSequenceEnd
    else if x == '\x7d' then closeFlow .flowMappingEnd
    else if x == ',' then flowEntry
    else if x == '-' && c.blankAt 1 then blockEntry
    else if x == '?' && (flow || c.blankAt 1) then explicitKey
    else if x == ':' && (flow || c.blankAt 1) then value
    else if x == '*' then keyable (.alias <$> name)
    else if x == '&' then keyable (.anchor <$> name)
    else if x == '!' then keyable tag
    else if x == '|' && !flow then block false
    else if x == '>' && !flow then block true
    else if x == '\'' || x == '"' then keyable (do pure (.scalar (← Scan.quoted x) false))
    else if beginsPlain c flow then plain
    else refuse
    pure true

end Lex

/-- The text without a mark at its very beginning. -/
def startOf (cs : List Char) : Cursor :=
  let c := Cursor.ofChars cs
  if c.sees byteOrderMark then c.forward else c

/-- The tokens before those that a key may yet turn out to begin with. -/
def Lexer.settled (l : Lexer) : Array Token :=
  let candidates := l.candidates.filter fun (_, c) => c.isFresh l.cursor
  l.tokens.take (candidates.foldl (fun n (_, c) => min n c.tokenIndex) l.tokens.size)

/-- All tokens of a text, and what stopped the reading, which at the end of the text is `stop`. -/
def Lexer.run (stop : Option Cause) : Nat → Lexer → Array Token × Option Cause
  | 0, l => (l.tokens, some .unreadable)
  | n + 1, l =>
    match Lex.next.run l with
    | .ok (true, l) => Lexer.run stop n l
    | .ok (false, l) => (if stop.isSome then l.settled else l.tokens, stop)
    | .error c => (l.settled, some c)

/-- The tokens of a text as far as it can be told apart into tokens. At the end of the text the
reading stops for the cause `stop`, if there is more to come that cannot be read. -/
def tokens (cs : List Char) (stop : Option Cause) : List Token × Option Cause :=
  let (ts, stop) := Lexer.run stop (cs.length + 1) ⟨startOf cs, #[], 0, 0, [], true, []⟩
  (ts.toList, stop)

end Deli.Document
