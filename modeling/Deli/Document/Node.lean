import Deli.Document.Plain
import Deli.Document.Lexer

/-! The nodes that the tokens of a document make. They form a graph and not a tree: an alias
stands for the very node under its anchor, even inside of that node, so nodes are known by their
numbers. -/

namespace Deli.Document

inductive Content where
  | scalar (codes : List Nat)
  | sequence (items : List Nat)
  | mapping (entries : List (Nat × Nat))
  deriving Repr

structure Node where
  tag : String
  content : Content
  deriving Repr

/-- All nodes, each under its number. -/
abbrev Graph := Array Node

structure Parser where
  tokens : List Token
  /-- Why there are no more tokens, unless the text has ended. -/
  stop : Option Cause
  nodes : Graph
  anchors : List (String × Nat)
  /-- What the handles of tags stand for. -/
  handles : List (String × String)

abbrev Parse := StateT Parser (Except Cause)

namespace Parse

/-- The next token, if the document has not ended. -/
def peek : Parse (Option Token) := do
  let p ← get
  match p.tokens, p.stop with
  | t :: _, _ => pure (some t)
  | [], some c => throw c
  | [], none => pure none

def skip : Parse Unit := modify fun p => { p with tokens := p.tokens.drop 1 }

def sees (t : Token) : Parse Bool := do pure ((← peek) == some t)

/-- None of some tokens comes next, and there is one. -/
def seesOther (ts : List Token) : Parse Bool := do
  match ← peek with
  | some t => pure (!ts.contains t)
  | none => pure true

/-- Takes a token if it comes next. -/
def takes (t : Token) : Parse Bool := do
  if ← sees t then
    skip
    pure true
  else pure false

def expect (t : Token) : Parse Unit := do unless ← takes t do refuse

/-! ### Making nodes -/

def allocate (n : Node) : Parse Nat := do
  let id := (← get).nodes.size
  modify fun p => { p with nodes := p.nodes.push n }
  pure id

/-- The node of a text that is not there. -/
def absent : Parse Nat := allocate ⟨Tag.null, .scalar []⟩

/-! ### What comes before a node -/

def anchor? : Parse (Option String) := do
  match ← peek with
  | some (.anchor name) => do
    skip
    pure (some name)
  | _ => pure none

/-- A tag as it is written, with its handle if it has one. -/
def tag? : Parse (Option (Option String × String)) := do
  match ← peek with
  | some (.tag handle suffix) => do
    skip
    pure (some (handle, suffix))
  | _ => pure none

/-- A tag in full. -/
def resolved (handle : Option String) (suffix : String) : Parse String := do
  match handle with
  | none => pure suffix
  | some h =>
    match (← get).handles.lookup h with
    | some expansion => pure (expansion ++ suffix)
    | none => refuse

/-- An anchor and a tag, in either order. -/
def properties : Parse (Option String × Option String) := do
  let (anchor, tag) ← match ← anchor? with
    | some name => do pure (some name, ← tag?)
    | none => do
      let tag ← tag?
      pure (← anchor?, tag)
  pure (anchor, ← tag.mapM fun (handle, suffix) => resolved handle suffix)

/-- A single mark asks for the tag that a node has by its form. -/
def declared (tag : Option String) : Option String := tag.filter (· != "!")

/-- The characters of a text, of which the broken ones fit nowhere. -/
def charsOf (codes : List Nat) : List Char := codes.map Char.ofNat

def scalarTag (tag : Option String) (codes : List Nat) (plain : Bool) : String :=
  let byForm := tag == some "!" || (tag == none && plain)
  (declared tag).getD (if byForm then Plain.tagOf (charsOf codes) else Tag.str)

/-- No anchor may be set twice. -/
def setAnchor (anchor : Option String) (id : Nat) : Parse Unit := do
  match anchor with
  | none => pure ()
  | some name =>
    if ((← get).anchors.lookup name).isSome then refuse
    modify fun p => { p with anchors := (name, id) :: p.anchors }

/-- A collection that is known under its anchor while its content is being read. -/
def collection (anchor : Option String) (tag : String) (empty : Content) (read : Parse Content) :
    Parse Nat := do
  let id ← allocate ⟨tag, empty⟩
  setAnchor anchor id
  let content ← read
  modify fun p => { p with nodes := p.nodes.setIfInBounds id ⟨tag, content⟩ }
  pure id

/-! ### Nodes -/

mutual

/-- A node. Blocks are allowed only outside brackets, and a sequence that is not indented only
as part of a mapping. -/
def node : Nat → Bool → Bool → Parse Nat
  | 0, _, _ => refuse
  | n + 1, inBlock, unindented => do
    match ← peek with
    | some (.alias name) => do
      skip
      match (← get).anchors.lookup name with
      | some id => pure id
      | none => refuse
    | _ => do
      let (anchor, tag) ← properties
      let sequence (items : Parse (List Nat)) : Parse Nat :=
        collection anchor ((declared tag).getD Tag.seq) (.sequence []) (.sequence <$> items)
      let mapping (entries : Parse (List (Nat × Nat))) : Parse Nat :=
        collection anchor ((declared tag).getD Tag.map) (.mapping []) (.mapping <$> entries)
      let scalar (codes : List Nat) (plain : Bool) : Parse Nat := do
        let id ← allocate ⟨scalarTag tag codes plain, .scalar codes⟩
        setAnchor anchor id
        pure id
      -- A text need not be there after an anchor or a tag.
      let empty : Parse Nat := if anchor.isSome || tag.isSome then scalar [] true else refuse
      match ← peek with
      | some .blockEntry => if unindented then sequence (unindentedItems n) else empty
      | some (.scalar codes plain) => do
        skip
        scalar codes plain
      | some .flowSequenceStart => do
        skip
        sequence (flowItems n true)
      | some .flowMappingStart => do
        skip
        mapping (flowEntries n true)
      | some .blockSequenceStart =>
        if inBlock then do
          skip
          sequence (blockItems n)
        else empty
      | some .blockMappingStart =>
        if inBlock then do
          skip
          mapping (blockEntries n)
        else empty
      | _ => empty

def blockItems : Nat → Parse (List Nat)
  | 0 => refuse
  | n + 1 => do
    if ← takes .blockEntry then
      let item ← if ← seesOther [.blockEntry, .blockEnd] then node n true false else absent
      pure (item :: (← blockItems n))
    else
      expect .blockEnd
      pure []

def unindentedItems : Nat → Parse (List Nat)
  | 0 => refuse
  | n + 1 => do
    if ← takes .blockEntry then
      let item ← if ← seesOther [.blockEntry, .key, .value, .blockEnd] then node n true false
        else absent
      pure (item :: (← unindentedItems n))
    else pure []

def blockEntries : Nat → Parse (List (Nat × Nat))
  | 0 => refuse
  | n + 1 => do
    if ← takes .key then
      let key ← if ← seesOther [.key, .value, .blockEnd] then node n true true else absent
      let value ←
        if ← takes .value then
          if ← seesOther [.key, .value, .blockEnd] then node n true true else absent
        else absent
      pure ((key, value) :: (← blockEntries n))
    else
      expect .blockEnd
      pure []

/-- What comes after a key in brackets, up to `close`. -/
def flowValue : Nat → Token → Parse Nat
  | 0, _ => refuse
  | n + 1, close => do
    if ← takes .value then
      if ← seesOther [.flowEntry, close] then node n false false else absent
    else absent

/-- A key in brackets and what comes after it. -/
def flowPair : Nat → Token → Parse (Nat × Nat)
  | 0, _ => refuse
  | n + 1, close => do
    let key ← if ← seesOther [.value, .flowEntry, close] then node n false false else absent
    pure (key, ← flowValue n close)

/-- Items up to the closing bracket. A pair among them is a mapping by itself. -/
def flowItems : Nat → Bool → Parse (List Nat)
  | 0, _ => refuse
  | n + 1, isFirst => do
    if ← takes .flowSequenceEnd then pure []
    else
      unless isFirst do expect .flowEntry
      if ← takes .key then
        let id ← collection none Tag.map (.mapping []) do
          pure (.mapping [← flowPair n .flowSequenceEnd])
        pure (id :: (← flowItems n false))
      else if ← takes .flowSequenceEnd then pure []
      else
        let item ← node n false false
        pure (item :: (← flowItems n false))

def flowEntries : Nat → Bool → Parse (List (Nat × Nat))
  | 0, _ => refuse
  | n + 1, isFirst => do
    if ← takes .flowMappingEnd then pure []
    else
      unless isFirst do expect .flowEntry
      if ← takes .key then
        let pair ← flowPair n .flowMappingEnd
        pure (pair :: (← flowEntries n false))
      else if ← takes .flowMappingEnd then pure []
      else
        let key ← node n false false
        let value ← absent
        pure ((key, value) :: (← flowEntries n false))

end

/-! ### Documents -/

/-- Directives before a document. A version is given once at most, and it has to be the first;
so is what any handle stands for. -/
def directives : Nat → Bool → List (String × String) → Parse (List (String × String))
  | 0, _, _ => refuse
  | n + 1, versioned, handles => do
    match ← peek with
    | some (.directive d) => do
      skip
      match d with
      | .version major =>
        if versioned || major != 1 then refuse else directives n true handles
      | .handle h expansion =>
        if (handles.lookup h).isSome then refuse
        else directives n versioned ((h, expansion) :: handles)
      | .other => directives n versioned handles
    | _ => pure handles

/-- The handles that need no declaration. -/
def standardHandles : List (String × String) := [("!", "!"), ("!!", Tag.core "")]

def isDirective : Token → Bool
  | .directive _ => true
  | _ => false

/-- A document begins by itself, unless directives come first, or its mark does. -/
def document (n : Nat) : Parse (Option Nat) := do
  match ← peek with
  | none => pure none
  | some t =>
    if t == .documentStart || isDirective t then
      let handles ← directives n false []
      modify fun p => { p with handles := handles ++ standardHandles }
      expect .documentStart
      match ← peek with
      | none | some .documentStart | some .documentEnd => some <$> absent
      | some t => if isDirective t then some <$> absent else some <$> node n true false
    else some <$> node n true false

/-- After the only document come marks of its end, and nothing else. What comes before another
document is looked at before that one is refused. -/
def single (n : Nat) : Parse (Option Nat) := do
  let d ← document n
  modify fun p => { p with tokens := p.tokens.dropWhile (· == .documentEnd) }
  match ← peek with
  | none => pure d
  | some _ => do
    let _ ← directives n false []
    refuse

end Parse

/-- The one document of a text, by its uppermost node; there may be none. The text may be the
beginning of one that cannot be read to its end. -/
def graph (cs : List Char) (stop : Option Cause) : Except Cause (Graph × Option Nat) := do
  let (ts, stop) := tokens cs stop
  let (root, p) ← (Parse.single (4 * ts.length + 8)).run
    ⟨ts, stop, #[], [], Parse.standardHandles⟩
  pure (p.nodes, root)

end Deli.Document
