import Deli.Document.Leaf
import Deli.Document.Node
import Deli.Value.Same

/-! The data that the nodes of a document stand for. A text gets its value when a collection
comes upon it. A collection that is come upon waits until all collections of its own level have
been gone through, so of several faults in a document the uppermost counts. -/

namespace Deli.Document

/-- What is known of a node that has been come upon. -/
inductive Made where
  | leaf (v : Value)
  | collection

structure Builder where
  graph : Graph
  made : Array (Option Made)
  /-- Collections that have not been gone through, latest first. -/
  waiting : List Nat

abbrev Build := StateT Builder (Except Cause)

namespace Build

def tagOf (id : Nat) : Build String := do pure (((← get).graph[id]?).elim "" (·.tag))

def content (id : Nat) : Build Content := do
  match (← get).graph[id]? with
  | some n => pure n.content
  | none => refuse

def entries (id : Nat) : Build (List (Nat × Nat)) := do
  match ← content id with
  | .mapping entries => pure entries
  | _ => refuse

def setNode (id : Nat) (n : Node) : Build Unit :=
  modify fun b => { b with graph := b.graph.setIfInBounds id n }

def setEntries (id : Nat) (entries : List (Nat × Nat)) : Build Unit := do
  setNode id ⟨← tagOf id, .mapping entries⟩

/-! ### Merging -/

/-- The entries that can be taken over from a node, which are merged themselves before: those
of one mapping, or of several, the later ones coming first. -/
def offered (flatten : Nat → Build Unit) (id : Nat) : Build (List (Nat × Nat)) := do
  match ← content id with
  | .mapping _ => do
    flatten id
    entries id
  | .sequence items => do
    let lists ← items.mapM fun item => do
      let _ ← entries item
      flatten item
      entries item
    pure lists.reverse.flatten
  | .scalar _ => refuse

/-- Goes through the entries of a mapping, `kept` being those that it has passed, latest first,
and answers what is to be taken over. As a key, the sign for a default becomes just text, here
and wherever else it is used. A mapping that takes over from itself has been gone through when
the rest comes. -/
def collect (flatten : Nat → Build Unit) (id : Nat) :
    List (Nat × Nat) → List (Nat × Nat) → List (Nat × Nat) → Build (List (Nat × Nat))
  | [], _, taken => pure taken
  | (key, value) :: rest, kept, taken => do
    let tag ← tagOf key
    if tag == Tag.merge then
      let own := kept.reverse ++ rest
      setEntries id own
      let taken := taken ++ (← offered flatten value)
      if (← entries id) == own then collect flatten id rest kept taken else pure taken
    else
      if tag == Tag.default then setNode key ⟨Tag.str, ← content key⟩
      collect flatten id rest ((key, value) :: kept) taken

/-- What is taken over comes first, so that entries of a mapping's own can replace it. Merging
goes deeper only by an entry that is gone afterwards. -/
def flatten : Nat → Nat → Build Unit
  | 0, _ => refuse
  | n + 1, id => do
    let taken ← collect (flatten n) id (← entries id) [] []
    unless taken.isEmpty do setEntries id (taken ++ (← entries id))

/-- No more merges than this can be inside of each other. -/
def depth : Build Nat := do
  let size : Content → Nat
    | .mapping entries => entries.length
    | _ => 0
  pure ((← get).graph.foldl (fun n node => n + size node.content) 1)

/-! ### Texts -/

/-- The text of a node. That of a mapping is the one it gives as a default, which may be a
mapping again, but not for ever. -/
def codes (g : Graph) : Nat → Nat → Except Cause (List Nat)
  | 0, _ => throw (.plain .recursion "maximum recursion depth exceeded")
  | n + 1, id =>
    match g[id]? with
    | some ⟨_, .scalar codes⟩ => pure codes
    | some ⟨_, .mapping entries⟩ =>
      match entries.find? fun (key, _) => g[key]?.any (·.tag == Tag.default) with
      | some (_, value) => codes g n value
      | none => refuse
    | _ => refuse

/-- The value of a node that is no collection by its tag. Dates are read from texts only. -/
def leaf (id : Nat) : Build Value := do
  let g := (← get).graph
  let tag ← tagOf id
  match Leaf.reader? id tag with
  | none => refuse
  | some read => do
    let codes ← liftM (codes g (g.size + 1) id)
    match ← content id with
    | .scalar _ => liftM (read codes)
    | _ => if tag == Tag.timestamp then throw .misuse else liftM (read codes)

/-! ### Collections -/

def isCollection (tag : String) : Bool :=
  [Tag.seq, Tag.map, Tag.set, Tag.omap, Tag.pairs].contains tag

/-- Comes upon a node. -/
def visit (id : Nat) : Build Unit := do
  match (← get).made[id]? with
  | some none =>
    if isCollection (← tagOf id) then
      modify fun b =>
        { b with made := b.made.setIfInBounds id (some .collection), waiting := id :: b.waiting }
    else
      let v ← leaf id
      modify fun b => { b with made := b.made.setIfInBounds id (some (.leaf v)) }
  | _ => pure ()

/-- Comes upon a key, which must not be a collection. -/
def visitKey (id : Nat) : Build Unit := do
  visit id
  match (← get).made[id]? with
  | some (some (.leaf _)) => pure ()
  | _ => refuse

/-- The only entry of a node. -/
def pair (id : Nat) : Build (Nat × Nat) := do
  match ← entries id with
  | [entry] => pure entry
  | _ => refuse

def visitMembers (id : Nat) : Build Unit := do
  let _ ← entries id
  flatten (← depth) id
  (← entries id).forM fun (key, value) => do
    visitKey key
    visit value

def visitItems (id : Nat) (come : Nat → Build Unit) : Build Unit := do
  match ← content id with
  | .sequence items => items.forM come
  | _ => refuse

/-- Goes through a collection. -/
def fill (id : Nat) : Build Unit := do
  let tag ← tagOf id
  if tag == Tag.map || tag == Tag.set then visitMembers id
  else if tag == Tag.seq then visitItems id visit
  else
    visitItems id fun item => do
      let (key, value) ← pair item
      visit key
      visit value

/-- Goes through the collections that wait, level by level. -/
def fillAll : Nat → Build Unit
  | 0 => pure ()
  | n + 1 => do
    let level := (← get).waiting.reverse
    modify fun b => { b with waiting := [] }
    unless level.isEmpty do
      level.forM fill
      fillAll n

end Build

/-! ### Values -/

def mappingOf (entries : List (Value × Value)) : List (Value × Value) :=
  entries.foldl (fun done (k, v) => Value.setEntry k v done) []

namespace Builder

/-- The values of nodes as far as they are known. -/
abbrev Values := StateM (Array (Option Value))

def entriesOf (b : Builder) (id : Nat) : List (Nat × Nat) :=
  match b.graph[id]? with
  | some ⟨_, .mapping entries⟩ => entries
  | _ => []

def itemsOf (b : Builder) (id : Nat) : List Nat :=
  match b.graph[id]? with
  | some ⟨_, .sequence items⟩ => items
  | _ => []

/-- A collection put together from the values of other nodes. -/
def collectionOf (b : Builder) (value : Nat → Values Value) (tag : String) (id : Nat) :
    Values Value := do
  let pair (entry : Nat × Nat) : Values (Value × Value) := do
    let k ← value entry.1
    pure (k, ← value entry.2)
  if tag == Tag.map then
    pure (.mapping (mappingOf (← (b.entriesOf id).mapM pair)))
  else if tag == Tag.set then
    pure (.list ((mappingOf (← (b.entriesOf id).mapM pair)).map Prod.fst))
  else if tag == Tag.seq then
    pure (.list (← (b.itemsOf id).mapM value))
  else
    let pairs ← ((b.itemsOf id).flatMap b.entriesOf).mapM pair
    pure (.list (pairs.map fun (k, v) => .tuple [k, v]))

/-- The value of a node. Inside of itself a collection is empty. -/
def value (b : Builder) : Nat → Nat → Values Value
  | 0, _ => pure .null
  | n + 1, id => do
    match (← get)[id]?, b.made[id]? with
    | some (some v), _ => pure v
    | _, some (some (.leaf v)) => pure v
    | _, _ => do
      let tag := b.graph[id]?.elim "" (·.tag)
      modify (·.setIfInBounds id (some (if tag == Tag.map then .mapping [] else .list [])))
      let v ← b.collectionOf (b.value n) tag id
      modify (·.setIfInBounds id (some v))
      pure v

end Builder

/-- The data of the node `root`, or the first thing that is wrong with it. -/
def dataOf (g : Graph) (root : Nat) : Except Cause Value := do
  let work : Build Unit := do
    Build.visit root
    Build.fillAll (g.size + 1)
  let ((), b) ← work.run ⟨g, Array.replicate g.size none, []⟩
  pure ((b.value (g.size + 1) root).run (Array.replicate g.size none)).1

end Deli.Document
