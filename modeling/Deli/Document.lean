import Deli.Document.Data

/-! Reading a document. One that holds nothing reads as null. -/

namespace Deli.Document

/-- All ways to end a line that are older than the newline become newlines. -/
def unifyLineEnds : List Char → List Char
  | [] => []
  | '\r' :: '\n' :: rest => '\n' :: unifyLineEnds rest
  | c :: rest => (if c == '\r' then '\n' else c) :: unifyLineEnds rest

/-- A text is looked at block by block, twice as much at the beginning as later on. -/
def blockSize : Nat := 4096

/-- What comes before the first block with a character that may not stand in a document, and
whether there is such a block. -/
def beforeForbidden (cs : List Char) : List Char × Bool :=
  let allowed := (cs.takeWhile isAllowed).length
  if allowed == cs.length then (cs, false)
  else if allowed < 2 * blockSize then ([], true)
  else (cs.take (allowed / blockSize * blockSize), true)

/-- Nothing of a text is read before all of its first block has been looked at, but what is wrong
there counts before anything that later blocks may hold. -/
def read (text : String) : Except Cause Value := do
  let (cs, isCut) := beforeForbidden (unifyLineEnds text.toList)
  match ← graph cs (if isCut then some .unreadable else none) with
  | (g, some root) => dataOf g root
  | (_, none) => pure .null

end Deli.Document
