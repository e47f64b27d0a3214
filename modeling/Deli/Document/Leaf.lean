import Deli.Document.Date
import Deli.Document.Number
import Deli.Document.Tag
import Deli.Text.Base64
import Deli.Text.Quoted

/-! The values of single texts. A tag says how a text is to be read; a text that cannot be read
that way is a fault of its own kind for every tag. -/

namespace Deli.Document.Leaf

/-- What the numbers of the characters standing for broken code points are above the codes. -/
def standInOffset : Nat := 0x102000

/-- The character by which a code point is read. Broken ones, which no tag but that of texts has
a use for, are read as characters that have no use either, the last ones that there are. -/
def standIn (code : Nat) : Char :=
  if code.isValidChar then Char.ofNat code else Char.ofNat (code + standInOffset)

/-- The code point that is read as a character, in a text that holds broken ones. -/
def codeBehind (c : Char) : Nat :=
  if 0xd800 + standInOffset ≤ c.toNat then c.toNat - standInOffset else c.toNat

/-- How a part of a text is quoted. -/
def quoteIn (codes : List Nat) (part : List Char) : String :=
  Text.quotedCodes (part.map (if codes.all Nat.isValidChar then Char.toNat else codeBehind))

/-- Words for truth values are read in any case. -/
def bool (quote : List Char → String) (cs : List Char) : Except Cause Value :=
  let lowered := Text.lowered cs
  let word := String.ofList lowered
  if ["yes", "true", "on"].contains word then .ok (.bool true)
  else if ["no", "false", "off"].contains word then .ok (.bool false)
  else .error (.plain .key (quote lowered))

/-- What is no number after all is known by the number of its node. -/
def real (id : Nat) (quote : List Char → String) (cs : List Char) : Except Cause Value := do
  match ← Number.real quote cs with
  | .undefined => pure (.datum (.noNumber id))
  | x => pure (.datum (.real x))

/-- Dates have to be in the calendar. -/
def timestamp (cs : List Char) : Except Cause Value :=
  match Stamp.ofChars? (if cs.getLast? == some '\n' then cs.dropLast else cs) with
  | none => .error .noAttribute
  | some t =>
    match t.error? with
    | some message => .error (.plain .value message)
    | none => .ok (.datum t.toDatum)

def binary (cs : List Char) : Except Cause Value :=
  if cs.all (·.toNat < 128) then
    match Text.Base64.decode cs with
    | some data => .ok (.bytes data)
    | none => .error .unreadable
  else .error .unreadable

/-- How the text of the node `id`, given by its code points, is read under a tag, if the tag is
known. -/
def reader? (id : Nat) (tag : String) : Option (List Nat → Except Cause Value) :=
  let reading (read : (List Char → String) → List Char → Except Cause Value) :=
    some fun codes => read (quoteIn codes) (codes.map standIn)
  if tag == Tag.str then some fun codes => .ok (.ofCodes codes)
  else if tag == Tag.null then some fun _ => .ok .null
  else if tag == Tag.bool then reading bool
  else if tag == Tag.int then reading fun quote cs => .int <$> Number.whole quote cs
  else if tag == Tag.float then reading (real id)
  else if tag == Tag.timestamp then reading fun _ cs => timestamp cs
  else if tag == Tag.binary then reading fun _ cs => binary cs
  else none

end Deli.Document.Leaf
