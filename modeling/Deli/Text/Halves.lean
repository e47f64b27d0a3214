/-! Code points that are only halves of characters. Two halves that follow each other show as the
character that they make, and a half on its own shows as a sign that something is missing. -/

namespace Deli.Text

def isFirstHalf (code : Nat) : Bool := 0xd800 ≤ code && code < 0xdc00

def isSecondHalf (code : Nat) : Bool := 0xdc00 ≤ code && code < 0xe000

/-- The character that two halves make. -/
def joinedHalves (first second : Nat) : Char :=
  Char.ofNat (0x10000 + (first - 0xd800) * 0x400 + (second - 0xdc00))

/-- What a single code point shows as. -/
def shownAlone (code : Nat) : Char := if code.isValidChar then Char.ofNat code else '\ufffd'

/-- A text as it shows. -/
def joined : List Nat → List Char
  | [] => []
  | [code] => [shownAlone code]
  | first :: second :: rest =>
    if isFirstHalf first && isSecondHalf second then joinedHalves first second :: joined rest
    else shownAlone first :: joined (second :: rest)

end Deli.Text
