import Deli.Value.Text

/-! Text as it comes from outside. It may hold code points that are only halves of characters. -/

namespace Deli

/-- Text of whole characters, or with halves of some in it. -/
inductive Name where
  | whole (s : String)
  | halved (codes : List Nat) (h : codes.all Nat.isValidChar = false)
  deriving DecidableEq

namespace Name

def ofCodes (codes : List Nat) : Name :=
  if h : codes.all Nat.isValidChar then whole (String.ofList (codes.map Char.ofNat))
  else halved codes (by simpa using h)

def value : Name → Value
  | whole s => .string s
  | halved codes _ => .broken codes

/-- A name as it is shown. -/
def text (n : Name) : String := n.value.text

end Name

end Deli
