/-! Data written as text, six bits to a letter, four letters to three bytes. Characters that are
no letters are passed over. -/

namespace Deli.Text.Base64

/-- The six bits of a letter. -/
def bits? (c : Char) : Option Nat :=
  if c.isUpper then some (c.toNat - 'A'.toNat)
  else if c.isLower then some (c.toNat - 'a'.toNat + 26)
  else if c.isDigit then some (c.toNat - '0'.toNat + 52)
  else if c == '+' then some 62
  else if c == '/' then some 63
  else none

/-- Reads on after the `place`-th letter of a group of four, the last of which left the bits
`left` over, and after `pads` marks in a row that fill a group up. A group that is full ends
the data, and a group that is not even full at the end is no data at all. -/
def decodeFrom (place left pads : Nat) : List Char → Option (List UInt8)
  | [] => if place == 0 then some [] else none
  | c :: rest =>
    if c == '=' then
      if place ≥ 2 then
        if place + pads + 1 ≥ 4 then some [] else decodeFrom place left (pads + 1) rest
      else decodeFrom place left pads rest
    else
      match bits? c with
      | none => decodeFrom place left pads rest
      | some n =>
        match place with
        | 0 => decodeFrom 1 n 0 rest
        | 1 => (decodeFrom 2 (n % 16) 0 rest).map ((left * 4 + n / 16).toUInt8 :: ·)
        | 2 => (decodeFrom 3 (n % 4) 0 rest).map ((left * 16 + n / 4).toUInt8 :: ·)
        | _ => (decodeFrom 0 0 0 rest).map ((left * 64 + n).toUInt8 :: ·)

def decode (cs : List Char) : Option (List UInt8) := decodeFrom 0 0 0 cs

end Deli.Text.Base64
