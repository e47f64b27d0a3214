/-! Digits and blanks of all scripts (Unicode 14), and what they are in the plainest one. -/

namespace Deli.Text

/-- The zeros; each is followed by the other nine digits of its script, in order. -/
def zeros : List Nat := [
  48, 1632, 1776, 1984, 2406, 2534, 2662, 2790, 2918, 3046, 3174, 3302, 3430, 3558, 3664, 3792,
  3872, 4160, 4240, 6112, 6160, 6470, 6608, 6784, 6800, 6992, 7088, 7232, 7248, 42528, 43216,
  43264, 43472, 43504, 43600, 44016, 65296, 66720, 68912, 69734, 69872, 69942, 70096, 70384,
  70736, 70864, 71248, 71360, 71472, 71904, 72016, 72784, 73040, 73120, 92768, 92864, 93008,
  120782, 120792, 120802, 120812, 120822, 123200, 123632, 125264, 130032
]

/-- The blanks beyond the first 128 code points. -/
def wideBlanks : List Nat := [
  133, 160, 5760, 8192, 8193, 8194, 8195, 8196, 8197, 8198, 8199, 8200, 8201, 8202, 8232, 8233,
  8239, 8287, 12288
]

/-- What a decimal digit of any script stands for. -/
def digit? (c : Char) : Option Nat :=
  (zeros.find? fun first => first ≤ c.toNat && c.toNat ≤ first + 9).map (c.toNat - ·)

/-- A blank between words, as far as numbers are concerned. -/
def isPlainBlank (c : Char) : Bool := c == ' ' || ('\t' ≤ c && c ≤ '\r')

/-- Digits and blanks in their plainest form. Beyond them nothing but the first 127 code points
is of any use in a number. -/
def plainest (c : Char) : Char :=
  if c.toNat < 127 then c
  else if wideBlanks.contains c.toNat then ' '
  else ((digit? c).map fun n => Char.ofNat ('0'.toNat + n)).getD '?'

/-- A text in its plainest form, without the blanks around it. -/
def trimmed (cs : List Char) : List Char :=
  let cs := (cs.map plainest).dropWhile isPlainBlank
  (cs.reverse.dropWhile isPlainBlank).reverse

end Deli.Text
