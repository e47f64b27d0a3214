import Deli.Text.Printable

/-! Text between quotes, on one line and free of characters that do not show. The single
quote is used unless the text holds single quotes and no double ones. -/

namespace Deli.Text

/-- `n` in lower-case hexadecimal, filled up with zeros to `width` digits. -/
def hex (width n : Nat) : String :=
  let digits := Nat.toDigits 16 n
  String.ofList (List.replicate (width - digits.length) '0' ++ digits)

def quoteMark (codes : List Nat) : Char :=
  if codes.contains '\''.toNat && !codes.contains '"'.toNat then '"' else '\''

/-- One character of a text that stands between marks `mark`. -/
def escape (mark c : Char) : String :=
  if c == mark || c == '\\' then String.ofList ['\\', c]
  else if c == '\n' then "\\n"
  else if c == '\r' then "\\r"
  else if c == '\t' then "\\t"
  else if isPrintable c then c.toString
  else if c.toNat < 0x100 then "\\x" ++ hex 2 c.toNat
  else if c.toNat < 0x10000 then "\\u" ++ hex 4 c.toNat
  else "\\U" ++ hex 8 c.toNat

/-- A code point that is no character is written by its number. -/
def escapeCode (mark : Char) (code : Nat) : String :=
  if code.isValidChar then escape mark (Char.ofNat code) else "\\u" ++ hex 4 code

/-- Text that is given by its code points, between quotes. -/
def quotedCodes (codes : List Nat) : String :=
  let mark := quoteMark codes
  mark.toString ++ String.join (codes.map (escapeCode mark)) ++ mark.toString

def quoted (s : String) : String := quotedCodes (s.toList.map Char.toNat)

/-- Between double quotes, as it is. -/
def withQuotes (s : String) : String := "\"" ++ s ++ "\""

end Deli.Text
