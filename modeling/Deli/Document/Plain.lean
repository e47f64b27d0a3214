import Deli.Document.Date
import Deli.Document.Number
import Deli.Document.Tag

/-! What a plain text in a document means, going by its form alone: nothing, a truth value, a
number, a date, one of two signs, or just text. -/

namespace Deli.Document.Plain

open Number

/-! ### Words -/

def isNull (s : String) : Bool := ["", "~", "null", "Null", "NULL"].contains s

def boolWords : List (String × Bool) :=
  [("yes", true), ("no", false), ("true", true), ("false", false), ("on", true), ("off", false)]

/-- A word is written small, with a capital, or in capitals. -/
def spellings (word : String) : List String := [word, word.capitalize, word.map Char.toUpper]

def isBool (s : String) : Bool := boolWords.any fun (word, _) => (spellings word).contains s

/-! ### Numbers -/

def isBinary (c : Char) : Bool := c == '0' || c == '1'

def isOctal (c : Char) : Bool := '0' ≤ c && c ≤ '7'

/-- Sixtieths: one digit, or two that make less than sixty. -/
def isSixtieths : List Char → Bool
  | [c] => c.isDigit
  | [c, d] => '0' ≤ c && c ≤ '5' && d.isDigit
  | _ => false

/-- A number of the form `first:second:…`, where only the first part may exceed sixty. -/
def isSexagesimal (isFirst : List Char → Bool) (cs : List Char) : Bool :=
  match splitColons cs with
  | first :: second :: more => isFirst first && (second :: more).all isSixtieths
  | _ => false

def isDecimal : List Char → Bool
  | ['0'] => true
  | c :: rest => c != '0' && c.isDigit && isDigits Char.isDigit rest
  | [] => false

def isInt (s : String) : Bool :=
  match (unsigned s.toList).2 with
  | '0' :: 'b' :: c :: rest => isDigits isBinary (c :: rest)
  | '0' :: 'x' :: c :: rest => isDigits (isDigitIn 16) (c :: rest)
  | '0' :: c :: rest => isDigits isOctal (c :: rest)
  | cs => isDecimal cs || isSexagesimal (fun first => first != ['0'] && isDecimal first) cs

/-- Some digit, then digits and underscores. -/
def isNumeral : List Char → Bool
  | c :: rest => c.isDigit && isDigits Char.isDigit rest
  | [] => false

/-- What comes after the digits of a number with a point, whose sign has to be there. -/
def isExponent : List Char → Bool
  | [] => true
  | mark :: sign :: c :: rest =>
    (mark == 'e' || mark == 'E') && (sign == '-' || sign == '+') && (c :: rest).all Char.isDigit
  | _ => false

/-- A number with a point. Without a digit before the point it has no sign. -/
def isPoint (s : String) : Bool :=
  let cs := (unsigned s.toList).2
  let whole := cs.takeWhile (· != '.')
  match cs.drop whole.length with
  | _ :: rest =>
    let fraction := rest.takeWhile fun c => c != 'e' && c != 'E'
    let exponent := rest.drop fraction.length
    isExponent exponent &&
      if whole.isEmpty then cs.length == s.length && isNumeral fraction
      else isNumeral whole && isDigits Char.isDigit fraction
  | [] => false

/-- A number of the form `first:second:….fraction`. -/
def isSexagesimalPoint (s : String) : Bool :=
  let cs := (unsigned s.toList).2
  let whole := cs.takeWhile (· != '.')
  match cs.drop whole.length with
  | _ :: fraction => isSexagesimal isNumeral whole && isDigits Char.isDigit fraction
  | [] => false

/-- An infinity, which may have a sign, or no number at all, which has none. -/
def isNonFinite (s : String) : Bool :=
  [".nan", ".NaN", ".NAN"].contains s
    || [".inf", ".Inf", ".INF"].contains (String.ofList (unsigned s.toList).2)

def isFloat (s : String) : Bool := isPoint s || isSexagesimalPoint s || isNonFinite s

/-! ### All forms -/

def tagOfLine (s : String) : String :=
  if isNull s then Tag.null
  else if isBool s then Tag.bool
  else if isFloat s then Tag.float
  else if isInt s then Tag.int
  else if s == "<<" then Tag.merge
  else if s == "=" then Tag.default
  else if (Stamp.strict? s.toList).isSome then Tag.timestamp
  else Tag.str

/-- The tag that a text has by its form. A newline at its end is overlooked, but alone it is
text. -/
def tagOf (cs : List Char) : String :=
  match cs.reverse with
  | '\n' :: c :: rest => tagOfLine (String.ofList (c :: rest).reverse)
  | _ => tagOfLine (String.ofList cs)

end Deli.Document.Plain
