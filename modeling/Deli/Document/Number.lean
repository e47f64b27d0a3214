import Deli.Text.Digit
import Deli.Text.Lower
import Deli.Value

/-! Numbers by their text. Reading is generous: digits and blanks of all scripts will do, and
underscores count for nothing. What is no number after all is a fault that quotes it. -/

namespace Deli.Document.Number

def isDigits (p : Char → Bool) (cs : List Char) : Bool := cs.all fun c => p c || c == '_'

/-- A number and whether a minus stands before it. -/
def unsigned : List Char → Bool × List Char
  | '-' :: rest => (true, rest)
  | '+' :: rest => (false, rest)
  | cs => (false, cs)

def signed (negative : Bool) (n : Int) : Int := if negative then -n else n

def splitColons (cs : List Char) : List (List Char) := cs.splitOnP (· == ':')

/-- A digit of any base up to thirty-six. -/
def digitValue? (c : Char) : Option Nat :=
  if c.isDigit then some (c.toNat - '0'.toNat)
  else if c.isLower then some (c.toNat - 'a'.toNat + 10)
  else if c.isUpper then some (c.toNat - 'A'.toNat + 10)
  else none

def isDigitIn (base : Nat) (c : Char) : Bool := (digitValue? c).any (· < base)

/-- Underscores between digits do not count. -/
def valueIn (base : Nat) (cs : List Char) : Nat :=
  (cs.filterMap digitValue?).foldl (fun n d => base * n + d) 0

/-- The fault of a number that has no digit to begin with. -/
def noDigit : Cause := .plain .index "string index out of range"

section Reading

-- How a text that is no number is quoted.
variable (quote : List Char → String)

/-! ### Whole numbers -/

/-- The digits after the mark of their base, if they have one. -/
def withoutMark (base : Nat) : List Char → List Char
  | '0' :: mark :: rest =>
    let marks := match base with
      | 2 => ['b', 'B']
      | 8 => ['o', 'O']
      | 16 => ['x', 'X']
      | _ => []
    if marks.contains mark then rest else '0' :: mark :: rest
  | cs => cs

/-- No number in base ten has more digits than this. -/
def maxDigits : Nat := 4300

def notInt (base : Nat) (cs : List Char) : Cause :=
  .plain .value ("invalid literal for int() with base " ++ toString base ++ ": "
    ++ String.ofList ((quote cs).toList.take 200))

def tooLong (length : Nat) : Cause :=
  .plain .value ("Exceeds the limit (" ++ toString maxDigits
    ++ " digits) for integer string conversion: value has " ++ toString length
    ++ " digits; use sys.set_int_max_str_digits() to increase the limit")

/-- A whole number in a base, with a sign or without. -/
def wholeIn (base : Nat) (cs : List Char) : Except Cause Int :=
  let (negative, rest) := unsigned (Text.trimmed cs)
  let rest := withoutMark base rest
  let digits := rest.takeWhile (isDigitIn base)
  if digits.isEmpty then .error (notInt quote base cs)
  else if base == 10 && digits.length > maxDigits then .error (tooLong digits.length)
  else if digits.length < rest.length then .error (notInt quote base cs)
  else .ok (signed negative (valueIn base digits))

/-- A whole number whose base shows in its first digits. Colons set sixtieths apart. -/
def whole (cs : List Char) : Except Cause Int := do
  let cs := cs.filter (· != '_')
  if cs.isEmpty then throw noDigit
  let (negative, cs) := unsigned cs
  let n ← match cs with
    | [] => throw noDigit
    | ['0'] => pure 0
    | '0' :: 'b' :: rest => wholeIn quote 2 rest
    | '0' :: 'x' :: rest => wholeIn quote 16 rest
    | '0' :: _ => wholeIn quote 8 cs
    | _ =>
      if cs.contains ':' then do
        pure ((← (splitColons cs).mapM (wholeIn quote 10)).foldl (fun n part => 60 * n + part) 0)
      else wholeIn quote 10 cs
  pure (signed negative n)

/-! ### Numbers with a point -/

/-- An exponent after its mark, with a sign or without. -/
def exponent? : List Char → Option Int
  | [] => some 0
  | mark :: cs =>
    let (negative, digits) := unsigned cs
    if (mark == 'e' || mark == 'E') && !digits.isEmpty && digits.all Char.isDigit then
      some (signed negative (valueIn 10 digits))
    else none

/-- A decimal number with or without a point, an exponent and a sign. -/
def decimal? (cs : List Char) : Option Decimal :=
  let (negative, cs) := unsigned cs
  let before := cs.takeWhile Char.isDigit
  let cs := cs.drop before.length
  let hasPoint := cs.head? == some '.'
  let after := if hasPoint then (cs.drop 1).takeWhile Char.isDigit else []
  let cs := if hasPoint then cs.drop (after.length + 1) else cs
  if before.isEmpty && after.isEmpty then none
  else
    (exponent? cs).map fun e => ⟨negative, valueIn 10 (before ++ after), e - after.length⟩

def notReal (cs : List Char) : Cause :=
  .plain .value ("could not convert string to float: " ++ quote cs)

/-- A number, an infinity, or a word for no number at all. -/
def realOf (cs : List Char) : Except Cause Rounded :=
  let text := Text.trimmed cs
  let (negative, word) := unsigned (text.map Char.toLower)
  if word == "inf".toList || word == "infinity".toList then .ok (.infinite negative)
  else if word == "nan".toList then .ok .undefined
  else
    match decimal? text with
    | some d => .ok (.ofDecimal d)
    | none => .error (notReal quote cs)

/-- The fault of a whole number that is beyond all numbers with a point. -/
def tooLarge : Cause := .plain .overflow "int too large to convert to float"

/-- Sixtieths, the last of them first, each part taken by what it is a part of. -/
def sumOfSixtieths (parts : List Rounded) : Except Cause Rounded := do
  let (sum, _) ← parts.reverse.foldlM (fun (sum, base) part =>
    match Rounded.ofInt base with
    | .infinite _ => throw tooLarge
    | b => pure (sum.add (part.mul b), 60 * base)) (Rounded.finite 0, (1 : Int))
  pure sum

/-- A number with a point, or without. Infinity and what is no number start with a point. -/
def real (cs : List Char) : Except Cause Rounded := do
  let cs := Text.lowered (cs.filter (· != '_'))
  if cs.isEmpty then throw noDigit
  let (negative, cs) := unsigned cs
  let x ←
    if cs == ".inf".toList then pure (.infinite false)
    else if cs == ".nan".toList then pure .undefined
    else if cs.contains ':' then sumOfSixtieths (← (splitColons cs).mapM (realOf quote))
    else realOf quote cs
  pure (if negative then x.neg else x)

end Reading

end Deli.Document.Number
