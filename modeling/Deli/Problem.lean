import Deli.Vocabulary

/-! What a check finds wrong with the fields of a form, and where. -/

namespace Deli

/-- The forms that are filled in from named fields. -/
inductive Form where
  | body | ready | technology | config
  deriving DecidableEq, Repr

def Form.title : Form → String
  | body => "SandwichBody"
  | ready => "SandwichReady"
  | technology => "SandwichTechnology"
  | config => "KitchenConfig"

/-- One step on the way from a form to a part of it. -/
inductive Place where
  | field (name : String)
  | item (index : Nat)
  deriving DecidableEq, Repr

inductive Complaint where
  | missing
  | notString
  /-- Data that do not encode a text, or text that holds halves of characters. -/
  | notUnicode
  /-- None of the words that a vocabulary has. -/
  | notAmong (words : List String)
  | notList
  | notTuple
  | tooShort
  | notBody
  | notCallable
  | frozen
  deriving DecidableEq, Repr

namespace Complaint

def code : Complaint → String
  | missing => "missing"
  | notString => "string_type"
  | notUnicode => "string_unicode"
  | notAmong _ => "enum"
  | notList => "list_type"
  | notTuple => "tuple_type"
  | tooShort => "too_short"
  | notBody => "model_type"
  | notCallable => "callable_type"
  | frozen => "frozen_instance"

/-- Words between single quotes, commas between them, and "or" before the last. -/
def alternatives : List String → String
  | [] => ""
  | [w] => "'" ++ w ++ "'"
  | [v, w] => "'" ++ v ++ "' or '" ++ w ++ "'"
  | v :: rest => "'" ++ v ++ "', " ++ alternatives rest

def message : Complaint → String
  | missing => "Field required"
  | notString => "Input should be a valid string"
  | notUnicode =>
    "Input should be a valid string, unable to parse raw data as a unicode string"
  | notAmong words => "Input should be " ++ alternatives words
  | notList => "Input should be a valid list"
  | notTuple => "Input should be a valid tuple"
  | tooShort => "Tuple should have at least 1 item after validation, not 0"
  | notBody => "Input should be a valid dictionary or instance of SandwichBody"
  | notCallable => "Input should be callable"
  | frozen => "Instance is frozen"

end Complaint

def Place.text : Place → String
  | .field name => name
  | .item index => toString index

structure Problem where
  place : List Place
  complaint : Complaint
  deriving DecidableEq, Repr

namespace Problem

def atField (name : String) (c : Complaint) : Problem := ⟨[.field name], c⟩

/-- The same problem, seen from a form that holds this one in the field `name`. -/
def within (name : String) (p : Problem) : Problem := ⟨.field name :: p.place, p.complaint⟩

/-- Where it is and, on the next line, what it is. -/
def text (p : Problem) : String :=
  ".".intercalate (p.place.map Place.text) ++ "\n  " ++ p.complaint.message
    ++ " [type=" ++ p.complaint.code ++ "]"

end Problem

/-- What is to be said about a form that was filled in wrongly: how many problems there are,
and each of them. -/
def Form.report (f : Form) (problems : List Problem) : String :=
  toString problems.length ++ " validation error" ++ (if problems.length = 1 then "" else "s")
    ++ " for " ++ f.title ++ "\n" ++ "\n".intercalate (problems.map Problem.text)

end Deli
