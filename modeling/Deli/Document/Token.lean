/-! The tokens that a document consists of. -/

namespace Deli.Document

inductive Directive where
  | version (major : Nat)
  | handle (handle expansion : String)
  | other
  deriving DecidableEq, Repr

inductive Token where
  | directive (d : Directive)
  | documentStart
  | documentEnd
  /-- Blocks begin with their first item and end where the indentation goes back. -/
  | blockSequenceStart
  | blockMappingStart
  | blockEnd
  | flowSequenceStart
  | flowSequenceEnd
  | flowMappingStart
  | flowMappingEnd
  | blockEntry
  | flowEntry
  | key
  | value
  | alias (name : String)
  | anchor (name : String)
  /-- A tag without a handle is meant as it stands. -/
  | tag (handle : Option String) (suffix : String)
  /-- Text by its code points, since what is written between quotes need not be characters. -/
  | scalar (codes : List Nat) (plain : Bool)
  deriving DecidableEq, Repr

end Deli.Document
