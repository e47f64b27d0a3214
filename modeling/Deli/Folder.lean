import Deli.Config.Load

/-! A folder of files as seen from inside it. -/

namespace Deli

structure Folder where
  /-- Paths with their texts. -/
  files : List (String × String)

namespace Folder

/-- The steps of a path. Empty steps and steps to the same place do not count. -/
def steps (path : String) : List String :=
  (path.splitOn "/").filter fun s => s ≠ "" ∧ s ≠ "."

def isAbsolute (path : String) : Bool := path.toList.head? == some '/'

/-- The text of the file that the steps `here` lead to. Of two with the same steps the later one
counts. -/
def fileAt? (f : Folder) (here : List String) : Option String :=
  (f.files.reverse.find? fun (name, _) => steps name == here).map Prod.snd

/-- Whether the steps `here` lead to a folder: this one, or one with a file somewhere inside. -/
def hasFolder (f : Folder) (here : List String) : Bool :=
  here.isEmpty || f.files.any fun (name, _) =>
    here.isPrefixOf (steps name) && here.length < (steps name).length

/-- The most bytes that the name of a single step may have. -/
def maxStep : Nat := 255

/-- No path has this many bytes or more. -/
def pathLimit : Nat := 4096

/-- What some steps lead to that are taken from `here`, one of them being the step back. Outside
the folder only the folders around it are known. A name that is too long can be found nowhere. -/
def lookFrom (f : Folder) (here : List String) : List String → Entry
  | [] =>
    match f.fileAt? here with
    | some text => .file text
    | none => if f.hasFolder here then .directory else .absent
  | s :: rest =>
    if !f.hasFolder here then .absent
    else if s.utf8ByteSize > maxStep then .unnamable
    else if s != ".." then lookFrom f (here ++ [s]) rest
    else if here.isEmpty then if rest.all (· == "..") then .directory else .absent
    else lookFrom f here.dropLast rest

/-- The folders that stand in the outermost one, wherever it is. -/
def outermost : List String :=
  ["bin", "dev", "etc", "home", "lib", "opt", "proc", "root", "sys", "tmp", "usr", "var"]

/-- What some steps from the outermost folder lead to. Only what stands everywhere is known: the
folders in it, and the file that is always empty. -/
def lookOutside (taken : List String) : Entry :=
  match taken.dropWhile (· == "..") with
  | [] => .directory
  | ["dev", "null"] => .file ""
  | s :: rest =>
    if s.utf8ByteSize > maxStep then .unnamable
    else if !outermost.contains s then .absent
    else if rest.isEmpty then .directory
    else if (rest.headD "").utf8ByteSize > maxStep then .unnamable
    else .absent

/-- What a path leads to. No file has a name with half a character in it. -/
def look (f : Folder) : Name → Entry
  | .halved .. => .absent
  | .whole path =>
    let taken := steps path
    let bytes := ("/".intercalate taken).utf8ByteSize + if isAbsolute path then 1 else 0
    if bytes ≥ pathLimit then .unnamable
    else if isAbsolute path then lookOutside taken
    else f.lookFrom [] taken

end Folder

end Deli
