import Deli.Document
import Deli.Service

/-! The command line: one service, with the configuration that the environment names. -/

namespace Deli

/-- What is at a path on the disk. -/
def entryAt (path : String) : IO Entry := do
  try
    let place ← IO.FS.realPath path
    if ← place.isDir then pure .directory else pure (.file (← IO.FS.readFile place))
  catch _ => pure .absent

def environment : IO Environment := do
  let setting (name : String) : IO (Option Name) := do pure ((← IO.getEnv name).map .whole)
  pure ⟨← setting "SANDWICH_CONFIG", ← setting "SANDWICH_INTERPRETER",
    ← setting "SANDWICH_RECIPE"⟩

/-- Where the configuration is when the environment names no other place. -/
def standardPath : Name := .whole "kitchen.yaml"

def printLine : Line → IO Unit
  | .text s => IO.println s
  | .panel text title _ => IO.println (title ++ ": " ++ text)

end Deli

open Deli in
def main : IO UInt32 := do
  let env ← environment
  let entry ← match (Config.given env.config).getD standardPath with
    | .whole path => entryAt path
    | .halved .. => pure .absent
  let docs : Documents := ⟨fun _ => entry, Document.read, standardPath⟩
  let (result, world) := (Service.run docs env).run ⟨[], 0, ()⟩
  world.console.forM printLine
  match result with
  | .ok report => do
    IO.print report.output
    pure report.exitCode.toUInt32
  | .error e => do
    IO.eprintln (e.cause.title ++ ": " ++ e.cause.message)
    pure 1
