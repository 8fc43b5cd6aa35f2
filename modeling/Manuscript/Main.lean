/-
This file is the program itself. It reads the files that a command line can reach, hands
them to the part that decides everything, writes back what has changed, and prints what
there is to print.
-/

import Manuscript.CommandLine.Run

namespace Manuscript.Main

/-- The place of a folder or file with the given absolute path. -/
def locationOf (path : String) : Location :=
  (Path.ofString path).components.filterMap fun step =>
    match step with
    | .name name => some name
    | _ => none

/-- The folders around a place. -/
def around (location : Location) : List (Location × Entry) :=
  (List.range location.length).map fun depth => (location.take depth, .folder)

/-- Everything at a place and below it. What cannot be read is left out. -/
partial def readTree (path : String) : IO (List (Location × Entry)) := do
  let place ← IO.FS.realPath path
  if ← place.isDir then
    let mut entries := [(locationOf path, Entry.folder)]
    for entry in ← place.readDir do
      if ← entry.path.pathExists then
        entries := (← readTree entry.path.toString) ++ entries
    return entries
  else
    try
      let content ← IO.FS.readBinFile place
      return [(locationOf path, .file content.toList)]
    catch _ => return []

/-- Everything that a path leads to, if there is anything, and the folders around it. -/
def readNamed (path : Path) : IO (List (Location × Entry)) := do
  try
    let place ← IO.FS.realPath (String.ofList path.text)
    let entries ← readTree place.toString
    return entries ++ around (locationOf place.toString)
  catch _ => return []

/-- The paths outside the working folder that the arguments may name. -/
def namedPaths (arguments : List Text) : List Path :=
  match CommandLine.read? arguments with
  | some (.compile _ path output settings) =>
    path.toList ++ settings.toList ++ (output.bind Path.parent?).toList
  | _ => []

/-- The files that a command line can reach. -/
def readFiles (arguments : List Text) : IO FileSystem := do
  let here := (← IO.currentDir).toString
  let location := locationOf here
  let mut entries ← readTree here
  for path in namedPaths arguments do
    for (place, entry) in ← readNamed path do
      if (entries.lookup place).isNone then entries := (place, entry) :: entries
  return ⟨entries ++ around location, location⟩

/-- Writes what has changed. -/
def writeFiles (before after : FileSystem) : IO Unit := do
  for (location, entry) in after.entries.reverse do
    if before.at? location ≠ some entry then
      let path := String.ofList (CommandLine.absolutePath location).text
      match entry with
      | .folder => IO.FS.createDirAll path
      | .file content =>
        IO.FS.createDirAll (String.ofList (CommandLine.absolutePath location.dropLast).text)
        IO.FS.writeBinFile path ⟨content.toArray⟩

/-- Prints a notice. -/
def tell (notice : Notice) : IO Unit :=
  IO.eprintln (notice.level.name ++ " " ++ String.ofList notice.message)

/-- Prints how the program ended. -/
def tellEnding (ending : CommandLine.Ending) : IO Unit := do
  match ending with
  | .success => pure ()
  | .misused => IO.eprint (String.ofList CommandLine.usageText)
  | ending =>
    if let (some headline, some cause) := (ending.headline?, ending.cause?) then
      IO.eprintln (String.ofList headline ++ "\n\nCaused by:\n    " ++ String.ofList cause)

end Manuscript.Main

open Manuscript in
/-- Carries out the command line. -/
def main (arguments : List String) : IO UInt32 := do
  let arguments := arguments.map String.toList
  let files ← Main.readFiles arguments
  let outcome := CommandLine.run files arguments
  outcome.notices.forM Main.tell
  IO.print (String.ofList outcome.printed)
  Main.writeFiles files outcome.files
  Main.tellEnding outcome.ending
  return outcome.ending.code.toUInt32
