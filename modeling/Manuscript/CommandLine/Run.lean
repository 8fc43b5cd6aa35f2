/-
This file carries out a command line: it answers with what is printed, what is reported,
the files afterwards, and how the program ends.
-/

import Manuscript.CommandLine.Arguments
import Manuscript.Project

namespace Manuscript.CommandLine

/-- How the program ends. -/
inductive Ending where
  | success
  /-- Compiling the project at `root` ended early. -/
  | failed (root : Path) (failure : Failure)
  /-- The command line is not well-formed. -/
  | misused
  deriving DecidableEq, Repr

namespace Ending

/-- The code that the program ends with. -/
def code : Ending → Nat
  | success => 0
  | failed .. => 1
  | misused => 2

/-- The line that says what could not be done. -/
def headline? : Ending → Option Text
  | failed root _ => some ("Error: Failed to compile ".toList ++ root.text)
  | _ => none

/-- Why it could not be done. -/
def cause? : Ending → Option Text
  | failed _ failure => some failure.message
  | _ => none

end Ending

/-- What carrying out a command line came to. -/
structure Outcome where
  printed : Text
  notices : List Notice
  files : FileSystem
  ending : Ending

/-- The program's name and version. -/
def versionText : Text :=
  "proze 0.1.0\n".toList

/-- How the program is used. -/
def usageText : Text :=
  Text.unlines ([
    "Compile a proze project",
    "",
    "Usage: proze [OPTIONS] [doctype]",
    "",
    "Arguments:",
    "  [doctype]  The output format of the compiled document (txt, pdf)",
    "",
    "Options:",
    "  -p, --path <path>      Path to the root folder of the proze project",
    "  -o, --output <output>  Output file path without extension (default: <path>/output)",
    "  -c, --config <config>  Config file to use instead of the one in the project folder",
    "      --list-formats     List available output formats",
    "  -h, --help             Print help",
    "  -V, --version          Print version"].map String.toList)

/-- The formats with their descriptions. -/
def formatsText (registry : Registry) : Text :=
  let entries := registry.names.filterMap fun name =>
    (registry.get? name).map fun format => ["  ".toList ++ name, "    ".toList ++ format.description]
  Text.unlines ("Available output formats:".toList :: [] :: entries.flatten)

/-- The path of a place, from the root. -/
def absolutePath (location : Location) : Path :=
  if location = [] then .ofString "/" else .ofComponents (.root :: location.map .name)

/-- The request that compiles the project that the command line names. -/
def requestOf (files : FileSystem) (format : Text) (path output settings : Option Path) : Request :=
  let request := Request.new (path.getD (absolutePath files.workingFolder)) format
  { request with output := output.getD request.output, settings := settings }

/-- Carries out a command line. -/
def run (files : FileSystem) (arguments : List Text) : Outcome :=
  let registry := Registry.standard
  match read? arguments with
  | none => ⟨[], [], files, .misused⟩
  | some .showHelp => ⟨usageText, [], files, .success⟩
  | some .showVersion => ⟨versionText, [], files, .success⟩
  | some .listFormats => ⟨formatsText registry, [], files, .success⟩
  | some (.compile format path output settings) =>
    let request := requestOf files format path output settings
    let compilation := compileProject files registry request
    let shown := compilation.notices.filter (·.level.isShown)
    match compilation.outcome with
    | .ok _ => ⟨[], shown, compilation.files, .success⟩
    | .error failure => ⟨[], shown, compilation.files, .failed request.root failure⟩

end Manuscript.CommandLine
