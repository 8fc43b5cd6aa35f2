/-
This file reads the arguments of the command line. Options come in a long and a short
form, before or behind the format; a value stands behind an equals sign, directly behind
a short option, or as the next argument, which must then not look like an option itself.
Two hyphens end the options. An option may be given once, and so may the format.
Arguments are read in order: the version and the help are answered where they are met,
unless something before them was wrong.
-/

import Manuscript.Path

namespace Manuscript.CommandLine

/-- What the arguments say so far. -/
structure Arguments where
  format : Option Text
  path : Option Path
  output : Option Path
  settings : Option Path
  listFormats : Bool
  deriving DecidableEq, Repr

/-- No arguments. -/
def Arguments.none : Arguments := ⟨Option.none, Option.none, Option.none, Option.none, false⟩

/-- What is asked for. -/
inductive Command where
  | showHelp
  | showVersion
  | listFormats
  | compile (format : Text) (path output settings : Option Path)
  deriving DecidableEq, Repr

/-- An option with a value. -/
inductive Setting where
  | path
  | output
  | settings
  deriving DecidableEq, Repr

/-- An option without a value. -/
inductive Flag where
  | listFormats
  | help
  | version
  deriving DecidableEq, Repr

/-- An option by its long name. -/
def ofName? (name : Text) : Option (Setting ⊕ Flag) :=
  match String.ofList name with
  | "path" => some (.inl .path)
  | "output" => some (.inl .output)
  | "config" => some (.inl .settings)
  | "list-formats" => some (.inr .listFormats)
  | "help" => some (.inr .help)
  | "version" => some (.inr .version)
  | _ => none

/-- An option by its letter. -/
def ofLetter? : Char → Option (Setting ⊕ Flag)
  | 'p' => some (.inl .path)
  | 'o' => some (.inl .output)
  | 'c' => some (.inl .settings)
  | 'h' => some (.inr .help)
  | 'V' => some (.inr .version)
  | _ => none

namespace Arguments

/-- Takes a value for an option. It must not be empty, and the option must not have one. -/
def setting? (arguments : Arguments) (setting : Setting) (value : Text) : Option Arguments :=
  if value = [] then Option.none
  else
    match setting with
    | .path =>
      if arguments.path.isSome then Option.none else some { arguments with path := some ⟨value⟩ }
    | .output =>
      if arguments.output.isSome then Option.none
      else some { arguments with output := some ⟨value⟩ }
    | .settings =>
      if arguments.settings.isSome then Option.none
      else some { arguments with settings := some ⟨value⟩ }

/-- Takes the format. -/
def format? (arguments : Arguments) (format : Text) : Option Arguments :=
  if arguments.format.isSome then Option.none
  else some { arguments with format := some format }

/-- What is asked for when all arguments have been read. -/
def command? (arguments : Arguments) : Option Command :=
  if arguments.listFormats then some .listFormats
  else
    arguments.format.map fun format =>
      .compile format arguments.path arguments.output arguments.settings

end Arguments

/-- How far an argument leads. -/
inductive Progress where
  /-- On to the next argument. -/
  | more (arguments : Arguments)
  /-- The next argument has to be the option's value. -/
  | awaiting (arguments : Arguments) (setting : Setting)
  /-- There is nothing more to read. -/
  | done (command : Command)
  deriving DecidableEq, Repr

/-- Takes an option without a value. -/
def takeFlag (arguments : Arguments) : Flag → Option Progress
  | .listFormats =>
    if arguments.listFormats then none else some (.more { arguments with listFormats := true })
  | .help => some (.done .showHelp)
  | .version => some (.done .showVersion)

/-- Takes a long option, behind its two hyphens. -/
def takeLong (arguments : Arguments) (option : Text) : Option Progress := do
  let name := option.takeWhile (· ≠ '=')
  match ← ofName? name, option.dropWhile (· ≠ '=') with
  | .inl setting, [] => some (.awaiting arguments setting)
  | .inl setting, _ :: value => (arguments.setting? setting value).map .more
  | .inr flag, [] => takeFlag arguments flag
  | .inr _, _ :: _ => none

/-- Takes short options that stand together, behind their hyphen. -/
def takeShort (arguments : Arguments) : Text → Option Progress
  | [] => some (.more arguments)
  | letter :: rest => do
    match ← ofLetter? letter, rest with
    | .inl setting, [] => some (.awaiting arguments setting)
    | .inl setting, '=' :: value => (arguments.setting? setting value).map .more
    | .inl setting, value => (arguments.setting? setting value).map .more
    | .inr flag, rest =>
      match ← takeFlag arguments flag with
      | .more arguments => takeShort arguments rest
      | progress => some progress

/-- Whether an argument looks like an option. A lone hyphen does not. -/
def looksLikeOption : Text → Bool
  | '-' :: _ :: _ => true
  | _ => false

/-- Reads arguments among which there are no options any more. -/
def readFormats (arguments : Arguments) (rest : List Text) : Option Command := do
  let arguments ← rest.foldlM Arguments.format? arguments
  arguments.command?

/-- Reads the arguments that are left. -/
def readFrom : Progress → List Text → Option Command
  | .done command, _ => some command
  | .more arguments, [] => arguments.command?
  | .awaiting .., [] => none
  | .awaiting arguments setting, argument :: rest =>
    if looksLikeOption argument then none
    else do
      let arguments ← arguments.setting? setting argument
      readFrom (.more arguments) rest
  | .more arguments, argument :: rest =>
    match argument with
    | ['-', '-'] => readFormats arguments rest
    | '-' :: '-' :: option => do
      let progress ← takeLong arguments option
      readFrom progress rest
    | '-' :: letter :: letters => do
      let progress ← takeShort arguments (letter :: letters)
      readFrom progress rest
    | format => do
      let arguments ← arguments.format? format
      readFrom (.more arguments) rest

/-- What a command line asks for, if it is well-formed. -/
def read? (arguments : List Text) : Option Command :=
  readFrom (.more .none) arguments

end Manuscript.CommandLine
