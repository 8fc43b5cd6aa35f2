/-
This file compiles a project: it loads the settings, chooses the format, makes room for
the document, and compiles the files in their order. Nothing is made or changed before
the settings are loaded, the order is found not to be empty and the format is found.
From then on the document is the only file that changes: it is emptied, and it holds in
the end what was written, even where the compilation ended early.
-/

import Manuscript.Compiler
import Manuscript.Format.Registry
import Manuscript.Settings.Load

namespace Manuscript

namespace Compiler

/-- Compiles files in order, after `done` of them. A file that does not exist is passed over
with a notice; anything else that cannot be read ends the compilation. -/
def compileFiles (files : FileSystem) (root : Path) : (compiler : Compiler) → (done : Nat) →
    List Path → Passage
  | compiler, done, [] => ⟨compiler, [], [], .ok done⟩
  | compiler, done, entry :: rest =>
    let path := root.join entry
    match files.readLines path with
    | .error .missing => (compileFiles files root compiler done rest).after [] [.missingFile path]
    | .error .refused => ⟨compiler, [], [], .error (.inputNotRead path)⟩
    | .ok lines =>
      let passage := compiler.compileLines path lines
      match passage.outcome with
      | .error _ => passage
      | .ok count =>
        (compileFiles files root passage.compiler (done + 1) rest).after passage.written
          (passage.notices ++ [.compiled path count])

/-- Compiles the files of the options' order. -/
def compileOrder (compiler : Compiler) (files : FileSystem) (root : Path) : Passage :=
  compileFiles files root compiler 0 compiler.options.order

end Compiler

/-- What to compile, and where to. -/
structure Request where
  root : Path
  /-- The name of the format. -/
  format : Text
  /-- The document's path without its extension. -/
  output : Path
  /-- The settings file, if it is not to be looked for. -/
  settings : Option Path
  deriving DecidableEq, Repr

namespace Request

/-- Compiles the project into the document `output` in its folder. -/
def new (root : Path) (format : Text) : Request where
  root := root
  format := format
  output := root.join (.ofString "output")
  settings := none

/-- The settings of the request's project, and what there is to report. -/
def load (request : Request) (files : FileSystem) : Except Failure (Settings × List Notice) :=
  match request.settings with
  | some path => Settings.loadFile files request.root path
  | none => Settings.load files request.root

end Request

/-- What compiling a project came to: the files after it, the notices in order, and the
document, if there was anything to compile, or why it ended early. -/
structure Compilation where
  files : FileSystem
  notices : List Notice
  outcome : Except Failure (Option Path)

/-- Makes the folder around a path, if the path names one. -/
def makeRoom (files : FileSystem) (path : Path) : Bool × FileSystem :=
  match path.parent? with
  | none => (true, files)
  | some around => if around.text = [] then (true, files) else files.makeFolder around

/-- Writes the document with the given settings. It is emptied before the first file is read and
written as a whole behind the last one, so an order that holds the document itself finds it
empty. A writer that passes on parts of the document while files are still being read lets such
an order read back what it has passed on by then. -/
def writeDocument (files : FileSystem) (root : Path) (settings : Settings) (document : Path)
    (reported : List Notice) : Compilation :=
  match makeRoom files document with
  | (false, files) => ⟨files, reported, .error (.outputNotCreated document)⟩
  | (true, files) =>
    match files.place? document with
    | none => ⟨files, reported, .error (.outputNotCreated document)⟩
    | some location =>
      let emptied := files.put location (.file [])
      let passage := (Compiler.new settings.options settings.names).compileOrder emptied root
      let written := emptied.put location (.file (Text.encode (Text.unlines passage.written)))
      match passage.outcome with
      | .error failure => ⟨written, reported ++ passage.notices, .error failure⟩
      | .ok _ =>
        ⟨written, reported ++ passage.notices ++ [.wrote document], .ok (some document)⟩

/-- Compiles a project. There is no document if there is nothing to compile. -/
def compileProject (files : FileSystem) (registry : Registry) (request : Request) :
    Compilation :=
  match request.load files with
  | .error failure => ⟨files, [], .error failure⟩
  | .ok (settings, reported) =>
    if settings.options.order.isEmpty then
      ⟨files, reported ++ [.nothingToCompile], .ok none⟩
    else
      match registry.resolve request.format with
      | .error failure => ⟨files, reported, .error failure⟩
      | .ok format =>
        writeDocument files request.root settings
          (request.output.withExtension format.extension) reported

end Manuscript
