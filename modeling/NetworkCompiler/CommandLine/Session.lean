import NetworkCompiler.CommandLine.Commands
import NetworkCompiler.FileTree.Tree

/-!
# Sessions

A model of the system that commands run on: a file tree, one program that can be started, and
what was printed (`Session`). `Session.run` carries out a command in a session.
-/

namespace NetworkCompiler.CommandLine

/-- The state of a modelled system. -/
structure Session where
  tree : Tree
  directory : List String
  /-- What any program leaves behind, if programs can be started. -/
  program : Option Finished := none
  /-- The program that was started last, and its arguments. -/
  started : Option (String × List String) := none
  printed : ByteArray := ByteArray.empty

namespace Session

/-- Changes the files, or fails. -/
def change (f : Session → Except FileFault Tree) : StateM Session (Except FileFault Unit) := do
  let s ← get
  match f s with
  | .ok tree =>
    set { s with tree := tree }
    pure (.ok ())
  | .error cause => pure (.error cause)

/-- Starts a program. -/
def startProgram (name : String) (arguments : List String) :
    StateM Session (Except FileFault Finished) := do
  let s ← get
  match s.program with
  | none => pure (.error .notFound)
  | some finished =>
    set { s with started := some (name, arguments) }
    pure (.ok finished)

/-- The modelled system. -/
def platform : Platform (StateM Session) where
  readBytes path := do
    let s ← get
    pure (s.tree.readBytes s.directory path)
  writeBytes path content := change fun s => s.tree.write s.directory path content
  makeDirectories path := change fun s => s.tree.makeDirectories s.directory path
  markExecutable path := change fun s => s.tree.markExecutable s.directory path
  workingDirectory := do
    let s ← get
    pure s.directory
  leadsSomewhere names := do
    let s ← get
    pure (s.tree.hasNode s.directory (absolutePath names))
  canonical names := do
    let s ← get
    match s.tree.canonical? s.directory (absolutePath names) with
    | some names => pure (.ok names)
    | none => pure (.error .notFound)
  start := startProgram
  print bytes := modify fun s => { s with printed := s.printed ++ bytes }

/-- Carries out a command. -/
def run (color : Bool) (command : Command) (s : Session) : Except CommandError Unit × Session :=
  (execute platform color command).run.run s

/-- The files below the working directory, each with its path, its content and whether it can be
run. -/
def files (s : Session) : List (String × ByteArray × Bool) :=
  match s.tree.at? s.directory with
  | some t => (t.files []).map fun (names, f) => (Text.joinWith "/" names, f)
  | none => []

end Session

end NetworkCompiler.CommandLine
