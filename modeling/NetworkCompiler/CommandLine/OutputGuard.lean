import NetworkCompiler.CommandLine.Platform
import NetworkCompiler.Compilation.Scripts
import NetworkCompiler.FileTree.Path

/-!
# Guarding the input

Scripts must not be written over the file they are made from. Two paths mean the same file if
they resolve to the same names: links are followed as far as a path leads anywhere, and the rest
of it is folded onto what was found.
-/

namespace NetworkCompiler.CommandLine

variable {m : Type → Type} [Monad m] (p : Platform m)

/-- Names as an absolute path. -/
def absolutePath (names : List String) : String :=
  "/" ++ Text.joinWith "/" names

/-- Follows names that lead nowhere yet. -/
def foldNames (here : List String) : List String → List String
  | [] => here
  | name :: rest => foldNames (if name = ".." then here.dropLast else here ++ [name]) rest

/-- The names of what `names` lead to. -/
def canonicalNames (names : List String) : Action m (List String) :=
  orFail (.unresolved (absolutePath names)) (p.canonical names)

/-- Resolves names behind names that lead somewhere. -/
def resolveFrom (here : List String) : List String → Action m (List String)
  | [] => canonicalNames p here
  | name :: rest => do
    if ← ExceptT.lift (p.leadsSomewhere (here ++ [name])) then
      resolveFrom (here ++ [name]) rest
    else
      let base ← canonicalNames p here
      pure (foldNames base (name :: rest))

/-- The names of a path. -/
def namesOf (path : String) : List String :=
  (Path.components path).filter (· ≠ ".")

/-- Resolves a path. -/
def resolve (path : String) : Action m (List String) := do
  let start ← if Path.isAbsolute path then pure [] else ExceptT.lift p.workingDirectory
  resolveFrom p [] (start ++ namesOf path)

/-- Fails if two paths mean the same. -/
def refuseSame (path input : String) (e : CommandError) : Action m Unit := do
  let inputNames ← resolve p input
  if (← resolve p path) = inputNames then throw e

/-- The directory of all output is not the input. -/
def guardOutput (out input : String) : Action m Unit :=
  refuseSame p out input (.outputIsInput out input)

/-- The path of a script in a directory. -/
def scriptPath (directory : String) (s : MachineScript) : String :=
  Path.join directory s.fileName

/-- Neither the directory of a network nor a script in it is the input. -/
def guardScripts (directory : String) (scripts : List MachineScript) (input : String) :
    Action m Unit := do
  refuseSame p directory input (.directoryIsInput directory input)
  scripts.forM fun s =>
    let target := scriptPath directory s
    refuseSame p target input (.scriptIsInput target s.machine input)

/-! ## Writing -/

/-- Writes a script of a network. -/
def writeScript (network directory : String) (s : MachineScript) : Action m Unit := do
  let path := scriptPath directory s
  orFail (.unwritable network directory) (p.makeDirectories directory)
  orFail (.unwritable network path) (p.writeBytes path s.text.toUTF8)
  orFail (.unwritable network path) (p.markExecutable path)

/-- Writes the scripts of a network, up to the first failure. -/
def writeScripts (network directory : String) (scripts : List MachineScript) : Action m Unit :=
  scripts.forM (writeScript p network directory)

end NetworkCompiler.CommandLine
