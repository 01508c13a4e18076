import NetworkCompiler.CommandLine.CommandError
import NetworkCompiler.Text.Utf8

/-!
# Platforms

What a command needs of the system it runs on: files, other programs, and somewhere to print.
Commands are written for any `Platform`, so that they can be run on a real system and reasoned
about on a model of one.
-/

namespace NetworkCompiler.CommandLine

/-- What a program left behind. -/
structure Finished where
  output : ByteArray
  status : Nat

/-- A system on which commands run. -/
structure Platform (m : Type → Type) where
  readBytes : String → m (Except FileFault ByteArray)
  writeBytes : String → ByteArray → m (Except FileFault Unit)
  /-- Makes a directory and those above it that are missing. -/
  makeDirectories : String → m (Except FileFault Unit)
  /-- Marks a file as one that can be run. -/
  markExecutable : String → m (Except FileFault Unit)
  /-- The names of the working directory, from the root. -/
  workingDirectory : m (List String)
  /-- Whether the names lead to anything, from the root. -/
  leadsSomewhere : List String → m Bool
  /-- The names of what some names lead to, all links followed. -/
  canonical : List String → m (Except FileFault (List String))
  /-- Runs a program to its end. -/
  start : String → List String → m (Except FileFault Finished)
  print : ByteArray → m Unit

/-- What a command does. -/
abbrev Action (m : Type → Type) := ExceptT CommandError m

namespace Platform

variable {m : Type → Type} [Monad m] (p : Platform m)

/-- The text of a file, which has to be UTF-8. -/
def readText (path : String) : m (Except FileFault String) := do
  match ← p.readBytes path with
  | .error cause => pure (.error cause)
  | .ok content =>
    match Text.decode? content with
    | some text => pure (.ok text)
    | none => pure (.error .notUtf8)

/-- Prints a text. -/
def printText (s : String) : Action m Unit :=
  ExceptT.lift (p.print s.toUTF8)

/-- Prints a text and a line end. -/
def printLine (s : String) : Action m Unit :=
  p.printText (s ++ "\n")

end Platform

/-- Goes on with a value, or fails with an error made from the fault. -/
def orFail {m : Type → Type} [Monad m] {ε α : Type} (f : ε → CommandError)
    (action : m (Except ε α)) : Action m α := do
  match ← ExceptT.lift action with
  | .ok a => pure a
  | .error e => throw (f e)

end NetworkCompiler.CommandLine
