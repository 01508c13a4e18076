import NetworkCompiler.CommandLine.Commands

/-!
# The program

The command line on a real system. Everything that is decided is decided elsewhere: this module
reads and writes files for `CommandLine.execute`, prints, and turns the outcome into an exit
status. Other programs cannot be started from here, so running a script always fails.
-/

namespace NetworkCompiler.CommandLine

/-- The fault of a file operation that the system refused. -/
def faultOf : IO.Error → FileFault
  | .noFileOrDirectory _ _ _ => .notFound
  | .noSuchThing _ _ _ => .notFound
  | .alreadyExists _ _ _ => .alreadyExists
  | .inappropriateType _ 20 _ => .notDirectory
  | .inappropriateType _ _ _ => .isDirectory
  | .invalidArgument _ _ _ => .invalidPath
  | _ => .notFound

/-- Does something with files. -/
def attempt {α : Type} (action : IO α) : IO (Except FileFault α) :=
  try
    return .ok (← action)
  catch e => pure (.error (faultOf e))

/-- The access rights of a script. -/
def scriptRights : IO.FileRight :=
  { user := { read := true, write := true, execution := true },
    group := { read := true, execution := true },
    other := { read := true, execution := true } }

/-- The system that the program runs on. -/
def systemPlatform : Platform IO where
  readBytes path := attempt (IO.FS.readBinFile path)
  writeBytes path content := attempt (IO.FS.writeBinFile path content)
  makeDirectories path := attempt (IO.FS.createDirAll path)
  markExecutable path := attempt (IO.setAccessRights path scriptRights)
  workingDirectory := return Path.components (← IO.currentDir).toString
  leadsSomewhere names := return (← attempt (IO.FS.realPath (absolutePath names))).isOk
  canonical names := attempt do
    return Path.components (← IO.FS.realPath (absolutePath names)).toString
  start _ _ := pure (.error .notFound)
  print bytes := do (← IO.getStdout).write bytes

/-- The causes of a failure, numbered if they are several. -/
def causeLines (causes : List String) : List String :=
  match causes with
  | [cause] => ["    " ++ cause]
  | causes => (causes.zipIdx.map fun (cause, n) => "    " ++ toString n ++ ": " ++ cause)

/-- A failure as it is told to the user. -/
def failureText (chain : List String) : String :=
  match chain with
  | [] => "Error\n"
  | [what] => "Error: " ++ what ++ "\n"
  | what :: causes => Text.unlines (["Error: " ++ what, "", "Caused by:"] ++ causeLines causes)

/-- How the program is called. -/
def usage : String :=
  Text.unlines
    ["Usage: network-compiler [-v...] <command> [options]", "",
      "Commands:",
      "  compile <input>            write the scripts of all managed machines",
      "  verify <input>             look a network over without writing anything",
      "  diff <left> <right>        compare two scripts",
      "  show <input>               print a network and its addresses",
      "  run <input>                run the script of one machine",
      "  help                       print this text"]

/-- Runs the program. -/
def runProgram (arguments : List String) : IO UInt32 := do
  match parse arguments with
  | .error .help =>
    IO.print usage
    pure 0
  | .error .usage =>
    IO.eprint usage
    pure 2
  | .ok command =>
    match ← (execute systemPlatform false command).run with
    | .ok () => pure 0
    | .error e =>
      IO.eprint (failureText e.chain)
      pure 1

end NetworkCompiler.CommandLine

def main (arguments : List String) : IO UInt32 :=
  NetworkCompiler.CommandLine.runProgram arguments
