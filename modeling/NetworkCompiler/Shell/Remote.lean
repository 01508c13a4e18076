import NetworkCompiler.Shell.Word

/-!
# Remote shells

How a script is handed to a shell on another machine: the remote login joins its arguments with
spaces into one command line, so the script is quoted as one word.
-/

namespace NetworkCompiler.Shell

/-- A machine that is logged in to. -/
structure RemoteHost where
  host : String
  user : Option String := none
  port : Option Nat := none
  /-- More options of the login, as they are given. -/
  options : List String := []
  deriving DecidableEq, Repr

namespace RemoteHost

/-- The machine, and the account on it if one is named. -/
def destination (r : RemoteHost) : String :=
  match r.user with
  | some user => user ++ "@" ++ r.host
  | none => r.host

/-- The arguments of the login that come before the command. -/
def loginArguments (r : RemoteHost) : List String :=
  ["-T", "-o", "BatchMode=yes"] ++
    r.options.flatMap (fun o => ["-o", o]) ++
    (r.port.toList.flatMap fun p => ["-p", toString p]) ++
    [r.destination]

/-- The arguments of the login that runs a script. -/
def arguments (r : RemoteHost) (script : String) : List String :=
  r.loginArguments ++ ["sh", "-c", quote script]

end RemoteHost

end NetworkCompiler.Shell
