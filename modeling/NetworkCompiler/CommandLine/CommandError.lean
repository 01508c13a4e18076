import NetworkCompiler.Failure
import NetworkCompiler.Script.Parser
import NetworkCompiler.Settings.Reader

/-!
# Faults of commands

Why a command fails, as causes. `CommandError.chain` words a fault: what was being done first,
then what went wrong, then what the system said, one text each.
-/

namespace NetworkCompiler.CommandLine

/-- Why a script cannot be read. -/
inductive ScriptFault where
  | unreadable (cause : FileFault)
  | notUtf8
  | malformed (fault : Script.Malformed)
  deriving DecidableEq, Repr

/-- Why a command fails. -/
inductive CommandError where
  | settings (fault : SettingsError)
  | secrets (path : String) (fault : InputError)
  | input (path : String) (fault : InputError)
  | noSuchNetwork (name path : String)
  | severalNetworks (path : String) (names : List String)
  | noNetworks (path : String)
  | unresolved (path : String) (cause : FileFault)
  | outputIsInput (out input : String)
  | directoryIsInput (directory input : String)
  | scriptIsInput (target machine input : String)
  | network (name path : String) (fault : Failure)
  | rendering (name : String) (fault : Failure)
  | noScript
  | unwritable (network path : String) (cause : FileFault)
  | unmanaged (machine : String)
  | unmanagedIn (machine network : String)
  | script (path : String) (fault : ScriptFault)
  | verifyErrors (count : Nat)
  | verifyWarnings (count : Nat)
  | notStarted (file program : String) (cause : FileFault)
  | exited (file : String) (status : Nat)
  | noTotals (file : String)
  | unitsFailed (file : String) (fail total : Nat) (failed : List String)
  deriving DecidableEq, Repr

/-- An input fault and what the system said. -/
def inputChain (fault : InputError) : List String :=
  fault.message :: match fault with
    | .unreadable _ cause => [cause.message]
    | _ => []

/-- A settings fault and what the system said. -/
def settingsChain (fault : SettingsError) : List String :=
  fault.message :: match fault with
    | .unreadable _ cause => [cause.message]
    | _ => []

/-- A failure and what the system said. -/
def failureChain : Failure → List String
  | .input fault => inputChain fault
  | fault => [fault.message]

/-- Why a script cannot be read, and what the system said. -/
def ScriptFault.chain : ScriptFault → List String
  | unreadable cause => ["failed to read script file: " ++ cause.message, cause.message]
  | notUtf8 => ["invalid UTF-8 in script"]
  | malformed fault => [fault.message]

/-- The beginning of every refusal to overwrite the input. -/
def refusal (what input : String) : String :=
  s!"refusing to write scripts over the input: {what} is {input}"

/-- The wording of a fault, outermost first. -/
def CommandError.chain : CommandError → List String
  | settings fault => "failed to load settings" :: settingsChain fault
  | secrets path fault => s!"failed to load secrets from {path}" :: inputChain fault
  | input path fault => s!"failed to load {path}" :: inputChain fault
  | noSuchNetwork name path => [s!"network '{name}' not found in {path}"]
  | severalNetworks path names =>
    [path ++ " holds several networks (" ++ Text.joinWith ", " names ++
      "), pick one with --network"]
  | noNetworks path => [s!"{path} holds no networks"]
  | unresolved path cause => [s!"failed to resolve {path}", cause.message]
  | outputIsInput out file => [refusal ("--out " ++ out) file]
  | directoryIsInput directory file => [refusal ("network directory " ++ directory) file]
  | scriptIsInput target machine file => [refusal s!"{target} for '{machine}'" file]
  | network name path fault => s!"network '{name}' in {path}" :: failureChain fault
  | rendering name fault => s!"network '{name}'" :: failureChain fault
  | noScript => ["no script was rendered"]
  | unwritable name path cause =>
    [s!"network '{name}': failed to write scripts",
      s!"failed to write {path}: {cause.message}", cause.message]
  | unmanaged machine => [s!"'{machine}' is not a managed machine in any selected network"]
  | unmanagedIn machine name =>
    [s!"'{machine}' is not a managed machine in network '{name}'"]
  | script path fault => s!"failed to parse {path}" :: fault.chain
  | verifyErrors count => [s!"verify failed: {count} errors"]
  | verifyWarnings count => [s!"verify failed in strict mode: {count} warnings"]
  | notStarted file program cause =>
    [s!"failed to run {file}", s!"failed to start {program}: {cause.message}", cause.message]
  | exited file status => [s!"{file} exited with status {status}"]
  | noTotals file => [s!"{file} printed no pass/fail summary"]
  | unitsFailed file fail total failed =>
    [s!"{file}: {fail} of {total} units failed: " ++ Text.joinWith " " failed]

end NetworkCompiler.CommandLine
