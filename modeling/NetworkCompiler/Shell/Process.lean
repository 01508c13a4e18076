import NetworkCompiler.Dictionary
import NetworkCompiler.Shell.Statement

/-!
# The state of a shell

What a running shell knows (`Session`: variables, functions, arguments, channels) and what it
shares with the shells it starts (`Process`: what can still be read, what has been written,
files). `Run` is the monad of everything a shell does; a `Flow` leaves the course of statements.

Texts are rows of bytes: each character of a text stands for the byte of its number.
-/

namespace NetworkCompiler.Shell

/-- Where a channel leads. -/
inductive Channel where
  /-- To a text that is read, by its number. -/
  | source (n : Nat)
  /-- To a text that is collected, by its number. -/
  | sink (n : Nat)
  /-- Behind the end of a file. -/
  | file (path : String)
  | nowhere
  deriving DecidableEq, Repr

/-- What a shell has of its own. -/
structure Session where
  /-- The values of the variables. -/
  bindings : Dictionary String String := []
  readonly : List String := []
  functions : List (String × Statement) := []
  arguments : List String := []
  channels : List (Nat × Channel) := []
  /-- The status of the last command. -/
  status : Nat := 0
  /-- Whether a failure ends the shell. -/
  exitsOnFailure : Bool := false
  /-- Whether the use of a variable without value is a fault. -/
  needsValues : Bool := false
  /-- What is run on a signal, or at the end (`EXIT`). -/
  traps : List (String × String) := []
  /-- The loops around the statement. -/
  loopDepth : Nat := 0
  /-- The values that functions around the statement have to bring back. -/
  locals : List (List (String × Option String)) := []
  directory : String := "/"

/-- A shell and what it shares. -/
structure Process extends Session where
  sources : Array String := #[]
  sinks : Array String := #[]
  files : Dictionary String String := []
  /-- The statuses of shells in the background, by their numbers. -/
  jobs : List (Nat × Nat) := []
  /-- The status of the last script whose output was taken. -/
  captured : Option Nat := none

/-- What leaves the course of statements. -/
inductive Flow where
  | exit (status : Nat)
  | leaveFunction (status : Nat)
  | leaveLoops (depth : Nat)
  | nextRound (depth : Nat)
  /-- The shell was ended by a signal. -/
  | killed
  /-- A command met a fault; `fatal` says whether the shell ends with it. -/
  | fault (fatal : Bool)
  /-- The run was given up. -/
  | exhausted
  deriving DecidableEq, Repr

/-- What a shell does. -/
abbrev Run := ExceptT Flow (StateM Process)

namespace Run

/-- The status of a command that met a fault. -/
def faultStatus : Nat := 2

/-- A fault of a command. -/
def fault {α : Type} : Run α := throw (.fault false)

/-- A fault that ends the shell. -/
def fatal {α : Type} : Run α := throw (.fault true)

/-- Sets the status. -/
def setStatus (n : Nat) : Run Unit := modify fun p => { p with status := n }

/-! ## Variables -/

/-- The number that stands for the shell among the programs of the machine. -/
def processNumber : Nat := 4242

/-- The value of a variable. -/
def valueOf? (name : String) : Run (Option String) := do
  pure (Dictionary.get? name (← get).bindings)

/-- Gives a variable a value. -/
def assign (name value : String) : Run Unit := do
  if name ∈ (← get).readonly then fatal
  modify fun p => { p with bindings := Dictionary.insert name value p.bindings }

/-- Takes the value of a variable. -/
def unset (name : String) : Run Unit := do
  if name ∈ (← get).readonly then fatal
  modify fun p => { p with bindings := Dictionary.erase name p.bindings }

/-- Brings back a value, or its absence. -/
def restore (name : String) (value : Option String) : Run Unit :=
  modify fun p => { p with bindings := match value with
    | some v => Dictionary.insert name v p.bindings
    | none => Dictionary.erase name p.bindings }

/-- The characters that part words. -/
def separators : Run (List Char) := do
  pure (((← valueOf? "IFS").getD " \t\n").toList)

/-- The options that are on, by letter. -/
def optionLetters (s : Session) : String :=
  (if s.exitsOnFailure then "e" else "") ++ if s.needsValues then "u" else ""

/-- The value of a parameter; for `@` and `*`, see the arguments. -/
def parameter? (name : String) : Run (Option String) := do
  let p ← get
  match name with
  | "#" => pure (some (toString p.arguments.length))
  | "?" => pure (some (toString p.status))
  | "$" => pure (some (toString processNumber))
  | "!" => pure ((p.jobs.head?).map fun (n, _) => toString n)
  | "-" => pure (some (optionLetters p.toSession))
  | "0" => pure (some "sh")
  | name =>
    match Text.Chars.natural? name.toList with
    | some (n + 1) => pure p.arguments[n]?
    | _ => valueOf? name

/-! ## Channels -/

/-- Where a channel of a number leads. -/
def channel? (n : Nat) : Run (Option Channel) := do
  pure ((← get).channels.lookup n)

/-- Makes a channel lead elsewhere. -/
def setChannel (n : Nat) (c : Option Channel) : Run Unit :=
  modify fun p =>
    let others := p.channels.filter (·.1 ≠ n)
    { p with channels := match c with
        | some c => (n, c) :: others
        | none => others }

/-- A new text to read. -/
def newSource (content : String) : Run Channel :=
  modifyGet fun p => (.source p.sources.size, { p with sources := p.sources.push content })

/-- A new text to collect. -/
def newSink : Run Nat :=
  modifyGet fun p => (p.sinks.size, { p with sinks := p.sinks.push "" })

/-- What has been collected. -/
def collected (n : Nat) : Run String := do
  pure ((← get).sinks[n]?.getD "")

/-- Writes to a channel, and says whether it could. -/
def writeTo (n : Nat) (text : String) : Run Bool := do
  match ← channel? n with
  | some (.sink i) =>
    modify fun p => { p with sinks := p.sinks.modify i (· ++ text) }
    pure true
  | some (.file path) =>
    modify fun p =>
      let content := (Dictionary.get? path p.files).getD "" ++ text
      { p with files := Dictionary.insert path content p.files }
    pure true
  | some .nowhere => pure true
  | some (.source _) | none => pure (text.isEmpty)

/-- What can still be read from a channel. -/
def unread? (n : Nat) : Run (Option String) := do
  match ← channel? n with
  | some (.source i) => pure (some ((← get).sources[i]?.getD ""))
  | some .nowhere => pure (some "")
  | some (.file _) => pure (some "")
  | _ => pure none

/-- Keeps only some of what can be read from a channel. -/
def setUnread (n : Nat) (rest : String) : Run Unit := do
  match ← channel? n with
  | some (.source i) => modify fun p => { p with sources := p.sources.modify i fun _ => rest }
  | _ => pure ()

/-- The name of a file from the root on. -/
def absolute (path : String) : Run String := do
  let here := (← get).directory
  let whole := if path.startsWith "/" then path else here ++ "/" ++ path
  let names := (Text.splitAt '/' whole).filter fun n => n ≠ "" && n ≠ "."
  pure ("/" ++ Text.joinWith "/" names)

/-- Directories that are taken to be there. -/
def directories : List String := ["/", "/tmp", "/dev", "/etc", "/usr", "/bin", "/var"]

/-- The content of a file. -/
def content? (path : String) : Run (Option String) := do
  let path ← absolute path
  if path = "/dev/null" then pure (some "")
  else pure (Dictionary.get? path (← get).files)

/-- Opens a file to write to. -/
def openToWrite (append : Bool) (path : String) : Run Channel := do
  let path ← absolute path
  if path = "/dev/null" then return .nowhere
  if path ∈ directories then fault
  let parent := (path.toList.reverse.dropWhile (· ≠ '/')).drop 1
  let parent := if parent.isEmpty then "/" else String.ofList parent.reverse
  if !(parent ∈ directories || parent = (← get).directory) then fault
  unless append && (Dictionary.get? path (← get).files).isSome do
    modify fun p => { p with files := Dictionary.insert path "" p.files }
  pure (.file path)

/-! ## Shells within shells -/

/-- Does something and brings back everything but the status and what is shared. What leaves the
course of statements ends at this border. -/
def isolated (action : Run Unit) : Run Unit := do
  let before := (← get).toSession
  let status ← try
      action
      pure (← get).status
    catch
      | .exit n => pure n
      | .leaveFunction n => pure n
      | .fault _ => pure faultStatus
      | .leaveLoops _ => pure (← get).status
      | .nextRound _ => pure (← get).status
      | f => throw f
  modify fun p => { p with toSession := { before with status := status } }

end Run

end NetworkCompiler.Shell
