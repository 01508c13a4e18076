import NetworkCompiler.CommandLine.Arguments
import NetworkCompiler.CommandLine.OutputGuard
import NetworkCompiler.CommandLine.Platform
import NetworkCompiler.ConfigUnit.RunSummary
import NetworkCompiler.Network.Loading
import NetworkCompiler.Report.Json
import NetworkCompiler.Report.Overview
import NetworkCompiler.Script.DiffTerminal
import NetworkCompiler.Secrets.Reader

/-!
# Carrying out commands

The files that commands are given : settings, passphrases and networks. Each command is an `Action`
on any platform; `execute` chooses by the command.
-/

namespace NetworkCompiler.CommandLine

open Json (Value)

variable {m : Type → Type} [Monad m] (p : Platform m) (color : Bool)

/-! ## Files -/

/-- The settings of a file, the built-in ones if there is none. -/
def loadSettings : Option String → Action m Settings
  | none => pure Settings.default
  | some path => do
    let text ← orFail (fun cause => .settings (.unreadable path cause)) (p.readText path)
    match Settings.read path text with
    | .ok s => pure s
    | .error fault => throw (.settings fault)

/-- The passphrases of a file, the built-in one if there is none. -/
def loadSecrets : Option String → Action m Secrets
  | none => pure Secrets.builtin
  | some path => do
    let text ← orFail (fun cause => .secrets path (.unreadable path cause)) (p.readText path)
    match Secrets.ofText text with
    | .ok s => pure s
    | .error fault => throw (.secrets path (.json path fault))

/-- The networks of a file, or the one that is named. -/
def selectNetworks (path : String) (network : Option String) : Action m Networks := do
  let networks ← orFail (.input path) (loadNetworks p.readText path)
  match network with
  | none => pure networks
  | some name =>
    match Dictionary.get? name networks with
    | some d => pure [(name, d)]
    | none => throw (.noSuchNetwork name path)

/-- The network that is named, or the only one of a file. -/
def selectNetwork (path : String) (network : Option String) :
    Action m (String × Description) := do
  match ← selectNetworks p path network with
  | [] => throw (.noNetworks path)
  | [n] => pure n
  | many => throw (.severalNetworks path (many.map (·.1)))

/-! ## Compiling -/

/-- The scripts of a network. -/
def networkScripts (a : CompileArguments) (settings : Settings) (secrets : Secrets)
    (modes : List Mode) (name : String) (d : Description) :
    Except CommandError (List MachineScript) :=
  let scripts := do
    let n ← CompiledNetwork.ofDescription name d settings
    compileAll n modes secrets a.machine
  scripts.result.mapError (.network name a.input)

/-- Writes the scripts of a network; a network without any has no directory either. -/
def compileOne (a : CompileArguments) (settings : Settings) (secrets : Secrets)
    (modes : List Mode) (network : String × Description) : Action m (List MachineScript) := do
  let (name, d) := network
  let scripts ← ExceptT.mk (pure (networkScripts a settings secrets modes name d))
  unless scripts.isEmpty do
    let directory := Path.join a.out name
    guardScripts p directory scripts a.input
    writeScripts p name directory scripts
  pure scripts

/-- A script that was written, as JSON. -/
def scriptRow (s : MachineScript) : Value :=
  .obj [("file", .str s.fileName), ("machine", .str s.machine), ("mode", .str s.mode.word),
    ("units", .ofNat s.units)]

/-- Writes the scripts of networks. -/
def compile (a : CompileArguments) : Action m Unit := do
  let settings ← loadSettings p a.settings
  let secrets ← loadSecrets p a.secrets
  let networks ← selectNetworks p a.input a.network
  let modes := if a.modes.isEmpty then settings.modes else a.modes
  guardOutput p a.out a.input
  let written ← networks.mapM (compileOne p a settings secrets modes)
  let scripts := written.flatten
  match a.machine, scripts with
  | some machine, [] => throw (.unmanaged machine)
  | _, _ =>
    match a.format with
    | .text => p.printLine (scriptSummary color scripts)
    | .json => p.printLine (Value.arr (scripts.map scriptRow)).pretty

/-! ## Verifying -/

/-- The numbers of a list together. -/
def total (l : List Nat) : Nat := l.foldl (· + ·) 0

/-- Looks networks over. -/
def verifyAll (a : VerifyArguments) : Action m Unit := do
  let settings ← loadSettings p a.settings
  let networks ← selectNetworks p a.input a.network
  let reports := networks.map fun (name, d) => verify name d settings
  match a.format with
  | .text => p.printLine (Text.joinWith "\n\n" (reports.map (·.text)))
  | .json => p.printLine (Value.arr (reports.map (·.json))).pretty
  let errors := total (reports.map (·.errors))
  let warnings := total (reports.map (·.warnings))
  if 0 < errors then throw (.verifyErrors errors)
  if a.strict && 0 < warnings then throw (.verifyWarnings warnings)

/-! ## Comparing -/

/-- The tree of a script's text. -/
def scriptTree (content : ByteArray) : Except ScriptFault Script.Node :=
  match Text.decode? content with
  | none => .error .notUtf8
  | some text => (Script.parse text).mapError .malformed

/-- The tree of a script file. -/
def loadScript (path : String) : Action m Script.Node := do
  let content ← orFail (fun cause => .script path (.unreadable cause)) (p.readBytes path)
  match scriptTree content with
  | .ok n => pure n
  | .error fault => throw (.script path fault)

/-- Compares two scripts. -/
def diff (a : DiffArguments) : Action m Unit := do
  let left ← loadScript p a.left
  let right ← loadScript p a.right
  let entries := Script.diff ⟨a.all, a.ignored⟩ left right
  match a.format with
  | .text =>
    unless entries.isEmpty do
      p.printLine (Script.diffTerminalText color entries)
    if a.summary || (Script.DiffSummary.ofEntries entries).isClean then
      p.printLine (Script.diffTerminalSummary color entries)
  | .json => p.printLine (Script.diffJson entries).pretty

/-! ## Showing -/

/-- A network after all decisions. -/
def compiledNetwork (path : String) (settings : Settings) (network : String × Description) :
    Action m CompiledNetwork :=
  let (name, d) := network
  ExceptT.mk (pure
    ((CompiledNetwork.ofDescription name d settings).result.mapError (.network name path)))

/-- Shows a network. -/
def showNetwork (a : ShowArguments) : Action m Unit := do
  let settings ← loadSettings p a.settings
  let network ← selectNetwork p a.input a.network
  let n ← compiledNetwork a.input settings network
  match a.format with
  | .text => p.printText (n.overview color network.1)
  | .json => p.printLine n.json.pretty

/-! ## Running -/

/-- The program that runs a script, and its arguments. -/
def RunPlace.invocation (script : String) : RunPlace → String × List String
  | here => ("sh", ["-c", script])
  | remote host => ("ssh", host.arguments script)

/-- What the output of a script that ended well says about its units. -/
def runFault? (file output : String) : Option CommandError :=
  match RunSummary.ofOutput? output with
  | none => some (.noTotals file)
  | some s =>
    if 0 < s.fail then some (.unitsFailed file s.fail (s.pass + s.fail) s.failed) else none

/-- The managed machine of a label, with what its units depend on. -/
def managedContext? (n : CompiledNetwork) (secrets : Secrets) (label : String) :
    Option Provision.Context :=
  (managedContexts n secrets).find? fun c => c.label = label

/-- Runs a script. -/
def runScript (a : RunArguments) : Action m Unit := do
  let settings ← loadSettings p a.settings
  let secrets ← loadSecrets p a.secrets
  let network ← selectNetwork p a.input a.network
  let n ← compiledNetwork a.input settings network
  match managedContext? n secrets a.machine with
  | none => throw (.unmanagedIn a.machine network.1)
  | some c =>
    match compileMachine c [a.mode] with
    | .error fault => throw (.rendering network.1 fault)
    | .ok [] => throw .noScript
    | .ok (script :: _) => do
      let (program, arguments) := a.place.invocation script.text
      let finished ← orFail (.notStarted script.fileName program) (p.start program arguments)
      ExceptT.lift (p.print finished.output)
      if finished.status ≠ 0 then throw (.exited script.fileName finished.status)
      match runFault? script.fileName (Text.decodeLossy finished.output) with
      | some e => throw e
      | none => pure ()

/-! ## All commands -/

/-- Carries out a command. -/
def execute : Command → Action m Unit
  | .compile a => compile p color a
  | .verify a => verifyAll p a
  | .diff a => diff p color a
  | .show a => showNetwork p color a
  | .run a => runScript p a

end NetworkCompiler.CommandLine
