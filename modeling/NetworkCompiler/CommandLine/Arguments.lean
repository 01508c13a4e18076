import NetworkCompiler.Mode
import NetworkCompiler.Shell.Remote
import NetworkCompiler.Text.Numeral
import NetworkCompiler.Text.Split

/-!
# Commands

What can be asked for on the command line: compiling, verifying, comparing scripts, showing a
network and running a script. `parse` reads a `Command` from arguments.

Arguments are options (`--name value` or `--name=value`), flags without a value, and everything
else in order. `scan` sorts them by a list of the options there are; a request for help or a
mistake ends it at once. Behind `--` nothing is an option any more.
-/

namespace NetworkCompiler.CommandLine

/-! ## Sorting arguments -/

/-- An option that can be given. -/
structure OptionSpec where
  name : String
  takesValue : Bool
  /-- Whether it may be given more than once. -/
  repeatable : Bool
  /-- Whether a text can be its value. -/
  accepts : String → Bool

/-- Arguments, sorted. -/
structure Matches where
  /-- What is no option, in order. -/
  operands : List String := []
  /-- The options in order, each with its value; flags have an empty one. -/
  options : List (String × String) := []
  deriving DecidableEq, Repr

/-- Why arguments are not carried out. -/
inductive Stop where
  /-- They ask for help. -/
  | help
  /-- They make no sense. -/
  | usage
  deriving DecidableEq, Repr

namespace Matches

/-- Whether an option is given. -/
def has (m : Matches) (name : String) : Bool :=
  m.options.any fun o => o.1 = name

/-- The values of an option. -/
def values (m : Matches) (name : String) : List String :=
  (m.options.filter fun o => o.1 = name).map (·.2)

/-- The value of an option. -/
def value? (m : Matches) (name : String) : Option String :=
  (m.values name).head?

/-- Takes in an option. -/
def addOption (m : Matches) (spec : OptionSpec) (value : String) : Except Stop Matches :=
  if !spec.accepts value || (!spec.repeatable && m.has spec.name) then .error .usage
  else .ok { m with options := m.options ++ [(spec.name, value)] }

/-- Takes in what is no option; at most `limit` of these are expected, and none is empty. -/
def addOperand (m : Matches) (limit : Nat) (s : String) : Except Stop Matches :=
  if s.isEmpty || limit ≤ m.operands.length then .error .usage
  else .ok { m with operands := m.operands ++ [s] }

end Matches

/-- The name behind two hyphens, and the value behind an equals sign. -/
def longOption? (s : String) : Option (String × Option String) :=
  match Text.after? "--" s with
  | none => none
  | some body =>
    match Text.cutAt? '=' body with
    | some (name, value) => some (name, some value)
    | none => some (body, none)

/-- The letters behind a single hyphen; a hyphen alone has none and is no option. -/
def shortOptions? (s : String) : Option (List Char) :=
  match s.toList with
  | ['-'] => none
  | '-' :: letters => some letters
  | _ => none

/-- Whether an argument is an option or the end of the options. -/
def looksLikeOption (s : String) : Bool :=
  (shortOptions? s).isSome

/-- The letters that may stand behind a single hyphen: `v` says more, `h` asks for help. -/
def checkLetters : List Char → Except Stop Unit
  | [] => .ok ()
  | 'v' :: letters => checkLetters letters
  | 'h' :: _ => .error .help
  | _ => .error .usage

/-- The flags that every command knows: `verbose` says more, `help` asks for help. -/
def checkCommon (name : String) (value : Option String) : Option (Except Stop Unit) :=
  match name with
  | "help" => some (.error (if value.isSome then .usage else .help))
  | "verbose" => some (if value.isSome then .error .usage else .ok ())
  | _ => none

/-- Takes in arguments none of which is an option. -/
def scanOperands (limit : Nat) : Matches → List String → Except Stop Matches
  | m, [] => .ok m
  | m, s :: rest => do
    let m ← m.addOperand limit s
    scanOperands limit m rest

/-- Sorts arguments, with at most `limit` of them that are no options. -/
def scan (specs : List OptionSpec) (limit : Nat) : Matches → List String → Except Stop Matches
  | m, [] => .ok m
  | m, s :: rest =>
    if s = "--" then scanOperands limit m rest
    else match longOption? s with
      | some (name, value) =>
        match checkCommon name value with
        | some (.error stop) => .error stop
        | some (.ok ()) => scan specs limit m rest
        | none =>
          match specs.find? fun spec => spec.name = name with
          | none => .error .usage
          | some spec =>
            match spec.takesValue, value, rest with
            | true, some v, rest => do
              let m ← m.addOption spec v
              scan specs limit m rest
            | true, none, v :: rest => do
              if looksLikeOption v then .error .usage
              let m ← m.addOption spec v
              scan specs limit m rest
            | true, none, [] => .error .usage
            | false, some _, _ => .error .usage
            | false, none, rest => do
              let m ← m.addOption spec ""
              scan specs limit m rest
      | none =>
        match shortOptions? s with
        | some letters => do
          checkLetters letters
          scan specs limit m rest
        | none => do
          let m ← m.addOperand limit s
          scan specs limit m rest


/-! ## Commands -/

/-- How results are printed. -/
inductive OutputFormat where
  | text
  | json
  deriving DecidableEq, Repr, Inhabited

/-- The format of a word. -/
def OutputFormat.ofWord? : String → Option OutputFormat
  | "text" => some .text
  | "json" => some .json
  | _ => none

/-- Writes the scripts of networks. -/
structure CompileArguments where
  input : String
  out : String
  network : Option String
  machine : Option String
  modes : List Mode
  settings : Option String
  secrets : Option String
  format : OutputFormat
  deriving DecidableEq, Repr

/-- Looks networks over. -/
structure VerifyArguments where
  input : String
  network : Option String
  settings : Option String
  format : OutputFormat
  /-- Whether warnings count as errors. -/
  strict : Bool
  deriving DecidableEq, Repr

/-- Compares two scripts. -/
structure DiffArguments where
  left : String
  right : String
  ignored : List String
  format : OutputFormat
  summary : Bool
  all : Bool
  deriving DecidableEq, Repr

/-- Shows a network. -/
structure ShowArguments where
  input : String
  network : Option String
  settings : Option String
  format : OutputFormat
  deriving DecidableEq, Repr

/-- Where a script is run. -/
inductive RunPlace where
  | here
  | remote (host : Shell.RemoteHost)
  deriving DecidableEq, Repr

/-- Runs a script. -/
structure RunArguments where
  input : String
  network : Option String
  machine : String
  mode : Mode
  place : RunPlace
  settings : Option String
  secrets : Option String
  deriving DecidableEq, Repr

/-- Something to be done. -/
inductive Command where
  | compile (a : CompileArguments)
  | verify (a : VerifyArguments)
  | diff (a : DiffArguments)
  | show (a : ShowArguments)
  | run (a : RunArguments)
  deriving DecidableEq, Repr

/-! ## Options -/

/-- Whether a text can be a path. -/
def isPath (s : String) : Bool := !s.isEmpty

/-- The port that a text names. -/
def port? (s : String) : Option Nat :=
  ((Text.signed64? s).filter fun n => 0 ≤ n && n ≤ 65535).map Int.toNat

/-- An option with any text as its value. -/
def textOption (name : String) : OptionSpec := ⟨name, true, false, fun _ => true⟩

/-- An option that may be given several times with any text. -/
def textsOption (name : String) : OptionSpec := ⟨name, true, true, fun _ => true⟩

/-- An option with a path. -/
def pathOption (name : String) : OptionSpec := ⟨name, true, false, isPath⟩

/-- A flag. -/
def flagOption (name : String) : OptionSpec := ⟨name, false, false, fun _ => true⟩

/-- The option with the format of the output. -/
def formatOption : OptionSpec :=
  ⟨"format", true, false, fun s => (OutputFormat.ofWord? s).isSome⟩

/-- The option with a mode; `repeatable` says whether there may be several. -/
def modeOption (repeatable : Bool) : OptionSpec :=
  ⟨"mode", true, repeatable, fun s => (Mode.ofWord? s).isSome⟩

/-- The option with a port. -/
def portOption : OptionSpec := ⟨"port", true, false, fun s => (port? s).isSome⟩

namespace Matches

/-- The format that is asked for, text if none is. -/
def format (m : Matches) : OutputFormat :=
  ((m.value? "format").bind OutputFormat.ofWord?).getD .text

/-- The modes that are asked for. -/
def modes (m : Matches) : List Mode :=
  (m.values "mode").filterMap Mode.ofWord?

end Matches

/-! ## Subcommands -/

/-- A subcommand: its options, how many operands it has, and what it asks for. -/
structure Subcommand where
  name : String
  options : List OptionSpec
  operands : Nat
  build : Matches → Option Command

/-- Writes scripts. -/
def compileSubcommand : Subcommand where
  name := "compile"
  options := [pathOption "out", textOption "network", textOption "machine", modeOption true,
    pathOption "settings", pathOption "secrets", formatOption]
  operands := 1
  build m := do
    let input ← m.operands.head?
    let out ← m.value? "out"
    pure (.compile ⟨input, out, m.value? "network", m.value? "machine", m.modes,
      m.value? "settings", m.value? "secrets", m.format⟩)

/-- Looks networks over. -/
def verifySubcommand : Subcommand where
  name := "verify"
  options := [textOption "network", pathOption "settings", formatOption, flagOption "strict"]
  operands := 1
  build m := do
    let input ← m.operands.head?
    pure (.verify ⟨input, m.value? "network", m.value? "settings", m.format, m.has "strict"⟩)

/-- Compares scripts. -/
def diffSubcommand : Subcommand where
  name := "diff"
  options := [textsOption "ignore", formatOption, flagOption "summary", flagOption "all"]
  operands := 2
  build m :=
    match m.operands with
    | [left, right] =>
      some (.diff ⟨left, right, m.values "ignore", m.format, m.has "summary", m.has "all"⟩)
    | _ => none

/-- Shows a network. -/
def showSubcommand : Subcommand where
  name := "show"
  options := [textOption "network", pathOption "settings", formatOption]
  operands := 1
  build m := do
    let input ← m.operands.head?
    pure (.show ⟨input, m.value? "network", m.value? "settings", m.format⟩)

/-- Where a script is to be run: on the host that is named, or here, but not both. -/
def placeOf? (m : Matches) : Option RunPlace :=
  match m.value? "host", m.has "local" with
  | some host, false =>
    some (.remote ⟨host, m.value? "user", (m.value? "port").bind port?, m.values "ssh-option"⟩)
  | none, true => some .here
  | _, _ => none

/-- Runs a script. -/
def runSubcommand : Subcommand where
  name := "run"
  options := [textOption "network", textOption "machine", modeOption false, textOption "host",
    textOption "user", portOption, textsOption "ssh-option", flagOption "local",
    pathOption "settings", pathOption "secrets"]
  operands := 1
  build m := do
    let input ← m.operands.head?
    let machine ← m.value? "machine"
    let place ← placeOf? m
    pure (.run ⟨input, m.value? "network", machine, m.modes.headD .audit, place,
      m.value? "settings", m.value? "secrets"⟩)

/-- All subcommands. -/
def subcommands : List Subcommand :=
  [compileSubcommand, verifySubcommand, diffSubcommand, showSubcommand, runSubcommand]

/-! ## Reading -/

/-- Reads the arguments of a subcommand. -/
def Subcommand.parse (c : Subcommand) (arguments : List String) : Except Stop Command :=
  match scan c.options c.operands {} arguments with
  | .error stop => .error stop
  | .ok m =>
    match c.build m with
    | some command => .ok command
    | none => .error .usage

/-- What `help` is asked for: nothing, or one subcommand. -/
def helpStop : List String → Stop
  | [] => .help
  | [name] => if ("help" :: subcommands.map (·.name)).contains name then .help else .usage
  | _ => .usage

/-- Reads a command. -/
def parse : List String → Except Stop Command
  | [] => .error .usage
  | s :: rest =>
    if s = "help" then .error (helpStop rest)
    else match subcommands.find? fun c => c.name = s with
      | some c => c.parse rest
      | none =>
        match longOption? s with
        | some (name, value) =>
          match checkCommon name value with
          | some (.error stop) => .error stop
          | some (.ok ()) => parse rest
          | none => .error .usage
        | none =>
          match shortOptions? s with
          | some letters => do
            checkLetters letters
            parse rest
          | none => .error .usage

end NetworkCompiler.CommandLine
