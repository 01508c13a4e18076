import NetworkCompiler.Shell.Condition
import NetworkCompiler.Shell.Expansion
import NetworkCompiler.Shell.Printf

/-!
# Commands of the shell itself

The commands that need no statement to be run: output, input, variables, arguments, files and
signals. `builtin?` finds one by its name; each gives its status.
-/

namespace NetworkCompiler.Shell.Builtin

open Run

/-- Writes to the output, and gives the status. -/
def output (s : String) : Run Nat := do
  pure (if ← writeTo 1 s then 0 else 1)

/-! ## Output -/

/-- Prints its arguments, with escapes replaced, on a line unless the first is `-n`. -/
def echo (arguments : List String) : Run Nat := do
  let (ending, arguments) := match arguments with
    | "-n" :: rest => ("", rest)
    | rest => ("\n", rest)
  let (s, stop) := escapedText (Text.joinWith " " arguments)
  output (if stop then s else s ++ ending)

/-- Prints its arguments as the first of them says. -/
def printf (arguments : List String) : Run Nat := do
  let arguments := match arguments with
    | "--" :: rest => rest
    | rest => rest
  match arguments with
  | [] => fault
  | format :: rest =>
    match printFormat format rest with
    | none => fault
    | some (s, good) =>
      let status ← output s
      pure (if good then status else 1)

/-- Copies the files of its arguments, or the input, to the output. -/
def copy (arguments : List String) : Run Nat := do
  let take : Run (Option String) := do
    let s ← unread? 0
    setUnread 0 ""
    pure s
  match arguments with
  | [] =>
    match ← take with
    | some s => output s
    | none => pure 1
  | paths =>
    let mut status := 0
    for path in paths do
      match ← if path = "-" then take else content? path with
      | some s => if (← output s) ≠ 0 then status := 1
      | none => status := 1
    pure status

/-! ## Input -/

/-- A line without its escapes, each character with whether it was escaped; whether the line was
ended; what follows it. -/
def readLine (raw : Bool) : List Char → List PatternChar × Bool × List Char
  | [] => ([], false, [])
  | '\n' :: cs => ([], true, cs)
  | '\\' :: c :: cs =>
    if raw then
      let (l, e, r) := readLine raw (c :: cs)
      (('\\', false) :: l, e, r)
    else
      let (l, e, r) := readLine raw cs
      (if c = '\n' then l else (c, true) :: l, e, r)
  | c :: cs =>
    let (l, e, r) := readLine raw cs
    (if c = '\x00' || (c = '\\' && !raw) then l else (c, false) :: l, e, r)

/-- Whether a character parts words and is a blank. -/
def isBlankSeparator (separators : List Char) (c : PatternChar) : Bool :=
  !c.2 && c.1 ∈ separators && c.1 ∈ [' ', '\t', '\n']

/-- Whether a character parts words. -/
def isSeparator (separators : List Char) (c : PatternChar) : Bool :=
  !c.2 && c.1 ∈ separators

/-- A text without the blanks in front. -/
def dropBlanks (separators : List Char) (cs : List PatternChar) : List PatternChar :=
  cs.dropWhile (isBlankSeparator separators)

/-- What the last of some names gets of the rest of a line: a separator behind its only word is
dropped, and so are blanks. -/
def lastValue (separators : List Char) (cs : List PatternChar) : String :=
  let trim (cs : List PatternChar) := (dropBlanks separators cs.reverse).reverse
  let cs := trim cs
  let word := cs.takeWhile fun c => !isSeparator separators c
  let rest := dropBlanks separators (cs.drop word.length)
  let cs := if rest.length = 1 && rest.all (isSeparator separators) then word else cs
  String.ofList (cs.map (·.1))

/-- Gives names the words of a line. -/
def assignWords (separators : List Char) : List String → List PatternChar → Run Unit
  | [], _ => pure ()
  | [name], cs => assign name (lastValue separators (dropBlanks separators cs))
  | name :: names, cs => do
    let cs := dropBlanks separators cs
    let word := cs.takeWhile fun c => !isSeparator separators c
    assign name (String.ofList (word.map (·.1)))
    let rest := dropBlanks separators (cs.drop word.length)
    let rest := match rest with
      | c :: cs => if isSeparator separators c then dropBlanks separators cs else c :: cs
      | [] => []
    assignWords separators names rest

/-- Reads a line into variables. -/
def read (arguments : List String) : Run Nat := do
  let (raw, names) := match arguments with
    | "-r" :: rest => (true, rest)
    | rest => (false, rest)
  if names.isEmpty || !names.all isName then fault
  match ← unread? 0 with
  | none => pure 1
  | some s =>
    let (line, complete, rest) := readLine raw s.toList
    setUnread 0 (String.ofList rest)
    assignWords (← separators) names line
    pure (if complete then 0 else 1)

/-! ## Variables and arguments -/

/-- Does something with each name and the value given with it. -/
def withEach (arguments : List String) (action : String → Option String → Run Unit) :
    Run Nat := do
  for a in arguments do
    let (name, value) := match Text.cutAt? '=' a with
      | some (name, value) => (name, some value)
      | none => (a, none)
    if !isName name then fatal
    action name value
  pure 0

/-- Gives variables values that go to other programs too. -/
def exportVariables (arguments : List String) : Run Nat := do
  if arguments.head? = some "-p" then return 0
  withEach arguments fun name value => value.forM (assign name)

/-- Gives variables values that stay. -/
def readonly (arguments : List String) : Run Nat := do
  if arguments.head? = some "-p" then return 0
  withEach arguments fun name value => do
    value.forM (assign name)
    modify fun p => { p with readonly := name :: p.readonly }

/-- Gives variables values that go with the function. -/
def localVariables (arguments : List String) : Run Nat := do
  match (← get).locals with
  | [] => fatal
  | _ =>
    withEach arguments fun name value => do
      let before ← valueOf? name
      modify fun p => { p with locals := match p.locals with
        | frame :: frames => ((name, before) :: frame) :: frames
        | [] => [] }
      value.forM (assign name)

/-- Takes variables or functions away. -/
def unsetNames (arguments : List String) : Run Nat := do
  match arguments with
  | "-f" :: names =>
    modify fun p => { p with functions := p.functions.filter fun f => f.1 ∉ names }
  | names =>
    let names := if names.head? = some "-v" then names.drop 1 else names
    names.forM fun name => if isName name then unset name else fatal
  pure 0

/-- Drops arguments in front. -/
def shift (arguments : List String) : Run Nat := do
  let n ← match arguments with
    | [] => pure 1
    | a :: _ => match Text.Chars.natural? a.toList with
      | some n => pure n
      | none => fatal
  let p ← get
  if n > p.arguments.length then fatal
  set { p with arguments := p.arguments.drop n }
  pure 0

/-- Turns an option on or off. -/
def setOption (on : Bool) (c : Char) : Run Unit :=
  match c with
  | 'e' => modify fun p => { p with exitsOnFailure := on }
  | 'u' => modify fun p => { p with needsValues := on }
  | c => if c ∈ ['a', 'b', 'C', 'f', 'h', 'm', 'n', 'v', 'x'] then pure () else fatal

/-- The letter of an option that is named. -/
def optionLetter? (name : String) : Option Char :=
  [("errexit", 'e'), ("nounset", 'u'), ("allexport", 'a'), ("noglob", 'f'), ("noclobber", 'C'),
    ("verbose", 'v'), ("xtrace", 'x'), ("notify", 'b'), ("monitor", 'm')].lookup name

/-- Sets options and arguments. -/
def setArguments : List String → Run Nat
  | [] => pure 0
  | "--" :: rest => do
    modify fun p => { p with arguments := rest }
    pure 0
  | a :: rest => do
    match a.toList with
    | sign :: c :: cs =>
      if sign = '-' || sign = '+' then
        if c = 'o' && cs.isEmpty then
          match rest with
          | [] => pure 0
          | name :: rest =>
            match optionLetter? name with
            | some c =>
              setOption (sign = '-') c
              setArguments rest
            | none => fatal
        else
          (c :: cs).forM (setOption (sign = '-'))
          setArguments rest
      else
        modify fun p => { p with arguments := a :: rest }
        pure 0
    | _ =>
      modify fun p =>
        { p with arguments :=
            if a ≠ "-" then a :: rest else if rest.isEmpty then p.arguments else rest }
      pure 0

/-! ## Directories -/

/-- Goes to a directory. -/
def changeDirectory (arguments : List String) : Run Nat := do
  let arguments := arguments.filter fun a => a ∉ ["--", "-L", "-P"]
  match arguments with
  | [a] =>
    let path ← absolute a
    if a = "." then pure 0
    else if path ∈ directories then
      modify fun p => { p with directory := path }
      assign "PWD" path
      pure 0
    else fault
  | _ => fault

/-- Prints the directory. -/
def printDirectory : Run Nat := do
  output ((← get).directory ++ "\n")

/-! ## Signals -/

/-- The signals of the system and their numbers. -/
def signals : List (String × Nat) :=
  [("EXIT", 0), ("HUP", 1), ("INT", 2), ("QUIT", 3), ("ILL", 4), ("TRAP", 5), ("ABRT", 6),
    ("BUS", 7), ("FPE", 8), ("KILL", 9), ("USR1", 10), ("SEGV", 11), ("USR2", 12), ("PIPE", 13),
    ("ALRM", 14), ("TERM", 15), ("STKFLT", 16), ("CHLD", 17), ("CONT", 18), ("STOP", 19),
    ("TSTP", 20), ("TTIN", 21), ("TTOU", 22), ("URG", 23), ("XCPU", 24), ("XFSZ", 25),
    ("VTALRM", 26), ("PROF", 27), ("WINCH", 28), ("POLL", 29), ("PWR", 30), ("SYS", 31)]

/-- The name of a signal that is given by name or number. -/
def signalName? (s : String) : Option String :=
  match Text.Chars.natural? s.toList with
  | some n => (signals.find? (·.2 = n)).map (·.1)
  | none =>
    let name := String.ofList (s.toList.map Char.toUpper)
    let name := (Text.after? "SIG" name).getD name
    (signals.find? (·.1 = name)).map (·.1)

/-- Signals that end no program. -/
def harmlessSignals : List String := ["CHLD", "CONT", "URG", "WINCH"]

/-- What a signal to the shell calls for: the action of a trap. -/
def receive (signal : String) : Run (Option String) := do
  if signal = "EXIT" then return none
  match (← get).traps.lookup signal with
  | some action => if signal = "KILL" then throw .killed else pure (some action)
  | none => if signal ∈ harmlessSignals then pure none else throw .killed

/-- The signal and the programs of a request to send one. -/
def signalRequest? (arguments : List String) : Option (String × List String) :=
  match arguments with
  | "-s" :: name :: rest => (signalName? name).map (·, rest)
  | "--" :: rest => some ("TERM", rest)
  | a :: rest =>
    match Text.after? "-" a with
    | some name => (signalName? name).map (·, rest)
    | none => some ("TERM", a :: rest)
  | [] => none

/-! ## By name -/

/-- The command of a name. -/
def builtin? (name : String) : Option (List String → Run Nat) :=
  match name with
  | ":" => some fun _ => pure 0
  | "true" => some fun _ => pure 0
  | "false" => some fun _ => pure 1
  | "echo" => some echo
  | "printf" => some printf
  | "cat" => some copy
  | "read" => some read
  | "test" => some fun ws => return if ← Condition.holds ws then 0 else 1
  | "[" => some fun ws => do
    if ws.getLast? ≠ some "]" then fault
    return if ← Condition.holds ws.dropLast then 0 else 1
  | "export" => some exportVariables
  | "readonly" => some readonly
  | "local" => some localVariables
  | "unset" => some unsetNames
  | "shift" => some shift
  | "set" => some setArguments
  | "cd" => some changeDirectory
  | "pwd" => some fun _ => printDirectory
  | "hash" => some fun _ => pure 0
  | "umask" => some fun ws => if ws.isEmpty then output "0022\n" else pure 0
  | _ => none

/-- Commands whose faults end the shell, and whose assignments stay. -/
def isSpecial (name : String) : Bool :=
  name ∈ [":", "export", "readonly", "unset", "shift", "set", "local", "break", "continue", "eval",
    "exec", "exit", "return", "trap", ".", "times"]

end NetworkCompiler.Shell.Builtin
