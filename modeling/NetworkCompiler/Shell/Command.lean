import NetworkCompiler.ConfigUnit.Basic
import NetworkCompiler.Script.Node
import NetworkCompiler.Shell.Word

/-!
# Commands of scripts

The small part of the shell language that scripts are written in: assignments to a handful of
variables, audits whose output is captured, tests, branches and messages. `Command.nodes` writes
a command as nodes of a script tree.
-/

namespace NetworkCompiler.Shell

/-- A variable of a script. -/
inductive Variable where
  /-- How many units passed. -/
  | pass
  /-- How many units failed. -/
  | fail
  /-- The labels of the units that failed. -/
  | failed
  /-- The precondition that always holds. -/
  | proceed
  /-- Whether the unit of a label passed. -/
  | unit (label : String)
  deriving DecidableEq, Repr

namespace Variable

/-- The variable of a precondition. -/
def ofPrecondition (label : String) : Variable :=
  if label = NetworkCompiler.proceed then proceed else unit label

/-- The name of a variable. -/
def name : Variable → String
  | pass => "pass"
  | fail => "fail"
  | failed => "fail_string"
  | proceed => NetworkCompiler.proceed
  | unit label => "u_" ++ label

end Variable

/-- The variable that holds the output of an audit. -/
def outputName : String := "nc_out"

/-- A command of a script. -/
inductive Command where
  /-- Looks up the name of the machine. -/
  | lookUpHost
  /-- Sets a variable to a digit. -/
  | setDigit (v : Variable) (digit : Nat)
  /-- Empties a variable. -/
  | clear (v : Variable)
  /-- Runs an audit and keeps its output. -/
  | capture (audit : String)
  /-- Sets a variable to 1 if the output kept last passes, else to 0. -/
  | judge (v : Variable) (polarity : Polarity) (expected : String)
  /-- Runs a command. -/
  | configure (command : String)
  /-- Adds one to a variable. -/
  | increment (v : Variable)
  /-- Appends a label to the labels of the units that failed. -/
  | noteFailure (label : String)
  /-- Prints a text. -/
  | say (text : String)
  /-- Prints a text and the name of the machine behind it. -/
  | greet (text : String)
  /-- Prints a text of any form. -/
  | print (text : String)
  /-- Prints the totals. -/
  | summary
  /-- Runs commands if a variable is 0. -/
  | whenZero (v : Variable) (body : List Command)
  /-- Runs the first commands if a variable is 1, else the second. -/
  | ifOne (v : Variable) (yes no : List Command)

namespace Command

open Script (Node)

/-- The comparison of an output with what is expected. -/
def comparison : Polarity → String
  | .passOnEqual => "="
  | .passOnNotEqual => "!="

/-- Appends to a variable of text. -/
def appendText (v : Variable) (text : String) : String :=
  v.name ++ "=\"$" ++ v.name ++ text ++ "\""

/-- The text of a command on one line. -/
def judgeText (v : Variable) (polarity : Polarity) (expected : String) : String :=
  "if [ \"$" ++ outputName ++ "\" " ++ comparison polarity ++ " " ++ quote expected ++
    " ]; then " ++ v.name ++ "=1; else " ++ v.name ++ "=0; fi"

/-- The line that opens a branch. -/
def testText (v : Variable) (digit : Nat) : String :=
  "if [ \"$" ++ v.name ++ "\" = " ++ toString digit ++ " ]; then"

/-- The first half of a branch with two halves, which has no closing line of its own. -/
def openBlock (first : String) (children : List Node) : Node :=
  { kind := .block, text := some first, children := children }

mutual

/-- A command as nodes of a script. -/
def nodes : Command → List Node
  | lookUpHost => [.line "hostname=$(hostname)"]
  | setDigit v digit => [.line (v.name ++ "=" ++ toString digit)]
  | clear v => [.line (v.name ++ "=\"\"")]
  | capture audit => [.line (outputName ++ "=$( \x7b " ++ audit ++ "; \x7d 2>/dev/null )")]
  | judge v polarity expected => [.line (judgeText v polarity expected)]
  | configure command => [.line command]
  | increment v => [.line (v.name ++ "=$((" ++ v.name ++ " + 1))")]
  | noteFailure label => [.line (appendText .failed (" " ++ label))]
  | say text => [.line ("echo " ++ quote text)]
  | greet text => [.line ("echo " ++ quote text ++ "\"$hostname\"")]
  | print text => [.line ("printf '%s\\n' " ++ quote text)]
  | summary => [.line "echo \"pass=$pass fail=$fail failed:$fail_string\""]
  | whenZero v body => [.block (testText v 0) "fi" (nodesOf body)]
  | ifOne v yes no => [openBlock (testText v 1) (nodesOf yes), .block "else" "fi" (nodesOf no)]

/-- A list of commands as nodes. -/
def nodesOf : List Command → List Node
  | [] => []
  | c :: cs => nodes c ++ nodesOf cs

end

end Command

end NetworkCompiler.Shell
