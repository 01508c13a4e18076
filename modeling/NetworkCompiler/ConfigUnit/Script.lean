import NetworkCompiler.ConfigUnit.Basic
import NetworkCompiler.Mode
import NetworkCompiler.Script.Printer
import NetworkCompiler.Shell.Command

/-!
# Scripts of units

A list of units as a shell script: a header that sets the counters, one section per unit, and a
footer that prints the totals. Every section says behind which unit it stands. `scriptOf` writes
only lists that can be run in their order.
-/

namespace NetworkCompiler.ConfigUnit

open Script (Node)
open Shell (Command Variable)

/-! ## Commands of a unit -/

/-- The variable that tells whether a unit passed. -/
def resultVariable (u : ConfigUnit) : Variable :=
  .ofPrecondition u.label

/-- Audits a unit. -/
def auditCommands (u : ConfigUnit) : List Command :=
  [.capture u.audit, .judge u.resultVariable u.polarity u.expected]

/-- Counts the result of a unit. -/
def tally (u : ConfigUnit) : Command :=
  .ifOne u.resultVariable
    [.increment .pass, .say ("PASSED: " ++ u.label)]
    [.increment .fail, .noteFailure u.label, .say ("FAILED: " ++ u.label ++ ": " ++ u.message)]

/-- Says what would be run for a unit that failed. -/
def pendingCommands (u : ConfigUnit) : List Command :=
  match u.config with
  | none => []
  | some command =>
    [.whenZero u.resultVariable [.say ("WOULD RUN: " ++ u.label), .print command]]

/-- Configures a unit that failed and audits it again. -/
def mendCommands (u : ConfigUnit) : List Command :=
  match u.config with
  | none => []
  | some command =>
    [.whenZero u.resultVariable
      ([.say ("CONFIGURING: " ++ u.label), .configure command] ++ u.auditCommands)]

/-- Leaves a unit alone whose precondition failed. -/
def skipCommands (u : ConfigUnit) : List Command :=
  [.setDigit u.resultVariable 0,
    .say ("SKIPPED: " ++ u.label ++ ": " ++ u.precondition ++ " did not pass")]

/-- What a script does with a unit before it counts the result. -/
def modeCommands (mode : Mode) (u : ConfigUnit) : List Command :=
  match mode with
  | .audit => u.auditCommands
  | .dryrun => u.auditCommands ++ u.pendingCommands
  | .config =>
    [.ifOne (.ofPrecondition u.precondition) (u.auditCommands ++ u.mendCommands) u.skipCommands]

/-- Everything a script does with a unit. -/
def commands (mode : Mode) (u : ConfigUnit) : List Command :=
  u.modeCommands mode ++ [u.tally]

/-! ## Sections -/

/-- The commands in front of the units. -/
def headerCommands (machine : String) (mode : Mode) : List Command :=
  [.lookUpHost, .setDigit .pass 0, .setDigit .fail 0, .clear .failed, .setDigit .proceed 1,
    .greet s!"{mode} {machine} on "]

/-- The section in front of the units. -/
def header (machine : String) (mode : Mode) : Node :=
  .sect headerName [("machine", machine), ("mode", mode.word)]
    (.comment s!"{machine}: {mode} script" :: Command.nodesOf (headerCommands machine mode))

/-- What the section of a unit says about it. -/
def attributes (u : ConfigUnit) : List (String × String) :=
  ("after", u.precondition) :: if u.isSingleton then [("singleton", "yes")] else []

/-- The section of a unit. -/
def unitSection (mode : Mode) (u : ConfigUnit) : Node :=
  .sect u.label u.attributes (Command.nodesOf (u.commands mode))

/-- The section behind the units. -/
def footer : Node :=
  .sect footerName [] (Command.nodesOf [.summary])

/-- The script of a machine. -/
def scriptTree (machine : String) (units : List ConfigUnit) (mode : Mode) : Node :=
  .document (some "#!/bin/sh")
    (header machine mode :: (units.map (unitSection mode) ++ [footer]))

/-- The script of a machine, if its units can be run in their order. -/
def scriptOf (machine : String) (units : List ConfigUnit) (mode : Mode) :
    Except CompileError Node := do
  checkUnits machine units
  pure (scriptTree machine units mode)

end NetworkCompiler.ConfigUnit
