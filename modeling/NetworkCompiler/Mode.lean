import NetworkCompiler.Text.Numeral
import NetworkCompiler.Text.Split

/-!
# Modes of a script

What a script does with its units: check them, check and mend them, or check them and say what
mending would run.
-/

namespace NetworkCompiler

/-- A mode of a script. -/
inductive Mode where
  /-- Check every unit, change nothing. -/
  | audit
  /-- Check, mend what failed, check again. -/
  | config
  /-- Check, and print what would be run to mend. -/
  | dryrun
  deriving DecidableEq, Repr, Inhabited

namespace Mode

/-- All modes. -/
def all : List Mode :=
  [audit, config, dryrun]

/-- The word for a mode. -/
def word : Mode → String
  | audit => "audit"
  | config => "config"
  | dryrun => "dryrun"

instance : ToString Mode := ⟨word⟩

/-- The mode of exactly this word. -/
def ofWord? (w : String) : Option Mode :=
  all.find? fun m => m.word == w

/-- The mode of a word, in any case and with blanks around it. -/
def ofText? (s : String) : Option Mode :=
  ofWord? (Text.lowercase (Text.trim s))

end Mode

end NetworkCompiler
