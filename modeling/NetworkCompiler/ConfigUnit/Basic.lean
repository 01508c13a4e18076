import NetworkCompiler.Failure
import NetworkCompiler.Text.Numeral

/-!
# Units of configuration

A `ConfigUnit` is one fact about a machine that can be checked: an audit command, the output it
should have, and perhaps a command that makes the fact true. A unit may depend on another one
that has to pass before it.

The label of a unit becomes part of the name of a shell variable, so it has to be an identifier
(`isIdentifier`). `identifier` folds any text into letters, digits and underscores, `key` drops
the underscores that say nothing from it.

A list of units can be run in its order if every label is an identifier of its own and every
precondition is met before it is needed. `checkUnits` reports the first unit for which this
fails.
-/

/-! ## Labels -/

namespace NetworkCompiler.ConfigUnit

/-- Whether a character may stand in an identifier. -/
def isIdentifierChar (c : Char) : Bool :=
  c.isAlphanum || c = '_'

/-- Whether a text is an identifier of the shell. -/
def isIdentifier (s : String) : Bool :=
  match s.toList with
  | [] => false
  | c :: cs => (c.isAlpha || c = '_') && cs.all isIdentifierChar

/-- A letter in lower case, a digit, or an underscore for anything else. -/
def foldChar (c : Char) : Char :=
  if c.isAlphanum then c.toLower else '_'

/-- A text as an identifier: no digit stands in front. -/
def identifier (s : String) : String :=
  match s.toList.map foldChar with
  | [] => "_"
  | c :: cs => String.ofList (if c.isDigit then '_' :: c :: cs else c :: cs)

/-- The words of a text with single underscores between them. -/
def key (s : String) : String :=
  Text.joinWith "_" ((Text.splitAt '_' (identifier s)).filter fun w => w ≠ "")

end NetworkCompiler.ConfigUnit

/-! ## Units -/

namespace NetworkCompiler

/-- How the output of an audit is judged. -/
inductive Polarity where
  | passOnEqual
  | passOnNotEqual
  deriving DecidableEq, Repr, Inhabited

namespace Polarity

/-- The word for a polarity. -/
def word : Polarity → String
  | passOnEqual => "pass-on-equal"
  | passOnNotEqual => "pass-on-not-equal"

/-- Whether an output passes. -/
def passes (p : Polarity) (output expected : String) : Bool :=
  match p with
  | passOnEqual => output = expected
  | passOnNotEqual => output ≠ expected

end Polarity

/-- The precondition that always holds. -/
def proceed : String := "proceed"

/-- A fact about a machine. -/
structure ConfigUnit where
  label : String
  /-- The unit that has to pass first. -/
  precondition : String := proceed
  audit : String
  /-- Makes the fact true; a unit without it can only be observed. -/
  config : Option String
  expected : String
  polarity : Polarity := .passOnEqual
  /-- What is said when the unit fails. -/
  message : String
  deriving DecidableEq, Repr

namespace ConfigUnit

/-- What is said when a unit fails, unless it has words of its own. -/
def defaultMessage (label : String) : String :=
  label ++ " not satisfied"

/-- A unit that can be mended by `config`. -/
def new (label audit expected config : String) : ConfigUnit :=
  { label := label, audit := audit, config := some config, expected := expected,
    message := defaultMessage label }

/-- A unit that can only be observed. -/
def singleton (label audit expected : String) : ConfigUnit :=
  { label := label, audit := audit, config := none, expected := expected,
    message := defaultMessage label }

/-- The unit behind another one. -/
def after (u : ConfigUnit) (precondition : String) : ConfigUnit :=
  { u with precondition := precondition }

/-- The unit with words for its failure. -/
def saying (u : ConfigUnit) (message : String) : ConfigUnit :=
  { u with message := message }

/-- Whether a unit can only be observed. -/
def isSingleton (u : ConfigUnit) : Bool :=
  u.config.isNone

/-- Whether an output is the one a unit wants. -/
def passes (u : ConfigUnit) (output : String) : Bool :=
  u.polarity.passes output u.expected

end ConfigUnit

end NetworkCompiler

/-! ## Legal lists of units -/

namespace NetworkCompiler.ConfigUnit

/-- The section in front of the units of a script. -/
def headerName : String := "header"

/-- The section behind the units of a script. -/
def footerName : String := "footer"

/-- Labels that no unit may have. -/
def reservedLabels : List String := [proceed, headerName, footerName]

/-- Whether a unit may have a label. -/
def isUnitLabel (label : String) : Bool :=
  isIdentifier label && !reservedLabels.contains label

/-- What is wrong with a unit behind units of the labels `seen`. -/
def fault? (machine : String) (seen : List String) (u : ConfigUnit) : Option CompileError :=
  if !isUnitLabel u.label then some (.invalidUnitLabel machine u.label)
  else if u.precondition ≠ proceed && !seen.contains u.precondition then
    some (.preconditionNotRendered machine u.label u.precondition)
  else if seen.contains u.label then some (.duplicateUnit machine u.label)
  else none

/-- Holds a list of units behind units of the labels `seen` against the rules. -/
def checkFrom (machine : String) : List String → List ConfigUnit → Except CompileError Unit
  | _, [] => .ok ()
  | seen, u :: us =>
    match fault? machine seen u with
    | some e => .error e
    | none => checkFrom machine (u.label :: seen) us

/-- Holds a list of units against the rules; the error is that of the first unit that breaks
one. -/
def checkUnits (machine : String) (units : List ConfigUnit) : Except CompileError Unit :=
  checkFrom machine [] units

end NetworkCompiler.ConfigUnit
