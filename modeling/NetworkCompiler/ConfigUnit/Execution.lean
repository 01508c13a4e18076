import NetworkCompiler.ConfigUnit.Basic
import NetworkCompiler.Mode

/-!
# Running units

What a script does with its units, as a run against any machine that can be audited and
configured (`Host`). In config mode a unit whose precondition failed is not looked at, and a unit
that fails is configured once and audited again. `Report.ofOutcomes` counts the outcomes.
-/

namespace NetworkCompiler.ConfigUnit

/-- Where a unit stands. -/
inductive State where
  | untested
  | passed
  | failed
  | configuring
  deriving DecidableEq, Repr, Inhabited

namespace State

/-- All states. -/
def all : List State := [untested, passed, failed, configuring]

/-- The word for a state. -/
def word : State → String
  | untested => "untested"
  | passed => "passed"
  | failed => "failed"
  | configuring => "configuring"

/-- The state of a word. -/
def ofWord? (w : String) : Option State :=
  all.find? fun s => s.word == w

/-- The state after an audit. -/
def ofAudit (passes : Bool) : State :=
  if passes then passed else failed

/-- Whether a unit can go from one state to another: out of `untested` to anything else, out of
`configuring` to an end. -/
def canBecome : State → State → Bool
  | untested, next => next ≠ untested
  | configuring, next => next = passed || next = failed
  | _, _ => false

end State

/-- A machine with a state of type `σ`: commands are run on it and may change it. -/
structure Host (σ : Type) where
  /-- Runs an audit; the result is its output. -/
  audit : String → StateM σ String
  /-- Runs a command that changes something. -/
  configure : String → StateM σ Unit

/-- What became of a unit. -/
structure Outcome where
  label : String
  state : State
  configured : Bool := false
  /-- The command a dry run would have run. -/
  pending : Option String := none
  deriving DecidableEq, Repr

namespace Outcome

/-- Whether the unit passed. -/
def passed (o : Outcome) : Bool :=
  o.state = .passed

end Outcome

/-! ## Runs -/

section Runs

variable {σ : Type}

/-- Whether the audit of a unit passes. -/
def check (host : Host σ) (u : ConfigUnit) : StateM σ Bool := do
  pure (u.passes (← host.audit u.audit))

/-- Whether a unit may be run after the given outcomes. The latest outcome of a label counts. -/
def ready (done : List Outcome) (u : ConfigUnit) : Bool :=
  u.precondition = proceed ||
    ((done.reverse.find? fun o => o.label = u.precondition).map Outcome.passed).getD false

/-- Audits a unit. -/
def auditStep (host : Host σ) (u : ConfigUnit) : StateM σ Outcome := do
  pure { label := u.label, state := .ofAudit (← check host u) }

/-- Audits a unit and says what would be run. -/
def dryStep (host : Host σ) (u : ConfigUnit) : StateM σ Outcome := do
  let passes ← check host u
  pure { label := u.label, state := .ofAudit passes, pending := if passes then none else u.config }

/-- Audits a unit, and if it fails configures it and audits it again. -/
def configStep (host : Host σ) (u : ConfigUnit) : StateM σ Outcome := do
  if ← check host u then
    pure { label := u.label, state := .passed }
  else
    match u.config with
    | none => pure { label := u.label, state := .failed }
    | some command => do
      host.configure command
      pure { label := u.label, state := .ofAudit (← check host u), configured := true }

/-- Runs a unit after the given outcomes. -/
def step (mode : Mode) (host : Host σ) (done : List Outcome) (u : ConfigUnit) :
    StateM σ Outcome :=
  match mode with
  | .audit => auditStep host u
  | .dryrun => dryStep host u
  | .config =>
    if ready done u then configStep host u else pure { label := u.label, state := .failed }

/-- Runs units after the given outcomes; the result is all outcomes. -/
def runFrom (mode : Mode) (host : Host σ) :
    List Outcome → List ConfigUnit → StateM σ (List Outcome)
  | done, [] => pure done
  | done, u :: us => do
    let o ← step mode host done u
    runFrom mode host (done ++ [o]) us

end Runs

/-! ## Reports -/

/-- The outcomes of a run, and how many passed and failed. -/
structure Report where
  pass : Nat
  fail : Nat
  failed : List String
  outcomes : List Outcome
  deriving DecidableEq, Repr

namespace Report

/-- Counts outcomes. -/
def ofOutcomes (outcomes : List Outcome) : Report where
  pass := (outcomes.filter Outcome.passed).length
  fail := (outcomes.filter fun o => !o.passed).length
  failed := (outcomes.filter fun o => !o.passed).map (·.label)
  outcomes := outcomes

/-- The last line a script prints. -/
def summaryLine (r : Report) : String :=
  let failed := String.join (r.failed.map fun label => " " ++ label)
  s!"pass={r.pass} fail={r.fail} failed:{failed}"

end Report

/-- Runs units on a machine. -/
def run {σ : Type} (mode : Mode) (host : Host σ) (units : List ConfigUnit) : StateM σ Report := do
  pure (Report.ofOutcomes (← runFrom mode host [] units))

end NetworkCompiler.ConfigUnit
