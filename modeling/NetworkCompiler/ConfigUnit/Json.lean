import NetworkCompiler.ConfigUnit.Execution
import NetworkCompiler.Network.GraphJson

/-!
# Units as JSON

The serialised form of units and of the reports of their runs.
-/

namespace NetworkCompiler.ConfigUnit

open NetworkCompiler.Json (Value)

/-- The serialised form of a unit. -/
def json (u : ConfigUnit) : Value :=
  .obj [
    ("label", .str u.label),
    ("precondition", .str u.precondition),
    ("audit", .str u.audit),
    ("config", .ofText? u.config),
    ("expected", .str u.expected),
    ("polarity", .str u.polarity.word),
    ("message", .str u.message)]

/-- The serialised form of an outcome. -/
def Outcome.json (o : Outcome) : Value :=
  .obj [
    ("label", .str o.label),
    ("state", .str o.state.word),
    ("configured", .bool o.configured),
    ("pending", .ofText? o.pending)]

/-- The serialised form of a report. -/
def Report.json (r : Report) : Value :=
  .obj [
    ("pass", .ofNat r.pass),
    ("fail", .ofNat r.fail),
    ("failed", .ofTexts r.failed),
    ("outcomes", .arr (r.outcomes.map Outcome.json))]

end NetworkCompiler.ConfigUnit
