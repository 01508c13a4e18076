import NetworkCompiler.Ipv4.Block
import NetworkCompiler.Mac
import NetworkCompiler.Role
import NetworkCompiler.Terminal.Style
import NetworkCompiler.Text.Visible
import NetworkCompiler.Traffic

/-!
# Events

What a compilation reports while it runs, as values. `Event.line` writes one on a line: a symbol
for its level, its message, and its fields as `name=value`. `eventLog` writes those at or above a
level.

A traced result is the result of a computation together with the events it reported, which are kept
when it fails. `result_bind` says that the results alone compose as results do, so a statement
about results can forget the events.
-/

namespace NetworkCompiler

open Ipv4 (Address Block)

/-- How much an event matters, least first. -/
inductive Level where
  | debug
  | info
  | warn
  deriving DecidableEq, Repr, Inhabited

namespace Level

/-- The rank of a level. -/
def rank : Level → Nat
  | debug => 0
  | info => 1
  | warn => 2

/-- The word for a level. -/
def word : Level → String
  | debug => "debug"
  | info => "info"
  | warn => "warn"

/-- The level of a word. -/
def ofWord? (w : String) : Option Level :=
  [debug, info, warn].find? fun l => l.word == w

/-- The symbol at the front of a line. -/
def symbol : Level → String
  | debug => "[?]"
  | info => "[+]"
  | warn => "[*]"

/-- The style of the symbol. -/
def style : Level → Terminal.Style
  | debug => .blue
  | info => .boldGreen
  | warn => .boldYellow

end Level

/-- Something that happened during a compilation. -/
inductive Event where
  | graphBuilt (network : String) (machines : Nat)
  | vlanSkipped (role : Role)
  | subnetAllocated (role : Role) (net : Block) (vlan : Nat)
  | macGenerated (label iface : String) (mac : Mac)
  | addressAssigned (label iface : String) (address : Address) (explicit : Bool)
  | topologyResolved (network : String) (subnets addresses : Nat)
  | ruleSkipped (label field : String) (table : RuleTable)
  | redirectSkipped (label : String)
  | rulesResolved (label : String) (chains : List String)
  | passesComplete (network : String) (machines : Nat)
  | compiled (machine : String) (units : Nat)
  deriving DecidableEq

namespace Event

/-- How much an event matters. -/
def level : Event → Level
  | topologyResolved .. | compiled .. => .info
  | ruleSkipped .. | redirectSkipped .. => .warn
  | _ => .debug

/-- What an event says. -/
def message : Event → String
  | graphBuilt .. => "built machine graph"
  | vlanSkipped .. => "no members, skipping VLAN"
  | subnetAllocated .. => "allocated subnet"
  | macGenerated .. => "generated MAC"
  | addressAssigned .. => "assigned address"
  | topologyResolved .. => "topology resolved"
  | ruleSkipped .. => "rule endpoint has no address, skipping"
  | redirectSkipped .. => "machine has no LAN address, skipping DNAT"
  | rulesResolved .. => "resolved firewall rules"
  | passesComplete .. => "global passes complete"
  | compiled .. => "compiled"

/-- The fields of an event, each with its written value. -/
def fields : Event → List (String × String)
  | graphBuilt network machines =>
    [("network", Text.quoted network), ("machines", toString machines)]
  | vlanSkipped role => [("machine_type", role.word)]
  | subnetAllocated role net vlan =>
    [("machine_type", role.word), ("net", net.text), ("vlan", toString vlan)]
  | macGenerated label iface mac => [("label", label), ("iface", iface), ("mac", mac.text)]
  | addressAssigned label iface address explicit =>
    [("label", label), ("iface", iface), ("address", address.text),
      ("explicit", if explicit then "true" else "false")]
  | topologyResolved network subnets addresses =>
    [("network", network), ("subnets", toString subnets), ("addresses", toString addresses)]
  | ruleSkipped label field table =>
    [("label", label), ("field", Text.quoted field), ("table", table.word)]
  | redirectSkipped label => [("label", label)]
  | rulesResolved label chains =>
    [("label", label), ("chains", "[" ++ Text.joinWith ", " (chains.map Text.quoted) ++ "]")]
  | passesComplete network machines =>
    [("network", Text.quoted network), ("machines", toString machines)]
  | compiled machine units => [("machine", machine), ("units", toString units)]

/-- An event on one line. -/
def line (color : Bool) (e : Event) : String :=
  let fields := String.join (e.fields.map fun (k, v) => s!" {k}={v}")
  s!"{e.level.style.paint color e.level.symbol} {e.message}{fields}"

end Event

/-- The lines of the events that are at or above a level. -/
def eventLog (color : Bool) (level : Level) (events : List Event) : String :=
  Text.unlines ((events.filter fun e => level.rank ≤ e.level.rank).map (Event.line color))

/-! ## Traced results -/

/-- A result and the events on the way to it. -/
structure Traced (ε α : Type) where
  events : List Event
  result : Except ε α

namespace Traced

variable {ε α β : Type}

/-- A result without events. -/
def ofExcept (r : Except ε α) : Traced ε α := ⟨[], r⟩

/-- Runs a computation, then another one on its result. -/
def bind (t : Traced ε α) (f : α → Traced ε β) : Traced ε β :=
  match t.result with
  | .ok a => ⟨t.events ++ (f a).events, (f a).result⟩
  | .error e => ⟨t.events, .error e⟩

instance : Monad (Traced ε) where
  pure a := ofExcept (.ok a)
  bind := bind

/-- Reports an event. -/
def report (e : Event) : Traced ε Unit := ⟨[e], .ok ()⟩

/-- Ends with an error. -/
def fail (e : ε) : Traced ε α := ofExcept (.error e)

/-- Changes the error a computation may end with. -/
def mapError {ε' : Type} (f : ε → ε') (t : Traced ε α) : Traced ε' α :=
  ⟨t.events, t.result.mapError f⟩

@[simp]
theorem result_pure (a : α) : (pure a : Traced ε α).result = .ok a := rfl

@[simp]
theorem result_report (e : Event) : (report e : Traced ε Unit).result = .ok () := rfl

@[simp]
theorem result_ofExcept (r : Except ε α) : (ofExcept r).result = r := rfl

theorem result_bind (t : Traced ε α) (f : α → Traced ε β) :
    (t >>= f).result = t.result >>= fun a => (f a).result := by
  obtain ⟨events, result⟩ := t
  cases result <;> rfl

end Traced

end NetworkCompiler
