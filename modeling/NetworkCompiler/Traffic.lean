import NetworkCompiler.Dictionary
import NetworkCompiler.InputError
import NetworkCompiler.Text.Numeral
import NetworkCompiler.Text.Split

/-!
# Traffic intent

What a machine wants to be allowed: a `TrafficRule` says that a source may talk to destinations
over a transport protocol on a set of ports. Sources and destinations stay names until the
firewall plan resolves them. An empty `PortSet` means every port.
-/

namespace NetworkCompiler

/-- A transport protocol. -/
inductive Protocol where
  | tcp
  | udp
  deriving DecidableEq, Repr, Inhabited

/-- The word for a protocol. -/
def Protocol.word : Protocol → String
  | tcp => "tcp"
  | udp => "udp"

instance : ToString Protocol := ⟨Protocol.word⟩

/-- The use a rule is put to. -/
inductive RuleTable where
  | dnat
  | forward
  | ingress
  | egress
  deriving DecidableEq, Repr, Inhabited

/-- The word for a table. -/
def RuleTable.word : RuleTable → String
  | dnat => "dnat"
  | forward => "forward"
  | ingress => "ingress"
  | egress => "egress"

instance : ToString RuleTable := ⟨RuleTable.word⟩

/-- The destination that means anywhere. -/
def anywhere : String := "*"

/-- A set of ports, ascending. The empty set means every port. -/
structure PortSet where
  ports : OrderedSet Nat
  deriving DecidableEq, Repr

namespace PortSet

/-- Every port. -/
def any : PortSet := ⟨[]⟩

instance : Inhabited PortSet := ⟨any⟩

/-- Whether a set means every port. -/
def isAny (p : PortSet) : Bool :=
  p.ports.isEmpty

/-- Whether a number is one of a port. -/
def isPort (n : Int) : Bool :=
  1 ≤ n && n ≤ 65535

/-- The set of raw values. The first value that is no port is an error, which names the machine
and the field. -/
def ofValues (label field : String) (values : List Int) : Except InputError PortSet := do
  let ports ← values.mapM fun n =>
    if isPort n then .ok n.toNat else .error (.invalidPort label field n)
  pure ⟨OrderedSet.ofList ports⟩

/-- The ports with commas between them. -/
def joined (p : PortSet) : String :=
  Text.joinWith "," (p.ports.map toString)

end PortSet

/-- What a source may do. -/
structure TrafficRule where
  protocol : Protocol
  table : RuleTable
  source : String
  destinations : OrderedSet String
  ports : PortSet
  deriving DecidableEq, Repr

namespace TrafficRule

/-- A rule whose ports are already a set. -/
def withPorts (protocol : Protocol) (table : RuleTable) (source : String)
    (destinations : List String) (ports : PortSet) : TrafficRule :=
  ⟨protocol, table, source, OrderedSet.ofList destinations, ports⟩

/-- A rule on raw ports, which must be ports. -/
def ofValues (protocol : Protocol) (table : RuleTable) (source : String)
    (destinations : List String) (ports : List Int) : Except InputError TrafficRule := do
  let ports ← PortSet.ofValues source table.word ports
  pure (withPorts protocol table source destinations ports)

end TrafficRule

/-- A firewall target `name` or `name:port`: what stands behind the last colon is a port. -/
def splitTarget (label field raw : String) : Except InputError (String × Option Nat) :=
  let trimmed := Text.trim raw
  match Text.cutAtLast? ':' trimmed with
  | none => .ok (trimmed, none)
  | some (name, port) =>
    match Text.signed64? port with
    | none => .error (.invalidValue label field trimmed "name or name:port")
    | some n => do
      let ports ← PortSet.ofValues label field [n]
      pure (name, ports.ports.head?)

end NetworkCompiler
