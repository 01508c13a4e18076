import NetworkCompiler.InputError
import NetworkCompiler.Ipv4.Block
import NetworkCompiler.Mac

/-!
# Network interfaces

A typed attachment of a machine to a network. An `Interface` starts with the defaults of its kind
(`Interface.new`), is filled in field by field, and is then held against the rules of its kind:
`Interface.fault?` names the first rule it breaks, and `Interface.checked` lets only a legal one
through.
-/

namespace NetworkCompiler

open Ipv4 (Address Block)

/-- How an interface is configured. -/
inductive InterfaceKind where
  /-- Up without addresses: it carries VLANs or belongs to a bond. -/
  | manual
  | static
  | dhcp
  | bond
  | vlan
  | dummy
  | tunnel
  deriving DecidableEq, Repr, Inhabited

namespace InterfaceKind

/-- The word for a kind. -/
def word : InterfaceKind → String
  | manual => "manual"
  | static => "static"
  | dhcp => "dhcp"
  | bond => "bond"
  | vlan => "vlan"
  | dummy => "dummy"
  | tunnel => "tunnel"

instance : ToString InterfaceKind := ⟨word⟩

/-- All kinds. -/
def all : List InterfaceKind :=
  [manual, static, dhcp, bond, vlan, dummy, tunnel]

/-- The order in which configuration files are read: carriers before what stacks on them. -/
def defaultWeight : InterfaceKind → Nat
  | manual | static | dhcp | dummy => 10
  | bond => 20
  | vlan => 30
  | tunnel => 40

/-- Whether a kind exists only once it is declared. -/
def isVirtual (k : InterfaceKind) : Bool :=
  k ∈ [bond, vlan, dummy, tunnel]

end InterfaceKind

/-- The side of the router on which an interface lies. -/
inductive Direction where
  | lan
  | wan
  deriving DecidableEq, Repr, Inhabited

/-- The word for a direction. -/
def Direction.word : Direction → String
  | lan => "lan"
  | wan => "wan"

/-- A network attachment. -/
structure Interface where
  name : String
  kind : InterfaceKind
  direction : Direction
  mac : Option Mac
  addresses : List Address
  subnet : Option Block
  gateway : Option Address
  broadcast : Option Address
  weight : Nat
  arp : Bool
  ipForwarding : Bool
  ipMasquerading : Bool
  requiredForOnline : Bool
  /-- The carrier of a VLAN. -/
  parent : Option String
  vlanId : Option Nat
  /-- The interfaces that make up a bond. -/
  members : List String
  deriving DecidableEq

namespace Interface

/-- An interface with the defaults of its kind. -/
def new (name : String) (kind : InterfaceKind) (direction : Direction) : Interface where
  name := name
  kind := kind
  direction := direction
  mac := none
  addresses := []
  subnet := none
  gateway := none
  broadcast := none
  weight := kind.defaultWeight
  arp := true
  ipForwarding := false
  ipMasquerading := false
  requiredForOnline := kind ≠ .dummy
  parent := none
  vlanId := none
  members := []

/-- Puts an interface on a carrier. -/
def onVlan (i : Interface) (parent : String) (vlanId : Nat) : Interface :=
  { i with parent := some parent, vlanId := some vlanId }

/-- Whether a name is one the system accepts: one to fifteen bytes without slash, colon and
blanks. -/
def isName (name : String) : Bool :=
  1 ≤ name.utf8ByteSize && name.utf8ByteSize ≤ 15 &&
    name.toList.all fun c => c ≠ '/' && c ≠ ':' && !Text.isBlank c

/-- Whether a number is one of a VLAN. -/
def isVlanId (n : Nat) : Bool :=
  1 ≤ n && n ≤ 4094

/-- The rule of its kind that an interface breaks. -/
def kindFault? (i : Interface) : Option InterfaceFault :=
  match i.kind with
  | .dhcp =>
    if !i.addresses.isEmpty || i.subnet.isSome || i.gateway.isSome then some .dhcpWithAddressing
    else none
  | .manual | .bond => if i.addresses.isEmpty then none else some .carrierWithAddress
  | .vlan =>
    match i.parent, i.vlanId with
    | some parent, some id =>
      if !parent.isEmpty && isVlanId id then none else some .vlanWithoutCarrier
    | _, _ => some .vlanWithoutCarrier
  | .dummy => if i.requiredForOnline then some .dummyRequiredOnline else none
  | .tunnel => if i.addresses.isEmpty then some .tunnelWithoutAddress else none
  | .static => none

/-- The first address outside the declared subnet. -/
def strayAddress? (i : Interface) : Option (Address × Block) :=
  match i.subnet with
  | none => none
  | some subnet => (i.addresses.find? fun a => !subnet.contains a).map (·, subnet)

/-- The first rule that an interface breaks. -/
def fault? (i : Interface) : Option InterfaceFault :=
  if !isName i.name then some .badName
  else match i.kindFault? with
    | some fault => some fault
    | none =>
      if i.kind ≠ .bond && !i.members.isEmpty then some .membersOutsideBond
      else if i.ipMasquerading && i.direction ≠ .wan then some .masqueradingInside
      else i.strayAddress?.map fun (address, subnet) =>
        .addressOutside address.text subnet.text

/-- An interface that is legal for its kind; the error names the machine `label`. -/
def checked (label : String) (i : Interface) : Except InputError Interface :=
  match i.fault? with
  | none => .ok i
  | some fault => .error (.invalidInterface label i.name fault)

end Interface

end NetworkCompiler
