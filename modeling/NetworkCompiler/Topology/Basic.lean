import NetworkCompiler.Network.Graph
import NetworkCompiler.Settings.Basic

/-!
# Topologies

What the allocation decides about a network: the router's trunk and VLANs, the subnet of every
role that has members, the role each machine is placed by, and the address and hardware address
of every inner interface.
-/

namespace NetworkCompiler

open Ipv4 (Address Block)

/-- The subnet of a role and the VLAN that carries it. -/
structure Subnet where
  role : Role
  net : Block
  vlanId : Nat
  /-- The VLAN interface on the router. -/
  iface : String
  /-- The router's address on this VLAN. -/
  gateway : Address
  deriving DecidableEq

/-- Sends the traffic of a subnet through a routing table of its own. -/
structure RoutingRule where
  iface : String
  source : Block
  table : Nat
  deriving DecidableEq

/-- What an inner interface was given. -/
structure Assignment where
  machine : MachineId
  iface : String
  address : Address
  mac : Mac
  role : Role
  /-- Whether the address was declared. -/
  explicit : Bool
  /-- Whether the hardware address was made up. -/
  generatedMac : Bool
  deriving DecidableEq

/-- A reservation of the router's address service. -/
structure Lease where
  label : String
  iface : String
  mac : Mac
  address : Address
  role : Role
  deriving DecidableEq

/-- Everything the allocation decided. -/
structure Topology where
  router : MachineId
  /-- What carries the VLANs: a port, a bond, or a dummy. -/
  trunk : Interface
  /-- The interfaces in the bond, if there is one. -/
  bondMembers : List Interface
  subnets : List Subnet
  vlans : List Interface
  routingRules : List RoutingRule
  placements : List (MachineId × Role)
  assignments : List Assignment
  deriving DecidableEq

namespace Topology

/-- The subnet of a role. -/
def subnet? (t : Topology) (r : Role) : Option Subnet :=
  t.subnets.find? fun s => s.role = r

/-- The role by which a machine is placed. -/
def placement? (t : Topology) (id : MachineId) : Option Role :=
  (t.placements.find? fun p => p.1 = id).map (·.2)

/-- The subnet a machine is placed in. -/
def subnetOf? (t : Topology) (id : MachineId) : Option Subnet :=
  (t.placement? id).bind t.subnet?

/-- The assignments of a machine, in the order of its interfaces. -/
def assignmentsOf (t : Topology) (id : MachineId) : List Assignment :=
  t.assignments.filter fun a => a.machine = id

/-- The inner addresses of a machine; the router's are its gateways. -/
def addressesOf (t : Topology) (id : MachineId) : List Address :=
  if id = t.router then t.subnets.map (·.gateway) else (t.assignmentsOf id).map (·.address)

/-- What an interface was given. -/
def assignment? (t : Topology) (id : MachineId) (iface : String) : Option Assignment :=
  t.assignments.find? fun a => a.machine = id && a.iface = iface

/-- The reservations, subnet by subnet. -/
def leases (t : Topology) (g : Graph) : List Lease :=
  t.subnets.flatMap fun s =>
    (t.assignments.filter fun a => a.role = s.role).map fun a =>
      ⟨((g.machine? a.machine).map (·.label)).getD "", a.iface, a.mac, a.address, s.role⟩

end Topology

end NetworkCompiler
