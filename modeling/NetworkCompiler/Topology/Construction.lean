import NetworkCompiler.Failure
import NetworkCompiler.Ipv4.FreeBlock
import NetworkCompiler.Topology.Addresses
import NetworkCompiler.Topology.Basic

/-!
# Topologies of graphs

`Topology.ofGraph` allocates a network: it finds the one router, builds its trunk, gives every
role with members a subnet and a VLAN, and serves the inner interfaces. The guests' VLAN exists
whenever it is asked for, because guests are not declared.

A role's subnet is the first block of the chosen length, from the role's base upward, that shares
no address with an earlier subnet or with the declared network of an outer interface
(`Block.firstFree?`).
-/

namespace NetworkCompiler

open Ipv4 (Address Block)

/-! ## Subnets -/

/-- The blocks that are taken by subnets and outer networks. -/
def takenBlocks (taken : List Subnet) (wanNets : List Block) : List Block :=
  taken.map (·.net) ++ wanNets

/-- The subnet of a role beside those that are taken. -/
def allocateSubnet (settings : Settings) (wanNets : List Block) (taken : List Subnet)
    (role : Role) : Except TopologyError Subnet :=
  let noRoom := Except.error (.noFreeSubnet role.word settings.prefixLength)
  match settings.vlanFor? role with
  | none => noRoom
  | some plan =>
    match (Block.ofAddress? plan.base settings.prefixLength).bind
        (Block.firstFree? (takenBlocks taken wanNets)) with
    | none => noRoom
    | some net => .ok ⟨role, net, plan.vlan, role.vlanInterface, net.firstHost⟩

/-- The VLAN interface of a subnet on a trunk. -/
def vlanInterface (label trunk : String) (s : Subnet) : Except InputError Interface :=
  Interface.checked label
    { (Interface.new s.iface .vlan .lan).onVlan trunk s.vlanId with
      addresses := [s.gateway], subnet := some s.net }

/-- The roles that may have a VLAN in a network. -/
def vlanRoles (autoguest : Bool) : List Role :=
  Role.vlanEligible.filter fun r => r ≠ .guest || autoguest

/-- The declared networks of the outer interfaces. -/
def wanNetworks (g : Graph) : List Block :=
  g.machines.flatMap fun m => m.wan.filterMap (·.subnet)

/-! ## Topologies -/

/-- The one router of a network. -/
def findRouter (g : Graph) : Except TopologyError (MachineId × Machine) :=
  match g.withRole .router with
  | [] => .error (.noRouter g.name)
  | [r] => .ok r
  | many => .error (.multipleRouters g.name (many.map (·.2.label)))

/-- The trunk of a router and the ports that are bonded to it: a single port carries the VLANs
itself, several are bonded, and without any a dummy takes their place. -/
def buildTrunk (label : String) : List Interface → Except InputError (Interface × List Interface)
  | [] => do
    let dummy ← Interface.checked label (Interface.new "lan0" .dummy .lan)
    pure (dummy, [])
  | [port] => .ok (port, [])
  | ports => do
    let bond ← Interface.checked label
      { Interface.new "bond0" .bond .lan with members := ports.map (·.name) }
    pure (bond, ports)

/-- The subnets and VLAN interfaces of roles, beside the subnets `taken`. -/
def buildVlans (g : Graph) (settings : Settings) (routerLabel trunk : String)
    (populated : List Role) (taken : List Subnet) :
    List Role → Traced Failure (List (Subnet × Interface))
  | [] => pure []
  | role :: rest =>
    if role ∉ populated && role ≠ .guest then do
      Traced.report (.vlanSkipped role)
      buildVlans g settings routerLabel trunk populated taken rest
    else do
      let subnet ← Traced.ofExcept
        (ofTopology (allocateSubnet settings (wanNetworks g) taken role))
      let vlan ← Traced.ofExcept (ofInput (vlanInterface routerLabel trunk subnet))
      Traced.report (.subnetAllocated role subnet.net subnet.vlanId)
      let more ← buildVlans g settings routerLabel trunk populated (taken ++ [subnet]) rest
      pure ((subnet, vlan) :: more)

/-- The routing rule of a subnet. -/
def Subnet.routingRule (s : Subnet) : RoutingRule :=
  ⟨s.iface, s.net, s.vlanId⟩

/-- Allocates a network; missing hardware addresses are made up by `hash`. -/
def Topology.ofGraphBy (hash : List UInt8 → List UInt8) (g : Graph) (settings : Settings) :
    Traced Failure Topology := do
  let (router, routerMachine) ← Traced.ofExcept (ofTopology (findRouter g))
  let (trunk, bondMembers) ← Traced.ofExcept
    (ofInput (buildTrunk routerMachine.label routerMachine.lan))
  let placements := placementsOf g
  let built ← buildVlans g settings routerMachine.label trunk.name (placements.map (·.2)) []
    (vlanRoles g.autoguest)
  let subnets := built.map (·.1)
  let assignments ← (assignAddresses hash g settings placements subnets).mapError .topology
  Traced.report (.topologyResolved g.name subnets.length assignments.length)
  pure {
    router := router
    trunk := trunk
    bondMembers := bondMembers
    subnets := subnets
    vlans := built.map (·.2)
    routingRules := subnets.map Subnet.routingRule
    placements := placements
    assignments := assignments }

/-- Allocates a network. -/
def Topology.ofGraph (g : Graph) (settings : Settings) : Traced Failure Topology :=
  ofGraphBy Digest.sha256 g settings

end NetworkCompiler
