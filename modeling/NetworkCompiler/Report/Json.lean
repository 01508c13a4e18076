import NetworkCompiler.Firewall.Plan
import NetworkCompiler.Network.GraphJson
import NetworkCompiler.Report.Verification
import NetworkCompiler.Topology.Basic

/-!
# Reports as JSON

The serialised form of topologies, of firewall plans, of compiled networks and of reports on
descriptions.
-/

namespace NetworkCompiler

open Ipv4 (Address)
open Json (Value)

/-! ## Topologies -/

/-- A subnet as JSON. -/
def Subnet.json (s : Subnet) : Value :=
  .obj [
    ("machine_type", s.role.json),
    ("net", s.net.json),
    ("vlan_id", .ofNat s.vlanId),
    ("iface", .str s.iface),
    ("gateway", s.gateway.json)]

/-- A routing rule as JSON. -/
def RoutingRule.json (r : RoutingRule) : Value :=
  .obj [("iface", .str r.iface), ("from", r.source.json), ("table", .ofNat r.table)]

/-- An assignment as JSON. -/
def Assignment.json (a : Assignment) : Value :=
  .obj [
    ("machine", .ofNat a.machine),
    ("iface", .str a.iface),
    ("address", a.address.json),
    ("mac", a.mac.json),
    ("subnet", a.role.json),
    ("explicit", .bool a.explicit),
    ("generated_mac", .bool a.generatedMac)]

/-- A reservation as JSON. -/
def Lease.json (l : Lease) : Value :=
  .obj [
    ("label", .str l.label),
    ("iface", .str l.iface),
    ("mac", l.mac.json),
    ("address", l.address.json),
    ("subnet", l.role.json)]

/-- A topology as JSON. -/
def Topology.json (t : Topology) : Value :=
  .obj [
    ("router", .ofNat t.router),
    ("trunk", t.trunk.json),
    ("bond_members", .arr (t.bondMembers.map Interface.json)),
    ("subnets", .arr (t.subnets.map Subnet.json)),
    ("vlans", .arr (t.vlans.map Interface.json)),
    ("routing_rules", .arr (t.routingRules.map RoutingRule.json)),
    ("placements", .obj (t.placements.map fun (id, r) => (toString id, r.json))),
    ("assignments", .arr (t.assignments.map Assignment.json))]

/-! ## Firewall plans -/

/-- The serialised form of an end. -/
def Endpoint.json : Endpoint → Value
  | any => .str "Any"
  | net block => .obj [("Net", block.json)]
  | host name => .obj [("Host", .str name)]

/-- The serialised form of a list of ends. -/
def endpointsJson (l : List Endpoint) : Value := .arr (l.map Endpoint.json)

/-- The serialised form of a resolved rule. -/
def ResolvedRule.json (r : ResolvedRule) : Value :=
  .obj [
    ("encapsulation", .str r.protocol.word),
    ("table", .str r.table.word),
    ("sources", endpointsJson r.sources),
    ("destinations", endpointsJson r.destinations),
    ("ports", r.ports.json)]

/-- The serialised form of resolved rules. -/
def resolvedRulesJson (l : List ResolvedRule) : Value := .arr (l.map ResolvedRule.json)

/-- The serialised form of a redirection. -/
def Redirect.json (r : Redirect) : Value :=
  .obj [
    ("owner", .str r.owner),
    ("encapsulation", .str r.protocol.word),
    ("destinations", endpointsJson r.destinations),
    ("ports", r.ports.json),
    ("to", r.target.json),
    ("from_wan", .bool r.fromOutside)]

/-- The serialised form of chain names. -/
def ChainNames.json (c : ChainNames) : Value :=
  .obj [("ingress", .str c.ingress), ("forward", .str c.forward), ("egress", .str c.egress)]

/-- The serialised form of the rules of a machine. -/
def MachineRules.json (m : MachineRules) : Value :=
  .obj [
    ("id", .ofNat m.id),
    ("label", .str m.label),
    ("chains", m.chains.json),
    ("addresses", .arr (m.addresses.map Address.json)),
    ("throttled", .bool m.throttled),
    ("listen", resolvedRulesJson m.listen),
    ("ingress", resolvedRulesJson m.ingress),
    ("forward", resolvedRulesJson m.forward),
    ("egress", resolvedRulesJson m.egress)]

/-- The serialised form of a plan. -/
def FirewallPlan.json (p : FirewallPlan) : Value :=
  .obj [
    ("router", .ofNat p.router),
    ("machines", .arr (p.machines.map MachineRules.json)),
    ("dnat", .arr (p.redirects.map Redirect.json)),
    ("wan_ifaces", .ofTexts p.wanInterfaces),
    ("lan_ifaces", .ofTexts p.lanInterfaces)]

/-! ## Networks and reports -/

/-- The serialised form of a compiled network. -/
def CompiledNetwork.json (n : CompiledNetwork) : Value :=
  .obj [
    ("graph", n.graph.json),
    ("topology", n.topology.json),
    ("firewall", n.firewall.json)]

/-- The serialised form of a finding. -/
def Finding.json (f : Finding) : Value :=
  .obj [
    ("severity", .str f.severity.word),
    ("code", .str f.code),
    ("message", .str f.message)]

/-- The serialised form of a report. -/
def VerifyReport.json (r : VerifyReport) : Value :=
  .obj [
    ("network", .str r.network),
    ("machines", .ofNat r.machines),
    ("errors", .ofNat r.errors),
    ("warnings", .ofNat r.warnings),
    ("issues", .arr (r.findings.map Finding.json))]

end NetworkCompiler
