import NetworkCompiler.Failure
import NetworkCompiler.Firewall.Plan
import NetworkCompiler.Firewall.Table

/-!
# Packet rules of a plan

The rules of a plan as tables of packet rules. On the router (`Ruleset.router?`) every other
machine that asks for something has three chains of its own, and the forwarding chain jumps into
them by address; traffic that no chain accepts is dropped. On any other machine (`Ruleset.host`)
only its own services are open.
-/

namespace NetworkCompiler.Firewall

open Ipv4 (Address)

/-- The longest name of a chain. -/
def maxChainLength : Nat := 28

/-- The chain whose only rule carries the fingerprint of the rules. -/
def markerChain : String := "netconverge"

/-- The tables of one machine. -/
structure Ruleset where
  title : String
  nat : Option Table
  filter : Table
  deriving DecidableEq

/-! ## Rules -/

/-- The rules that accept traffic from the sources of a rule in a chain. -/
def acceptFrom (chain : String) (r : ResolvedRule) : List PacketRule :=
  r.sources.map fun e => ⟨chain, [.source e, .service r.protocol r.ports], .accept⟩

/-- The rules that accept traffic to the destinations of a rule in a chain. -/
def acceptTo (chain : String) (r : ResolvedRule) : List PacketRule :=
  r.destinations.map fun e => ⟨chain, [.destination e, .service r.protocol r.ports], .accept⟩

/-- The chain for traffic to the machine itself. -/
def inputChain : String := "INPUT"

/-- The chain for traffic that is passed on. -/
def forwardChain : String := "FORWARD"

/-- What every machine accepts for itself. -/
def inputBaseline : List PacketRule :=
  [⟨inputChain, [.into "lo"], .accept⟩,
    ⟨inputChain, [.established], .accept⟩,
    ⟨inputChain, [.icmp], .accept⟩]

/-- The chains that every filter table has. -/
def filterChains : List Chain :=
  [⟨inputChain, some .drop⟩, ⟨forwardChain, some .drop⟩, ⟨"OUTPUT", some .accept⟩,
    ⟨markerChain, none⟩]

/-! ## The router -/

/-- The machines with chains on the router. -/
def membersOf (p : FirewallPlan) : List MachineRules :=
  p.members.filter fun m => !m.isEmpty && !m.addresses.isEmpty

/-- The first chain whose name is too long. -/
def longChain? (members : List MachineRules) : Option (MachineRules × String) :=
  (members.flatMap fun m => m.chains.all.map fun c => (m, c)).find? fun e =>
    maxChainLength < e.2.utf8ByteSize

/-- The interfaces a redirection is tied to, none for any interface. -/
def redirectInterfaces (p : FirewallPlan) (r : Redirect) : List (Option String) :=
  if r.fromOutside && !p.wanInterfaces.isEmpty then p.wanInterfaces.map some else [none]

/-- The rules of a redirection. -/
def redirectRules (p : FirewallPlan) (r : Redirect) : List PacketRule :=
  (redirectInterfaces p r).flatMap fun iface =>
    r.destinations.map fun e =>
      ⟨"PREROUTING", iface.toList.map .into ++ [.destination e, .service r.protocol r.ports],
        .redirect r.target⟩

/-- The table that changes addresses. -/
def natTable (p : FirewallPlan) : Table where
  name := "nat"
  chains := ["PREROUTING", inputChain, "OUTPUT", "POSTROUTING"].map fun c => ⟨c, some .accept⟩
  rules := p.redirects.flatMap (redirectRules p) ++
    p.wanInterfaces.map fun w => ⟨"POSTROUTING", [.outOf w], .masquerade⟩

/-- The router's own services on an inner interface: names, addresses and remote access. -/
def lanServices (iface : String) : List PacketRule :=
  [⟨inputChain, [.into iface, .service .udp ⟨[53, 67]⟩], .accept⟩,
    ⟨inputChain, [.into iface, .service .tcp ⟨[22, 53]⟩], .accept⟩]

/-- The jumps from the forwarding chain into the chains of a machine. -/
def jumps (m : MachineRules) : List PacketRule :=
  m.addresses.flatMap fun a =>
    [⟨forwardChain, [.toAddress a], .jump m.chains.ingress⟩,
      ⟨forwardChain, [.fromAddress a], .jump m.chains.forward⟩,
      ⟨forwardChain, [.fromAddress a], .jump m.chains.egress⟩]

/-- Drops what a throttled machine sends too much. -/
def throttleRules (m : MachineRules) : List PacketRule :=
  if m.throttled then [⟨m.chains.egress, [.aboveLimit], .drop⟩] else []

/-- The rules of the chains of a machine. -/
def memberRules (m : MachineRules) : List PacketRule :=
  m.towards.flatMap (acceptFrom m.chains.ingress) ++
    m.forward.flatMap (acceptTo m.chains.forward) ++
    throttleRules m ++
    m.egress.flatMap (acceptTo m.chains.egress)

/-- The table that lets packets through or drops them. -/
def routerFilter (p : FirewallPlan) : Table where
  name := "filter"
  chains := filterChains ++ (membersOf p).flatMap fun m => m.chains.all.map fun c => ⟨c, none⟩
  rules := inputBaseline ++
    p.lanInterfaces.flatMap lanServices ++
    p.routerRules.flatMap (acceptFrom inputChain) ++
    [⟨forwardChain, [.established], .accept⟩] ++
    (membersOf p).flatMap jumps ++
    (membersOf p).flatMap memberRules

/-- The label of the machine at a place. -/
def labelAt (g : Graph) (id : MachineId) : String :=
  ((g.machine? id).map (·.label)).getD ""

/-- The rules of the router. The name of every chain has to be short enough. -/
def Ruleset.router? (g : Graph) (p : FirewallPlan) : Except CompileError Ruleset :=
  match longChain? (membersOf p) with
  | some (m, chain) => .error (.chainNameTooLong m.label chain maxChainLength)
  | none => .ok ⟨labelAt g p.router ++ ": router ruleset", some (natTable p), routerFilter p⟩

/-! ## Other machines -/

/-- The rules of a machine that is not the router. -/
def Ruleset.host (g : Graph) (p : FirewallPlan) (id : MachineId) : Ruleset where
  title := labelAt g id ++ ": host ruleset"
  nat := none
  filter :=
    { name := "filter"
      chains := filterChains
      rules := inputBaseline ++ [⟨inputChain, [.service .tcp ⟨[22]⟩], .accept⟩] ++
        (((p.machine? id).map MachineRules.towards).getD []).flatMap (acceptFrom inputChain) }

/-! ## Writing -/

namespace Ruleset

/-- The lines that the fingerprint is made from. -/
def openLines (r : Ruleset) : List String :=
  ("# " ++ r.title) :: ((r.nat.map Table.lines).getD [] ++ r.filter.openLines)

/-- The fingerprint of a set of rules. -/
def revision (r : Ruleset) : String :=
  Digest.revision (Text.joinWith "\n" r.openLines)

/-- The rule that carries the fingerprint. -/
def markerRule (r : Ruleset) : PacketRule :=
  ⟨markerChain, [.revision r.revision], .back⟩

/-- A set of rules as a file. -/
def document (r : Ruleset) : FirewallDocument where
  path := "/etc/iptables/rules.v4"
  content := Text.unlines (r.openLines ++ [r.markerRule.line, commitLine])
  revision := r.revision

end Ruleset

end NetworkCompiler.Firewall
