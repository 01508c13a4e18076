import NetworkCompiler.Firewall.Plan
import NetworkCompiler.Xml.Element

/-!
# Zones

The rules of a plan as a zone: a list of accept rules for one protocol and at most one port each,
with everything else dropped. On the router (`Zone.router`) the rules of another machine name its
addresses as the second end. A redirection needs ports; one without ports opens nothing.
-/

namespace NetworkCompiler.Firewall

open Ipv4 (Address Block)
open Xml (Element)

/-- Accepts traffic between two ends over a protocol, on one port or on all. -/
structure AcceptRule where
  source : Endpoint
  destination : Endpoint
  protocol : Protocol
  port : Option Nat
  deriving DecidableEq

/-- Redirects one destination port. -/
structure PortForward where
  port : Nat
  protocol : Protocol
  target : Address
  destination : Endpoint
  deriving DecidableEq

/-- The rules of one machine. -/
structure Zone where
  title : String
  interfaces : List String
  services : List String
  masquerade : Bool
  forwards : List PortForward
  rules : List AcceptRule
  deriving DecidableEq

/-! ## Rules -/

/-- The ports that a rule names one by one, none for all ports. -/
def singlePorts (p : PortSet) : List (Option Nat) :=
  if p.isAny then [none] else p.ports.map some

/-- Accepts the traffic of a rule towards an end. -/
def acceptInto (destination : Endpoint) (r : ResolvedRule) : List AcceptRule :=
  r.sources.flatMap fun e =>
    (singlePorts r.ports).map fun port => ⟨e, destination, r.protocol, port⟩

/-- Accepts the traffic of a rule that comes from an end. -/
def acceptOutOf (source : Endpoint) (r : ResolvedRule) : List AcceptRule :=
  r.destinations.flatMap fun e =>
    (singlePorts r.ports).map fun port => ⟨source, e, r.protocol, port⟩

/-- Accepts the traffic of all rules of a machine that is not the router. -/
def memberAccepts (m : MachineRules) : List AcceptRule :=
  m.addresses.flatMap fun a =>
    let own := Endpoint.net (Block.single a)
    m.towards.flatMap (acceptInto own) ++ (m.forward ++ m.egress).flatMap (acceptOutOf own)

/-- The forwards of a redirection. -/
def portForwards (r : Redirect) : List PortForward :=
  r.destinations.flatMap fun e =>
    r.ports.ports.map fun port => ⟨port, r.protocol, r.target, e⟩

/-- The zone of the router. -/
def Zone.router (g : Graph) (p : FirewallPlan) : Zone where
  title := ((g.machine? p.router).map (·.label)).getD "" ++ " ruleset"
  interfaces := p.lanInterfaces ++ p.wanInterfaces
  services := ["ssh", "dns", "dhcp"]
  masquerade := !p.wanInterfaces.isEmpty
  forwards := p.redirects.flatMap portForwards
  rules := p.routerRules.flatMap (acceptInto .any) ++ p.members.flatMap memberAccepts

/-- The zone of a machine that is not the router. -/
def Zone.host (g : Graph) (p : FirewallPlan) (id : MachineId) : Zone where
  title := ((g.machine? id).map (·.label)).getD "" ++ " ruleset"
  interfaces := []
  services := ["ssh"]
  masquerade := false
  forwards := []
  rules := (((p.machine? id).map MachineRules.towards).getD []).flatMap (acceptInto .any)

/-! ## Writing -/

/-- The name of the zone. -/
def zoneName : String := "netconverge"

/-- An element with a single attribute. -/
def single (tag key value : String) : Element := .empty tag [(key, value)]

/-- An end, unless it is anywhere. -/
def endpointElement (tag : String) : Endpoint → List Element
  | .any => []
  | e => [single tag "address" e.text]

/-- A rule around its parts. -/
def ruleElement (parts : List Element) : Element :=
  .parent "rule" [("family", "ipv4")] parts

/-- What a rule matches: a port, or a whole protocol. -/
def matchElement (protocol : Protocol) : Option Nat → Element
  | some port => .empty "port" [("port", toString port), ("protocol", protocol.word)]
  | none => single "protocol" "value" protocol.word

/-- An accept rule. -/
def AcceptRule.element (r : AcceptRule) : Element :=
  ruleElement (endpointElement "source" r.source ++ endpointElement "destination" r.destination ++
    [matchElement r.protocol r.port, .empty "accept" []])

/-- A forward; one for a certain destination stands inside a rule and names its port twice. -/
def PortForward.element (f : PortForward) : Element :=
  let attributes := [("port", toString f.port), ("protocol", f.protocol.word),
    ("to-addr", f.target.text)]
  match f.destination with
  | .any => .empty "forward-port" attributes
  | e => ruleElement (endpointElement "destination" e ++
      [.empty "forward-port" (attributes ++ [("to-port", toString f.port)])])

/-- A rule without effect that carries a fingerprint. -/
def markerElement (fingerprint : String) : Element :=
  ruleElement [single "source" "address" "127.0.0.1", single "log" "prefix" fingerprint,
    .empty "drop" []]

namespace Zone

/-- The zone as markup, with more rules at its end. -/
def element (z : Zone) (marker : List Element) : Element :=
  .parent "zone" [("target", "DROP")] <|
    [.text "short" zoneName, .text "description" z.title] ++
      z.interfaces.map (single "interface" "name") ++
      z.services.map (single "service" "name") ++
      (if z.masquerade then [.empty "masquerade" []] else []) ++
      z.forwards.map PortForward.element ++
      z.rules.map AcceptRule.element ++
      marker

/-- The fingerprint of a zone. -/
def revision (z : Zone) : String :=
  Digest.revision (z.element []).document

/-- A zone as a file. -/
def document (z : Zone) : FirewallDocument where
  path := "/etc/firewalld/zones/netconverge.xml"
  content := (z.element [markerElement z.revision]).document ++ "\n"
  revision := z.revision

end Zone

end NetworkCompiler.Firewall
