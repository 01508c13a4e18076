import NetworkCompiler.Failure
import NetworkCompiler.Firewall.Endpoint
import NetworkCompiler.Report.Event
import NetworkCompiler.Topology.Basic

/-!
# Firewall plans

The traffic that the machines of a network ask for, with every name resolved against the
addresses that were given out. `FirewallPlan.ofTopology` builds the plan: per machine its
resolved rules, and for the router the redirections of destinations. A rule one end of which has
no address is left out, and so are the redirections of a machine without an address; both are
reported.

A plan is written as a rule set in a file (`FirewallDocument`), with a fingerprint of its rules, and
there is a command that tells whether the running system carries the rules of a fingerprint
(`LiveCheck`).
-/

namespace NetworkCompiler

open Ipv4 (Address Block)

/-- A rule between resolved ends. -/
structure ResolvedRule where
  protocol : Protocol
  table : RuleTable
  sources : List Endpoint
  destinations : List Endpoint
  ports : PortSet
  deriving DecidableEq

/-- A redirection on the router: traffic for the destinations goes to `target` instead. -/
structure Redirect where
  owner : String
  protocol : Protocol
  destinations : List Endpoint
  ports : PortSet
  target : Address
  /-- Whether only traffic that arrives from outside is redirected. -/
  fromOutside : Bool
  deriving DecidableEq

/-- The resolved rules of one machine. -/
structure MachineRules where
  id : MachineId
  label : String
  chains : ChainNames
  addresses : List Address
  throttled : Bool
  listen : List ResolvedRule
  ingress : List ResolvedRule
  forward : List ResolvedRule
  egress : List ResolvedRule
  deriving DecidableEq

namespace MachineRules

/-- The rules for traffic towards the machine. -/
def towards (m : MachineRules) : List ResolvedRule :=
  m.listen ++ m.ingress

/-- Whether a machine asks for nothing. -/
def isEmpty (m : MachineRules) : Bool :=
  m.listen.isEmpty && m.ingress.isEmpty && m.forward.isEmpty && m.egress.isEmpty && !m.throttled

end MachineRules

/-- The rules of every machine and the redirections of the router. -/
structure FirewallPlan where
  router : MachineId
  machines : List MachineRules
  redirects : List Redirect
  wanInterfaces : List String
  lanInterfaces : List String
  deriving DecidableEq

namespace FirewallPlan

/-! ## Resolving names -/

/-- The ends a target stands for; the error names the machine and the field of the rule. -/
def endpointsOf (g : Graph) (t : Topology) (label field target : String) :
    Except TopologyError (List Endpoint) :=
  match Target.ofText g target with
  | .any => .ok [.any]
  | .net block => .ok [.net block]
  | .host name => .ok [.host name]
  | .machine id => .ok ((t.addressesOf id).map fun a => .net (Block.single a))
  | .unknown => .error (.unresolvedLabel label field target)

/-- The ends of several targets, each once. -/
def endpoints (g : Graph) (t : Topology) (label field : String) (targets : List String) :
    Except TopologyError (List Endpoint) := do
  let found ← targets.mapM (endpointsOf g t label field)
  pure found.flatten.eraseDups

/-- A rule of a machine with its ends resolved; a rule with an end that has no address is
nothing. -/
def resolve? (g : Graph) (t : Topology) (label field : String) (r : TrafficRule) :
    Except TopologyError (Option ResolvedRule) := do
  let sources ← endpoints g t label field [r.source]
  let destinations ← endpoints g t label field r.destinations
  if sources.isEmpty || destinations.isEmpty then pure none
  else pure (some ⟨r.protocol, r.table, sources, destinations, r.ports⟩)

/-- The rules of one field of a machine. -/
def resolveAll (g : Graph) (t : Topology) (label field : String) :
    List TrafficRule → Traced TopologyError (List ResolvedRule)
  | [] => pure []
  | r :: rs => do
    match ← Traced.ofExcept (resolve? g t label field r) with
    | some resolved =>
      let rest ← resolveAll g t label field rs
      pure (resolved :: rest)
    | none =>
      Traced.report (.ruleSkipped label field r.table)
      resolveAll g t label field rs

/-! ## One machine -/

/-- The redirections a machine declares, to one of its addresses. -/
def declaredRedirects (g : Graph) (t : Topology) (m : Machine) (target : Address) :
    Except TopologyError (List Redirect) :=
  m.dnat.mapM fun r => do
    let destinations ← endpoints g t m.label "firewall.dnat_to" r.destinations
    pure ⟨m.label, r.protocol, destinations, r.ports, target, false⟩

/-- The redirection of an outer address to the ports a machine serves. -/
def externalRedirect (m : Machine) (target external : Address) : Redirect :=
  ⟨m.label, .tcp, [.net (Block.single external)], m.listenPorts .tcp, target, true⟩

/-- All redirections to a machine. -/
def redirectsOf (g : Graph) (t : Topology) (id : MachineId) (m : Machine) :
    Traced TopologyError (List Redirect) :=
  match t.addressesOf id with
  | target :: _ => do
    let declared ← Traced.ofExcept (declaredRedirects g t m target)
    pure (declared ++ m.externalIp.toList.map (externalRedirect m target))
  | [] => do
    if !m.dnat.isEmpty || m.externalIp.isSome then
      Traced.report (.redirectSkipped m.label)
    pure []

/-- The resolved rules of a machine. -/
def rulesOf (g : Graph) (t : Topology) (id : MachineId) (m : Machine) :
    Traced TopologyError MachineRules := do
  let listen ← resolveAll g t m.label "firewall.listen" m.listen
  let ingress ← resolveAll g t m.label "firewall.allow_ingress_from" m.ingress
  let forward ← resolveAll g t m.label "firewall.allow_forward_to" m.forward
  let egress ← resolveAll g t m.label "firewall.allow_egress_to" m.egress
  pure ⟨id, m.label, .ofLabel m.label, t.addressesOf id, m.throttled, listen, ingress, forward,
    egress⟩

/-- The rules of a machine and the redirections to it. -/
def planOf (g : Graph) (t : Topology) (id : MachineId) (m : Machine) :
    Traced TopologyError (MachineRules × List Redirect) := do
  let rules ← rulesOf g t id m
  let redirects ← redirectsOf g t id m
  Traced.report (.rulesResolved m.label rules.chains.all)
  pure (rules, redirects)

/-! ## The whole network -/

/-- The plan of a network whose addresses are given out. -/
def ofTopology (g : Graph) (t : Topology) : Traced TopologyError FirewallPlan := do
  let plans ← g.entries.mapM fun (id, m) => planOf g t id m
  pure
    { router := t.router
      machines := plans.map (·.1)
      redirects := plans.flatMap (·.2)
      wanInterfaces := ((g.machine? t.router).map fun m => m.wan.map (·.name)).getD []
      lanInterfaces := t.vlans.map (·.name) }

/-- The rules of a machine. -/
def machine? (p : FirewallPlan) (id : MachineId) : Option MachineRules :=
  p.machines.find? fun m => m.id = id

/-- The rules of every machine but the router. -/
def members (p : FirewallPlan) : List MachineRules :=
  p.machines.filter fun m => m.id ≠ p.router

/-- The rules for traffic towards the router itself. -/
def routerRules (p : FirewallPlan) : List ResolvedRule :=
  ((p.machine? p.router).map MachineRules.towards).getD []

end FirewallPlan

/-! ## Documents -/

/-- A rule set as a file. -/
structure FirewallDocument where
  path : String
  content : String
  /-- The fingerprint of the rules, which the file carries as well. -/
  revision : String
  deriving DecidableEq, Repr

/-- A command that prints `expected` when the running rules have a fingerprint. -/
structure LiveCheck where
  command : String
  expected : String
  deriving DecidableEq, Repr

end NetworkCompiler
