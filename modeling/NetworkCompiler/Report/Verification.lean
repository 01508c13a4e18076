import NetworkCompiler.Network.Compiled

/-!
# Verification

Looks a description over for references that lead nowhere. Unlike a compilation it does not stop
at the first fault: `verify` lists every `Finding`, and only if none of them is an error does it
compile the network as well, to report the fault with which that ends.
-/

namespace NetworkCompiler

open Ipv4 (Address Block)

/-- How bad a finding is. -/
inductive Severity where
  | error
  | warning
  deriving DecidableEq, Repr, Inhabited

/-- The word for a severity. -/
def Severity.word : Severity → String
  | error => "error"
  | warning => "warning"

/-- Something to be said about a description. -/
inductive Finding where
  | noRouter
  | manyRouters (labels : List String)
  | unknownAdmin (label admin : String)
  | missingHypervisor (label : String)
  | unknownHypervisor (label hypervisor : String)
  | idleHypervisor (label : String)
  | invalidTarget (fault : InputError)
  | unknownTarget (label field name : String)
  | userWithoutDevices (label : String)
  | compileFailed (fault : Failure)
  deriving DecidableEq, Repr

namespace Finding

/-- How bad a finding is. -/
def severity : Finding → Severity
  | idleHypervisor .. | userWithoutDevices .. => .warning
  | _ => .error

/-- Whether a finding is an error. -/
def isError (f : Finding) : Bool :=
  f.severity = .error

/-- The word for a kind of finding. -/
def code : Finding → String
  | noRouter | manyRouters .. => "router_count"
  | unknownAdmin .. => "unknown_admin"
  | missingHypervisor .. => "missing_hypervisor"
  | unknownHypervisor .. => "unknown_hypervisor"
  | idleHypervisor .. => "idle_hypervisor"
  | invalidTarget .. => "invalid_target"
  | unknownTarget .. => "unknown_target"
  | userWithoutDevices .. => "user_without_devices"
  | compileFailed .. => "compile_failed"

/-- The wording of a finding. -/
def message : Finding → String
  | noRouter => "no server has type 'router'"
  | manyRouters labels => "more than one router: " ++ Text.joinWith ", " labels
  | unknownAdmin label admin => s!"{label}: admin '{admin}' is not a declared user"
  | missingHypervisor label => s!"{label}: service does not name a hypervisor"
  | unknownHypervisor label hypervisor =>
    s!"{label}: '{hypervisor}' is not a hypervisor in this network"
  | idleHypervisor label => s!"{label}: hypervisor hosts no services"
  | invalidTarget fault => fault.message
  | unknownTarget label field name =>
    s!"{label}: {field} '{name}' is neither a machine label nor a host"
  | userWithoutDevices label => s!"{label}: user owns no devices and gets no address"
  | compileFailed fault => fault.message

end Finding

/-! ## Looking over a description -/

namespace Description

/-- Whether a server is written down with a role. -/
def ServerEntry.hasRole (s : ServerEntry) (r : Role) : Bool :=
  s.types.any fun t => Text.lowercase (Text.trim t) = r.word

/-- The labels of everything in a description. -/
def labels (d : Description) : OrderedSet String :=
  OrderedSet.ofList (d.servers.map (·.1) ++ d.internalDevices.map (·.1) ++
    d.externalDevices.map (·.1) ++ d.users.map (·.1))

/-- The labels of the servers with a role. -/
def serversWith (d : Description) (r : Role) : List String :=
  (d.servers.filter fun e => ServerEntry.hasRole e.2 r).map (·.1)

/-- There is exactly one router. -/
def routerFindings (d : Description) : List Finding :=
  match d.serversWith .router with
  | [] => [.noRouter]
  | [_] => []
  | many => [.manyRouters many]

/-- Every administrator is a user. -/
def adminFindings (d : Description) : List Finding :=
  d.servers.flatMap fun (label, server) =>
    (server.admins.filter fun a => (Dictionary.get? a d.users).isNone).map (.unknownAdmin label)

/-- The services, each with the hypervisor it names. -/
def services (d : Description) : List (String × Option String) :=
  (d.servers.filter fun e => ServerEntry.hasRole e.2 .service).map fun e => (e.1, e.2.hypervisor)

/-- Every service names a hypervisor of the network. -/
def serviceFinding? (d : Description) (service : String × Option String) : Option Finding :=
  match service.2 with
  | none => some (.missingHypervisor service.1)
  | some h =>
    if h ∈ d.serversWith .hypervisor then none else some (.unknownHypervisor service.1 h)

/-- The hypervisors that no service names. -/
def idleHypervisors (d : Description) : List String :=
  (d.serversWith .hypervisor).filter fun h => d.services.all fun s => s.2 ≠ some h

/-- Services have hypervisors, and hypervisors services. -/
def hypervisorFindings (d : Description) : List Finding :=
  d.services.filterMap d.serviceFinding? ++ d.idleHypervisors.map .idleHypervisor

/-- Whether a name can be an end of a rule. -/
def knowsTarget (d : Description) (name : String) : Bool :=
  name = anywhere || name ∈ d.labels || (Address.ofText? name).isSome ||
    (Block.ofText? name).isSome || '.' ∈ name.toList

/-- What is wrong with the target of a rule. -/
def targetFinding? (d : Description) (label field target : String) : Option Finding :=
  match splitTarget label field target with
  | .error e => some (.invalidTarget e)
  | .ok (name, _) => if d.knowsTarget name then none else some (.unknownTarget label field name)

/-- The targets of a server's rules, each with its field. -/
def serverTargets (f : FirewallEntry) : List (String × String) :=
  f.allowEgressTo.map (("allow_egress_to", ·)) ++
    f.allowIngressFrom.map (("allow_ingress_from", ·)) ++
    f.allowForwardTo.map (("allow_forward_to", ·)) ++
    f.dnatTo.map (("dnat_to", ·))

/-- Every rule has ends. -/
def targetFindings (d : Description) : List Finding :=
  d.servers.flatMap (fun (label, server) =>
      (serverTargets server.firewall).filterMap fun (field, target) =>
        d.targetFinding? label field target) ++
    (d.internalDevices ++ d.externalDevices).flatMap fun (label, device) =>
      device.allowEgressTo.filterMap (d.targetFinding? label "allow_egress_to")

/-- Users have devices. -/
def userFindings (d : Description) : List Finding :=
  (d.users.filter fun e => e.2.macs.isEmpty).map fun e => .userWithoutDevices e.1

/-- Everything to be said about the references of a description. -/
def referenceFindings (d : Description) : List Finding :=
  d.routerFindings ++ d.adminFindings ++ d.hypervisorFindings ++ d.targetFindings ++
    d.userFindings

/-- The fault with which a compilation ends. -/
def compileFinding? (name : String) (d : Description) (s : Settings) : Option Finding :=
  match (CompiledNetwork.ofDescription name d s).result with
  | .ok _ => none
  | .error e => some (.compileFailed e)

end Description

/-! ## Reports -/

/-- Everything to be said about a network. -/
structure VerifyReport where
  network : String
  /-- How many labels the description has. -/
  machines : Nat
  findings : List Finding
  deriving DecidableEq, Repr

namespace VerifyReport

/-- How many findings are errors. -/
def errors (r : VerifyReport) : Nat :=
  (r.findings.filter Finding.isError).length

/-- How many findings are warnings. -/
def warnings (r : VerifyReport) : Nat :=
  r.findings.length - r.errors

/-- A report as text. -/
def text (r : VerifyReport) : String :=
  let lines := r.findings.map fun f => s!"- [{f.severity.word}] {f.code}: {f.message}"
  Text.joinWith "\n" <|
    [s!"verify network={r.network} machines={r.machines}",
      s!"result errors={r.errors} warnings={r.warnings}", "issues"] ++
    if lines.isEmpty then ["- none"] else lines

end VerifyReport

/-- Looks a network over. -/
def verify (name : String) (d : Description) (s : Settings) : VerifyReport :=
  let references := d.referenceFindings
  let compiled := if references.any Finding.isError then none else d.compileFinding? name s
  ⟨name, d.labels.length, references ++ compiled.toList⟩

end NetworkCompiler
