import NetworkCompiler.InputError

/-!
# Failures

Any fault with which a compilation can end: one of the input, one of the machines of a network
taken together (`TopologyError`), or one of the units of a machine that are turned into a script
(`CompileError`).
-/

namespace NetworkCompiler

/-! ## Faults of a topology -/

/-- A fault of the whole network. -/
inductive TopologyError where
  | noRouter (network : String)
  | multipleRouters (network : String) (labels : List String)
  | missingMac (label iface : String)
  | unresolvedLabel (label field reference : String)
  | unknownHypervisor (label hypervisor : String)
  | addressInUse (label field address owner : String)
  | addressOutsideSubnet (label field address subnet : String)
  | subnetExhausted (label subnet : String)
  | noFreeSubnet (role : String) (prefixLength : Nat)
  deriving DecidableEq, Repr

/-- The wording of a fault. -/
def TopologyError.message : TopologyError → String
  | noRouter network => s!"network '{network}' declares no router"
  | multipleRouters network labels =>
    s!"network '{network}' declares more than one router: " ++ ", ".intercalate labels
  | missingMac label iface => s!"{label}: interface '{iface}' needs a MAC address"
  | unresolvedLabel label field reference =>
    s!"{label}: {field} references '{reference}' which is neither a machine label nor a host"
  | unknownHypervisor label hypervisor =>
    s!"{label}: hypervisor '{hypervisor}' is not a hypervisor in this network"
  | addressInUse label field address owner =>
    s!"{label}: {field} {address} is already taken by {owner}"
  | addressOutsideSubnet label field address subnet =>
    s!"{label}: {field} {address} is outside its subnet {subnet}"
  | subnetExhausted label subnet => s!"{label}: no free address left in {subnet}"
  | noFreeSubnet role prefixLength =>
    s!"no free {prefixLength}-bit subnet left for {role} machines"

/-! ## Faults of a compilation -/

/-- A fault of a machine's units or documents. -/
inductive CompileError where
  | invalidUnitLabel (machine label : String)
  | duplicateUnit (machine label : String)
  | preconditionNotRendered (machine label precondition : String)
  | chainNameTooLong (machine chain : String) (max : Nat)
  | firewallDocument (machine message : String)
  deriving DecidableEq, Repr

/-- The wording of a fault. -/
def CompileError.message : CompileError → String
  | invalidUnitLabel machine label =>
    s!"{machine}: unit label '{label}' is not a shell identifier"
  | duplicateUnit machine label => s!"{machine}: unit label '{label}' is used more than once"
  | preconditionNotRendered machine label precondition =>
    s!"{machine}: unit '{label}' depends on '{precondition}' which is not rendered before it"
  | chainNameTooLong machine chain max =>
    s!"{machine}: chain name '{chain}' exceeds {max} characters"
  | firewallDocument machine message =>
    s!"{machine}: failed to render firewall document: {message}"

/-! ## All failures -/

/-- A fault of the input, of the whole network, or of a machine's script. -/
inductive Failure where
  | input (e : InputError)
  | topology (e : TopologyError)
  | compile (e : CompileError)
  deriving DecidableEq, Repr

/-- The wording of a failure. -/
def Failure.message : Failure → String
  | input e => e.message
  | topology e => e.message
  | compile e => e.message

/-- A result that can fail on the input. -/
def ofInput {α : Type} : Except InputError α → Except Failure α :=
  Except.mapError .input

/-- A result that can fail on the whole network. -/
def ofTopology {α : Type} : Except TopologyError α → Except Failure α :=
  Except.mapError .topology

/-- A result that can fail on a machine's script. -/
def ofCompile {α : Type} : Except CompileError α → Except Failure α :=
  Except.mapError .compile

end NetworkCompiler
