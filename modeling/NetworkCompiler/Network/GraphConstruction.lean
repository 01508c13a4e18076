import NetworkCompiler.Network.Graph
import NetworkCompiler.Network.MachineEntries

/-!
# Graphs of descriptions

`Graph.ofDescription` makes the graph of a description: the machines of all entries, checked
against each other. Labels are distinct, a hardware address belongs to one interface, a service's
hypervisor is one, and every administrator is a declared user, who may reach the servers they
administer over SSH.
-/

namespace NetworkCompiler

open Ipv4 (Address)

/-- The domain of a network that names none. -/
def defaultDomain : String := "lan"

/-- The name servers asked when a network names none. -/
def defaultResolvers : List Address :=
  [.ofOctets 9 9 9 9, .ofOctets 149 112 112 112]

/-- The port that SSH listens on. -/
def sshPort : Nat := 22

/-- The domain of a network. -/
def domainOf (d : Description) : String :=
  match d.domain with
  | some domain => if (Text.trim domain).isEmpty then defaultDomain else domain
  | none => defaultDomain

/-- The name servers a network asks. -/
def resolversOf (name : String) (d : Description) : Except InputError (List Address) :=
  if d.resolvers.isEmpty then .ok defaultResolvers
  else d.resolvers.mapM (readAddress name "upstreamdns")

/-- Refuses administrators who are no declared users. -/
def checkAdmins (d : Description) : Except InputError Unit :=
  d.servers.forM fun (label, server) =>
    server.admins.forM fun user =>
      if d.users.any fun u => u.1 = user then .ok ()
      else .error (.missingUser label "admins" user)

/-- Whether a user administers a server. -/
def isAdminOf (d : Description) (user : String) : Bool :=
  d.servers.any fun s => s.2.admins.contains user

/-- Puts a machine behind the others, unless its label is taken. -/
def addMachine (machines : List Machine) (m : Machine) : Except InputError (List Machine) :=
  if machines.any fun other => other.label = m.label then .error (.duplicateLabel m.label)
  else .ok (machines ++ [m])

/-- Puts the machines of entries behind the others, one after the other. -/
def addEntries {ε : Type} (read : String → ε → Except InputError Machine) :
    List (String × ε) → List Machine → Except InputError (List Machine)
  | [], machines => .ok machines
  | (label, entry) :: rest, machines => do
    let m ← read label entry
    let machines ← addMachine machines m
    addEntries read rest machines

/-- The machines of a description, in order. -/
def machinesOf (defaultPorts : List Nat) (d : Description) :
    Except InputError (List Machine) := do
  let domain := domainOf d
  let ms ← addEntries (Machine.ofServer defaultPorts domain) d.servers []
  let ms ← addEntries (Machine.ofDevice defaultPorts domain .internalOnly) d.internalDevices ms
  let ms ← addEntries (Machine.ofDevice defaultPorts domain .externalOnly) d.externalDevices ms
  addEntries (fun label => Machine.ofUser domain (isAdminOf d label) label) d.users ms

/-- Every declared hardware address with its machine and interface, in order. -/
def declaredMacs (ms : List Machine) : List (Mac × String × String) :=
  ms.flatMap fun m => m.interfaces.filterMap fun i => i.mac.map fun mac => (mac, m.label, i.name)

/-- Refuses a hardware address that an earlier interface has; `seen` lists the earlier ones,
latest first. -/
def checkMacsFrom (seen : List (Mac × String × String)) :
    List (Mac × String × String) → Except InputError Unit
  | [] => .ok ()
  | (mac, label, iface) :: rest =>
    match seen.find? fun s => s.1 = mac with
    | some (_, other, _) => .error (.duplicateMac label s!"{iface}.mac" mac.text other)
    | none => checkMacsFrom ((mac, label, iface) :: seen) rest

/-- Refuses a hardware address that is declared twice. -/
def checkMacs (ms : List Machine) : Except InputError Unit :=
  checkMacsFrom [] (declaredMacs ms)

/-- Refuses a service whose hypervisor is none. -/
def checkHypervisors (g : Graph) : Except TopologyError Unit :=
  g.machines.forM fun m =>
    match m.service with
    | none => .ok ()
    | some s =>
      if ((g.get? s.hypervisor).map (·.is .hypervisor)).getD false then .ok ()
      else .error (.unknownHypervisor m.label s.hypervisor)

/-- The servers that a user administers. -/
def administeredBy (ms : List Machine) (user : String) : List String :=
  (ms.filter fun m => m.admins.contains user).map (·.label)

/-- The rule that lets an administrator reach their servers. -/
def adminRule (user : String) (servers : List String) : TrafficRule :=
  TrafficRule.withPorts .tcp .forward user servers ⟨[sshPort]⟩

/-- Adds an administrator's access to their machine. Someone without a device needs none. -/
def grantAccess (ms : List Machine) (m : Machine) : Machine :=
  let servers := administeredBy ms m.label
  if servers.isEmpty || m.lan.isEmpty then m
  else { m with forward := m.forward ++ [adminRule m.label servers] }

/-- The graph of a network's description. -/
def Graph.ofDescription (name : String) (d : Description) (settings : Settings) :
    Except Failure Graph := do
  let resolvers ← ofInput (resolversOf name d)
  ofInput (checkAdmins d)
  let machines ← ofInput (machinesOf settings.defaultPorts d)
  ofInput (checkMacs machines)
  let g : Graph := {
    name := name
    domain := domainOf d
    resolvers := resolvers
    adblocking := d.adblocking
    autoguest := d.autoguest
    autogenpasswds := d.autogenpasswds
    machines := machines }
  ofTopology (checkHypervisors g)
  pure { g with machines := machines.map (grantAccess machines) }

end NetworkCompiler
