import NetworkCompiler.Interface
import NetworkCompiler.Role
import NetworkCompiler.Traffic

/-!
# Machines

One machine of a network: its roles, its interfaces on both sides of the router, and the traffic
it asks for. Other machines are referred to by their labels only. The roles decide the VLAN a
machine is placed in (`Machine.vlanRole?`) and whether it has to bring hardware addresses
(`Machine.requiresMac`).
-/

namespace NetworkCompiler

open Ipv4 (Address)

/-- How a server's own interfaces get their addresses. -/
inductive LanConnection where
  | static
  | dhcp
  deriving DecidableEq, Repr, Inhabited

/-- How the router's outer interfaces get their addresses. -/
inductive WanConnection where
  | dhcp
  | static
  deriving DecidableEq, Repr, Inhabited

/-- What a disk of a virtual machine is. -/
inductive DiskMedium where
  | disk
  | dvd
  deriving DecidableEq, Repr, Inhabited

/-- A disk of a virtual machine. -/
structure DiskSpec where
  name : String
  medium : DiskMedium
  format : String
  filename : String
  sizeMb : Nat
  deriving DecidableEq, Repr

/-- How a virtual service is hosted. -/
structure ServiceSpec where
  hypervisor : String
  ramMb : Nat
  cpus : Nat
  disks : List DiskSpec
  backupHours : Option Nat
  debianMirror : String
  debianDirectory : String
  deriving DecidableEq, Repr

/-- A person's account. -/
structure Account where
  fullname : String
  sshkey : Option String
  deriving DecidableEq, Repr

/-- A machine of a network. -/
structure Machine where
  label : String
  roles : OrderedSet Role
  fqdn : String
  cnames : List String := []
  email : Option String := none
  throttled : Bool := false
  lan : List Interface := []
  wan : List Interface := []
  /-- The ports it serves, open to every machine inside. -/
  listen : List TrafficRule := []
  ingress : List TrafficRule := []
  egress : List TrafficRule := []
  forward : List TrafficRule := []
  /-- Traffic for these destinations is redirected to the machine. -/
  dnat : List TrafficRule := []
  externalIp : Option Address := none
  admins : List String := []
  /-- The extra profiles it asks for. -/
  profiles : List String := []
  connection : LanConnection := .dhcp
  wanConnection : Option WanConnection := none
  service : Option ServiceSpec := none
  account : Option Account := none
  deriving DecidableEq

namespace Machine

/-- Whether a machine holds a role. -/
def is (m : Machine) (r : Role) : Bool :=
  r ∈ m.roles

/-- Whether a machine is a router. -/
def isRouter (m : Machine) : Bool :=
  m.is .router

/-- The role whose VLAN a machine is placed in. A router is in none. -/
def vlanRole? (m : Machine) : Option Role :=
  if m.isRouter then none else Role.placementPriority.find? m.is

/-- Whether a machine has to declare its hardware addresses. A router does not, whatever else it
is. -/
def requiresMac (m : Machine) : Bool :=
  !m.isRouter && m.roles.any Role.requiresMac

/-- The ports it serves over a protocol. -/
def listenPorts (m : Machine) (p : Protocol) : PortSet :=
  ⟨OrderedSet.ofList ((m.listen.filter fun r => r.protocol = p).flatMap fun r => r.ports.ports)⟩

/-- All its rules, in a fixed order. -/
def rules (m : Machine) : List TrafficRule :=
  m.listen ++ m.ingress ++ m.egress ++ m.forward ++ m.dnat

/-- All its interfaces, inner ones first. -/
def interfaces (m : Machine) : List Interface :=
  m.lan ++ m.wan

end Machine

end NetworkCompiler
