import NetworkCompiler.Json.Value
import NetworkCompiler.Network.Graph

/-!
# Machine graphs as JSON

The serialised form of interfaces, rules, machines and graphs. Members stand in a fixed order, and
what is missing is `null`.
-/

namespace NetworkCompiler

open Ipv4 (Address Block)

namespace Json.Value

/-- A value that may be missing. -/
def ofOption {α : Type} (f : α → Value) : Option α → Value
  | some a => f a
  | none => null

/-- A natural number. -/
def ofNat (n : Nat) : Value := int n

/-- A list of texts. -/
def ofTexts (l : List String) : Value := arr (l.map str)

/-- A text that may be missing. -/
def ofText? (s : Option String) : Value := ofOption str s

end Json.Value

open Json (Value)

/-- An address as JSON. -/
def Ipv4.Address.json (a : Address) : Value := .str a.text

/-- A block as JSON. -/
def Ipv4.Block.json (b : Block) : Value :=
  .obj [("network", b.network.json), ("prefix_len", .ofNat b.length)]

/-- A hardware address as JSON. -/
def Mac.json (m : Mac) : Value := .str m.text

/-- A role as JSON. -/
def Role.json (r : Role) : Value := .str r.word

/-- A set of ports as JSON. -/
def PortSet.json (p : PortSet) : Value := .arr (p.ports.map .ofNat)

/-- An interface as JSON. -/
def Interface.json (i : Interface) : Value :=
  .obj [
    ("name", .str i.name),
    ("kind", .str i.kind.word),
    ("direction", .str i.direction.word),
    ("mac", .ofOption Mac.json i.mac),
    ("addresses", .arr (i.addresses.map Address.json)),
    ("subnet", .ofOption Block.json i.subnet),
    ("gateway", .ofOption Address.json i.gateway),
    ("broadcast", .ofOption Address.json i.broadcast),
    ("weight", .ofNat i.weight),
    ("arp", .bool i.arp),
    ("ip_forwarding", .bool i.ipForwarding),
    ("ip_masquerading", .bool i.ipMasquerading),
    ("required_for_online", .bool i.requiredForOnline),
    ("parent", .ofText? i.parent),
    ("vlan_id", .ofOption .ofNat i.vlanId),
    ("members", .ofTexts i.members)]

/-- A rule as JSON. -/
def TrafficRule.json (r : TrafficRule) : Value :=
  .obj [
    ("encapsulation", .str r.protocol.word),
    ("table", .str r.table.word),
    ("source", .str r.source),
    ("destinations", .ofTexts r.destinations),
    ("ports", r.ports.json)]

/-- Rules as JSON. -/
def rulesJson (rules : List TrafficRule) : Value := .arr (rules.map TrafficRule.json)

/-- A disk as JSON. -/
def DiskSpec.json (d : DiskSpec) : Value :=
  .obj [
    ("name", .str d.name),
    ("medium", .str (match d.medium with | .disk => "disk" | .dvd => "dvd")),
    ("format", .str d.format),
    ("filename", .str d.filename),
    ("size_mb", .ofNat d.sizeMb)]

/-- The hosting of a service as JSON. -/
def ServiceSpec.json (s : ServiceSpec) : Value :=
  .obj [
    ("hypervisor", .str s.hypervisor),
    ("ram_mb", .ofNat s.ramMb),
    ("cpus", .ofNat s.cpus),
    ("disks", .arr (s.disks.map DiskSpec.json)),
    ("backup_hours", .ofOption .ofNat s.backupHours),
    ("debian_mirror", .str s.debianMirror),
    ("debian_directory", .str s.debianDirectory)]

/-- An account as JSON. -/
def Account.json (a : Account) : Value :=
  .obj [("fullname", .str a.fullname), ("sshkey", .ofText? a.sshkey)]

/-- A connection inside as JSON. -/
def LanConnection.json : LanConnection → Value
  | static => .str "static"
  | dhcp => .str "dhcp"

/-- A connection outside as JSON. -/
def WanConnection.json : WanConnection → Value
  | dhcp => .str "dhcp"
  | static => .str "static"

/-- A machine as JSON. -/
def Machine.json (m : Machine) : Value :=
  .obj [
    ("label", .str m.label),
    ("types", .arr (m.roles.map Role.json)),
    ("fqdn", .str m.fqdn),
    ("cnames", .ofTexts m.cnames),
    ("email", .ofText? m.email),
    ("throttled", .bool m.throttled),
    ("lan", .arr (m.lan.map Interface.json)),
    ("wan", .arr (m.wan.map Interface.json)),
    ("listen", rulesJson m.listen),
    ("ingress", rulesJson m.ingress),
    ("egress", rulesJson m.egress),
    ("forward", rulesJson m.forward),
    ("dnat", rulesJson m.dnat),
    ("external_ip", .ofOption Address.json m.externalIp),
    ("admins", .ofTexts m.admins),
    ("profiles", .ofTexts m.profiles),
    ("connection", m.connection.json),
    ("wan_connection", .ofOption WanConnection.json m.wanConnection),
    ("service", .ofOption ServiceSpec.json m.service),
    ("account", .ofOption Account.json m.account)]

/-- A graph as JSON. -/
def Graph.json (g : Graph) : Value :=
  .obj [
    ("name", .str g.name),
    ("domain", .str g.domain),
    ("upstream_dns", .arr (g.resolvers.map Address.json)),
    ("adblocking", .bool g.adblocking),
    ("autoguest", .bool g.autoguest),
    ("autogenpasswds", .bool g.autogenpasswds),
    ("machines", .arr (g.machines.map Machine.json)),
    ("index", .obj (g.index.map fun (label, id) => (label, .ofNat id)))]

end NetworkCompiler
