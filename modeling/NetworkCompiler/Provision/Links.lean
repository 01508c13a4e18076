import NetworkCompiler.Interface
import NetworkCompiler.Provision.Context

/-!
# Links of machines

The network service reads one file per link: sections of keys with values, written with an empty line
between them (`LinkFile.body`). Files are read in the order of their names, which begin with the
weight of the link.

The router brings up its trunk, its VLANs with a routing table each, and its outer ports. Every
other machine brings up its inner interfaces, with the address it was given if it asks for a
static one.
-/

namespace NetworkCompiler.Provision

open Ipv4 (Address Block)

/-- A section of a file. -/
structure LinkSection where
  name : String
  entries : List (String × String)
  deriving DecidableEq, Repr

namespace LinkSection

/-- The section as it is written. -/
def text (s : LinkSection) : String :=
  "[" ++ s.name ++ "]\n" ++ Text.unlines (s.entries.map fun (k, v) => k ++ "=" ++ v)

end LinkSection

/-- What a file describes: a device to be made, or the network of a device. -/
inductive LinkFileKind where
  | device
  | network
  deriving DecidableEq, Repr

/-- The ending of a file's name. -/
def LinkFileKind.ending : LinkFileKind → String
  | device => "netdev"
  | network => "network"

/-- A file about a link. -/
structure LinkFile where
  weight : Nat
  link : String
  kind : LinkFileKind
  sections : List LinkSection
  deriving DecidableEq, Repr

namespace LinkFile

/-- A number with at least two digits. -/
def twoDigits (n : Nat) : String :=
  if n < 10 then "0" ++ toString n else toString n

/-- The path of a file. -/
def path (f : LinkFile) : String :=
  "/etc/systemd/network/" ++ twoDigits f.weight ++ "-" ++ f.link ++ "." ++ f.kind.ending

/-- The content of a file. -/
def body (f : LinkFile) : String :=
  Text.joinWith "\n" (f.sections.map LinkSection.text)

/-- A file about an interface. -/
def of (i : Interface) (kind : LinkFileKind) (sections : List LinkSection) : LinkFile :=
  ⟨i.weight, i.name, kind, sections⟩

/-! ## Sections of interfaces -/

/-- The device of an interface that exists only once it is declared. -/
def device? (i : Interface) : Option LinkFile :=
  let base : LinkSection := ⟨"NetDev", [("Name", i.name), ("Kind", i.kind.word)]⟩
  match i.kind with
  | .bond =>
    some (of i .device
      [base, ⟨"Bond", [("Mode", "802.3ad"), ("TransmitHashPolicy", "layer3+4")]⟩])
  | .vlan => i.vlanId.map fun id => of i .device [base, ⟨"VLAN", [("Id", toString id)]⟩]
  | .dummy => some (of i .device [base])
  | _ => none

/-- Finds an interface: a piece of hardware by its address if that is known, anything else by its
name. -/
def matchSection (i : Interface) : LinkSection :=
  match i.kind.isVirtual, i.mac with
  | false, some mac => ⟨"Match", [("MACAddress", mac.text)]⟩
  | _, _ => ⟨"Match", [("Name", i.name)]⟩

/-- What is unusual about the link of an interface. -/
def linkSection? (i : Interface) : Option LinkSection :=
  if i.requiredForOnline && i.arp then none
  else
    let online := if i.requiredForOnline then [] else [("RequiredForOnline", "no")]
    let arp := if i.arp then [] else [("ARP", "no")]
    some ⟨"Link", online ++ arp⟩

/-- The addresses of an interface, each with the prefix length of its subnet. -/
def addressEntries (addresses : List Address) (subnet : Option Block) : List (String × String) :=
  let length := (subnet.map (·.length)).getD 32
  addresses.map fun a => ("Address", s!"{a}/{length}")

end LinkFile

open ConfigUnit
open LinkFile
open Shell (quote)

/-! ## The router -/

/-- The file of an interface in the bond. -/
def memberFile (t : Topology) (port : Interface) : LinkFile :=
  LinkFile.of port .network [matchSection port, ⟨"Network", [("Bond", t.trunk.name)]⟩]

/-- The files of the trunk. -/
def trunkFiles (t : Topology) : List LinkFile :=
  let vlans := t.vlans.map fun v => ("VLAN", v.name)
  let network : LinkSection := ⟨"Network", ("LinkLocalAddressing", "no") :: vlans⟩
  (device? t.trunk).toList ++
    [LinkFile.of t.trunk .network
      ([matchSection t.trunk] ++ (linkSection? t.trunk).toList ++ [network])]

/-- The sections of a routing rule. -/
def routingSections (r : RoutingRule) : List LinkSection :=
  [⟨"Route", [("Destination", r.source.text), ("Table", toString r.table)]⟩,
    ⟨"RoutingPolicyRule", [("From", r.source.text), ("Table", toString r.table)]⟩]

/-- The files of a VLAN. -/
def vlanFiles (t : Topology) (vlan : Interface) : List LinkFile :=
  let network : LinkSection :=
    ⟨"Network", ("ConfigureWithoutCarrier", "yes") :: addressEntries vlan.addresses vlan.subnet⟩
  let routes := t.routingRules.filter fun r => r.iface = vlan.name
  (device? vlan).toList ++
    [LinkFile.of vlan .network ([matchSection vlan, network] ++ routes.flatMap routingSections)]

/-- How an outer port gets its addresses. -/
def wanEntries (wan : Interface) : List (String × String) :=
  match wan.kind with
  | .dhcp => [("DHCP", "ipv4")]
  | _ => addressEntries wan.addresses wan.subnet ++
      wan.gateway.toList.map fun g => ("Gateway", g.text)

/-- The file of an outer port. -/
def wanFile (wan : Interface) : LinkFile :=
  let forward := if wan.ipForwarding then [("IPForward", "yes")] else []
  let masquerade := if wan.ipMasquerading then [("IPMasquerade", "ipv4")] else []
  LinkFile.of wan .network
    ([matchSection wan] ++ (linkSection? wan).toList ++
      [⟨"Network", wanEntries wan ++ forward ++ masquerade⟩])

/-- The files of the router. -/
def routerFiles (c : Context) : List LinkFile :=
  let t := c.topology
  t.bondMembers.map (memberFile t) ++ trunkFiles t ++ t.vlans.flatMap (vlanFiles t) ++
    c.machine.wan.map wanFile

/-! ## Other machines -/

/-- How an inner interface gets its address. -/
def lanEntries (c : Context) (i : Interface) : List (String × String) :=
  match i.kind, c.topology.assignment? c.id i.name, c.topology.subnetOf? c.id with
  | .static, some a, some subnet =>
    addressEntries [a.address] (some subnet.net) ++
      [("Gateway", subnet.gateway.text), ("DNS", subnet.gateway.text),
        ("Domains", c.graph.domain)]
  | _, _, _ => [("DHCP", "ipv4")]

/-- The file of an inner interface. -/
def lanFile (c : Context) (i : Interface) : LinkFile :=
  let given := (c.topology.assignment? c.id i.name).map (·.mac)
  LinkFile.of i .network
    ([matchSection { i with mac := i.mac.or given }] ++ (linkSection? i).toList ++
      [⟨"Network", lanEntries c i⟩])

/-- The files of a machine. -/
def linkFiles (c : Context) : List LinkFile :=
  if c.machine.isRouter then routerFiles c else c.machine.lan.map (lanFile c)

/-! ## Units -/

/-- An address in a block, with the block's prefix length. -/
def cidr (a : Address) (b : Block) : String := s!"{a}/{b.length}"

/-- The address a VLAN of the router carries. -/
def vlanAddress? (vlan : Interface) : Option (String × String) :=
  match vlan.addresses, vlan.subnet with
  | a :: _, some b => some (vlan.name, cidr a b)
  | _, _ => none

/-- The address a static inner interface carries. -/
def lanAddress? (c : Context) (subnet : Subnet) (i : Interface) : Option (String × String) :=
  if i.kind = .static then
    (c.topology.assignment? c.id i.name).map fun a => (i.name, cidr a.address subnet.net)
  else none

/-- The interfaces with a fixed address, and that address. -/
def liveAddresses (c : Context) : List (String × String) :=
  if c.machine.isRouter then c.topology.vlans.filterMap vlanAddress?
  else match c.topology.subnetOf? c.id with
    | some subnet => c.machine.lan.filterMap (lanAddress? c subnet)
    | none => []

/-- The service that brings up links. -/
def linkService : String := "systemd-networkd"

/-- The running system carries an address on an interface. -/
def addressUnit (precondition name address : String) : ConfigUnit :=
  let q := quote name
  ((ConfigUnit.new ("addr_" ++ key name)
      ("ip -4 -o addr show dev " ++ q ++ " | awk '\x7bprint $4\x7d' | head -n 1") address
      ("networkctl reload && networkctl reconfigure " ++ q)).after precondition).saying
    s!"{name} does not carry {address}"

/-- The files of a machine's links. -/
def linkFileUnits (c : Context) : List ConfigUnit :=
  (linkFiles c).map fun f => fileContent f.path f.body

/-- The links are up. -/
def linkLive (c : Context) : List ConfigUnit :=
  let enabled := serviceEnabled linkService
  let running := (serviceRunning linkService).after enabled.label
  [enabled, running] ++ (liveAddresses c).map fun (name, address) =>
    addressUnit running.label name address

end NetworkCompiler.Provision
