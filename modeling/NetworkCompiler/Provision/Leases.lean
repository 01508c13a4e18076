import NetworkCompiler.Provision.Context

/-!
# The address service

The router hands out addresses: every interface that was given one gets it as a reservation, and
only the guests' subnet has a range from which addresses are given to anyone. `LeaseConfig` is
the configuration as data, `LeaseConfig.text` its written form.
-/

namespace NetworkCompiler.Provision

open ConfigUnit
open Ipv4 (Address Block)

/-- A subnet as the address service knows it. -/
structure LeaseSubnet where
  net : Block
  gateway : Address
  /-- The first and last address given to anyone. -/
  range : Option (Address × Address)
  deriving DecidableEq

/-- The configuration of the address service. -/
structure LeaseConfig where
  title : String
  domain : String
  subnets : List LeaseSubnet
  reservations : List Lease
  deriving DecidableEq

/-- The last address of the guests' subnet that is taken. -/
def lastGuest (t : Topology) (subnet : Subnet) : Address :=
  match (t.assignments.filter fun a => a.role = .guest).map (·.address) with
  | [] => subnet.gateway
  | a :: as => as.foldl (fun m b => if m < b then b else m) a

/-- The addresses of a block behind `start`, first and last. -/
def rangeAfter (b : Block) (start : Address) : Option (Address × Address) :=
  (b.firstHostsAfter start 1).head?.map fun first =>
    (first, Address.ofNat (start.value + b.hostCountAfter start))

/-- A subnet as the address service knows it. -/
def leaseSubnet (t : Topology) (s : Subnet) : LeaseSubnet where
  net := s.net
  gateway := s.gateway
  range := if s.role = .guest then rangeAfter s.net (lastGuest t s) else none

/-- The configuration of the address service of a network. -/
def leaseConfig (c : Context) : LeaseConfig where
  title := c.label
  domain := c.graph.domain
  subnets := c.topology.subnets.map (leaseSubnet c.topology)
  reservations := c.topology.leases c.graph

/-! ## Writing -/

/-- A block between braces, with an empty line in front of it. -/
def declaration (head : String) (options : List String) : List String :=
  ["", head ++ " \x7b"] ++ options.map (fun o => "    " ++ o ++ ";") ++ ["\x7d"]

/-- The lines of a subnet. -/
def LeaseSubnet.lines (s : LeaseSubnet) : List String :=
  declaration s!"subnet {s.net.network} netmask {s.net.netmask}"
    ([s!"option routers {s.gateway}", s!"option domain-name-servers {s.gateway}",
        s!"option broadcast-address {s.net.broadcast}"] ++
      s.range.toList.map fun (first, last) => s!"range {first} {last}")

/-- The name of a reservation. -/
def reservationName (l : Lease) : String :=
  l.label ++ "-" ++ l.iface

/-- The lines of a reservation. -/
def reservationLines (l : Lease) : List String :=
  declaration ("host " ++ reservationName l)
    [s!"hardware ethernet {l.mac}", s!"fixed-address {l.address}",
      "option host-name \"" ++ l.label ++ "\""]

namespace LeaseConfig

/-- The configuration as a file. -/
def text (c : LeaseConfig) : String :=
  Text.unlines <|
    [s!"# {c.title}: generated by netconverge", "option domain-name \"" ++ c.domain ++ "\";",
      "default-lease-time 3600;", "max-lease-time 86400;", "authoritative;"] ++
    c.subnets.flatMap LeaseSubnet.lines ++
    c.reservations.flatMap reservationLines

end LeaseConfig

/-! ## Units -/

/-- The package of the address service. -/
def leasePackage : String := "isc-dhcp-server"

/-- The file with the configuration. -/
def leasePath : String := "/etc/dhcp/dhcpd.conf"

/-- The interfaces the address service listens on. -/
def leaseDefaults (c : Context) : String :=
  "INTERFACESv4=\"" ++ Text.joinWith " " (c.topology.vlans.map (·.name)) ++
    "\"\nINTERFACESv6=\"\"\n"

/-- The files of the address service. -/
def leaseFiles (c : Context) : List ConfigUnit :=
  let package := (packageInstalled leasePackage).label
  [(fileContent leasePath (leaseConfig c).text).after package,
    (fileContent "/etc/default/isc-dhcp-server" (leaseDefaults c)).after package]

/-- The address service runs, on a configuration that is legal. -/
def leaseLive : List ConfigUnit :=
  let enabled := (serviceEnabled leasePackage).after ("file_" ++ key leasePath)
  let running := (serviceRunning leasePackage).after enabled.label
  [enabled, running,
    ((ConfigUnit.singleton "dhcpd_conf_valid"
      s!"dhcpd -t -cf {leasePath} >/dev/null 2>&1 && echo ok" "ok").after
        running.label).saying s!"{leasePath} does not parse"]

end NetworkCompiler.Provision
