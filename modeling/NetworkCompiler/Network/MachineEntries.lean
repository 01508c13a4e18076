import NetworkCompiler.Failure
import NetworkCompiler.Network.InterfaceEntries
import NetworkCompiler.Settings.Basic

/-!
# Machines of entries

The machines that the entries of a description stand for: `Machine.ofServer`, `Machine.ofDevice`
and `Machine.ofUser`. Every field is checked on the way, in a fixed order, and the first fault
is reported.
-/

namespace NetworkCompiler

/-! ## Servers -/

/-- The roles that a word in a server's list stands for. -/
def serverRolesOf? (word : String) : Option (List Role) :=
  match Text.lowercase (Text.trim word) with
  | "router" => some [.router]
  | "hypervisor" => some [.server, .hypervisor]
  | "dedicated" => some [.server, .dedicated]
  | "service" => some [.server, .service]
  | _ => none

/-- The roles of a server. -/
def serverRoles (label : String) (types : List String) : Except InputError (OrderedSet Role) := do
  if types.isEmpty then .error (.missingField label "types")
  else
    let roles ← types.mapM fun word =>
      match serverRolesOf? word with
      | some roles => .ok roles
      | none =>
        .error (.invalidValue label "types" word "router, hypervisor, dedicated or service")
    pure (Role.setOf roles.flatten)

/-- How a server's inner interfaces are connected. -/
def lanConnection (label : String) : Option String → Except InputError LanConnection
  | none | some "dhcp" => .ok .dhcp
  | some "static" => .ok .static
  | some other => .error (.invalidValue label "connection" other "static or dhcp")

/-- How a router's outer interfaces are connected. -/
def wanConnection (label : String) : Option String → Except InputError WanConnection
  | none | some "dhcp" => .ok .dhcp
  | some "static" => .ok .static
  | some other => .error (.invalidValue label "extconnection" other "dhcp or static")

/-- The medium of a disk. -/
def diskMedium (label : String) : Option String → Except InputError DiskMedium
  | none | some "disk" => .ok .disk
  | some "dvd" => .ok .dvd
  | some other => .error (.invalidValue label "disks.medium" other "disk or dvd")

/-- The formats of disk images. -/
def diskFormats : List String := ["qcow2", "raw", "vdi", "vmdk"]

/-- The size of a disk that does not say otherwise, in megabytes. -/
def defaultDiskSize : Nat := 8192

/-- A disk of a service. -/
def diskSpec (label name : String) (e : DiskEntry) : Except InputError DiskSpec := do
  let medium ← diskMedium label e.medium
  let format := e.format.getD "qcow2"
  if format ∉ diskFormats then
    .error (.invalidValue label "disks.format" format "qcow2, raw, vdi or vmdk")
  else
    let size ← readPositive label "disks.size" (e.size.getD defaultDiskSize)
    pure ⟨name, medium, format, e.filename.getD s!"{label}_{name}.{format}", size⟩

/-- The disk of a service that declares none. -/
def bootDisk (label : String) : DiskSpec :=
  ⟨"boot", .disk, "qcow2", s!"{label}_boot.qcow2", defaultDiskSize⟩

/-- A number of hours that may be missing. -/
def readPositive? (label field : String) : Option Int → Except InputError (Option Nat)
  | none => .ok none
  | some n => (readPositive label field n).map some

/-- How a service is hosted. -/
def serviceSpec (label : String) (e : ServerEntry) : Except InputError ServiceSpec := do
  match e.hypervisor with
  | none => .error (.missingField label "hypervisor")
  | some hypervisor =>
    let ramMb ← readPositive label "ram" (e.ram.getD 1024)
    let cpus ← readPositive label "cpus" (e.cpus.getD 1)
    let backupHours ← readPositive? label "backups" e.backups
    let disks ← e.disks.mapM fun (name, disk) => diskSpec label name disk
    pure {
      hypervisor := hypervisor
      ramMb := ramMb
      cpus := cpus
      disks := if disks.isEmpty then [bootDisk label] else disks
      backupHours := backupHours
      debianMirror := e.debianMirror.getD "deb.debian.org"
      debianDirectory := e.debianDirectory.getD "/debian" }

/-- How a server is hosted, if it is a service. -/
def serviceSpec? (label : String) (roles : OrderedSet Role) (e : ServerEntry) :
    Except InputError (Option ServiceSpec) :=
  if Role.service ∈ roles then (serviceSpec label e).map some else .ok none

/-- How a server's outer interfaces are connected, if it is a router. -/
def wanConnection? (label : String) (roles : OrderedSet Role) (raw : Option String) :
    Except InputError (Option WanConnection) :=
  if Role.router ∈ roles then (wanConnection label raw).map some else .ok none

/-- The inner interfaces of a server. One that is no router and declares none still has one. -/
def serverLan (m : Machine) (e : ServerEntry) : Except InputError (List Interface) := do
  let declared ← e.lan.mapM fun (name, entry) => lanInterface m name entry
  if declared.isEmpty && !m.isRouter then
    let i ← lanInterface m "lan0" { mac := e.mac }
    pure [i]
  else pure declared

/-- The outer interfaces of a server. A name is declared once on both sides together. -/
def serverWan (m : Machine) (e : ServerEntry) : Except InputError (List Interface) :=
  e.wan.mapM fun (name, entry) =>
    if e.lan.any fun l => l.1 = name then .error (.duplicateInterface m.label name)
    else wanInterface m name entry

/-! ## Firewall entries -/

/-- A rule that opens the ports a machine listens on to all. -/
def listenRule (label : String) (p : Protocol) (field : String) (values : List Int) :
    Except InputError (List TrafficRule) := do
  if values.isEmpty then pure []
  else
    let ports ← PortSet.ofValues label field values
    pure [TrafficRule.withPorts p .ingress anywhere [label] ports]

/-- A rule for traffic from a target to a machine. Without a port of its own it takes those the
machine listens on. -/
def ingressRule (label : String) (listenTcp : PortSet) (raw : String) :
    Except InputError TrafficRule := do
  let (source, port) ← splitTarget label "allow_ingress_from" raw
  match port with
  | some port => pure (TrafficRule.withPorts .tcp .ingress source [label] ⟨[port]⟩)
  | none =>
    if listenTcp.isAny then
      .error (.invalidValue label "allow_ingress_from" raw
        "name:port, or listen.tcp ports to open")
    else pure (TrafficRule.withPorts .tcp .ingress source [label] listenTcp)

/-- A rule for traffic from a machine to a target, on the given ports when it names none. -/
def egressRule (defaultPorts : List Nat) (label raw : String) :
    Except InputError TrafficRule := do
  let (target, port) ← splitTarget label "allow_egress_to" raw
  let ports := match port with
    | some port => [port]
    | none => defaultPorts
  TrafficRule.ofValues .tcp .egress label [target] (ports.map Int.ofNat)

/-- A rule for forwarded traffic from a machine to a target. -/
def forwardRule (label raw : String) : Except InputError TrafficRule := do
  let (target, port) ← splitTarget label "allow_forward_to" raw
  TrafficRule.ofValues .tcp .forward label [target] (port.toList.map Int.ofNat)

/-- The rule that redirects traffic to a machine, on the ports it listens on. -/
def dnatRules (label : String) (listenTcp : PortSet) (targets : List String) :
    Except InputError (List TrafficRule) := do
  if targets.isEmpty then pure []
  else if listenTcp.isAny then
    .error (.invalidValue label "dnat_to" (Text.joinWith "," targets)
      "listen.tcp ports to redirect")
  else
    let names ← targets.mapM fun raw => (splitTarget label "dnat_to" raw).map (·.1)
    pure [TrafficRule.withPorts .tcp .dnat label names listenTcp]

/-- Adds what an entry wants of the firewall to a machine. -/
def Machine.withFirewall (defaultPorts : List Nat) (m : Machine) (e : FirewallEntry) :
    Except InputError Machine := do
  let tcp ← listenRule m.label .tcp "listen.tcp" e.listenTcp
  let udp ← listenRule m.label .udp "listen.udp" e.listenUdp
  let m := { m with listen := tcp ++ udp }
  let listenTcp := m.listenPorts .tcp
  let ingress ← e.allowIngressFrom.mapM (ingressRule m.label listenTcp)
  let egress ← e.allowEgressTo.mapM (egressRule defaultPorts m.label)
  let forward ← e.allowForwardTo.mapM (forwardRule m.label)
  let dnat ← dnatRules m.label listenTcp e.dnatTo
  let externalIp ← readAddress? m.label "firewall.external_ip" e.externalIp
  pure { m with
    ingress := ingress, egress := egress, forward := forward, dnat := dnat,
    externalIp := externalIp }

/-! ## Machines -/

/-- The machine of a server's entry in a domain. -/
def Machine.ofServer (defaultPorts : List Nat) (domain label : String) (e : ServerEntry) :
    Except InputError Machine := do
  let roles ← serverRoles label e.types
  checkLabel label
  let connection ← lanConnection label e.connection
  let wanConnection ← wanConnection? label roles e.extConnection
  let service ← serviceSpec? label roles e
  let m : Machine := {
    label := label
    roles := roles
    fqdn := s!"{label}.{domain}"
    cnames := e.cnames
    email := e.email
    throttled := e.firewall.throttle
    admins := e.admins
    profiles := e.profiles
    connection := connection
    wanConnection := wanConnection
    service := service }
  let lan ← serverLan m e
  let wan ← serverWan m e
  Machine.withFirewall defaultPorts { m with lan := lan, wan := wan } e.firewall

/-- The rules that let a machine out everywhere. -/
def openEgress (label : String) : List TrafficRule :=
  [TrafficRule.withPorts .tcp .egress label [anywhere] PortSet.any,
    TrafficRule.withPorts .udp .egress label [anywhere] PortSet.any]

/-- The machine of a device's entry; `role` says which devices it belongs to. -/
def Machine.ofDevice (defaultPorts : List Nat) (domain : String) (role : Role) (label : String)
    (e : DeviceEntry) : Except InputError Machine := do
  checkLabel label
  let lan ← deviceInterfaces label e.macs
  let egress ← e.allowEgressTo.mapM (egressRule defaultPorts label)
  pure {
    label := label
    roles := Role.setOf [.device, role]
    fqdn := s!"{label}.{domain}"
    cnames := e.cnames
    email := e.email
    throttled := e.throttle
    lan := lan
    egress := (if role = .externalOnly then openEgress label else []) ++ egress }

/-- The machine of a user's entry. Only a user with devices has interfaces. -/
def Machine.ofUser (domain : String) (isAdmin : Bool) (label : String) (e : UserEntry) :
    Except InputError Machine := do
  checkLabel label
  let owns := !e.macs.isEmpty
  let lan ← if owns then deviceInterfaces label e.macs else pure []
  pure {
    label := label
    roles := Role.setOf ([.user] ++ (if isAdmin then [.admin] else []) ++
      (if owns then [.device] else []))
    fqdn := s!"{label}.{domain}"
    email := e.email
    lan := lan
    egress := if owns then openEgress label else []
    account := some ⟨e.fullname.getD label, e.sshkey⟩ }

end NetworkCompiler
