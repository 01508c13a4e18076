import NetworkCompiler.ConfigUnit.Basic
import NetworkCompiler.Firewall.Kind
import NetworkCompiler.Provision.Context
import NetworkCompiler.Provision.Identity
import NetworkCompiler.Provision.Leases
import NetworkCompiler.Provision.Links
import NetworkCompiler.Provision.Names

/-!
# Profiles

A profile is a named set of units, spread over phases from installation to the running system.
Which profiles a machine has follows from its roles and from the names it lists (`profileNames`).
`machineUnits` puts the units of all its profiles in order, phase by phase.
-/

namespace NetworkCompiler.Provision

open ConfigUnit
open Shell (quote)

/-! ## Virtual machines

A hypervisor runs the services that name it. Their disks can only be looked for; snapshots are
taken as often as a service asks for.
-/

/-- The packages of a hypervisor. -/
def hypervisorPackages : List String := ["qemu-system-x86", "libvirt-daemon-system", "virtinst"]

/-- The directory of the disks. -/
def imageDirectory : String := "/var/lib/libvirt/images"

/-- The package that other units of a hypervisor need. -/
def hypervisorLabel : String := "pkg_libvirt_daemon_system"

/-- A disk of a service exists. -/
def diskUnit (precondition service : String) (disk : DiskSpec) : ConfigUnit :=
  let path := imageDirectory ++ "/" ++ disk.filename
  ((ConfigUnit.singleton s!"disk_{key service}_{key disk.name}"
      s!"test -f {quote path} && echo present" "present").after precondition).saying
    s!"{service} disk image {path} ({disk.sizeMb} MB {disk.format}) is missing"

/-- The table that takes snapshots of a service every so many hours. -/
def snapshotTable (service : String) (hours : Nat) : String :=
  s!"# netconverge: snapshot {service} every {hours} hours\n" ++
    s!"0 */{hours} * * * root virsh snapshot-create-as {service}" ++
      " --disk-only --atomic --no-metadata >/dev/null\n"

/-- The disks and snapshots of a service. -/
def serviceUnits (precondition : String) (m : Machine) : List ConfigUnit :=
  match m.service with
  | none => []
  | some spec =>
    (spec.disks.filter fun d => d.medium = .disk).map (diskUnit precondition m.label) ++
      spec.backupHours.toList.map fun hours =>
        fileContent ("/etc/cron.d/netconverge-backup-" ++ m.label) (snapshotTable m.label hours)

/-- The disks and snapshots of all services of a hypervisor. -/
def hypervisorFiles (c : Context) : List ConfigUnit :=
  let images := (directoryExists imageDirectory).after hypervisorLabel
  images :: (c.graph.servicesOn c.label).flatMap (serviceUnits images.label)

/-- A service runs. -/
def runningUnit (precondition : String) (m : Machine) : ConfigUnit :=
  ((ConfigUnit.singleton s!"vm_{key m.label}_running" ("virsh domstate " ++ quote m.label)
      "running").after precondition).saying s!"virtual machine {m.label} is not running"

/-- All services of a hypervisor run. -/
def hypervisorLive (c : Context) : List ConfigUnit :=
  let daemon := (serviceRunning "libvirtd").after hypervisorLabel
  daemon :: (c.graph.servicesOn c.label).map (runningUnit daemon.label)

/-! ## Firewall rules

The rules of a machine are a file, a service that loads it, and the check that the running rules
are those of the file. The router has the rules of the whole network, any other machine its own.
-/

/-- Whose rules a machine loads. -/
inductive RuleScope where
  | host
  | router
  deriving DecidableEq, Repr

/-- The firewall of the network. -/
def firewall (c : Context) : FirewallKind := c.network.settings.firewall

/-- The rules a machine loads. -/
def ruleDocument (scope : RuleScope) (c : Context) : Except CompileError FirewallDocument :=
  match scope with
  | .host => .ok ((firewall c).hostDocument c.graph c.network.firewall c.id)
  | .router => (firewall c).routerDocument c.graph c.network.firewall

/-- The packages of the firewall. -/
def rulePackages (c : Context) : List ConfigUnit :=
  (firewall c).packages.map packageInstalled

/-- The file with the rules, and the service that loads it. -/
def ruleFiles (scope : RuleScope) (c : Context) : Except CompileError (List ConfigUnit) := do
  let document ← ruleDocument scope c
  let file := fileContent document.path document.content
  let file := match (rulePackages c).head? with
    | some package => file.after package.label
    | none => file
  pure [file, (serviceEnabled (firewall c).service).after file.label]

/-- The running rules are those of the file. -/
def ruleLive (scope : RuleScope) (c : Context) : Except CompileError (List ConfigUnit) := do
  let document ← ruleDocument scope c
  let check := (firewall c).liveCheck document.revision
  pure [((ConfigUnit.new "firewall_live" check.command check.expected
      (firewall c).reloadCommand).after ("file_" ++ key document.path)).saying
    s!"live {(firewall c).word} rules are not revision {document.revision}"]

/-! ## Phases and profiles -/

/-- The steps from an empty machine to a running one. -/
inductive Phase where
  | install
  | persistentConfig
  | persistentFirewall
  | liveConfig
  | liveFirewall
  deriving DecidableEq, Repr, Inhabited

namespace Phase

/-- All phases in order. -/
def all : List Phase :=
  [install, persistentConfig, persistentFirewall, liveConfig, liveFirewall]

/-- The word for a phase. -/
def word : Phase → String
  | install => "install"
  | persistentConfig => "persistent-config"
  | persistentFirewall => "persistent-firewall"
  | liveConfig => "live-config"
  | liveFirewall => "live-firewall"

/-- The phase of a word. -/
def ofWord? (w : String) : Option Phase :=
  all.find? fun p => p.word == w

end Phase

/-- A named set of units. -/
inductive Profile where
  | admins
  | base
  | dhcpServer
  | dnsServer
  | hostFirewall
  | hypervisor
  | networkd
  | router
  | routerFirewall
  | unattendedUpgrades
  deriving DecidableEq, Repr, Inhabited

namespace Profile

/-- All profiles, by name. -/
def all : List Profile :=
  [admins, base, dhcpServer, dnsServer, hostFirewall, hypervisor, networkd, router, routerFirewall,
    unattendedUpgrades]

/-- The name of a profile. -/
def name : Profile → String
  | admins => "admins"
  | base => "base"
  | dhcpServer => "dhcp-server"
  | dnsServer => "dns-server"
  | hostFirewall => "host-firewall"
  | hypervisor => "hypervisor"
  | networkd => "networkd"
  | router => "router"
  | routerFirewall => "router-firewall"
  | unattendedUpgrades => "unattended-upgrades"

/-- The profile of a name. -/
def ofName? (s : String) : Option Profile :=
  all.find? fun p => p.name == s

/-- The units of the address service in a phase. -/
def leaseUnits (c : Context) : Phase → List ConfigUnit
  | .install => [packageInstalled leasePackage]
  | .persistentConfig => leaseFiles c
  | .liveConfig => leaseLive
  | _ => []

/-- The units of the name service in a phase. -/
def nameUnits (c : Context) : Phase → List ConfigUnit
  | .install => [packageInstalled namePackage]
  | .persistentConfig => nameFiles c
  | .liveConfig => nameLive
  | _ => []

/-- The units of the firewall in a phase. -/
def ruleUnits (scope : RuleScope) (c : Context) : Phase → Except CompileError (List ConfigUnit)
  | .install => .ok (rulePackages c)
  | .persistentFirewall => ruleFiles scope c
  | .liveFirewall => ruleLive scope c
  | _ => .ok []

/-- The units that make a machine pass packets on. -/
def forwardingUnits : Phase → List ConfigUnit
  | .persistentConfig => [fileContent "/etc/sysctl.d/90-netconverge.conf" "net.ipv4.ip_forward = 1"]
  | .liveConfig => [kernelParameter "net.ipv4.ip_forward" "1"]
  | _ => []

/-- The units of a profile in a phase. The router's profile contains those of its services. -/
def units (c : Context) (phase : Phase) : Profile → Except CompileError (List ConfigUnit)
  | admins => .ok (match phase with
    | .persistentConfig => administratorUnits c
    | _ => [])
  | base => .ok (match phase with
    | .install => basePackages.map packageInstalled
    | .persistentConfig => identityFiles c
    | .liveConfig => identityLive c
    | _ => [])
  | dhcpServer => .ok (leaseUnits c phase)
  | dnsServer => .ok (nameUnits c phase)
  | hostFirewall => ruleUnits .host c phase
  | hypervisor => .ok (match phase with
    | .install => hypervisorPackages.map packageInstalled
    | .persistentConfig => hypervisorFiles c
    | .liveConfig => hypervisorLive c
    | _ => [])
  | networkd => .ok (match phase with
    | .persistentConfig => linkFileUnits c
    | .liveConfig => linkLive c
    | _ => [])
  | router => do
    let rules ← ruleUnits .router c phase
    pure (forwardingUnits phase ++ leaseUnits c phase ++ nameUnits c phase ++ rules)
  | routerFirewall => ruleUnits .router c phase
  | unattendedUpgrades => .ok (match phase with
    | .install => [packageInstalled updatePackage]
    | .persistentConfig => updateFiles
    | .liveConfig => updateLive
    | _ => [])

end Profile

/-! ## Profiles of machines -/

/-- Whether scripts are written for a machine. -/
def isManaged (m : Machine) : Bool :=
  m.isRouter || m.is .server

/-- The profiles that follow from the roles of a machine. -/
def roleProfiles (m : Machine) : List Profile :=
  [.base, .admins, .networkd] ++
    (if m.isRouter then [.router] else [.hostFirewall]) ++
    (if m.is .hypervisor then [.hypervisor] else []) ++
    [.unattendedUpgrades]

/-- The names of all profiles of a machine, each once: first those of its roles, then those it
lists. -/
def profileNames (m : Machine) : List String :=
  ((roleProfiles m).map Profile.name ++ m.profiles).eraseDups

/-- The profiles of a machine. A name that is none is an error. -/
def profilesOf (m : Machine) : Except InputError (List Profile) :=
  (profileNames m).mapM fun name =>
    match Profile.ofName? name with
    | some p => .ok p
    | none => .error (.unknownProfile m.label name)

/-- The units of some profiles in all phases. -/
def unitsOf (c : Context) (profiles : List Profile) : Except CompileError (List ConfigUnit) := do
  let units ← Phase.all.mapM fun phase => profiles.mapM fun p => p.units c phase
  pure units.flatten.flatten

/-- The units of a machine in order. -/
def machineUnits (c : Context) : Except Failure (List ConfigUnit) := do
  let profiles ← ofInput (profilesOf c.machine)
  ofCompile (unitsOf c profiles)

/-- The units of a machine, if they can be run in their order. -/
def checkedUnits (c : Context) : Except Failure (List ConfigUnit) := do
  let units ← machineUnits c
  ofCompile (checkUnits c.label units)
  pure units

end NetworkCompiler.Provision
