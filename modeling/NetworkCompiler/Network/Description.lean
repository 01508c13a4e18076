import NetworkCompiler.Dictionary
import NetworkCompiler.Json.Value

/-!
# Network descriptions

A network as it is written down, before anything is checked: servers, devices and users by label,
with texts where addresses, ports and roles will be.

In a JSON document unknown keys are ignored and a missing one takes its default; `null` is a value for
texts and numbers that may be missing, and for nothing else. A record may also be written as the list
of its fields in their order: fields that are missing at its end take their defaults, and it may not
have more.
-/

namespace NetworkCompiler

/-- An interface as it is written down. -/
structure InterfaceEntry where
  mac : Option String := none
  address : Option String := none
  subnet : Option String := none
  gateway : Option String := none
  broadcast : Option String := none
  deriving DecidableEq, Repr, Inhabited

/-- A disk of a virtual service. -/
structure DiskEntry where
  medium : Option String := none
  format : Option String := none
  filename : Option String := none
  size : Option Int := none
  deriving DecidableEq, Repr, Inhabited

/-- What a server wants of the firewall. -/
structure FirewallEntry where
  listenTcp : List Int := []
  listenUdp : List Int := []
  allowEgressTo : List String := []
  allowIngressFrom : List String := []
  allowForwardTo : List String := []
  dnatTo : List String := []
  externalIp : Option String := none
  throttle : Bool := false
  deriving DecidableEq, Repr, Inhabited

/-- A server. -/
structure ServerEntry where
  types : List String := []
  hypervisor : Option String := none
  admins : List String := []
  connection : Option String := none
  extConnection : Option String := none
  debianMirror : Option String := none
  debianDirectory : Option String := none
  ram : Option Int := none
  cpus : Option Int := none
  disks : Dictionary String DiskEntry := []
  backups : Option Int := none
  cnames : List String := []
  email : Option String := none
  profiles : List String := []
  lan : Dictionary String InterfaceEntry := []
  wan : Dictionary String InterfaceEntry := []
  mac : Option String := none
  firewall : FirewallEntry := {}
  deriving DecidableEq, Repr, Inhabited

/-- A device without scripts of its own. -/
structure DeviceEntry where
  macs : List String := []
  throttle : Bool := false
  cnames : List String := []
  email : Option String := none
  allowEgressTo : List String := []
  deriving DecidableEq, Repr, Inhabited

/-- A person, who may own devices. -/
structure UserEntry where
  fullname : Option String := none
  email : Option String := none
  sshkey : Option String := none
  macs : List String := []
  deriving DecidableEq, Repr, Inhabited

/-- One network. -/
structure Description where
  domain : Option String := none
  resolvers : List String := []
  adblocking : Bool := false
  autoguest : Bool := false
  autogenpasswds : Bool := false
  servers : Dictionary String ServerEntry := []
  internalDevices : Dictionary String DeviceEntry := []
  externalDevices : Dictionary String DeviceEntry := []
  users : Dictionary String UserEntry := []
  deriving DecidableEq, Repr, Inhabited

/-! ## In JSON documents -/

namespace DescriptionJson

open Json (Value)

/-- The fields of a record, in the order of `keys`. -/
def fields? (keys : List String) : Value → Option (List (Option Value))
  | .obj members => some (keys.map fun k => Dictionary.get? k members)
  | .arr items =>
    if items.length ≤ keys.length then
      some ((List.range keys.length).map fun i => items[i]?)
    else none
  | _ => none

/-- A field that takes a default when it is missing. -/
def field? {α : Type} (fallback : α) (read : Value → Option α) : Option Value → Option α
  | some v => read v
  | none => some fallback

/-- A truth value. -/
def bool? : Value → Option Bool
  | .bool b => some b
  | _ => none

/-- A text. -/
def text? : Value → Option String
  | .str s => some s
  | _ => none

/-- A whole number that fits 64 bits with its sign. -/
def int? : Value → Option Int
  | .int n => if n ≤ 0x7fffffffffffffff then some n else none
  | _ => none

/-- A value that may be `null`. -/
def nullable? {α : Type} (read : Value → Option α) : Value → Option (Option α)
  | .null => some none
  | v => (read v).map some

/-- A list of values. -/
def list? {α : Type} (read : Value → Option α) : Value → Option (List α)
  | .arr items => items.mapM read
  | _ => none

/-- Values by their names. -/
def dictionary? {α : Type} (read : Value → Option α) : Value → Option (Dictionary String α)
  | .obj members => members.mapM fun (k, v) => (read v).map (k, ·)
  | _ => none

/-- A text that may be missing. -/
def optText? : Option Value → Option (Option String) := field? none (nullable? text?)

/-- A number that may be missing. -/
def optInt? : Option Value → Option (Option Int) := field? none (nullable? int?)

/-- A list of texts. -/
def texts? : Option Value → Option (List String) := field? [] (list? text?)

/-- A list of numbers. -/
def ints? : Option Value → Option (List Int) := field? [] (list? int?)

/-- A truth value that is false when it is missing. -/
def flag? : Option Value → Option Bool := field? false bool?

/-- Entries by their labels. -/
def entries? {α : Type} (read : Value → Option α) : Option Value → Option (Dictionary String α) :=
  field? [] (dictionary? read)

/-- An interface. -/
def interface? (v : Value) : Option InterfaceEntry :=
  match fields? ["mac", "address", "subnet", "gateway", "broadcast"] v with
  | some [mac, address, subnet, gateway, broadcast] => do
    pure {
      mac := ← optText? mac
      address := ← optText? address
      subnet := ← optText? subnet
      gateway := ← optText? gateway
      broadcast := ← optText? broadcast }
  | _ => none

/-- The interfaces on both sides. -/
def interfaces? (v : Value) :
    Option (Dictionary String InterfaceEntry × Dictionary String InterfaceEntry) :=
  match fields? ["lan", "wan"] v with
  | some [lan, wan] => do
    let lan ← entries? interface? lan
    let wan ← entries? interface? wan
    pure (lan, wan)
  | _ => none

/-- A disk. -/
def disk? (v : Value) : Option DiskEntry :=
  match fields? ["medium", "format", "filename", "size"] v with
  | some [medium, format, filename, size] => do
    pure {
      medium := ← optText? medium
      format := ← optText? format
      filename := ← optText? filename
      size := ← optInt? size }
  | _ => none

/-- The ports a server listens on, TCP first. -/
def listen? (v : Value) : Option (List Int × List Int) :=
  match fields? ["tcp", "udp"] v with
  | some [tcp, udp] => do
    let tcp ← ints? tcp
    let udp ← ints? udp
    pure (tcp, udp)
  | _ => none

/-- What a server wants of the firewall. -/
def firewall? (v : Value) : Option FirewallEntry :=
  let keys := ["listen", "allow_egress_to", "allow_ingress_from", "allow_forward_to", "dnat_to",
    "external_ip", "throttle"]
  match fields? keys v with
  | some [listen, egress, ingress, forward, dnat, externalIp, throttle] => do
    let (tcp, udp) ← field? ([], []) listen? listen
    pure {
      listenTcp := tcp
      listenUdp := udp
      allowEgressTo := ← texts? egress
      allowIngressFrom := ← texts? ingress
      allowForwardTo := ← texts? forward
      dnatTo := ← texts? dnat
      externalIp := ← optText? externalIp
      throttle := ← flag? throttle }
  | _ => none

/-- The keys of a server. -/
def serverKeys : List String := [
  "types", "hypervisor", "admins", "connection", "extconnection", "debianmirror",
  "debiandirectory", "ram", "cpus", "disks", "backups", "cnames", "email", "profiles",
  "networkinterfaces", "mac", "firewall"]

/-- A server. -/
def server? (v : Value) : Option ServerEntry :=
  match fields? serverKeys v with
  | some [types, hypervisor, admins, connection, extConnection, debianMirror, debianDirectory,
      ram, cpus, disks, backups, cnames, email, profiles, interfaces, mac, firewall] => do
    let (lan, wan) ← field? ([], []) interfaces? interfaces
    pure {
      types := ← texts? types
      hypervisor := ← optText? hypervisor
      admins := ← texts? admins
      connection := ← optText? connection
      extConnection := ← optText? extConnection
      debianMirror := ← optText? debianMirror
      debianDirectory := ← optText? debianDirectory
      ram := ← optInt? ram
      cpus := ← optInt? cpus
      disks := ← entries? disk? disks
      backups := ← optInt? backups
      cnames := ← texts? cnames
      email := ← optText? email
      profiles := ← texts? profiles
      lan := lan
      wan := wan
      mac := ← optText? mac
      firewall := ← field? {} firewall? firewall }
  | _ => none

/-- A device. -/
def device? (v : Value) : Option DeviceEntry :=
  match fields? ["macs", "throttle", "cnames", "email", "allow_egress_to"] v with
  | some [macs, throttle, cnames, email, egress] => do
    pure {
      macs := ← texts? macs
      throttle := ← flag? throttle
      cnames := ← texts? cnames
      email := ← optText? email
      allowEgressTo := ← texts? egress }
  | _ => none

/-- A user. -/
def user? (v : Value) : Option UserEntry :=
  match fields? ["fullname", "email", "sshkey", "macs"] v with
  | some [fullname, email, sshkey, macs] => do
    pure {
      fullname := ← optText? fullname
      email := ← optText? email
      sshkey := ← optText? sshkey
      macs := ← texts? macs }
  | _ => none

/-- The keys of a network. -/
def networkKeys : List String := [
  "domain", "upstreamdns", "adblocking", "autoguest", "autogenpasswds", "servers",
  "internaldevices", "externaldevices", "users"]

/-- A network. -/
def description? (v : Value) : Option Description :=
  match fields? networkKeys v with
  | some [domain, resolvers, adblocking, autoguest, autogenpasswds, servers, internalDevices,
      externalDevices, users] => do
    pure {
      domain := ← optText? domain
      resolvers := ← texts? resolvers
      adblocking := ← flag? adblocking
      autoguest := ← flag? autoguest
      autogenpasswds := ← flag? autogenpasswds
      servers := ← entries? server? servers
      internalDevices := ← entries? device? internalDevices
      externalDevices := ← entries? device? externalDevices
      users := ← entries? user? users }
  | _ => none

end DescriptionJson

end NetworkCompiler
