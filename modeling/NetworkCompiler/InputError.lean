import NetworkCompiler.FileTree.Path
import NetworkCompiler.Json.Value

/-!
# Faults of the input

Everything that can be wrong with a network description by itself, as causes. `InputError.message`
is the one place that words them.
-/

namespace NetworkCompiler

/-- Why an interface is illegal for its kind. -/
inductive InterfaceFault where
  | badName
  | dhcpWithAddressing
  | carrierWithAddress
  | vlanWithoutCarrier
  | dummyRequiredOnline
  | tunnelWithoutAddress
  | membersOutsideBond
  | masqueradingInside
  | addressOutside (address subnet : String)
  | routerPortWithAddress
  deriving DecidableEq, Repr

/-- The wording of an interface fault. -/
def InterfaceFault.message : InterfaceFault → String
  | badName => "name must be 1-15 characters without '/', ':' or whitespace"
  | dhcpWithAddressing => "dhcp interfaces cannot carry static addressing"
  | carrierWithAddress => "carrier interfaces cannot carry addresses"
  | vlanWithoutCarrier => "vlan interfaces need a parent and an id within 1-4094"
  | dummyRequiredOnline => "dummy interfaces are never required for online"
  | tunnelWithoutAddress => "tunnel interfaces need at least one address"
  | membersOutsideBond => "only bonds take member interfaces"
  | masqueradingInside => "masquerading is only legal on WAN interfaces"
  | addressOutside address subnet => s!"address {address} is outside subnet {subnet}"
  | routerPortWithAddress => "router LAN ports are VLAN carriers and take no address"

/-- Why an included file cannot be merged into a network. -/
inductive IncludeFault where
  /-- The path is not a text. -/
  | notText
  /-- The included file includes another one. -/
  | nested
  /-- The file is not a document; the message says why. -/
  | document (message : String)
  deriving DecidableEq, Repr

/-- The wording of an include fault. -/
def IncludeFault.message : IncludeFault → String
  | notText => "include must be a string path"
  | nested => "included files cannot include further files"
  | document message => message

/-- A fault of the input. -/
inductive InputError where
  /-- A file cannot be read. -/
  | unreadable (path : String) (cause : FileFault)
  /-- A document is not well-formed JSON, or not of the expected shape. -/
  | json (path : String) (fault : JsonFault)
  /-- A network's included file cannot be merged. -/
  | badInclude (network path : String) (fault : IncludeFault)
  | networkNotFound (network : String)
  | invalidLabel (label : String)
  | duplicateLabel (label : String)
  | invalidPort (label field : String) (value : Int)
  | invalidIp (label field value : String)
  | invalidMac (label field value : String)
  | duplicateMac (label field mac other : String)
  | duplicateInterface (label iface : String)
  | invalidInterface (label iface : String) (fault : InterfaceFault)
  | missingUser (label field user : String)
  | missingField (label field : String)
  | invalidValue (label field value expected : String)
  | unknownProfile (label profile : String)
  deriving DecidableEq, Repr

/-- The wording of a fault; what exactly a JSON reader objects to is left out. -/
def InputError.message : InputError → String
  | unreadable path cause => s!"failed to read {path}: {cause.message}"
  | json path _ => s!"failed to parse JSON in {path}"
  | badInclude network path fault =>
    s!"network '{network}': include {path}: {fault.message}"
  | networkNotFound network => s!"network '{network}' not found in input"
  | invalidLabel label => s!"'{label}' is not a valid machine label"
  | duplicateLabel label => s!"machine label '{label}' is declared more than once"
  | invalidPort label field value => s!"{label}: {field} port {value} is outside 1-65535"
  | invalidIp label field value => s!"{label}: {field} '{value}' is not a valid IPv4 address"
  | invalidMac label field value => s!"{label}: {field} '{value}' is not a valid MAC address"
  | duplicateMac label field mac other =>
    s!"{label}: {field} '{mac}' is already used by '{other}'"
  | duplicateInterface label iface =>
    s!"{label}: interface '{iface}' is declared more than once"
  | invalidInterface label iface fault => s!"{label}: interface '{iface}': {fault.message}"
  | missingUser label field user =>
    s!"{label}: {field} references user '{user}' which is not declared"
  | missingField label field => s!"{label}: missing required field {field}"
  | invalidValue label field value expected =>
    s!"{label}: {field} '{value}' is invalid, expected {expected}"
  | unknownProfile label profile => s!"{label}: unknown profile '{profile}'"

end NetworkCompiler
