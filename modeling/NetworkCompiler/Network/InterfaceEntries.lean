import NetworkCompiler.Machine
import NetworkCompiler.Network.Description

/-!
# Interfaces of entries

The interfaces that the entries of a description stand for. A server's inner interface is static
when it has an address or the server is connected statically, and asks for an address otherwise;
the router's inner ports only carry VLANs. An outer interface follows the router's connection.

The single fields of an entry are read by `readAddress`, `readMac?`, `readSubnet?` and
`readPositive`, each of which takes the label and the field's name for the error it reports;
`checkLabel` looks at the labels themselves.
-/

namespace NetworkCompiler

open Ipv4 (Address Block)

/-! ## Fields -/

/-- Whether a character may stand in a label. -/
def isLabelChar (c : Char) : Bool :=
  c.isAlphanum || c = '-' || c = '_'

/-- Whether a text is a label: one to 63 ASCII letters, digits, hyphens and underscores, no
hyphen first. -/
def isLabel (label : String) : Bool :=
  !label.isEmpty && label.utf8ByteSize ≤ 63 && label.toList.all isLabelChar &&
    label.toList.head? ≠ some '-'

/-- Refuses a text that is no label. -/
def checkLabel (label : String) : Except InputError Unit :=
  if isLabel label then .ok () else .error (.invalidLabel label)

/-- An address, blanks around it dropped. -/
def readAddress (label field raw : String) : Except InputError Address :=
  match Address.ofText? (Text.trim raw) with
  | some a => .ok a
  | none => .error (.invalidIp label field raw)

/-- An address that may be missing. -/
def readAddress? (label field : String) : Option String → Except InputError (Option Address)
  | none => .ok none
  | some raw => (readAddress label field raw).map some

/-- The hardware address of an interface, which may be missing. -/
def readMac? (label iface : String) : Option String → Except InputError (Option Mac)
  | none => .ok none
  | some raw =>
    match Mac.ofText? raw with
    | some m => .ok (some m)
    | none => .error (.invalidMac label s!"{iface}.mac" raw)

/-- The subnet of an address in one of three notations: `address/length`, a bare length, or a
dotted mask. -/
def subnetOf? (raw : String) (address : Address) : Option Block :=
  if raw.toList.contains '/' then Block.ofText? raw
  else match Text.unsigned? 255 raw with
    | some length => Block.ofAddress? address length
    | none => do
      let mask ← Address.ofText? raw
      let length ← Block.lengthOfMask? mask
      Block.ofAddress? address length

/-- The subnet of an interface, which may be missing. -/
def readSubnet? (label : String) (raw : Option String) (address : Address) :
    Except InputError (Option Block) :=
  match raw.map Text.trim with
  | none => .ok none
  | some raw =>
    match subnetOf? raw address with
    | some b => .ok (some b)
    | none => .error (.invalidIp label "subnet" raw)

/-- A whole number from one on that fits 32 bits. -/
def readPositive (label field : String) (n : Int) : Except InputError Nat :=
  if 0 < n && n ≤ 0xffffffff then .ok n.toNat
  else .error (.invalidValue label field (toString n) "a positive integer")

/-! ## Interfaces -/

/-- The kind of an inner interface. -/
def lanKind (m : Machine) (hasAddress : Bool) : InterfaceKind :=
  if m.isRouter then .manual
  else if hasAddress || m.connection = .static then .static
  else .dhcp

/-- An inner interface of a machine. -/
def lanInterface (m : Machine) (name : String) (e : InterfaceEntry) :
    Except InputError Interface := do
  let mac ← readMac? m.label name e.mac
  let address ← readAddress? m.label "networkinterfaces.lan.address" e.address
  let blank := { Interface.new name (lanKind m address.isSome) .lan with mac := mac }
  match address with
  | none => blank.checked m.label
  | some a =>
    if m.isRouter then .error (.invalidInterface m.label name .routerPortWithAddress)
    else
      let subnet ← readSubnet? m.label e.subnet a
      let gateway ← readAddress? m.label "networkinterfaces.lan.gateway" e.gateway
      Interface.checked m.label
        { blank with addresses := [a], subnet := subnet, gateway := gateway }

/-- A field that an outer interface with a fixed address must have. -/
def requiredWanField (label iface field : String) :
    Option String → Except InputError String
  | some raw => .ok raw
  | none => .error (.missingField label s!"networkinterfaces.wan.{iface}.{field}")

/-- The addressing of an outer interface. -/
def wanAddressing (m : Machine) (name : String) (e : InterfaceEntry) :
    Except InputError Interface :=
  match m.wanConnection.getD .dhcp with
  | .dhcp => .ok (Interface.new name .dhcp .wan)
  | .static => do
    let raw ← requiredWanField m.label name "address" e.address
    let address ← readAddress m.label "networkinterfaces.wan.address" raw
    let raw ← requiredWanField m.label name "gateway" e.gateway
    let gateway ← readAddress m.label "networkinterfaces.wan.gateway" raw
    let subnet ← readSubnet? m.label e.subnet address
    let broadcast ← readAddress? m.label "networkinterfaces.wan.broadcast" e.broadcast
    pure { Interface.new name .static .wan with
      addresses := [address], subnet := subnet, gateway := some gateway, broadcast := broadcast }

/-- An outer interface of a machine; on a router it forwards and masquerades. -/
def wanInterface (m : Machine) (name : String) (e : InterfaceEntry) :
    Except InputError Interface := do
  let mac ← readMac? m.label name e.mac
  let i ← wanAddressing m name e
  Interface.checked m.label
    { i with mac := mac, ipForwarding := m.isRouter, ipMasquerading := m.isRouter }

/-- The interfaces of a device from number `n` on, one for each hardware address, which have to
differ from each other and from `seen`. -/
def deviceInterfacesFrom (label : String) :
    Nat → List Mac → List String → Except InputError (List Interface)
  | _, _, [] => .ok []
  | n, seen, raw :: rest => do
    let name := s!"lan{n}"
    match Mac.ofText? raw with
    | none => .error (.invalidMac label s!"{name}.mac" raw)
    | some mac =>
      if mac ∈ seen then .error (.invalidValue label "macs" raw "each MAC listed once")
      else
        let i ← Interface.checked label { Interface.new name .dhcp .lan with mac := some mac }
        let is ← deviceInterfacesFrom label (n + 1) (mac :: seen) rest
        pure (i :: is)

/-- The interfaces of a device; without hardware addresses it still has one. -/
def deviceInterfaces (label : String) (macs : List String) :
    Except InputError (List Interface) :=
  if macs.isEmpty then ((Interface.new "lan0" .dhcp .lan).checked label).map fun i => [i]
  else deviceInterfacesFrom label 0 [] macs

end NetworkCompiler
