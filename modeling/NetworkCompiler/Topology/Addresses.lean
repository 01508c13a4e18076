import NetworkCompiler.Failure
import NetworkCompiler.Report.Event
import NetworkCompiler.Topology.Basic

/-!
# Assigning addresses

Every inner interface of a placed machine gets an address of its machine's subnet and a hardware
address. Declared addresses are claimed first; the others are the first hosts behind the gateway
that nobody claims. What counts as claimed depends on the policy: everything in the network, or
what belongs to the same subnet. Hardware addresses that are missing are made up from a hash, the
first candidate that is not in use.
-/

namespace NetworkCompiler

open Ipv4 (Address Block)

/-- An address that is taken. `role` is the subnet it belongs to, if it belongs to one. -/
structure Claim where
  role : Option Role
  address : Address
  owner : String
  deriving DecidableEq

/-- How the owner of an address is named. -/
def ownerName (label iface : String) : String := s!"{label} {iface}"

/-- Who holds an address for an interface in the subnet of `role`. -/
def holder? (policy : AllocationPolicy) (claims : List Claim) (role : Role) (a : Address) :
    Option String :=
  (claims.find? fun c =>
    c.address = a && (policy = .networkWide || c.role = some role)).map (·.owner)

/-- The gateways as claims. -/
def gatewayClaims (subnets : List Subnet) : List Claim :=
  subnets.map fun s => ⟨some s.role, s.gateway, s!"{s.iface} gateway"⟩

/-- The addresses of outer interfaces as claims. -/
def wanClaims (g : Graph) : List Claim :=
  g.machines.flatMap fun m => m.wan.flatMap fun i =>
    i.addresses.map fun a => ⟨none, a, ownerName m.label i.name⟩

/-- What is claimed before any machine inside is looked at, latest first. -/
def initialClaims (g : Graph) (policy : AllocationPolicy) (subnets : List Subnet) :
    List Claim :=
  match policy with
  | .networkWide => (wanClaims g ++ gatewayClaims subnets).reverse
  | .perSubnet => (gatewayClaims subnets).reverse

/-- Where every machine with inner interfaces is placed. -/
def placementsOf (g : Graph) : List (MachineId × Role) :=
  g.entries.filterMap fun (id, m) =>
    if m.lan.isEmpty then none else m.vlanRole?.map fun r => (id, r)

/-- An inner interface with its machine and its machine's subnet. -/
structure Seat where
  subnet : Subnet
  machine : MachineId
  label : String
  iface : Interface
  deriving DecidableEq

/-- The inner interfaces in the order in which they are served: by subnet, machine, interface. -/
def seats (g : Graph) (placements : List (MachineId × Role)) (subnets : List Subnet) :
    List Seat :=
  subnets.flatMap fun s =>
    (g.entries.filter fun e => (e.1, s.role) ∈ placements).flatMap fun (id, m) =>
      m.lan.map fun i => ⟨s, id, m.label, i⟩

/-- Whether a declared address is a host of a block. -/
def isHostOf (net : Block) (a : Address) : Bool :=
  net.contains a && a ≠ net.network && a ≠ net.broadcast

/-- The claim of an interface on an address. -/
def Seat.claim (s : Seat) (a : Address) : Claim :=
  ⟨some s.subnet.role, a, ownerName s.label s.iface.name⟩

/-- Claims the declared address of an interface, if it has one. -/
def claimExplicit (policy : AllocationPolicy) (claims : List Claim) (s : Seat) :
    Except TopologyError (List Claim) :=
  match s.iface.addresses.head? with
  | none => .ok claims
  | some a =>
    let field := s!"networkinterfaces.lan.{s.iface.name}.address"
    if !isHostOf s.subnet.net a then
      .error (.addressOutsideSubnet s.label field a.text s.subnet.net.text)
    else match holder? policy claims s.subnet.role a with
      | some owner => .error (.addressInUse s.label field a.text owner)
      | none => .ok (s.claim a :: claims)

/-- The first of `count` addresses from number `value` on that `free` accepts. -/
def firstAddress? (free : Address → Bool) : Nat → Nat → Option Address
  | 0, _ => none
  | count + 1, value =>
    let a := Address.ofNat value
    if free a then some a else firstAddress? free count (value + 1)

/-- The first host of a subnet behind its gateway that nobody holds. -/
def freeHost? (policy : AllocationPolicy) (claims : List Claim) (s : Subnet) : Option Address :=
  firstAddress? (fun a => (holder? policy claims s.role a).isNone)
    (s.net.hostCountAfter s.gateway) (s.gateway.value + 1)

/-- The first candidate from number `attempt` on that is not in use; `fuel` bounds the search. -/
def freshMacFrom (candidate : Nat → Mac) (used : List Mac) : Nat → Nat → Mac
  | 0, _ => candidate 0
  | fuel + 1, attempt =>
    if candidate attempt ∈ used then freshMacFrom candidate used fuel (attempt + 1)
    else candidate attempt

/-- A hardware address for a label that is not in use, the first of its candidates. -/
def freshMac (candidates : String → Nat → Mac) (label : String) (used : List Mac) : Mac :=
  freshMacFrom (candidates label) used 0x100000000 0

/-- What is claimed and in use so far. -/
structure Pool where
  claims : List Claim
  macs : List Mac

/-- Gives an interface its hardware address: the declared one, or a new one. -/
def settleMac (candidates : String → Nat → Mac) (pool : Pool) (s : Seat) :
    Traced TopologyError (Mac × Bool × Pool) := do
  match s.iface.mac with
  | some mac => pure (mac, false, pool)
  | none =>
    let mac := freshMac candidates s.label pool.macs
    Traced.report (.macGenerated s.label s.iface.name mac)
    pure (mac, true, { pool with macs := mac :: pool.macs })

/-- Gives an interface its address: the declared one, or the first free host. -/
def settleAddress (policy : AllocationPolicy) (pool : Pool) (s : Seat) :
    Except TopologyError (Address × Bool × Pool) :=
  match s.iface.addresses.head? with
  | some a => .ok (a, true, pool)
  | none =>
    match freeHost? policy pool.claims s.subnet with
    | some a => .ok (a, false, { pool with claims := s.claim a :: pool.claims })
    | none => .error (.subnetExhausted s.label s.subnet.net.text)

/-- Serves interfaces one after the other. -/
def settle (policy : AllocationPolicy) (candidates : String → Nat → Mac) (pool : Pool) :
    List Seat → Traced TopologyError (List Assignment)
  | [] => pure []
  | s :: rest => do
    let (mac, generated, pool) ← settleMac candidates pool s
    let (address, explicit, pool) ← Traced.ofExcept (settleAddress policy pool s)
    Traced.report (.addressAssigned s.label s.iface.name address explicit)
    let done ← settle policy candidates pool rest
    pure (⟨s.machine, s.iface.name, address, mac, s.subnet.role, explicit, generated⟩ :: done)

/-- Refuses a placed machine that has to declare its hardware addresses and does not. -/
def checkDeclaredMacs (g : Graph) (placements : List (MachineId × Role)) :
    Except TopologyError Unit :=
  (g.entries.filter fun e => placements.any fun p => p.1 = e.1).forM fun (_, m) =>
    match m.requiresMac, m.lan.find? fun i => i.mac.isNone with
    | true, some i => .error (.missingMac m.label i.name)
    | _, _ => .ok ()

/-- All declared hardware addresses. -/
def macsInUse (g : Graph) : List Mac :=
  g.machines.flatMap fun m => m.interfaces.filterMap (·.mac)

/-- What every inner interface gets; missing hardware addresses are made up by `hash`. -/
def assignAddresses (hash : List UInt8 → List UInt8) (g : Graph) (settings : Settings)
    (placements : List (MachineId × Role)) (subnets : List Subnet) :
    Traced TopologyError (List Assignment) := do
  Traced.ofExcept (checkDeclaredMacs g placements)
  let seats := seats g placements subnets
  let claims ← Traced.ofExcept
    (seats.foldlM (claimExplicit settings.policy) (initialClaims g settings.policy subnets))
  settle settings.policy (Mac.derivedBy hash settings.macVendor) ⟨claims, macsInUse g⟩ seats

end NetworkCompiler
