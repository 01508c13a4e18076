import NetworkCompiler.Dictionary
import NetworkCompiler.Ipv4.Block
import NetworkCompiler.Mac
import NetworkCompiler.Mode
import NetworkCompiler.Role

/-!
# Settings

What can be chosen about a compilation apart from the network itself: how addresses are
allocated, which address block and VLAN each role gets, which firewall the rules are written for,
and which modes are rendered. `Settings.fault?` names the first value that is out of range.
-/

namespace NetworkCompiler

open Ipv4 (Address)

/-- When an address counts as taken. -/
inductive AllocationPolicy where
  /-- When any interface of any machine has it. -/
  | networkWide
  /-- When a machine placed in the same subnet has it. -/
  | perSubnet
  deriving DecidableEq, Repr, Inhabited

/-- The firewall that rules are written for. -/
inductive FirewallKind where
  | iptables
  | firewalld
  deriving DecidableEq, Repr, Inhabited

/-- Where the subnets of a role start, and the VLAN that carries them. -/
structure VlanPlan where
  base : Address
  vlan : Nat
  deriving DecidableEq

/-- The choices of a compilation. -/
structure Settings where
  policy : AllocationPolicy
  prefixLength : Nat
  vlans : Dictionary Role VlanPlan
  firewall : FirewallKind
  /-- The ports an outgoing rule opens when it names none. -/
  defaultPorts : List Nat
  /-- The first three octets of generated hardware addresses, as they are written. -/
  macPrefix : String
  modes : List Mode
  deriving DecidableEq

/-- The built-in plan of the roles that have a VLAN. -/
def defaultVlans : Dictionary Role VlanPlan :=
  let plan (octet vlan : Nat) : VlanPlan := ⟨.ofOctets 10 (UInt8.ofNat octet) 0 0, vlan⟩
  [(.server, plan 10 10), (.user, plan 40 40), (.internalOnly, plan 20 20),
    (.externalOnly, plan 30 30), (.admin, plan 50 50), (.guest, plan 250 250)]

/-- The prefix length of subnets when none is chosen. -/
def defaultPrefixLength : Nat := 24

/-- The built-in settings. -/
def Settings.default : Settings where
  policy := .networkWide
  prefixLength := defaultPrefixLength
  vlans := defaultVlans
  firewall := .iptables
  defaultPorts := [80, 443]
  macPrefix := "02:4e:43"
  modes := Mode.all

namespace Settings

/-- The plan of a role: the chosen one, else the built-in one. -/
def vlanFor? (s : Settings) (r : Role) : Option VlanPlan :=
  match Dictionary.get? r s.vlans with
  | some plan => some plan
  | none => Dictionary.get? r defaultVlans

/-- The beginning of generated hardware addresses; the built-in one where the text is none. -/
def macVendor (s : Settings) : MacVendor :=
  (MacVendor.ofText? s.macPrefix).getD ⟨0x02, 0x4e, 0x43⟩

/-- A value that is out of range. -/
inductive Fault where
  | prefixLength (n : Nat)
  | vlan (role : Role) (n : Nat)
  | zeroPort
  | macPrefix (text : String)
  deriving DecidableEq, Repr

/-- The wording of a fault. -/
def Fault.message : Fault → String
  | .prefixLength n => s!"subnets.prefix_len {n} must be within 8-30"
  | .vlan role n => s!"subnets.types.{role}.vlan {n} must be within 1-4094"
  | .zeroPort => "egress.default_ports may not contain 0"
  | .macPrefix text => s!"mac.prefix '{text}' must be three hex octets"

/-- The first value that is out of range. -/
def fault? (s : Settings) : Option Fault :=
  if !(8 ≤ s.prefixLength && s.prefixLength ≤ 30) then some (.prefixLength s.prefixLength)
  else match s.vlans.find? fun e => !(1 ≤ e.2.vlan && e.2.vlan ≤ 4094) with
    | some (role, plan) => some (.vlan role plan.vlan)
    | none =>
      if 0 ∈ s.defaultPorts then some .zeroPort
      else if (MacVendor.ofText? s.macPrefix).isNone then some (.macPrefix s.macPrefix)
      else none

/-- Whether every value is in range. -/
def Valid (s : Settings) : Prop := s.fault? = none

instance (s : Settings) : Decidable s.Valid := inferInstanceAs (Decidable (_ = _))

end Settings

end NetworkCompiler
