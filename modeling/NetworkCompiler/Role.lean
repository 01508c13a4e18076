import NetworkCompiler.Text.Numeral
import NetworkCompiler.Text.Split

/-!
# Roles of machines

The closed set of roles a machine can hold; a machine may hold several, and its set of roles
decides which VLAN it is placed in. `Role.vlanEligible` lists the roles with a VLAN of their own
in the order in which VLANs are allocated, `Role.placementPriority` the same roles in the order
in which they decide a placement.
-/

namespace NetworkCompiler

/-- A role of a machine. -/
inductive Role where
  | router
  | server
  | hypervisor
  | dedicated
  | service
  | device
  | user
  | internalOnly
  | externalOnly
  | admin
  | guest
  | vpn
  | internet
  deriving DecidableEq, Repr, Inhabited

namespace Role

/-- All roles. -/
def all : List Role :=
  [router, server, hypervisor, dedicated, service, device, user, internalOnly, externalOnly, admin,
    guest, vpn, internet]

/-- The place of a role among all. -/
def index (r : Role) : Nat :=
  all.idxOf r

instance : LT Role := ⟨fun a b => a.index < b.index⟩

instance : DecidableLT Role := fun a b => inferInstanceAs (Decidable (a.index < b.index))

/-- The roles with a VLAN of their own, in allocation order. -/
def vlanEligible : List Role :=
  [server, internalOnly, externalOnly, user, admin, guest]

/-- The same roles by the priority with which they place a machine. -/
def placementPriority : List Role :=
  [server, admin, user, internalOnly, externalOnly, guest]

/-- The word for a role. -/
def word : Role → String
  | router => "router"
  | server => "server"
  | hypervisor => "hypervisor"
  | dedicated => "dedicated"
  | service => "service"
  | device => "device"
  | user => "user"
  | internalOnly => "internalonly"
  | externalOnly => "externalonly"
  | admin => "admin"
  | guest => "guest"
  | vpn => "vpn"
  | internet => "internet"

instance : ToString Role := ⟨word⟩

/-- The name of the VLAN interface that carries a role. -/
def vlanInterface : Role → String
  | server => "servers"
  | user => "users"
  | admin => "admins"
  | guest => "guests"
  | r => r.word

/-- Whether a role is one of physical machines, which bring their own hardware address. -/
def requiresMac (r : Role) : Bool :=
  r ∈ [device, dedicated, hypervisor]

/-- The role of exactly this word. -/
def ofWord? (w : String) : Option Role :=
  all.find? fun r => r.word == w

/-- The role of a word, in any case and with blanks around it. -/
def ofText? (s : String) : Option Role :=
  ofWord? (Text.lowercase (Text.trim s))

/-- A set of roles as a list in their common order. -/
def setOf (roles : List Role) : List Role :=
  all.filter fun r => r ∈ roles

end Role

end NetworkCompiler
