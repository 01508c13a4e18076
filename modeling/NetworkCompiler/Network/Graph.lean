import NetworkCompiler.Machine

/-!
# Machine graphs

All machines of one network in a fixed order: servers, inner devices, outer devices, users, each
by label. A machine is referred to by its place in this order (`MachineId`) or by its label
(`Graph.idOf?`).
-/

namespace NetworkCompiler

open Ipv4 (Address)

/-- The place of a machine in its graph. -/
abbrev MachineId := Nat

/-- All machines of a network. -/
structure Graph where
  name : String
  domain : String
  resolvers : List Address
  adblocking : Bool
  autoguest : Bool
  autogenpasswds : Bool
  machines : List Machine
  deriving DecidableEq

namespace Graph

/-- The machine at a place. -/
def machine? (g : Graph) (id : MachineId) : Option Machine :=
  g.machines[id]?

/-- The place of a label. -/
def idOf? (g : Graph) (label : String) : Option MachineId :=
  g.machines.findIdx? fun m => m.label = label

/-- The machine of a label. -/
def get? (g : Graph) (label : String) : Option Machine :=
  g.machines.find? fun m => m.label = label

/-- Every machine with its place, in order. -/
def entries (g : Graph) : List (MachineId × Machine) :=
  g.machines.zipIdx.map fun (m, id) => (id, m)

/-- The machines that hold a role, with their places. -/
def withRole (g : Graph) (r : Role) : List (MachineId × Machine) :=
  g.entries.filter fun e => e.2.is r

/-- The services hosted on a hypervisor. -/
def servicesOn (g : Graph) (hypervisor : String) : List Machine :=
  g.machines.filter fun m =>
    match m.service with
    | some s => s.hypervisor = hypervisor
    | none => false

/-- The place of every label, by ascending label. -/
def index (g : Graph) : Dictionary String MachineId :=
  Dictionary.ofList (g.entries.map fun (id, m) => (m.label, id))

end Graph

end NetworkCompiler
