import NetworkCompiler.ConfigUnit.Catalogue
import NetworkCompiler.Network.Compiled
import NetworkCompiler.Secrets.Reader

/-!
# What units are made from

The units of a machine are made from the compiled network, the machine's place in it, and the
passphrases (`Context`).
-/

namespace NetworkCompiler.Provision

/-- What the units of a machine may depend on. -/
structure Context where
  network : CompiledNetwork
  id : MachineId
  machine : Machine
  secrets : Secrets

namespace Context

/-- The context of a machine, if there is one at this place. -/
def of? (n : CompiledNetwork) (secrets : Secrets) (id : MachineId) : Option Context :=
  (n.graph.machine? id).map fun m => ⟨n, id, m, secrets⟩

/-- The graph of the network. -/
def graph (c : Context) : Graph := c.network.graph

/-- The topology of the network. -/
def topology (c : Context) : Topology := c.network.topology

/-- The label of the machine. -/
def label (c : Context) : String := c.machine.label

end Context

end NetworkCompiler.Provision
