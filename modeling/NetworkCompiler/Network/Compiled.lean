import NetworkCompiler.Failure
import NetworkCompiler.Firewall.Plan
import NetworkCompiler.Network.GraphConstruction
import NetworkCompiler.Topology.Construction

/-!
# Compiled networks

A network on which everything that concerns the network as a whole has been decided: its graph,
its topology and its firewall plan. The scripts of its machines are written from this value
alone, so all of them see the same addresses and rules.
-/

namespace NetworkCompiler

/-- A network after all decisions. -/
structure CompiledNetwork where
  graph : Graph
  topology : Topology
  firewall : FirewallPlan
  settings : Settings
  deriving DecidableEq

namespace CompiledNetwork

/-- The graph of a description. -/
def graphOf (name : String) (d : Description) (s : Settings) : Traced Failure Graph := do
  let g ← Traced.ofExcept (Graph.ofDescription name d s)
  Traced.report (.graphBuilt name g.machines.length)
  pure g

/-- Decides everything about a network. -/
def ofDescription (name : String) (d : Description) (s : Settings) :
    Traced Failure CompiledNetwork := do
  let g ← graphOf name d s
  let t ← Topology.ofGraph g s
  let p ← (FirewallPlan.ofTopology g t).mapError .topology
  Traced.report (.passesComplete name g.machines.length)
  pure ⟨g, t, p, s⟩

end CompiledNetwork

end NetworkCompiler
