import NetworkCompiler.Compilation.Scripts
import NetworkCompiler.Terminal.Style

/-!
# Overviews

A compiled network as text for people: its trunk, its subnets and its machines
(`CompiledNetwork.overview`), and one line per script that was written (`scriptSummary`).
-/

namespace NetworkCompiler

open Terminal (Style)
open Provision (isManaged profileNames)

namespace CompiledNetwork

/-- The line of the trunk. -/
def trunkLine (t : Topology) : String :=
  let members := t.bondMembers.map (·.name)
  let suffix := if members.isEmpty then "" else " members=" ++ Text.joinWith "," members
  s!"- {t.trunk.name} ({t.trunk.kind}){suffix}"

/-- The line of a subnet. -/
def subnetLine (s : Subnet) : String :=
  s!"- {s.role} vlan={s.vlanId} iface={s.iface} net={s.net} gateway={s.gateway}"

/-- Texts with commas between them, a hyphen where there are none. -/
def orHyphen (l : List String) : String :=
  if l.isEmpty then "-" else Text.joinWith "," l

/-- The line of a machine. -/
def machineLine (t : Topology) (id : MachineId) (m : Machine) : String :=
  let roles := Text.joinWith "," (m.roles.map Role.word)
  let placed := ((t.placement? id).map Role.word).getD "-"
  let addresses := orHyphen ((t.addressesOf id).map (·.text))
  let profiles :=
    if isManaged m then " profiles=" ++ Text.joinWith "," (profileNames m) else ""
  s!"- {m.label} [{roles}] vlan={placed} addr={addresses}{profiles}"

/-- A network as text. -/
def overview (color : Bool) (name : String) (n : CompiledNetwork) : String :=
  let g := n.graph
  let t := n.topology
  let router := ((g.machine? t.router).map (·.label)).getD ""
  let title := Style.bold.paint color ("network " ++ name)
  let heading := Style.boldCyan.paint color
  Text.unlines <|
    [s!"{title} domain={g.domain} machines={g.machines.length} router={router}",
      heading "trunk", trunkLine t, heading "subnets"] ++
    t.subnets.map subnetLine ++
    [heading "machines"] ++
    g.entries.map fun (id, m) => machineLine t id m

end CompiledNetwork

/-- One line per script, and how many there are. -/
def scriptSummary (color : Bool) (scripts : List MachineScript) : String :=
  let wrote := Style.green.paint color "wrote"
  Text.joinWith "\n" <|
    scripts.map (fun s => s!"{wrote} {s.fileName} units={s.units}") ++
      [Style.cyan.paint color s!"scripts={scripts.length}"]

end NetworkCompiler
