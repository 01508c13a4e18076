import NetworkCompiler.Firewall.Endpoint

/-!
# Tables of packet rules

A `Table` is a list of chains and a list of rules, each of which belongs to a chain: a packet
that meets all conditions of a rule suffers its verdict. `Table.lines` writes a table in the
form that a kernel loads. A source or destination that is anywhere is no condition and is not
written.
-/

namespace NetworkCompiler.Firewall

open Ipv4 (Address)

/-- What a packet has to meet for a rule to apply. -/
inductive Condition where
  /-- It arrives on an interface. -/
  | into (iface : String)
  /-- It leaves through an interface. -/
  | outOf (iface : String)
  | fromAddress (a : Address)
  | toAddress (a : Address)
  | source (e : Endpoint)
  | destination (e : Endpoint)
  /-- It is of a protocol and for one of the ports. -/
  | service (protocol : Protocol) (ports : PortSet)
  | icmp
  /-- It belongs to a connection that is known already. -/
  | established
  /-- Its source sends more than it may. -/
  | aboveLimit
  /-- Met by every packet: it carries the fingerprint of the rules. -/
  | revision (fingerprint : String)
  deriving DecidableEq

/-- What happens to a packet that meets the conditions of a rule. -/
inductive Verdict where
  | accept
  | drop
  /-- Goes back to the chain that was jumped from. -/
  | back
  /-- Gives the packet the router's own source address. -/
  | masquerade
  | redirect (target : Address)
  | jump (chain : String)
  deriving DecidableEq

/-- A rule of a chain. -/
structure PacketRule where
  chain : String
  conditions : List Condition
  verdict : Verdict
  deriving DecidableEq

/-- A chain, and what happens to packets at its end if it is a built-in one. -/
structure Chain where
  name : String
  policy : Option Verdict
  deriving DecidableEq

/-- Chains and their rules. -/
structure Table where
  name : String
  chains : List Chain
  rules : List PacketRule
  deriving DecidableEq

/-! ## Writing -/

/-- An end as a condition. -/
def endpointText (flag : String) : Endpoint → String
  | .any => ""
  | e => s!" {flag} {e.text}"

/-- A set of ports as a condition. -/
def portsText (ports : PortSet) : String :=
  match ports.ports with
  | [] => ""
  | [_] => " --dport " ++ ports.joined
  | _ => " -m multiport --dports " ++ ports.joined

/-- A condition, with a space in front of it. -/
def Condition.text : Condition → String
  | into iface => " -i " ++ iface
  | outOf iface => " -o " ++ iface
  | fromAddress a => " -s " ++ a.text
  | toAddress a => " -d " ++ a.text
  | source e => endpointText "-s" e
  | destination e => endpointText "-d" e
  | service protocol ports => " -p " ++ protocol.word ++ portsText ports
  | icmp => " -p icmp"
  | established => " -m conntrack --ctstate RELATED,ESTABLISHED"
  | aboveLimit => " -m hashlimit --hashlimit-above 1mb/s --hashlimit-burst 2mb" ++
      " --hashlimit-mode srcip --hashlimit-name throttle"
  | revision fingerprint => " -m comment --comment \"revision " ++ fingerprint ++ "\""

/-- A verdict as the target of a rule. -/
def Verdict.text : Verdict → String
  | accept => "ACCEPT"
  | drop => "DROP"
  | back => "RETURN"
  | masquerade => "MASQUERADE"
  | redirect target => "DNAT --to-destination " ++ target.text
  | jump chain => chain

/-- A rule on one line. -/
def PacketRule.line (r : PacketRule) : String :=
  "-A " ++ r.chain ++ String.join (r.conditions.map Condition.text) ++ " -j " ++ r.verdict.text

/-- A chain on one line. -/
def Chain.line (c : Chain) : String :=
  ":" ++ c.name ++ " " ++ (c.policy.map Verdict.text).getD "-" ++ " [0:0]"

/-- The lines of a table up to the one that ends it. -/
def Table.openLines (t : Table) : List String :=
  ("*" ++ t.name) :: (t.chains.map Chain.line ++ t.rules.map PacketRule.line)

/-- The line that ends a table. -/
def commitLine : String := "COMMIT"

/-- The lines of a table. -/
def Table.lines (t : Table) : List String :=
  t.openLines ++ [commitLine]

end NetworkCompiler.Firewall
