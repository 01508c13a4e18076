import NetworkCompiler.Firewall.Ruleset
import NetworkCompiler.Firewall.Zone
import NetworkCompiler.Settings.Basic

/-!
# Firewalls

What a compilation has to know about each firewall: its packages, its service, how its rules are
loaded and looked up, and the documents with the rules of a plan.
-/

namespace NetworkCompiler.FirewallKind

/-- The name of a firewall. -/
def word : FirewallKind → String
  | iptables => "iptables"
  | firewalld => "firewalld"

/-- The packages a firewall needs. -/
def packages : FirewallKind → List String
  | iptables => ["iptables", "iptables-persistent"]
  | firewalld => ["firewalld"]

/-- The service that loads the rules when the system starts. -/
def service : FirewallKind → String
  | iptables => "netfilter-persistent"
  | firewalld => "firewalld"

/-- The command that loads the rules. -/
def reloadCommand : FirewallKind → String
  | iptables => "iptables-restore < /etc/iptables/rules.v4"
  | firewalld => "firewall-cmd --reload"

/-- Tells whether the running rules have a fingerprint. -/
def liveCheck (revision : String) : FirewallKind → LiveCheck
  | iptables =>
    ⟨"iptables -S " ++ Firewall.markerChain ++ " 2>/dev/null | grep -c 'revision " ++ revision ++
      "'", "1"⟩
  | firewalld =>
    ⟨"firewall-cmd --zone=" ++ Firewall.zoneName ++ " --query-rich-rule='rule family=\"ipv4\"" ++
      " source address=\"127.0.0.1\" log prefix=\"" ++ revision ++ "\" drop'", "yes"⟩

/-- The rules of the router. -/
def routerDocument (g : Graph) (p : FirewallPlan) :
    FirewallKind → Except CompileError FirewallDocument
  | iptables => (Firewall.Ruleset.router? g p).map Firewall.Ruleset.document
  | firewalld => .ok (Firewall.Zone.router g p).document

/-- The rules of a machine that is not the router. -/
def hostDocument (g : Graph) (p : FirewallPlan) (id : MachineId) :
    FirewallKind → FirewallDocument
  | iptables => (Firewall.Ruleset.host g p id).document
  | firewalld => (Firewall.Zone.host g p id).document

end NetworkCompiler.FirewallKind
