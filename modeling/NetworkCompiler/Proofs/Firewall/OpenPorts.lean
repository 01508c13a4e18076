import NetworkCompiler.Proofs.Firewall.Plans
import NetworkCompiler.Proofs.Network.Ports

/-!
# Open ports

What a plan opens towards a machine it opens on ports that the machine's entry names
(`ports_of_towards`). The empty set of ports stands for every port, and no rule towards a machine
and no declared redirection carries it : the readers of a description refuse a source or a
destination without ports where the machine listens on none. The outer address of a machine is not
held against its ports. `redirected_ports_named` : a redirection is for the TCP ports that the
machine listens on, and it is for every port exactly if it was made from the outer address of a
machine that listens on none.
-/

namespace NetworkCompiler

open Ipv4 (Address Block)

namespace FirewallPlan

variable {name : String} {d : Description} {s : Settings} {g : Graph} {t : Topology}
  {p : FirewallPlan} (hg : Graph.ofDescription name d s = .ok g)
  (hp : (ofTopology g t).result = .ok p)
include hg hp

/-- The rules towards a machine are for ports of its entry. -/
theorem ports_of_towards {w : MachineRules} (hw : w ∈ p.machines) {x : ResolvedRule}
    (hx : x ∈ w.listen ++ w.ingress) :
    x.ports.isAny = false ∧ ∃ e, (w.label, e) ∈ d.servers ∧
      ∀ port ∈ x.ports.ports, e.firewall.Names w.label x.protocol port := by
  obtain ⟨m, hm, hlabel, -, hplan⟩ := exists_of_mem_machines hp hw
  obtain ⟨e, hasks, hcarries⟩ := Graph.carriesPorts hg (List.mem_of_getElem? hm)
  have hports : x.ports.isAny = false ∧
      ∀ port ∈ x.ports.ports, e.Names m.label x.protocol port := by
    rcases List.mem_append.mp hx with hx | hx
    · obtain ⟨r, hr, hfrom⟩ := hplan.listen x hx
      obtain ⟨hany, hlisten⟩ := hcarries.listen r hr
      rw [hfrom.ports_eq, hfrom.protocol_eq]
      exact ⟨hany, fun port hport => .listen (hlisten port hport)⟩
    · obtain ⟨r, hr, hfrom⟩ := hplan.ingress x hx
      rw [hfrom.ports_eq, hfrom.protocol_eq]
      exact hcarries.ingress r hr
  obtain ⟨hany, hnames⟩ := hports
  refine ⟨hany, ?_⟩
  rw [hlabel]
  rcases hasks with ⟨server, hserver, rfl⟩ | rfl
  · exact ⟨server, hserver, hnames⟩
  · have hnone : ∀ port, port ∉ x.ports.ports := by
      intro port hport
      exact FirewallEntry.not_names_empty (hnames port hport)
    rw [PortSet.isAny_eq_true_iff.mpr hnone] at hany
    cases hany

/-- A redirection is for the TCP ports that its machine listens on. -/
theorem ports_of_redirect {x : Redirect} (hx : x ∈ p.redirects) :
    ∃ e, (x.owner, e) ∈ d.servers ∧ x.protocol = .tcp ∧
      (∀ port : Nat, port ∈ x.ports.ports ↔ (port : Int) ∈ e.firewall.listenTcp) ∧
      (x.fromOutside = true → ∃ raw external, e.firewall.externalIp = some raw ∧
        Address.ofText? (Text.trim raw) = some external ∧
          x.destinations = [.net (Block.single external)]) ∧
      (x.ports.isAny = true ↔ x.fromOutside = true ∧ e.firewall.listenTcp = []) := by
  obtain ⟨id, m, target, rest, hm, -, horigin⟩ := (mem_redirects_iff hp).mp hx
  obtain ⟨e, hasks, hcarries⟩ := Graph.carriesPorts hg (List.mem_of_getElem? hm)
  cases horigin with
  | @declared r destinations hr _ =>
    obtain ⟨hprotocol, hports, hany⟩ := hcarries.dnat r hr
    rcases hasks with ⟨server, hserver, rfl⟩ | rfl
    · refine ⟨server, hserver, hprotocol, ?_, nofun, ?_⟩
      · rw [hports]
        exact hcarries.listenPorts
      · simp [hany]
    · rw [hports, hcarries.listens.mpr rfl] at hany
      cases hany
  | @outer external hexternal =>
    have hread := hcarries.externalIp
    rw [hexternal] at hread
    rcases hasks with ⟨server, hserver, rfl⟩ | rfl
    · refine ⟨server, hserver, rfl, hcarries.listenPorts, ?_, ?_⟩
      · intro _
        cases hraw : server.firewall.externalIp with
        | none =>
          rw [hraw] at hread
          cases hread
        | some raw =>
          rw [hraw] at hread
          obtain ⟨b, hb, hparse⟩ := readAddress?_eq_ok hread
          cases hb
          exact ⟨raw, external, rfl, hparse, rfl⟩
      · exact hcarries.listens.trans (by simp [externalRedirect])
    · cases hread

/-- Every port of a server is redirected to it exactly if it has an outer address and an inner one,
and listens on no TCP port. -/
theorem exists_open_redirect_iff {label : String} :
    (∃ x ∈ p.redirects, x.owner = label ∧ x.ports.isAny = true) ↔
      ∃ e, (label, e) ∈ d.servers ∧ e.firewall.externalIp.isSome = true ∧
        e.firewall.listenTcp = [] ∧ ∃ w ∈ p.machines, w.label = label ∧ w.addresses ≠ [] := by
  constructor
  · rintro ⟨x, hx, rfl, hany⟩
    obtain ⟨e, he, -, -, houter, hiff⟩ := ports_of_redirect hg hp hx
    obtain ⟨houtside, hlisten⟩ := hiff.mp hany
    obtain ⟨raw, -, hraw, -⟩ := houter houtside
    obtain ⟨id, m, target, rest, hm, haddresses, horigin⟩ := (mem_redirects_iff hp).mp hx
    obtain ⟨w, hw, -, hlabel, hwaddresses⟩ := exists_mem_machines hp hm
    refine ⟨e, he, by simp [hraw], hlisten, w, hw, ?_, ?_⟩
    · cases horigin <;> exact hlabel
    · rw [hwaddresses, haddresses]
      nofun
  · rintro ⟨e, he, hexternal, hlisten, w, hw, rfl, haddresses⟩
    obtain ⟨id, m, hm, hlabel, hcarries⟩ := Graph.exists_carriesPorts hg he
    obtain ⟨m', hm', hlabel', hwaddresses, -⟩ := exists_of_mem_machines hp hw
    have hid : w.id = id := Graph.id_unique hg hm' hm (hlabel'.symm.trans hlabel.symm)
    rw [hwaddresses, hid] at haddresses
    obtain ⟨target, rest, htarget⟩ := List.exists_cons_of_ne_nil haddresses
    obtain ⟨raw, hraw⟩ := Option.isSome_iff_exists.mp hexternal
    have hread := hcarries.externalIp
    rw [hraw] at hread
    obtain ⟨external, hm_external, -⟩ := readAddress?_eq_ok hread
    refine ⟨externalRedirect m target external, ?_, hlabel, hcarries.listens.mpr hlisten⟩
    exact (mem_redirects_iff hp).mpr ⟨id, m, target, rest, hm, htarget, .outer hm_external⟩

end FirewallPlan

/-- What the plan of a compiled network opens towards a machine is for ports that the machine's
entry names, and never for all ports. What it redirects to a machine is for exactly the TCP ports
that the machine listens on. So it is for every port exactly if the machine listens on no TCP port,
and this happens exactly to the servers with an outer and an inner address that do not. -/
theorem redirected_ports_named (name : String) (d : Description) (s : Settings)
    (n : CompiledNetwork) (hn : (CompiledNetwork.ofDescription name d s).result = .ok n) :
    (∀ w ∈ n.firewall.machines, ∀ x ∈ w.listen ++ w.ingress, x.ports.isAny = false ∧
      ∃ e, (w.label, e) ∈ d.servers ∧
        ∀ port ∈ x.ports.ports, e.firewall.Names w.label x.protocol port) ∧
    (∀ x ∈ n.firewall.redirects, ∃ e, (x.owner, e) ∈ d.servers ∧ x.protocol = .tcp ∧
      (∀ port : Nat, port ∈ x.ports.ports ↔ (port : Int) ∈ e.firewall.listenTcp) ∧
      (x.fromOutside = true → ∃ raw external, e.firewall.externalIp = some raw ∧
        Address.ofText? (Text.trim raw) = some external ∧
          x.destinations = [.net (Block.single external)]) ∧
      (x.ports.isAny = true ↔ x.fromOutside = true ∧ e.firewall.listenTcp = [])) ∧
    ∀ label, (∃ x ∈ n.firewall.redirects, x.owner = label ∧ x.ports.isAny = true) ↔
      ∃ e, (label, e) ∈ d.servers ∧ e.firewall.externalIp.isSome = true ∧
        e.firewall.listenTcp = [] ∧
          ∃ w ∈ n.firewall.machines, w.label = label ∧ w.addresses ≠ [] := by
  obtain ⟨hg, -, hp, -⟩ := CompiledNetwork.ofDescription_eq_ok hn
  refine ⟨?_, ?_, ?_⟩
  · intro w hw x hx
    exact FirewallPlan.ports_of_towards hg hp hw hx
  · intro x hx
    exact FirewallPlan.ports_of_redirect hg hp hx
  · intro label
    exact FirewallPlan.exists_open_redirect_iff hg hp

/-- A router and two servers that are reached from outside : one listens on a TCP port and opens
another to a host, one listens on no TCP port. -/
def exposedLab : Description where
  domain := some "lan"
  servers := [
    ("dns", { types := ["dedicated"],
              firewall := { listenUdp := [53], externalIp := some "203.0.113.8" },
              lan := [("lan0", { mac := some "02:00:00:00:00:01" })] }),
    ("router", { types := ["router"], wan := [("eth1", {})], lan := [("eth0", {})] }),
    ("web", { types := ["dedicated"],
              firewall :=
                { listenTcp := [443], allowIngressFrom := ["probe.example.org:8080"],
                  dnatTo := ["203.0.113.9"], externalIp := some "203.0.113.7" },
              lan := [("lan0", { mac := some "02:00:00:00:00:02" })] })]

/-- The redirection to the server of the lab that listens on no TCP port. -/
def openRedirect : Redirect where
  owner := "dns"
  protocol := .tcp
  destinations := [.net (Block.single (.ofOctets 203 0 113 8))]
  ports := PortSet.any
  target := .ofOctets 10 10 0 2
  fromOutside := true

theorem redirects_exposedLab :
    ∃ n, (CompiledNetwork.ofDescription "lab" exposedLab .default).result = .ok n ∧
      n.firewall.redirects.map (fun x => (x.owner, x.ports.ports, x.fromOutside)) =
        [("dns", [], true), ("web", [443], false), ("web", [443], true)] ∧
      openRedirect ∈ n.firewall.redirects := by
  have hlab : ((CompiledNetwork.ofDescription "lab" exposedLab .default).result).map (fun n =>
      decide (n.firewall.redirects.map (fun x => (x.owner, x.ports.ports, x.fromOutside)) =
        [("dns", [], true), ("web", [443], false), ("web", [443], true)] ∧
      openRedirect ∈ n.firewall.redirects)) = .ok true := by
    decide +kernel
  obtain ⟨n, hn, hlab⟩ := map_eq_ok.mp hlab
  exact ⟨n, hn, of_decide_eq_true hlab⟩

theorem redirected_ports_named_lab :
    ∃ n, (CompiledNetwork.ofDescription "lab" exposedLab .default).result = .ok n ∧
      (∃ e, ("dns", e) ∈ exposedLab.servers ∧ e.firewall.externalIp.isSome = true ∧
        e.firewall.listenTcp = [] ∧
          ∃ w ∈ n.firewall.machines, w.label = "dns" ∧ w.addresses ≠ []) ∧
      ¬∃ x ∈ n.firewall.redirects, x.owner = "web" ∧ x.ports.isAny = true := by
  obtain ⟨n, hn, -, hopen⟩ := redirects_exposedLab
  obtain ⟨-, -, hiff⟩ := redirected_ports_named "lab" exposedLab .default n hn
  refine ⟨n, hn, (hiff "dns").mp ⟨openRedirect, hopen, rfl, rfl⟩, ?_⟩
  rw [hiff "web"]
  rintro ⟨e, he, -, hlisten, -⟩
  simp only [exposedLab, List.mem_cons, Prod.mk.injEq, String.reduceEq, false_and, true_and,
    List.not_mem_nil, or_false, false_or] at he
  rw [he] at hlisten
  cases hlisten

/-- Every TCP port of a server is redirected to it, although it listens on none. -/
theorem redirected_ports_open :
    ∃ n, (CompiledNetwork.ofDescription "lab" exposedLab .default).result = .ok n ∧
      ∃ x ∈ n.firewall.redirects, x.owner = "dns" ∧ x.ports.isAny = true ∧
        ∃ m ∈ n.graph.machines, m.label = "dns" ∧ (m.listenPorts .tcp).isAny = true := by
  obtain ⟨n, hn, -, hopen⟩ := redirects_exposedLab
  obtain ⟨hg, -, -, -⟩ := CompiledNetwork.ofDescription_eq_ok hn
  obtain ⟨id, m, hm, hlabel, hcarries⟩ :=
    Graph.exists_carriesPorts hg (List.mem_cons_self : (("dns", _) : String × ServerEntry) ∈ _)
  exact ⟨n, hn, openRedirect, hopen, rfl, rfl, m, List.mem_of_getElem? hm, hlabel,
    hcarries.listens.mpr rfl⟩

end NetworkCompiler
