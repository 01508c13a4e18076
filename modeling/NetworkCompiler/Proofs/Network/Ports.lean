import NetworkCompiler.Proofs.Network.Names

/-!
# Ports of a description

Which ports the rules of a machine carry. A server names ports in three ways : it listens on them,
it opens one to a source (`FirewallEntry.Names`), and whatever is redirected to it is for the TCP
ports that it listens on. `Machine.CarriesPorts` says that the rules towards a machine carry ports
of its entry and never the empty set, which would stand for all of them, and `Graph.carriesPorts`
that this holds of every machine of a graph : devices and users name no ports, and no rule leads
to them.
-/

namespace NetworkCompiler

open Ipv4 (Address)

/-! ## Sets of ports -/

namespace PortSet

variable {ports : PortSet}

theorem isAny_eq_true_iff : ports.isAny = true ↔ ∀ port, port ∉ ports.ports := by
  rw [isAny, List.isEmpty_iff, List.eq_nil_iff_forall_not_mem]

theorem isAny_eq_false_of_mem {port : Nat} (h : port ∈ ports.ports) : ports.isAny = false := by
  rw [← Bool.not_eq_true, isAny_eq_true_iff]
  intro hnone
  exact hnone port h

/-- Values that can be read are ports, and the set has these. -/
theorem exists_of_ofValues {label field : String} {values : List Int}
    (h : PortSet.ofValues label field values = .ok ports) :
    ∃ found : List Nat, values = found.map (fun port : Nat => (port : Int)) ∧
      ports.ports = OrderedSet.ofList found := by
  obtain ⟨found, hfound, h⟩ := bind_eq_ok.mp h
  cases h
  refine ⟨found, ?_, rfl⟩
  rw [← List.forall₂_eq_eq_eq, List.forall₂_map_right_iff]
  refine (mapM_eq_ok.mp hfound).imp ?_
  intro n i hi
  split at hi
  · next hport =>
    have hpositive : 1 ≤ n := by
      simp only [isPort, Bool.and_eq_true, decide_eq_true_eq] at hport
      exact hport.1
    cases hi
    omega
  · cases hi

theorem mem_of_ofValues {label field : String} {values : List Int}
    (h : PortSet.ofValues label field values = .ok ports) (port : Nat) :
    port ∈ ports.ports ↔ (port : Int) ∈ values := by
  obtain ⟨found, rfl, hports⟩ := exists_of_ofValues h
  rw [hports, OrderedSet.mem_ofList, List.mem_map]
  constructor
  · intro hmem
    exact ⟨port, hmem, rfl⟩
  · rintro ⟨i, hi, heq⟩
    rwa [← Int.ofNat_inj.mp heq]

theorem isAny_of_ofValues {label field : String} {values : List Int}
    (h : PortSet.ofValues label field values = .ok ports) (hne : values ≠ []) :
    ports.isAny = false := by
  obtain ⟨found, rfl, hports⟩ := exists_of_ofValues h
  obtain ⟨port, hport⟩ := List.exists_mem_of_ne_nil found fun hnil => hne (by rw [hnil]; rfl)
  have hmem : port ∈ ports.ports := by
    rw [hports, OrderedSet.mem_ofList]
    exact hport
  exact isAny_eq_false_of_mem hmem

end PortSet

/-! ## Entries -/

/-- The ports that an entry listens on. -/
def FirewallEntry.listens (e : FirewallEntry) : Protocol → List Int
  | .tcp => e.listenTcp
  | .udp => e.listenUdp

/-- The ports that an entry names for traffic towards its machine. -/
inductive FirewallEntry.Names (label : String) (e : FirewallEntry) : Protocol → Nat → Prop where
  /-- It listens on the port. -/
  | listen {protocol : Protocol} {port : Nat} : (port : Int) ∈ e.listens protocol →
      Names label e protocol port
  /-- It opens the port to a source. -/
  | ingress {raw source : String} {port : Nat} : raw ∈ e.allowIngressFrom →
      splitTarget label "allow_ingress_from" raw = .ok (source, some port) →
      Names label e .tcp port

/-- An entry that asks for nothing names no port. -/
theorem FirewallEntry.not_names_empty {label : String} {protocol : Protocol} {port : Nat} :
    ¬FirewallEntry.Names label {} protocol port := by
  intro h
  cases h with
  | listen h => cases protocol <;> simp [listens] at h
  | ingress h => simp at h

/-- The rules that lead to a machine carry the ports that its entry names. -/
structure Machine.CarriesPorts (m : Machine) (e : FirewallEntry) : Prop where
  listen : ∀ r ∈ m.listen, r.ports.isAny = false ∧
    ∀ port ∈ r.ports.ports, (port : Int) ∈ e.listens r.protocol
  ingress : ∀ r ∈ m.ingress, r.ports.isAny = false ∧
    ∀ port ∈ r.ports.ports, e.Names m.label r.protocol port
  listenPorts : ∀ port : Nat, port ∈ (m.listenPorts .tcp).ports ↔ (port : Int) ∈ e.listenTcp
  /-- It listens on some TCP port, unless the entry names none. -/
  listens : (m.listenPorts .tcp).isAny = true ↔ e.listenTcp = []
  dnat : ∀ r ∈ m.dnat, r.protocol = .tcp ∧ r.ports = m.listenPorts .tcp ∧ r.ports.isAny = false
  externalIp : readAddress? m.label "firewall.external_ip" e.externalIp = .ok m.externalIp

section Rules

variable {label : String}

/-- What a machine listens on is one rule for all ports of a protocol, or none. -/
theorem listenRule_eq_ok {protocol : Protocol} {field : String} {values : List Int}
    {rules : List TrafficRule} (h : listenRule label protocol field values = .ok rules) :
    (∀ r ∈ rules, r.protocol = protocol ∧ r.ports.isAny = false) ∧
      (rules = [] ↔ values = []) ∧
      ∀ port : Nat, (∃ r ∈ rules, port ∈ r.ports.ports) ↔ (port : Int) ∈ values := by
  unfold listenRule at h
  split at h
  · next hempty =>
    cases h
    rw [List.isEmpty_iff.mp hempty]
    simp
  · next hne =>
    obtain ⟨ports, hports, h⟩ := bind_eq_ok.mp h
    cases h
    have hvalues : values ≠ [] := by simpa using hne
    have hany := PortSet.isAny_of_ofValues hports hvalues
    simp [TrafficRule.withPorts, hany, hvalues, PortSet.mem_of_ofValues hports]

/-- Traffic from a source is for a port of its own or for those the machine listens on. -/
theorem ports_of_ingressRule {listenTcp : PortSet} {raw : String} {r : TrafficRule}
    (h : ingressRule label listenTcp raw = .ok r) :
    r.protocol = .tcp ∧ r.ports.isAny = false ∧
      ∀ port ∈ r.ports.ports, port ∈ listenTcp.ports ∨
        ∃ source, splitTarget label "allow_ingress_from" raw = .ok (source, some port) := by
  obtain ⟨⟨source, port⟩, hsplit, h⟩ := bind_eq_ok.mp h
  cases port with
  | some port =>
    cases h
    refine ⟨rfl, rfl, ?_⟩
    intro i hi
    rw [List.mem_singleton.mp hi]
    exact Or.inr ⟨source, hsplit⟩
  | none =>
    dsimp only at h
    split at h
    · cases h
    · next hany =>
      cases h
      exact ⟨rfl, Bool.not_eq_true _ ▸ hany, fun port hport => Or.inl hport⟩

/-- What is redirected is for the ports that the machine listens on, and there are some. -/
theorem ports_of_dnatRules {listenTcp : PortSet} {targets : List String}
    {rules : List TrafficRule} (h : dnatRules label listenTcp targets = .ok rules) :
    ∀ r ∈ rules, r.protocol = .tcp ∧ r.ports = listenTcp ∧ r.ports.isAny = false := by
  unfold dnatRules at h
  split at h
  · cases h
    simp
  split at h
  · cases h
  · next hany =>
    obtain ⟨names, -, h⟩ := bind_eq_ok.mp h
    cases h
    simpa [TrafficRule.withPorts] using hany

end Rules

/-! ## Machines -/

theorem Machine.mem_listenPorts {m : Machine} {protocol : Protocol} {port : Nat} :
    port ∈ (m.listenPorts protocol).ports ↔
      ∃ r ∈ m.listen, r.protocol = protocol ∧ port ∈ r.ports.ports := by
  simp [listenPorts, OrderedSet.mem_ofList, and_assoc]

/-- A machine with the rules that an entry asks for carries the ports of the entry. -/
theorem Machine.carriesPorts_of_withFirewall {defaultPorts : List Nat} {m n : Machine}
    {e : FirewallEntry} (h : m.withFirewall defaultPorts e = .ok n) : n.CarriesPorts e := by
  unfold withFirewall at h
  obtain ⟨tcp, htcp, h⟩ := bind_eq_ok.mp h
  obtain ⟨udp, hudp, h⟩ := bind_eq_ok.mp h
  obtain ⟨ingress, hingress, h⟩ := bind_eq_ok.mp h
  obtain ⟨egress, -, h⟩ := bind_eq_ok.mp h
  obtain ⟨forward, -, h⟩ := bind_eq_ok.mp h
  obtain ⟨dnat, hdnat, h⟩ := bind_eq_ok.mp h
  obtain ⟨externalIp, hexternal, h⟩ := bind_eq_ok.mp h
  cases h
  obtain ⟨htcprules, htcpnil, htcpports⟩ := listenRule_eq_ok htcp
  obtain ⟨hudprules, -, hudpports⟩ := listenRule_eq_ok hudp
  have hports : ∀ port : Nat, port ∈ ({ m with listen := tcp ++ udp }.listenPorts .tcp).ports ↔
      (port : Int) ∈ e.listenTcp := by
    intro port
    rw [mem_listenPorts, ← htcpports port]
    constructor
    · rintro ⟨r, hr, hprotocol, hport⟩
      rcases List.mem_append.mp hr with hr | hr
      · exact ⟨r, hr, hport⟩
      · cases hprotocol.symm.trans (hudprules r hr).1
    · rintro ⟨r, hr, hport⟩
      exact ⟨r, List.mem_append_left _ hr, (htcprules r hr).1, hport⟩
  refine ⟨?_, ?_, hports, ?_, ports_of_dnatRules hdnat, hexternal⟩
  · intro r hr
    rcases List.mem_append.mp hr with hr | hr
    · obtain ⟨hprotocol, hany⟩ := htcprules r hr
      refine ⟨hany, fun port hport => ?_⟩
      rw [hprotocol]
      exact (htcpports port).mp ⟨r, hr, hport⟩
    · obtain ⟨hprotocol, hany⟩ := hudprules r hr
      refine ⟨hany, fun port hport => ?_⟩
      rw [hprotocol]
      exact (hudpports port).mp ⟨r, hr, hport⟩
  · intro r hr
    obtain ⟨raw, hraw, hread⟩ := exists_of_mem_right (mapM_eq_ok.mp hingress) hr
    obtain ⟨hprotocol, hany, hnamed⟩ := ports_of_ingressRule hread
    refine ⟨hany, fun port hport => ?_⟩
    rw [hprotocol]
    rcases hnamed port hport with hlisten | ⟨source, hsplit⟩
    · exact .listen ((hports port).mp hlisten)
    · exact .ingress hraw hsplit
  · rw [PortSet.isAny_eq_true_iff, ← htcpnil]
    constructor
    · intro hnone
      rw [List.eq_nil_iff_forall_not_mem]
      intro r hr
      -- a rule that listens has a port, and the machine then listens on it
      apply Bool.false_ne_true
      rw [← (htcprules r hr).2, PortSet.isAny_eq_true_iff]
      intro port hport
      exact hnone port ((hports port).mpr ((htcpports port).mp ⟨r, hr, hport⟩))
    · intro hnil port hport
      obtain ⟨r, hr, -⟩ := (htcpports port).mpr ((hports port).mp hport)
      rw [hnil] at hr
      cases hr

theorem Machine.carriesPorts_of_ofServer {defaultPorts : List Nat} {domain label : String}
    {e : ServerEntry} {m : Machine} (h : ofServer defaultPorts domain label e = .ok m) :
    m.CarriesPorts e.firewall := by
  obtain ⟨n, -, -, -, -, lan, wan, -, -, h⟩ := exists_steps_of_ofServer h
  exact carriesPorts_of_withFirewall h

/-- A machine that no rule leads to carries the ports of an entry that asks for nothing. -/
theorem Machine.carriesPorts_of_nil {m : Machine} (hlisten : m.listen = [])
    (hingress : m.ingress = []) (hdnat : m.dnat = []) (hexternal : m.externalIp = none) :
    m.CarriesPorts {} := by
  have hports : ∀ port, port ∉ (m.listenPorts .tcp).ports := by
    intro port
    simp [mem_listenPorts, hlisten]
  refine ⟨by simp [hlisten], by simp [hingress], ?_, ?_, by simp [hdnat], ?_⟩
  · intro port
    simp [hports port]
  · simp [PortSet.isAny_eq_true_iff, hports]
  · rw [hexternal]
    rfl

theorem Machine.carriesPorts_of_ofDevice {defaultPorts : List Nat} {domain label : String}
    {role : Role} {e : DeviceEntry} {m : Machine}
    (h : ofDevice defaultPorts domain role label e = .ok m) : m.CarriesPorts {} := by
  unfold ofDevice at h
  obtain ⟨-, -, h⟩ := bind_eq_ok.mp h
  obtain ⟨lan, -, h⟩ := bind_eq_ok.mp h
  obtain ⟨egress, -, h⟩ := bind_eq_ok.mp h
  cases h
  exact carriesPorts_of_nil rfl rfl rfl rfl

theorem Machine.carriesPorts_of_ofUser {domain label : String} {isAdmin : Bool} {e : UserEntry}
    {m : Machine} (h : ofUser domain isAdmin label e = .ok m) : m.CarriesPorts {} := by
  unfold ofUser at h
  obtain ⟨-, -, h⟩ := bind_eq_ok.mp h
  dsimp only at h
  split at h
  · obtain ⟨lan, -, h⟩ := bind_eq_ok.mp h
    cases h
    exact carriesPorts_of_nil rfl rfl rfl rfl
  · cases h
    exact carriesPorts_of_nil rfl rfl rfl rfl

/-! ## The graph -/

section Graph

variable {name : String} {d : Description} {s : Settings} {g : Graph}

/-- The access of administrators leads away from a machine, not to it. -/
theorem carriesPorts_grantAccess {ms : List Machine} {m : Machine} {e : FirewallEntry}
    (h : m.CarriesPorts e) : (grantAccess ms m).CarriesPorts e := by
  obtain ⟨more, hmore⟩ := exists_grantAccess_eq ms m
  rw [hmore]
  exact ⟨h.listen, h.ingress, h.listenPorts, h.listens, h.dnat, h.externalIp⟩

/-- What an entry asks of the firewall : the part of a server's entry for it, and nothing for a
device or a user. -/
def Description.Asks (d : Description) (label : String) (e : FirewallEntry) : Prop :=
  (∃ server, (label, server) ∈ d.servers ∧ server.firewall = e) ∨ e = {}

/-- Every machine carries the ports of its entry. -/
theorem Graph.carriesPorts (h : Graph.ofDescription name d s = .ok g) {m : Machine}
    (hm : m ∈ g.machines) : ∃ e, d.Asks m.label e ∧ m.CarriesPorts e := by
  obtain ⟨ms, n, rfl, hn⟩ := exists_isReadFrom h hm
  rw [grantAccess_label]
  cases hn with
  | @server label server hserver hread =>
    have hlabel := (Machine.ofServer_eq_ok hread).1
    exact ⟨server.firewall, Or.inl ⟨server, hlabel ▸ hserver, rfl⟩,
      carriesPorts_grantAccess (Machine.carriesPorts_of_ofServer hread)⟩
  | device _ hread =>
    exact ⟨{}, Or.inr rfl, carriesPorts_grantAccess (Machine.carriesPorts_of_ofDevice hread)⟩
  | user hread =>
    exact ⟨{}, Or.inr rfl, carriesPorts_grantAccess (Machine.carriesPorts_of_ofUser hread)⟩

/-- The machine of a server carries the ports of the server's entry. -/
theorem Graph.exists_carriesPorts (h : Graph.ofDescription name d s = .ok g) {label : String}
    {e : ServerEntry} (he : (label, e) ∈ d.servers) :
    ∃ id m, g.machine? id = some m ∧ m.label = label ∧ m.CarriesPorts e.firewall := by
  obtain ⟨ms, hms, hg⟩ := exists_machinesOf h
  obtain ⟨m, hm, hread⟩ := (machinesOf_eq_ok hms).2.2 _ he
  obtain ⟨id, hid⟩ := List.mem_iff_getElem?.mp (hg ▸ List.mem_map_of_mem hm)
  refine ⟨id, grantAccess ms m, hid, ?_, ?_⟩
  · rw [grantAccess_label]
    exact (Machine.ofServer_eq_ok hread).1
  · exact carriesPorts_grantAccess (Machine.carriesPorts_of_ofServer hread)

/-- A label belongs to one place. -/
theorem Graph.id_unique (h : Graph.ofDescription name d s = .ok g) {i j : MachineId}
    {m n : Machine} (hm : g.machine? i = some m) (hn : g.machine? j = some n)
    (hlabel : m.label = n.label) : i = j := by
  have hi : i < (g.machines.map (·.label)).length := by
    rw [List.length_map]
    exact (List.getElem?_eq_some_iff.mp hm).1
  refine (List.getElem?_inj hi (nodup_labels h)).mp ?_
  rw [List.getElem?_map, List.getElem?_map]
  rw [machine?] at hm hn
  rw [hm, hn, Option.map_some, Option.map_some, hlabel]

end Graph

end NetworkCompiler
