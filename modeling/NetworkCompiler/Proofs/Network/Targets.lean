import NetworkCompiler.Proofs.Network.Names

/-!
# Targets of a description

Where the targets that a description writes down are found in its graph. A target that could be
read (`splitTarget`) is named by a rule of its machine (`IsNamedIn`), as the source of a rule for
traffic towards the machine and as a destination of any other rule. `Graph.exists_naming_server`
and `Graph.exists_naming_device` say this of every field of every entry.
-/

namespace NetworkCompiler

/-- A target can be read, and some of the rules names it. -/
def IsNamedIn (rules : List TrafficRule) (label field raw : String) : Prop :=
  ∃ name port, splitTarget label field raw = .ok (name, port) ∧
    ∃ r ∈ rules, name = r.source ∨ name ∈ r.destinations

theorem IsNamedIn.mono {rules rules' : List TrafficRule} {label field raw : String}
    (h : IsNamedIn rules label field raw) (hsub : rules ⊆ rules') :
    IsNamedIn rules' label field raw := by
  obtain ⟨name, port, hsplit, r, hr, hname⟩ := h
  exact ⟨name, port, hsplit, r, hsub hr, hname⟩

/-! ## Rules -/

section Rules

variable {label raw : String} {defaultPorts : List Nat} {listenTcp : PortSet} {r : TrafficRule}

theorem ingressRule_eq_ok (h : ingressRule label listenTcp raw = .ok r) :
    ∃ port, splitTarget label "allow_ingress_from" raw = .ok (r.source, port) := by
  obtain ⟨⟨source, port⟩, hsplit, h⟩ := bind_eq_ok.mp h
  refine ⟨port, ?_⟩
  cases port with
  | some port =>
    cases h
    exact hsplit
  | none =>
    dsimp only at h
    split at h <;> cases h
    exact hsplit

theorem ofValues_eq_ok {protocol : Protocol} {table : RuleTable} {source : String}
    {destinations : List String} {ports : List Int}
    (h : TrafficRule.ofValues protocol table source destinations ports = .ok r) :
    r.destinations = OrderedSet.ofList destinations := by
  obtain ⟨ports, -, h⟩ := bind_eq_ok.mp h
  cases h
  rfl

theorem egressRule_eq_ok (h : egressRule defaultPorts label raw = .ok r) :
    ∃ name port, splitTarget label "allow_egress_to" raw = .ok (name, port) ∧
      name ∈ r.destinations := by
  obtain ⟨⟨name, port⟩, hsplit, h⟩ := bind_eq_ok.mp h
  refine ⟨name, port, hsplit, ?_⟩
  rw [ofValues_eq_ok h, OrderedSet.mem_ofList]
  exact List.mem_singleton_self name

theorem forwardRule_eq_ok (h : forwardRule label raw = .ok r) :
    ∃ name port, splitTarget label "allow_forward_to" raw = .ok (name, port) ∧
      name ∈ r.destinations := by
  obtain ⟨⟨name, port⟩, hsplit, h⟩ := bind_eq_ok.mp h
  refine ⟨name, port, hsplit, ?_⟩
  rw [ofValues_eq_ok h, OrderedSet.mem_ofList]
  exact List.mem_singleton_self name

theorem dnatRules_eq_ok {targets : List String} {rules : List TrafficRule}
    (h : dnatRules label listenTcp targets = .ok rules) (hraw : raw ∈ targets) :
    ∃ name port, splitTarget label "dnat_to" raw = .ok (name, port) ∧
      ∃ r ∈ rules, name ∈ r.destinations := by
  unfold dnatRules at h
  split at h
  · next hempty =>
    rw [List.isEmpty_iff.mp hempty] at hraw
    cases hraw
  split at h
  · cases h
  obtain ⟨names, hnames, h⟩ := bind_eq_ok.mp h
  cases h
  obtain ⟨name, hname, hread⟩ := exists_of_mem_left (mapM_eq_ok.mp hnames) hraw
  obtain ⟨⟨name, port⟩, hsplit, rfl⟩ := map_eq_ok.mp hread
  exact ⟨name, port, hsplit, _, List.mem_singleton_self _, OrderedSet.mem_ofList.mpr hname⟩

theorem isNamedIn_of_mapM {field : String} {read : String → Except InputError TrafficRule}
    {targets : List String} {rules : List TrafficRule} (h : targets.mapM read = .ok rules)
    (hread : ∀ raw r, read raw = .ok r → ∃ name port,
      splitTarget label field raw = .ok (name, port) ∧ (name = r.source ∨ name ∈ r.destinations))
    (hraw : raw ∈ targets) : IsNamedIn rules label field raw := by
  obtain ⟨r, hr, hok⟩ := exists_of_mem_left (mapM_eq_ok.mp h) hraw
  obtain ⟨name, port, hsplit, hname⟩ := hread raw r hok
  exact ⟨name, port, hsplit, r, hr, hname⟩

theorem isNamedIn_of_egress {targets : List String} {rules : List TrafficRule}
    (h : targets.mapM (egressRule defaultPorts label) = .ok rules) (hraw : raw ∈ targets) :
    IsNamedIn rules label "allow_egress_to" raw :=
  isNamedIn_of_mapM h (fun _ _ h => by
    obtain ⟨name, port, hsplit, hname⟩ := egressRule_eq_ok h
    exact ⟨name, port, hsplit, .inr hname⟩) hraw

end Rules

/-! ## Machines -/

/-- The rules of a machine name all targets of an entry. -/
structure Machine.Names (m : Machine) (label : String) (e : FirewallEntry) : Prop where
  egress : ∀ raw ∈ e.allowEgressTo, IsNamedIn m.egress label "allow_egress_to" raw
  ingress : ∀ raw ∈ e.allowIngressFrom, IsNamedIn m.ingress label "allow_ingress_from" raw
  forward : ∀ raw ∈ e.allowForwardTo, IsNamedIn m.forward label "allow_forward_to" raw
  dnat : ∀ raw ∈ e.dnatTo, ∃ name port, splitTarget label "dnat_to" raw = .ok (name, port) ∧
    ∃ r ∈ m.dnat, name ∈ r.destinations

theorem Machine.names_of_withFirewall {defaultPorts : List Nat} {m n : Machine}
    {e : FirewallEntry} (h : m.withFirewall defaultPorts e = .ok n) : n.Names m.label e := by
  obtain ⟨listen, ingress, egress, forward, dnat, externalIp, rfl, ⟨ports, hingress, hdnat⟩,
    hegress, hforward⟩ := exists_rules_of_withFirewall h
  refine ⟨fun raw hraw => isNamedIn_of_egress hegress hraw, fun raw hraw => ?_,
    fun raw hraw => ?_, fun raw hraw => dnatRules_eq_ok hdnat hraw⟩
  · refine isNamedIn_of_mapM hingress (fun raw r h => ?_) hraw
    obtain ⟨port, hsplit⟩ := ingressRule_eq_ok h
    exact ⟨r.source, port, hsplit, .inl rfl⟩
  · refine isNamedIn_of_mapM hforward (fun raw r h => ?_) hraw
    obtain ⟨name, port, hsplit, hname⟩ := forwardRule_eq_ok h
    exact ⟨name, port, hsplit, .inr hname⟩

theorem Machine.names_of_ofServer {defaultPorts : List Nat} {domain label : String}
    {e : ServerEntry} {m : Machine} (h : ofServer defaultPorts domain label e = .ok m) :
    m.Names label e.firewall := by
  obtain ⟨n, hlabel, -, -, -, lan, wan, -, -, h⟩ := exists_steps_of_ofServer h
  rw [← hlabel]
  exact names_of_withFirewall (m := { n with lan := lan, wan := wan }) h

/-- A server that is no router has an inner interface. -/
theorem Machine.lan_ne_nil_of_ofServer {defaultPorts : List Nat} {domain label : String}
    {e : ServerEntry} {m : Machine} (h : ofServer defaultPorts domain label e = .ok m)
    (hrouter : m.isRouter = false) : m.lan ≠ [] := by
  obtain ⟨-, -, n, -, hn, hlan⟩ := ofServer_eq_ok h
  unfold serverLan at hlan
  obtain ⟨declared, -, hlan⟩ := bind_eq_ok.mp hlan
  split at hlan
  · obtain ⟨i, -, hlan⟩ := bind_eq_ok.mp hlan
    rw [← Except.ok.inj hlan]
    nofun
  · next hne =>
    cases hlan
    simpa [hn, hrouter] using hne

/-! ## The graph -/

namespace Graph

variable {name : String} {d : Description} {s : Settings} {g : Graph}
variable (h : Graph.ofDescription name d s = .ok g) {label : String}
include h

/-- A server is in the graph, and its rules name all targets of its entry. -/
theorem exists_naming_server {e : ServerEntry} (he : (label, e) ∈ d.servers) :
    ∃ id m, g.machine? id = some m ∧ m.label = label ∧ m.Names label e.firewall ∧
      (m.isRouter = true ↔ Description.ServerEntry.hasRole e .router = true) ∧
      (m.isRouter = false → m.lan ≠ []) := by
  obtain ⟨ms, hms, hg⟩ := exists_machinesOf h
  obtain ⟨m, hm, hserver⟩ := (machinesOf_eq_ok hms).2.2 _ he
  obtain ⟨hlabel, hroles, -⟩ := Machine.ofServer_eq_ok hserver
  have hnames := Machine.names_of_ofServer hserver
  have hlan := Machine.lan_ne_nil_of_ofServer hserver
  obtain ⟨id, hid⟩ := List.mem_iff_getElem?.mp (hg ▸ List.mem_map_of_mem hm)
  obtain ⟨more, hmore⟩ := exists_grantAccess_eq ms m
  refine ⟨id, _, hid, ?_⟩
  rw [hmore]
  refine ⟨hlabel, ⟨hnames.egress, hnames.ingress, fun raw hraw => ?_, hnames.dnat⟩, ?_, hlan⟩
  · exact (hnames.forward raw hraw).mono (List.subset_append_left _ _)
  · rw [← mem_serverRoles (by decide) hroles, Machine.isRouter, Machine.is, decide_eq_true_iff]

/-- A device is in the graph, and its rules name all targets of its entry. -/
theorem exists_naming_device {e : DeviceEntry}
    (he : (label, e) ∈ d.internalDevices ++ d.externalDevices) :
    ∃ m ∈ g.machines, ∀ raw ∈ e.allowEgressTo,
      IsNamedIn m.egress label "allow_egress_to" raw := by
  obtain ⟨ms, hms, hg⟩ := exists_machinesOf h
  obtain ⟨-, servers, inner, outer, users, rfl, hparts⟩ := exists_areMachinesOf hms
  obtain ⟨role, m, hm, hread⟩ : ∃ role, ∃ m ∈ servers ++ inner ++ outer ++ users,
      Machine.ofDevice s.defaultPorts (domainOf d) role label e = .ok m := by
    rcases List.mem_append.mp he with he | he
    · obtain ⟨m, hm, hread⟩ := exists_of_mem_left hparts.inner he
      exact ⟨_, m, by simp [hm], hread⟩
    · obtain ⟨m, hm, hread⟩ := exists_of_mem_left hparts.outer he
      exact ⟨_, m, by simp [hm], hread⟩
  obtain ⟨-, -, -, -, egress, hegress, hsub⟩ := Machine.ofDevice_eq_ok hread
  refine ⟨_, hg ▸ List.mem_map_of_mem hm, fun raw hraw => ?_⟩
  obtain ⟨more, hmore⟩ := exists_grantAccess_eq (servers ++ inner ++ outer ++ users) m
  rw [hmore]
  exact (isNamedIn_of_egress hegress hraw).mono hsub

end Graph

end NetworkCompiler
