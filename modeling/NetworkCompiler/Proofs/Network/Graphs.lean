import Mathlib.Data.List.Nodup
import NetworkCompiler.Network.GraphConstruction
import NetworkCompiler.Proofs.Network.Machines

/-!
# Graphs of descriptions

What a graph that was made from a description promises : its labels are distinct
(`Graph.nodup_labels`), every machine is declared (`Graph.isDeclared`), and every server of the
description is there with its inner interfaces (`Graph.exists_server`). The machines are those of
the four kinds of entries, one after the other (`AreMachinesOf`). The access of administrators
adds rules to machines and nothing else.

Of the outer interfaces (`IsOuterOf`) only those of a router that is connected statically keep the
address that an entry gives, and the address then lies in the subnet that is written beside it. On
any other machine an outer interface asks for its address, whatever the entry says, and devices and
users have none. `Graph.exists_outer` finds the interfaces of a server's entries,
`Graph.legal_of_mem_wan` says that no other outer interface breaks a rule.
-/

namespace NetworkCompiler

open Ipv4 (Address Block)

/-! ## Places -/

namespace Graph

variable {g : Graph}

theorem mem_entries {id : MachineId} {m : Machine} :
    (id, m) ∈ g.entries ↔ g.machine? id = some m := by
  rw [entries, List.mem_map]
  constructor
  · rintro ⟨⟨n, i⟩, hmem, heq⟩
    cases heq
    exact List.mem_zipIdx_iff_getElem?.mp hmem
  · exact fun h => ⟨(m, id), List.mem_zipIdx_iff_getElem?.mpr h, rfl⟩

/-- The entries are numbered in their order. -/
theorem map_fst_entries (g : Graph) :
    g.entries.map (·.1) = List.range' 0 g.machines.length := by
  have hids : g.entries.map (·.1) = g.machines.zipIdx.map Prod.snd := by
    rw [entries, List.map_map]
    rfl
  rw [hids, List.zipIdx_map_snd]

theorem nodup_entries (g : Graph) : (g.entries.map (·.1)).Nodup := by
  rw [map_fst_entries]
  exact List.nodup_range'

/-- The machines of the entries are the machines of the graph. -/
theorem map_entries {α : Type} (g : Graph) (f : Machine → α) :
    g.entries.map (fun e => f e.2) = g.machines.map f := by
  have hmachines : g.entries.map (fun e => f e.2) = (g.machines.zipIdx.map Prod.fst).map f := by
    rw [entries, List.map_map, List.map_map]
    rfl
  rw [hmachines, List.zipIdx_map_fst]

end Graph

/-! ## Access of administrators -/

section Access

variable (ms : List Machine) (m : Machine)

theorem exists_grantAccess_eq :
    ∃ more, grantAccess ms m = { m with forward := m.forward ++ more } := by
  unfold grantAccess
  dsimp only
  split
  · exact ⟨[], by rw [List.append_nil]⟩
  · exact ⟨_, rfl⟩

@[simp] theorem grantAccess_label : (grantAccess ms m).label = m.label := by
  obtain ⟨_, h⟩ := exists_grantAccess_eq ms m
  rw [h]

@[simp] theorem grantAccess_roles : (grantAccess ms m).roles = m.roles := by
  obtain ⟨_, h⟩ := exists_grantAccess_eq ms m
  rw [h]

@[simp] theorem grantAccess_lan : (grantAccess ms m).lan = m.lan := by
  obtain ⟨_, h⟩ := exists_grantAccess_eq ms m
  rw [h]

@[simp] theorem grantAccess_account : (grantAccess ms m).account = m.account := by
  obtain ⟨_, h⟩ := exists_grantAccess_eq ms m
  rw [h]

theorem isDeclared_grantAccess {m : Machine} (h : m.IsDeclared) :
    (grantAccess ms m).IsDeclared := by
  refine ⟨fun hrouter => ?_, by simpa using h.lan_addresses⟩
  have hroles : (grantAccess ms m).is = m.is := by
    funext r
    rw [Machine.is, Machine.is, grantAccess_roles]
  rw [Machine.isRouter, hroles] at hrouter
  rw [Machine.vlanRole?, Machine.isRouter, hroles]
  exact h.placed hrouter

end Access

/-! ## Machines of a description -/

theorem addMachine_eq_ok {ms ms' : List Machine} {m : Machine} (h : addMachine ms m = .ok ms') :
    ms' = ms ++ [m] ∧ m.label ∉ ms.map (·.label) := by
  unfold addMachine at h
  split at h
  · cases h
  · next hany =>
    cases h
    exact ⟨rfl, fun hmem => hany (by simpa using hmem)⟩

/-- Entries add one machine each, and none with a label that is taken. -/
theorem addEntries_eq_ok {ε : Type} {read : String → ε → Except InputError Machine}
    {entries : List (String × ε)} {ms ms' : List Machine}
    (h : addEntries read entries ms = .ok ms') :
    ∃ new, ms' = ms ++ new ∧ List.Forall₂ (fun e m => read e.1 e.2 = .ok m) entries new ∧
      ((ms.map (·.label)).Nodup → (ms'.map (·.label)).Nodup) := by
  induction entries generalizing ms with
  | nil =>
    cases h
    exact ⟨[], by simp, .nil, id⟩
  | cons entry entries ih =>
    obtain ⟨m, hm, h⟩ := bind_eq_ok.mp h
    obtain ⟨ms₁, hms₁, h⟩ := bind_eq_ok.mp h
    obtain ⟨rfl, hlabel⟩ := addMachine_eq_ok hms₁
    obtain ⟨new, rfl, hnew, hnd⟩ := ih h
    refine ⟨m :: new, by simp, .cons hm hnew, fun hms => hnd ?_⟩
    rw [List.map_append, List.map_singleton, List.nodup_append]
    refine ⟨hms, List.nodup_singleton _, fun a ha b hb heq => hlabel ?_⟩
    rw [← List.mem_singleton.mp hb, ← heq]
    exact ha

/-- The machines of a description are those of its servers, inner devices, outer devices and users,
each read from its entry. -/
structure AreMachinesOf (defaultPorts : List Nat) (d : Description)
    (servers inner outer users : List Machine) : Prop where
  servers : List.Forall₂
    (fun e m => Machine.ofServer defaultPorts (domainOf d) e.1 e.2 = .ok m) d.servers servers
  inner : List.Forall₂
    (fun e m => Machine.ofDevice defaultPorts (domainOf d) .internalOnly e.1 e.2 = .ok m)
    d.internalDevices inner
  outer : List.Forall₂
    (fun e m => Machine.ofDevice defaultPorts (domainOf d) .externalOnly e.1 e.2 = .ok m)
    d.externalDevices outer
  users : List.Forall₂
    (fun e m => Machine.ofUser (domainOf d) (isAdminOf d e.1) e.1 e.2 = .ok m) d.users users

theorem exists_areMachinesOf {defaultPorts : List Nat} {d : Description} {ms : List Machine}
    (h : machinesOf defaultPorts d = .ok ms) :
    (ms.map (·.label)).Nodup ∧ ∃ servers inner outer users,
      ms = servers ++ inner ++ outer ++ users ∧
        AreMachinesOf defaultPorts d servers inner outer users := by
  unfold machinesOf at h
  obtain ⟨ms₁, h₁, h⟩ := bind_eq_ok.mp h
  obtain ⟨ms₂, h₂, h⟩ := bind_eq_ok.mp h
  obtain ⟨ms₃, h₃, h₄⟩ := bind_eq_ok.mp h
  obtain ⟨_, rfl, hservers, hnd₁⟩ := addEntries_eq_ok h₁
  obtain ⟨inner, rfl, hinner, hnd₂⟩ := addEntries_eq_ok h₂
  obtain ⟨outer, rfl, houter, hnd₃⟩ := addEntries_eq_ok h₃
  obtain ⟨users, rfl, husers, hnd₄⟩ := addEntries_eq_ok h₄
  exact ⟨hnd₄ (hnd₃ (hnd₂ (hnd₁ List.nodup_nil))), _, inner, outer, users, rfl,
    hservers, hinner, houter, husers⟩

/-- A machine that was read from an entry of a description. -/
inductive Machine.IsReadFrom (defaultPorts : List Nat) (d : Description) (m : Machine) :
    Prop where
  | server {label : String} {e : ServerEntry} (he : (label, e) ∈ d.servers)
      (h : ofServer defaultPorts (domainOf d) label e = .ok m)
  | device {role : Role} {label : String} {e : DeviceEntry}
      (hrole : role = .internalOnly ∨ role = .externalOnly)
      (h : ofDevice defaultPorts (domainOf d) role label e = .ok m)
  | user {isAdmin : Bool} {label : String} {e : UserEntry}
      (h : ofUser (domainOf d) isAdmin label e = .ok m)

theorem isReadFrom_of_mem {defaultPorts : List Nat} {d : Description} {ms : List Machine}
    (h : machinesOf defaultPorts d = .ok ms) {m : Machine} (hm : m ∈ ms) :
    m.IsReadFrom defaultPorts d := by
  obtain ⟨-, servers, inner, outer, users, rfl, hparts⟩ := exists_areMachinesOf h
  simp only [List.mem_append] at hm
  rcases hm with ((hm | hm) | hm) | hm
  · obtain ⟨e, he, hread⟩ := exists_of_mem_right hparts.servers hm
    exact .server he hread
  · obtain ⟨e, -, hread⟩ := exists_of_mem_right hparts.inner hm
    exact .device (Or.inl rfl) hread
  · obtain ⟨e, -, hread⟩ := exists_of_mem_right hparts.outer hm
    exact .device (Or.inr rfl) hread
  · obtain ⟨e, -, hread⟩ := exists_of_mem_right hparts.users hm
    exact .user hread

/-- The machines of a description are declared, have distinct labels, and hold its servers. -/
theorem machinesOf_eq_ok {defaultPorts : List Nat} {d : Description} {ms : List Machine}
    (h : machinesOf defaultPorts d = .ok ms) :
    (ms.map (·.label)).Nodup ∧ (∀ m ∈ ms, m.IsDeclared) ∧
      ∀ entry ∈ d.servers, ∃ m ∈ ms,
        Machine.ofServer defaultPorts (domainOf d) entry.1 entry.2 = .ok m := by
  have hall : ∀ m ∈ ms, m.IsDeclared := by
    intro m hm
    cases isReadFrom_of_mem h hm with
    | server _ hread => exact Machine.isDeclared_of_ofServer hread
    | device hrole hread => exact Machine.isDeclared_of_ofDevice hrole hread
    | user hread => exact Machine.isDeclared_of_ofUser hread
  obtain ⟨hnd, servers, inner, outer, users, rfl, hparts⟩ := exists_areMachinesOf h
  refine ⟨hnd, hall, fun entry hentry => ?_⟩
  obtain ⟨m, hm, hread⟩ := exists_of_mem_left hparts.servers hentry
  exact ⟨m, by simp [hm], hread⟩

/-! ## The graph -/

section Graph

variable {name : String} {d : Description} {s : Settings} {g : Graph}

theorem Graph.exists_machinesOf (h : Graph.ofDescription name d s = .ok g) :
    ∃ ms, machinesOf s.defaultPorts d = .ok ms ∧ g.machines = ms.map (grantAccess ms) := by
  unfold Graph.ofDescription at h
  obtain ⟨_, -, h⟩ := bind_eq_ok.mp h
  obtain ⟨_, -, h⟩ := bind_eq_ok.mp h
  obtain ⟨ms, hms, h⟩ := bind_eq_ok.mp h
  obtain ⟨_, -, h⟩ := bind_eq_ok.mp h
  obtain ⟨_, -, h⟩ := bind_eq_ok.mp h
  cases h
  exact ⟨ms, ofInput_eq_ok.mp hms, rfl⟩

/-- Every machine of a graph was read from an entry, and may have got the access of
administrators. -/
theorem Graph.exists_isReadFrom (h : Graph.ofDescription name d s = .ok g) {m : Machine}
    (hm : m ∈ g.machines) :
    ∃ ms n, m = grantAccess ms n ∧ n.IsReadFrom s.defaultPorts d := by
  obtain ⟨ms, hms, hg⟩ := Graph.exists_machinesOf h
  rw [hg] at hm
  obtain ⟨n, hn, rfl⟩ := List.mem_map.mp hm
  exact ⟨ms, n, rfl, isReadFrom_of_mem hms hn⟩

theorem Graph.nodup_labels (h : Graph.ofDescription name d s = .ok g) :
    (g.machines.map (·.label)).Nodup := by
  obtain ⟨ms, hms, hg⟩ := Graph.exists_machinesOf h
  rw [hg, List.map_map]
  simpa [Function.comp_def] using (machinesOf_eq_ok hms).1

theorem Graph.isDeclared (h : Graph.ofDescription name d s = .ok g) {m : Machine}
    (hm : m ∈ g.machines) : m.IsDeclared := by
  obtain ⟨ms, hms, hg⟩ := Graph.exists_machinesOf h
  rw [hg] at hm
  obtain ⟨n, hn, rfl⟩ := List.mem_map.mp hm
  exact isDeclared_grantAccess ms ((machinesOf_eq_ok hms).2.1 n hn)

/-- A server's inner interfaces come from its entry, if the entry has any. -/
theorem Graph.exists_server (h : Graph.ofDescription name d s = .ok g) {label : String}
    {e : ServerEntry} (he : (label, e) ∈ d.servers) (hlan : e.lan ≠ []) :
    ∃ m ∈ g.machines, m.label = label ∧ ∃ n : Machine, n.isRouter = m.isRouter ∧
      List.Forall₂ (fun entry i => lanInterface n entry.1 entry.2 = .ok i) e.lan m.lan := by
  obtain ⟨ms, hms, hg⟩ := Graph.exists_machinesOf h
  obtain ⟨m, hm, hserver⟩ := (machinesOf_eq_ok hms).2.2 _ he
  obtain ⟨hlabel, -, n, -, hrouter, hn⟩ := Machine.ofServer_eq_ok hserver
  refine ⟨grantAccess ms m, hg ▸ List.mem_map_of_mem hm, by simpa using hlabel, n, ?_, ?_⟩
  · rw [hrouter, Machine.isRouter, Machine.isRouter, Machine.is, Machine.is, grantAccess_roles]
  · rw [grantAccess_lan]
    exact (serverLan_eq_ok hn).2 hlan

end Graph

/-! ## Outer interfaces -/

theorem readSubnet?_eq_ok {label : String} {raw : Option String} {a : Address}
    {subnet : Option Block} (h : readSubnet? label raw a = .ok subnet) :
    subnet = none ↔ raw = none := by
  unfold readSubnet? at h
  split at h
  · next hraw =>
    cases h
    simpa using hraw
  · next hraw =>
    split at h
    · cases h
      constructor
      · nofun
      · rintro rfl
        cases hraw
    · cases h

theorem requiredWanField_eq_ok {label iface field raw : String} {r : Option String}
    (h : requiredWanField label iface field r = .ok raw) : r = some raw := by
  unfold requiredWanField at h
  split at h <;> cases h
  rfl

/-- An outer interface of a machine beside its entry. -/
structure IsOuterOf (m : Machine) (entry : String × InterfaceEntry) (i : Interface) : Prop where
  name_eq : i.name = entry.1
  legal : i.fault? = none
  /-- An interface with a fixed address has the one that is written. -/
  fixed : m.wanConnection = some .static → ∃ raw a, entry.2.address = some raw ∧
    Address.ofText? (Text.trim raw) = some a ∧ i.addresses = [a] ∧
      (i.subnet = none ↔ entry.2.subnet = none)
  /-- Any other interface has none, whatever is written. -/
  unfixed : m.wanConnection ≠ some .static → i.addresses = [] ∧ i.subnet = none

theorem wanInterface_eq_ok {m : Machine} {name : String} {e : InterfaceEntry} {i : Interface}
    (h : wanInterface m name e = .ok i) : IsOuterOf m (name, e) i := by
  obtain ⟨mac, -, h⟩ := bind_eq_ok.mp h
  obtain ⟨j, hj, h⟩ := bind_eq_ok.mp h
  obtain ⟨hlegal, rfl⟩ := Interface.checked_eq_ok.mp h
  unfold wanAddressing at hj
  split at hj
  · next hdhcp =>
    cases hj
    refine ⟨rfl, hlegal, fun hstatic => ?_, fun _ => ⟨rfl, rfl⟩⟩
    rw [hstatic] at hdhcp
    cases hdhcp
  · next hstatic =>
    obtain ⟨raw, hraw, hj⟩ := bind_eq_ok.mp hj
    obtain ⟨a, ha, hj⟩ := bind_eq_ok.mp hj
    obtain ⟨_, -, hj⟩ := bind_eq_ok.mp hj
    obtain ⟨_, -, hj⟩ := bind_eq_ok.mp hj
    obtain ⟨subnet, hsubnet, hj⟩ := bind_eq_ok.mp hj
    obtain ⟨_, -, hj⟩ := bind_eq_ok.mp hj
    cases hj
    refine ⟨rfl, hlegal, fun _ => ?_, fun hne => ?_⟩
    · exact ⟨raw, a, requiredWanField_eq_ok hraw, readAddress_eq_ok ha, rfl,
        readSubnet?_eq_ok hsubnet⟩
    · cases hw : m.wanConnection with
      | none =>
        rw [hw] at hstatic
        cases hstatic
      | some w =>
        rw [hw] at hstatic hne
        exact absurd (congrArg some hstatic) hne

theorem serverWan_eq_ok {m : Machine} {e : ServerEntry} {wan : List Interface}
    (h : serverWan m e = .ok wan) : List.Forall₂ (IsOuterOf m) e.wan wan := by
  refine (mapM_eq_ok.mp h).imp fun entry i hi => ?_
  dsimp only at hi
  split at hi
  · cases hi
  · exact wanInterface_eq_ok hi

theorem wanConnection_eq_static (label : String) {raw : Option String} :
    wanConnection label raw = .ok .static ↔ raw = some "static" := by
  unfold wanConnection
  split <;> simp_all

/-- A server's outer interfaces are those of its entry, and only a router can be connected
statically. -/
theorem Machine.outer_of_ofServer {defaultPorts : List Nat} {domain label : String}
    {e : ServerEntry} {m : Machine} (h : ofServer defaultPorts domain label e = .ok m) :
    (m.wanConnection = some .static ↔ m.isRouter = true ∧ e.extConnection = some "static") ∧
      List.Forall₂ (IsOuterOf m) e.wan m.wan := by
  obtain ⟨n, -, -, hconnection, -, lan, wan, -, hwan, h⟩ := exists_steps_of_ofServer h
  obtain ⟨_, _, _, _, _, _, rfl, -⟩ := exists_rules_of_withFirewall h
  refine ⟨?_, (serverWan_eq_ok hwan).imp fun _ _ h => ⟨h.name_eq, h.legal, h.fixed, h.unfixed⟩⟩
  change n.wanConnection = some .static ↔ n.isRouter = true ∧ _
  unfold wanConnection? at hconnection
  split at hconnection
  · next hrouter =>
    obtain ⟨w, hw, hn⟩ := map_eq_ok.mp hconnection
    rw [← hn, isRouter, is, decide_eq_true hrouter, ← wanConnection_eq_static label, hw]
    simp
  · next hrouter =>
    rw [← Except.ok.inj hconnection, isRouter, is, decide_eq_false hrouter]
    simp

/-! ## Outer interfaces of graphs -/

namespace Graph

variable {name : String} {d : Description} {s : Settings} {g : Graph}

/-- A server has one outer interface for each that its entry has. -/
theorem exists_outer (h : Graph.ofDescription name d s = .ok g) {label : String} {e : ServerEntry}
    (he : (label, e) ∈ d.servers) :
    ∃ m ∈ g.machines, m.label = label ∧
      (m.wanConnection = some .static ↔ m.isRouter = true ∧ e.extConnection = some "static") ∧
      List.Forall₂ (IsOuterOf m) e.wan m.wan := by
  obtain ⟨ms, hms, hg⟩ := exists_machinesOf h
  obtain ⟨m, hm, hserver⟩ := (machinesOf_eq_ok hms).2.2 _ he
  obtain ⟨hconnection, hwan⟩ := Machine.outer_of_ofServer hserver
  refine ⟨grantAccess ms m, hg ▸ List.mem_map_of_mem hm, ?_⟩
  obtain ⟨more, hmore⟩ := exists_grantAccess_eq ms m
  rw [hmore]
  exact ⟨(Machine.ofServer_eq_ok hserver).1, hconnection,
    hwan.imp fun _ _ h => ⟨h.name_eq, h.legal, h.fixed, h.unfixed⟩⟩

/-- Every outer interface of a described network is legal. -/
theorem legal_of_mem_wan (h : Graph.ofDescription name d s = .ok g) {m : Machine}
    (hm : m ∈ g.machines) {i : Interface} (hi : i ∈ m.wan) : i.fault? = none := by
  obtain ⟨ms, n, rfl, hn⟩ := exists_isReadFrom h hm
  obtain ⟨more, hmore⟩ := exists_grantAccess_eq ms n
  rw [hmore] at hi
  cases hn with
  | server _ hread =>
    obtain ⟨entry, -, hentry⟩ := exists_of_mem_right (Machine.outer_of_ofServer hread).2 hi
    exact hentry.legal
  | device _ hread => simp [(Machine.ofDevice_eq_ok hread).2.2.1] at hi
  | user hread => simp [(Machine.ofUser_eq_ok hread).2.1] at hi

/-- Only a router has outer interfaces with addresses or networks. -/
theorem unfixed_of_mem_wan (h : Graph.ofDescription name d s = .ok g) {m : Machine}
    (hm : m ∈ g.machines) (hrouter : m.isRouter = false) {i : Interface} (hi : i ∈ m.wan) :
    i.addresses = [] ∧ i.subnet = none := by
  obtain ⟨ms, n, rfl, hn⟩ := exists_isReadFrom h hm
  obtain ⟨more, hmore⟩ := exists_grantAccess_eq ms n
  rw [hmore] at hi hrouter
  cases hn with
  | server _ hread =>
    obtain ⟨hconnection, hwan⟩ := Machine.outer_of_ofServer hread
    obtain ⟨entry, -, hentry⟩ := exists_of_mem_right hwan hi
    refine hentry.unfixed fun hstatic => ?_
    have htrue : n.isRouter = true := (hconnection.mp hstatic).1
    cases htrue.symm.trans hrouter
  | device _ hread => simp [(Machine.ofDevice_eq_ok hread).2.2.1] at hi
  | user hread => simp [(Machine.ofUser_eq_ok hread).2.1] at hi

end Graph

end NetworkCompiler
