import NetworkCompiler.Proofs.Firewall.Resolution

/-!
# Access of administrators

Servers list who administers them, and the rule that lets somebody in stands with the user.
`Description.GrantsAccess` says who may reach what, read off the entries alone. The machine of a
user reaches exactly these servers over SSH, by one rule, and no other machine is changed
(`machines_granted`). Behind the labels of the rule stand the addresses of the servers, which a
built topology has given out (`Graph.exists_admitsGranted`); `administrators_reach` puts this together
for a described network.
-/

namespace NetworkCompiler

open Ipv4 (Address Block)

/-- The servers whose entries list a user as an administrator, in their order. -/
def Description.administeredBy (d : Description) (user : String) : List String :=
  (d.servers.filter fun e => e.2.admins.contains user).map (·.1)

/-- A server lists a user as an administrator, and the user owns a device to come from. -/
def Description.GrantsAccess (d : Description) (user server : String) : Prop :=
  (∃ e, (server, e) ∈ d.servers ∧ user ∈ e.admins) ∧
    ∃ e, (user, e) ∈ d.users ∧ e.macs ≠ []

theorem Description.mem_administeredBy {d : Description} {user server : String} :
    server ∈ d.administeredBy user ↔ ∃ e, (server, e) ∈ d.servers ∧ user ∈ e.admins := by
  simp [administeredBy]

theorem mem_adminRule {d : Description} {user server : String} :
    server ∈ (adminRule user (d.administeredBy user)).destinations ↔
      ∃ e, (server, e) ∈ d.servers ∧ user ∈ e.admins :=
  OrderedSet.mem_ofList.trans Description.mem_administeredBy

/-- A machine reaches the servers that let its user in, over SSH, all by one rule. -/
structure Machine.ReachesGranted (d : Description) (m : Machine) : Prop where
  length_le : m.forward.length ≤ 1
  ne_nil_iff : m.forward ≠ [] ↔ ∃ server, d.GrantsAccess m.label server
  form : ∀ r ∈ m.forward, r.protocol = .tcp ∧ r.table = .forward ∧ r.source = m.label ∧
    r.ports.ports = [22]
  mem_destinations_iff : ∀ r ∈ m.forward, ∀ server,
    server ∈ r.destinations ↔ d.GrantsAccess m.label server

namespace Machine.ReachesGranted

variable {d : Description} {m : Machine}

theorem of_rule (hsome : ∃ server, d.GrantsAccess m.label server)
    (hforward : m.forward = [adminRule m.label (d.administeredBy m.label)]) :
    m.ReachesGranted d := by
  refine ⟨by simp [hforward], iff_of_true (by simp [hforward]) hsome, ?_, ?_⟩
  · rw [hforward, List.forall_mem_singleton]
    exact ⟨rfl, rfl, rfl, rfl⟩
  · obtain ⟨_, -, howns⟩ := hsome
    rw [hforward, List.forall_mem_singleton]
    exact fun server => mem_adminRule.trans (and_iff_left howns).symm

theorem of_nil (hnone : ¬∃ server, d.GrantsAccess m.label server) (hforward : m.forward = []) :
    m.ReachesGranted d :=
  ⟨by simp [hforward], iff_of_false (by simp [hforward]) hnone, by simp [hforward],
    by simp [hforward]⟩

/-- There is a rule to a server exactly if the server lets the user in. -/
theorem reaches_iff (h : m.ReachesGranted d) {server : String} :
    (∃ r ∈ m.forward, r.protocol = .tcp ∧ server ∈ r.destinations ∧ r.ports.ports = [22]) ↔
      d.GrantsAccess m.label server := by
  constructor
  · rintro ⟨r, hr, -, hserver, -⟩
    exact (h.mem_destinations_iff r hr server).mp hserver
  · intro hgrant
    obtain ⟨r, hr⟩ := List.exists_mem_of_ne_nil _ (h.ne_nil_iff.mpr ⟨server, hgrant⟩)
    obtain ⟨hprotocol, -, -, hports⟩ := h.form r hr
    exact ⟨r, hr, hprotocol, (h.mem_destinations_iff r hr server).mpr hgrant, hports⟩

end Machine.ReachesGranted

/-! ## Machines of users -/

theorem deviceInterfaces_ne_nil {label : String} {macs : List String} {lan : List Interface}
    (h : deviceInterfaces label macs = .ok lan) : lan ≠ [] := by
  unfold deviceInterfaces at h
  split at h
  · obtain ⟨i, -, rfl⟩ := map_eq_ok.mp h
    exact List.cons_ne_nil _ _
  · next hmacs =>
    cases macs with
    | nil => exact absurd rfl hmacs
    | cons raw macs =>
      unfold deviceInterfacesFrom at h
      split at h
      · cases h
      · split at h
        · cases h
        · obtain ⟨i, -, h⟩ := bind_eq_ok.mp h
          obtain ⟨rest, -, h⟩ := bind_eq_ok.mp h
          cases h
          exact List.cons_ne_nil _ _

/-- A user asks for no forwarding, and has interfaces exactly if the entry names hardware
addresses. -/
theorem Machine.lan_of_ofUser {domain label : String} {isAdmin : Bool} {e : UserEntry}
    {m : Machine} (h : ofUser domain isAdmin label e = .ok m) :
    m.forward = [] ∧ (m.lan = [] ↔ e.macs = []) := by
  unfold ofUser at h
  obtain ⟨-, -, h⟩ := bind_eq_ok.mp h
  dsimp only at h
  split at h
  · next howns =>
    obtain ⟨lan, hlan, h⟩ := bind_eq_ok.mp h
    cases h
    have hmacs : e.macs ≠ [] := by simpa using howns
    exact ⟨rfl, iff_of_false (deviceInterfaces_ne_nil hlan) hmacs⟩
  · next howns =>
    cases h
    exact ⟨rfl, iff_of_true rfl (by simpa using howns)⟩

/-! ## The pass over all machines -/

namespace AreMachinesOf

variable {defaultPorts : List Nat} {d : Description} {servers inner outer users : List Machine}
variable (h : AreMachinesOf defaultPorts d servers inner outer users)
include h

/-- Only the entries of servers list administrators. -/
theorem administeredBy_eq (user : String) :
    administeredBy (servers ++ inner ++ outer ++ users) user = d.administeredBy user := by
  have hinner : inner.filter (fun m => m.admins.contains user) = [] :=
    List.filter_eq_nil_iff.mpr fun m hm => by
      obtain ⟨e, -, he⟩ := exists_of_mem_right h.inner hm
      simp [(Machine.interfaces_of_ofDevice he).2.2]
  have houter : outer.filter (fun m => m.admins.contains user) = [] :=
    List.filter_eq_nil_iff.mpr fun m hm => by
      obtain ⟨e, -, he⟩ := exists_of_mem_right h.outer hm
      simp [(Machine.interfaces_of_ofDevice he).2.2]
  have husers : users.filter (fun m => m.admins.contains user) = [] :=
    List.filter_eq_nil_iff.mpr fun m hm => by
      obtain ⟨e, -, he⟩ := exists_of_mem_right h.users hm
      simp [(Machine.interfaces_of_ofUser he).2.2]
  have hservers := forall₂_filter (p := fun m => m.admins.contains user)
    (q := fun e => e.2.admins.contains user) h.servers.flip fun m e he => by
      rw [Machine.admins_of_ofServer he]
  rw [administeredBy, List.filter_append, List.filter_append, List.filter_append, hinner, houter,
    husers]
  simp only [List.append_nil]
  exact map_eq_map_of_forall₂ hservers fun m e he => (Machine.ofServer_eq_ok he).1

end AreMachinesOf

section Pass

variable {name : String} {d : Description} {s : Settings} {g : Graph}
variable (hg : Graph.ofDescription name d s = .ok g)

/-- Whoever administers a server is one of the users. -/
theorem exists_user_of_administers (hadmins : checkAdmins d = .ok ()) {user server : String}
    (h : server ∈ d.administeredBy user) : ∃ e, (user, e) ∈ d.users := by
  obtain ⟨e, he, huser⟩ := Description.mem_administeredBy.mp h
  have hdeclared := forM_eq_ok (forM_eq_ok hadmins _ he) user huser
  split at hdeclared
  · next hany =>
    obtain ⟨⟨label, entry⟩, hu, heq⟩ := List.any_eq_true.mp hany
    obtain rfl : label = user := of_decide_eq_true heq
    exact ⟨entry, hu⟩
  · cases hdeclared

include hg

/-- Administrators are given access : the machine of a user whom a server lets in gets one rule,
and every other machine stays as it was read from its entry. -/
theorem machines_granted : ∃ ms, machinesOf s.defaultPorts d = .ok ms ∧
    List.Forall₂ (fun n m =>
      (∃ server, d.GrantsAccess n.label server) ∧ n.forward = [] ∧
          m = { n with forward := [adminRule n.label (d.administeredBy n.label)] } ∨
        (¬∃ server, d.GrantsAccess n.label server) ∧ m = n) ms g.machines := by
  obtain ⟨ms, hms, hmachines, hadmins, -, -⟩ := Graph.exists_checked hg
  refine ⟨ms, hms, ?_⟩
  obtain ⟨hnd, servers, inner, outer, users, hsplit, hparts⟩ := exists_areMachinesOf hms
  rw [hmachines, List.forall₂_map_right_iff, List.forall₂_same]
  intro n hn
  have hservers : administeredBy ms n.label = d.administeredBy n.label :=
    hsplit ▸ hparts.administeredBy_eq n.label
  -- The machine of the label is the one that was read from the entry of the user.
  have huser : ∀ e, (n.label, e) ∈ d.users → n.forward = [] ∧ (n.lan = [] ↔ e.macs = []) := by
    intro e he
    obtain ⟨w, hw, hread⟩ := exists_of_mem_left hparts.users he
    obtain rfl : w = n := List.inj_on_of_nodup_map hnd (by simp [hsplit, hw]) hn
      (Machine.ofUser_eq_ok hread).1
    exact Machine.lan_of_ofUser hread
  rw [grantAccess, hservers]
  split
  · next hnone =>
    refine Or.inr ⟨?_, rfl⟩
    rintro ⟨server, hlisted, e, he, hmacs⟩
    have hmem := List.ne_nil_of_mem (Description.mem_administeredBy.mpr hlisted)
    have hlan : n.lan = [] := by simpa [hmem] using hnone
    exact hmacs ((huser e he).2.mp hlan)
  · next hsome =>
    obtain ⟨hservers, hlan⟩ : d.administeredBy n.label ≠ [] ∧ n.lan ≠ [] := by simpa using hsome
    obtain ⟨server, hserver⟩ := List.exists_mem_of_ne_nil _ hservers
    obtain ⟨e, he⟩ := exists_user_of_administers hadmins hserver
    obtain ⟨hforward, hmacs⟩ := huser e he
    refine Or.inl ⟨⟨server, Description.mem_administeredBy.mp hserver, e, he,
      fun h => hlan (hmacs.mpr h)⟩, hforward, ?_⟩
    rw [hforward, List.nil_append]

/-- The machine of a user reaches what the servers grant. -/
theorem exists_reachesGranted {user : String} {e : UserEntry} (he : (user, e) ∈ d.users) :
    ∃ id m, g.machine? id = some m ∧ m.label = user ∧ m.isRouter = false ∧
      (m.lan = [] ↔ e.macs = []) ∧ m.ReachesGranted d := by
  obtain ⟨ms, hms, hgranted⟩ := machines_granted hg
  obtain ⟨-, servers, inner, outer, users, hsplit, hparts⟩ := exists_areMachinesOf hms
  obtain ⟨n, hn, hread⟩ := exists_of_mem_left hparts.users he
  obtain ⟨hforward, hlan⟩ := Machine.lan_of_ofUser hread
  have hrouter : n.isRouter = false := is_false_of_ofUser (by decide) hread
  obtain ⟨m, hm, h⟩ := exists_of_mem_left hgranted (x := n) (by simp [hsplit, hn])
  obtain ⟨id, hid⟩ := List.mem_iff_getElem?.mp hm
  have hlabel : n.label = user := (Machine.ofUser_eq_ok hread).1
  rcases h with ⟨hsome, -, rfl⟩ | ⟨hnone, rfl⟩
  · exact ⟨id, _, hid, hlabel, hrouter, hlan, .of_rule hsome rfl⟩
  · exact ⟨id, _, hid, hlabel, hrouter, hlan, .of_nil hnone hforward⟩

theorem serverEntry_unique {server : String} {e f : ServerEntry} (he : (server, e) ∈ d.servers)
    (hf : (server, f) ∈ d.servers) : e = f := by
  have hnd := Graph.nodup_labels hg
  rw [Graph.map_label hg, List.append_assoc, List.append_assoc] at hnd
  cases List.inj_on_of_nodup_map hnd.of_append_left he hf rfl
  rfl

theorem userEntry_unique {user : String} {e f : UserEntry} (he : (user, e) ∈ d.users)
    (hf : (user, f) ∈ d.users) : e = f := by
  have hnd := Graph.nodup_labels hg
  rw [Graph.map_label hg] at hnd
  cases List.inj_on_of_nodup_map hnd.of_append_right he hf rfl
  rfl

end Pass

/-! ## Addresses -/

theorem exists_addressesOf_iff {t : Topology} {id : MachineId} {e : Endpoint} :
    (∃ a ∈ t.addressesOf id, e = .net (Block.single a)) ↔
      (id = t.router ∧ ∃ y ∈ t.subnets, e = .net (Block.single y.gateway)) ∨
        id ≠ t.router ∧ ∃ a ∈ t.assignments, a.machine = id ∧
          e = .net (Block.single a.address) := by
  simp only [mem_addressesOf]
  constructor
  · rintro ⟨_, ⟨h, y, hy, rfl⟩ | ⟨h, a, ha, hmachine, rfl⟩, he⟩
    · exact Or.inl ⟨h, y, hy, he⟩
    · exact Or.inr ⟨h, a, ha, hmachine, he⟩
  · rintro (⟨h, y, hy, he⟩ | ⟨h, a, ha, hmachine, he⟩)
    · exact ⟨_, Or.inl ⟨h, y, hy, rfl⟩, he⟩
    · exact ⟨_, Or.inr ⟨h, a, ha, hmachine, rfl⟩, he⟩

/-- A resolved rule that lets a user in where the servers grant it : over SSH, from the addresses
of the user's devices to the addresses of the servers, which for the router are its gateways. Each
of these servers has an address. -/
structure ResolvedRule.AdmitsGranted (d : Description) (g : Graph) (t : Topology) (user : String)
    (x : ResolvedRule) : Prop where
  protocol_eq : x.protocol = .tcp
  ports_eq : x.ports.ports = [22]
  mem_sources_iff : ∀ e, e ∈ x.sources ↔ ∃ id, g.idOf? user = some id ∧
    ∃ a ∈ t.assignments, a.machine = id ∧ e = .net (Block.single a.address)
  nodup_destinations : x.destinations.Nodup
  mem_destinations_iff : ∀ e, e ∈ x.destinations ↔ ∃ server id, d.GrantsAccess user server ∧
    g.idOf? server = some id ∧
      ((id = t.router ∧ ∃ y ∈ t.subnets, e = .net (Block.single y.gateway)) ∨
        id ≠ t.router ∧ ∃ a ∈ t.assignments, a.machine = id ∧ e = .net (Block.single a.address))
  has_address : ∀ server, d.GrantsAccess user server →
    ∃ id, g.idOf? server = some id ∧ t.addressesOf id ≠ []

section Resolved

variable {name : String} {d : Description} {s s' : Settings} {g : Graph} {t : Topology}
variable (hg : Graph.ofDescription name d s = .ok g) (ht : t.IsBuilt g s')
include hg ht

/-- A user with a device has an address, and so there is a subnet. -/
theorem addressesOf_of_user {id : MachineId} {m : Machine} (hm : g.machine? id = some m)
    (hrouter : m.isRouter = false) (hlan : m.lan ≠ []) :
    t.addressesOf id ≠ [] ∧ t.subnets ≠ [] := by
  have hdeclared := Graph.isDeclared hg (List.mem_of_getElem? hm)
  obtain ⟨r, hr, hrole, hguest⟩ := hdeclared.placed hrouter
  obtain ⟨x, hx, -⟩ := ht.exists_subnet (mem_placementsOf.mpr ⟨m, hm, hlan, hrole⟩) hr hguest
  refine ⟨fun hnone => ?_, List.ne_nil_of_mem hx⟩
  have h := (isRouter_of_addressesOf_eq_nil hg ht hm (fun _ => hlan) hnone).1
  rw [hrouter] at h
  cases h

/-- A server has an address as soon as there is a subnet. -/
theorem exists_addressesOf_server {server : String} {e : ServerEntry}
    (he : (server, e) ∈ d.servers) (hsubnets : t.subnets ≠ []) :
    ∃ id m, g.machine? id = some m ∧ m.label = server ∧ t.addressesOf id ≠ [] := by
  obtain ⟨id, m, hm, hlabel, -, -, hlan⟩ := Graph.exists_naming_server hg he
  exact ⟨id, m, hm, hlabel,
    fun hnone => hsubnets (isRouter_of_addressesOf_eq_nil hg ht hm hlan hnone).2⟩

/-- The rule that lets a user in is resolved, and nothing of it is lost. -/
theorem exists_admitsGranted {id : MachineId} {m : Machine} (hm : g.machine? id = some m)
    (hrouter : m.isRouter = false) (hlan : m.lan ≠ []) (hreaches : m.ReachesGranted d)
    {r : TrafficRule} (hr : r ∈ m.forward) :
    ∃ x, FirewallPlan.resolve? g t m.label "firewall.allow_forward_to" r = .ok (some x) ∧
      x.AdmitsGranted d g t m.label := by
  obtain ⟨haddresses, hsubnets⟩ := addressesOf_of_user hg ht hm hrouter hlan
  obtain ⟨hprotocol, -, hsource, hports⟩ := hreaches.form r hr
  have hgrants := hreaches.mem_destinations_iff r hr
  have hid : g.idOf? m.label = some id := (Graph.idOf?_eq_some_iff hg).mpr ⟨m, hm, rfl⟩
  have hserver : ∀ server, d.GrantsAccess m.label server →
      ∃ id, g.idOf? server = some id ∧ t.addressesOf id ≠ [] := by
    rintro server ⟨⟨e, he, -⟩, -⟩
    obtain ⟨id, n, hn, hlabel, hne⟩ := exists_addressesOf_server hg ht he hsubnets
    exact ⟨id, (Graph.idOf?_eq_some_iff hg).mpr ⟨n, hn, hlabel⟩, hne⟩
  obtain ⟨sources, hsources, -, hmem⟩ := exists_endpoints_of_labels hg t m.label
    "firewall.allow_forward_to" [r.source]
    fun l hl => ⟨m, List.mem_of_getElem? hm, by rw [List.mem_singleton.mp hl, hsource]⟩
  obtain ⟨destinations, hdestinations, hnd, hmem'⟩ := exists_endpoints_of_labels hg t m.label
    "firewall.allow_forward_to" r.destinations fun l hl => by
      obtain ⟨id, hl, -⟩ := hserver l ((hgrants l).mp hl)
      obtain ⟨n, hn, hlabel⟩ := (Graph.idOf?_eq_some_iff hg).mp hl
      exact ⟨n, List.mem_of_getElem? hn, hlabel⟩
  simp only [List.mem_singleton, exists_eq_left, hsource] at hmem
  -- Neither end is empty, so the rule is kept.
  have hsome : sources ≠ [] := by
    obtain ⟨a, ha⟩ := List.exists_mem_of_ne_nil _ haddresses
    exact List.ne_nil_of_mem ((hmem _).mpr ⟨id, hid, a, ha, rfl⟩)
  have hsome' : destinations ≠ [] := by
    obtain ⟨server, hgrant⟩ := hreaches.ne_nil_iff.mp (List.ne_nil_of_mem hr)
    obtain ⟨id', hid', hne⟩ := hserver server hgrant
    obtain ⟨a, ha⟩ := List.exists_mem_of_ne_nil _ hne
    exact List.ne_nil_of_mem
      ((hmem' _).mpr ⟨server, (hgrants server).mpr hgrant, id', hid', a, ha, rfl⟩)
  refine ⟨⟨r.protocol, r.table, sources, destinations, r.ports⟩,
    FirewallPlan.resolve?_eq_ok_iff.mpr
      ⟨_, ⟨⟨rfl, rfl, hsources, hdestinations⟩, rfl⟩,
        (if_pos (by simp [ResolvedRule.hasEnds, hsome, hsome'])).symm⟩,
    hprotocol, hports, fun e => ?_, hnd, fun e => ?_, hserver⟩
  · have hne : id ≠ t.router := mt (ht.eq_router_iff hm).mp (by simp [hrouter])
    simp only [hmem, hid, Option.some_inj, exists_eq_left', exists_addressesOf_iff]
    simp only [hne, false_and, false_or, ne_eq, not_false_eq_true, true_and]
  · rw [hmem']
    constructor
    · rintro ⟨server, hmem, id', hid', haddress⟩
      exact ⟨server, id', (hgrants server).mp hmem, hid', exists_addressesOf_iff.mp haddress⟩
    · rintro ⟨server, id', hgrant, hid', haddress⟩
      exact ⟨server, (hgrants server).mpr hgrant, id', hid', exists_addressesOf_iff.mpr haddress⟩

end Resolved

/-! ## Networks -/

/-- Who comes to which server in the network of a description. The pass over the machines gives
the machine of every user whom a server lets in one rule, and leaves all other machines as they
were read. So the machine of a user has a rule to a server exactly if the server lists the user and
the user owns a device, at most one rule for all servers, and in every topology that is built
from the graph this rule is resolved to the addresses of these servers, none of which is lost. -/
theorem administrators_reach (name : String) (d : Description) (s : Settings) (g : Graph)
    (hg : Graph.ofDescription name d s = .ok g) :
    (∃ ms, machinesOf s.defaultPorts d = .ok ms ∧
      List.Forall₂ (fun n m =>
        (∃ server, d.GrantsAccess n.label server) ∧ n.forward = [] ∧
            m = { n with forward := [adminRule n.label (d.administeredBy n.label)] } ∨
          (¬∃ server, d.GrantsAccess n.label server) ∧ m = n) ms g.machines) ∧
    ∀ user e, (user, e) ∈ d.users → ∃ id m, g.machine? id = some m ∧ m.label = user ∧
      (∀ server f, (server, f) ∈ d.servers →
        ((∃ r ∈ m.forward, r.protocol = .tcp ∧ server ∈ r.destinations ∧ r.ports.ports = [22]) ↔
          user ∈ f.admins ∧ e.macs ≠ [])) ∧
      m.forward.length ≤ 1 ∧
      (∀ r ∈ m.forward, ∀ server, server ∈ r.destinations ↔ d.GrantsAccess user server) ∧
      ∀ s' t, (Topology.ofGraph g s').result = .ok t → ∀ r ∈ m.forward,
        ∃ x, FirewallPlan.resolve? g t user "firewall.allow_forward_to" r = .ok (some x) ∧
          x.AdmitsGranted d g t user := by
  refine ⟨machines_granted hg, fun user e he => ?_⟩
  obtain ⟨id, m, hm, rfl, hrouter, hlan, hreaches⟩ := exists_reachesGranted hg he
  refine ⟨id, m, hm, rfl, fun server f hf => ?_, hreaches.length_le,
    hreaches.mem_destinations_iff, fun s' t ht r hr => ?_⟩
  · rw [hreaches.reaches_iff]
    constructor
    · rintro ⟨⟨f', hf', huser⟩, e', he', hmacs⟩
      obtain rfl := serverEntry_unique hg hf hf'
      obtain rfl := userEntry_unique hg he he'
      exact ⟨huser, hmacs⟩
    · rintro ⟨huser, hmacs⟩
      exact ⟨⟨f, hf, huser⟩, e, he, hmacs⟩
  · obtain ⟨server, -, e', he', hmacs⟩ :=
      hreaches.ne_nil_iff.mp (List.ne_nil_of_mem hr)
    obtain rfl := userEntry_unique hg he he'
    exact exists_admitsGranted hg (Topology.isBuilt_of_ofGraph ht) hm hrouter
      (mt hlan.mp hmacs) hreaches hr

/-- A router and a server with two administrators, only one of whom owns a device. -/
def administeredLab : Description where
  servers := [
    ("router", { types := ["router"], admins := ["eva"] }),
    ("web", { types := ["dedicated"], mac := some "02:00:00:00:00:01",
              admins := ["eva", "tom", "eva"] })]
  users := [("eva", { macs := ["02:00:00:00:00:02"] }), ("tom", {})]

/-- The one with the device comes to both, and to the router at its gateways. -/
theorem administrators_reach_router :
    ∃ g t, Graph.ofDescription "lab" administeredLab .default = .ok g ∧
      (Topology.ofGraph g .default).result = .ok t ∧
      g.machines.map (fun m => m.forward.map (·.destinations)) = [[], [], [["router", "web"]], []] ∧
      (∃ id m, g.machine? id = some m ∧ m.label = "eva" ∧ ∀ r ∈ m.forward,
        ∃ x, FirewallPlan.resolve? g t "eva" "firewall.allow_forward_to" r = .ok (some x) ∧
          x.AdmitsGranted administeredLab g t "eva") ∧
      FirewallPlan.endpoints g t "eva" "firewall.allow_forward_to" ["router", "web"] =
        .ok [.net (Block.single (.ofOctets 10 10 0 1)), .net (Block.single (.ofOctets 10 50 0 1)),
          .net (Block.single (.ofOctets 10 10 0 2))] := by
  have hlab : (Graph.ofDescription "lab" administeredLab .default >>= fun g =>
      (Topology.ofGraph g .default).result.map fun t => decide (
        g.machines.map (fun m => m.forward.map (·.destinations)) =
          [[], [], [["router", "web"]], []] ∧
        FirewallPlan.endpoints g t "eva" "firewall.allow_forward_to" ["router", "web"] =
          .ok [.net (Block.single (.ofOctets 10 10 0 1)),
            .net (Block.single (.ofOctets 10 50 0 1)),
            .net (Block.single (.ofOctets 10 10 0 2))])) = .ok true := by
    decide +kernel
  obtain ⟨g, hg, hlab⟩ := bind_eq_ok.mp hlab
  obtain ⟨t, ht, hlab⟩ := map_eq_ok.mp hlab
  obtain ⟨hrules, hends⟩ := of_decide_eq_true hlab
  have huser : ("eva", { macs := ["02:00:00:00:00:02"] }) ∈ administeredLab.users := by
    decide
  obtain ⟨id, m, hm, hlabel, -, -, -, hresolved⟩ :=
    (administrators_reach "lab" administeredLab .default g hg).2 _ _ huser
  exact ⟨g, t, hg, ht, hrules, ⟨id, m, hm, hlabel, hresolved .default t ht⟩, hends⟩

end NetworkCompiler
