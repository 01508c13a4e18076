import NetworkCompiler.Network.MachineEntries
import NetworkCompiler.Proofs.Interface
import NetworkCompiler.Proofs.Lists
import NetworkCompiler.Proofs.Results

/-!
# Machines of entries

What a machine that was read from an entry of a description promises (`Machine.IsDeclared`) :
unless it is a router it is placed by a role that is not the guests', and its inner interfaces
have at most one address each. Each lemma reads the success of one reader as what it says about
its result; `lanInterface_eq_ok` ties the address of an inner interface to the text it was
written as.
-/

namespace NetworkCompiler

open Ipv4 (Address Block)

/-- What every declared machine promises. -/
structure Machine.IsDeclared (m : Machine) : Prop where
  /-- A machine that is no router has a place, and not among the guests. -/
  placed : m.isRouter = false →
    ∃ r ∈ Role.vlanEligible, m.vlanRole? = some r ∧ r ≠ .guest
  lan_addresses : ∀ i ∈ m.lan, i.addresses.length ≤ 1

/-! ## Roles -/

theorem Role.mem_all (r : Role) : r ∈ Role.all := by
  cases r <;> decide

theorem Role.mem_setOf {r : Role} {roles : List Role} : r ∈ Role.setOf roles ↔ r ∈ roles := by
  simp [Role.setOf, Role.mem_all]

theorem of_serverRolesOf? {word : String} {roles : List Role}
    (h : serverRolesOf? word = some roles) :
    (Role.router ∈ roles ∨ Role.server ∈ roles) ∧ Role.guest ∉ roles := by
  unfold serverRolesOf? at h
  split at h <;> cases h <;> decide

/-- A server is a router or holds the servers' role, and is no guest. -/
theorem of_serverRoles {label : String} {types : List String} {roles : OrderedSet Role}
    (h : serverRoles label types = .ok roles) :
    (Role.router ∈ roles ∨ Role.server ∈ roles) ∧ Role.guest ∉ roles := by
  unfold serverRoles at h
  split at h
  · cases h
  next htypes =>
  obtain ⟨found, hfound, h⟩ := bind_eq_ok.mp h
  cases h
  have hall : ∀ roles ∈ found, (Role.router ∈ roles ∨ Role.server ∈ roles) ∧
      Role.guest ∉ roles := fun roles hroles => by
    obtain ⟨word, -, hword⟩ := exists_of_mem_right (mapM_eq_ok.mp hfound) hroles
    split at hword
    · next hroles =>
      cases hword
      exact of_serverRolesOf? hroles
    · cases hword
  simp only [Role.mem_setOf, List.mem_flatten, not_exists, not_and]
  refine ⟨?_, fun roles hroles => (hall roles hroles).2⟩
  cases found with
  | nil =>
    rw [List.forall₂_nil_right_iff.mp (mapM_eq_ok.mp hfound)] at htypes
    exact absurd rfl htypes
  | cons roles _ =>
    exact (hall roles List.mem_cons_self).1.imp (fun h => ⟨roles, List.mem_cons_self, h⟩)
      fun h => ⟨roles, List.mem_cons_self, h⟩

theorem Machine.isRouter_eq_false_of_vlanRole? {m : Machine} {r : Role}
    (h : m.vlanRole? = some r) : m.isRouter = false := by
  by_contra hrouter
  rw [vlanRole?, if_pos (by simpa using hrouter)] at h
  cases h

theorem Machine.exists_vlanRole {m : Machine} {r : Role} (hrouter : m.isRouter = false)
    (hr : r ∈ m.roles) (hplace : r ∈ Role.placementPriority) (hguest : Role.guest ∉ m.roles) :
    ∃ r ∈ Role.vlanEligible, m.vlanRole? = some r ∧ r ≠ .guest := by
  unfold vlanRole?
  rw [hrouter, if_neg (by decide)]
  cases hfind : Role.placementPriority.find? m.is with
  | none =>
    have := List.find?_eq_none.mp hfind r hplace
    simp [Machine.is, hr] at this
  | some q =>
    have hq : q ∈ m.roles := by simpa [Machine.is] using List.find?_some hfind
    refine ⟨q, ?_, rfl, fun h => hguest (h ▸ hq)⟩
    have hmem := List.mem_of_find?_eq_some hfind
    revert hmem
    cases q <;> decide

/-! ## Fields -/

theorem readAddress_eq_ok {label field raw : String} {a : Address}
    (h : readAddress label field raw = .ok a) : Address.ofText? (Text.trim raw) = some a := by
  unfold readAddress at h
  split at h
  · next hread =>
    cases h
    exact hread
  · cases h

theorem readAddress?_eq_ok {label field raw : String} {a : Option Address}
    (h : readAddress? label field (some raw) = .ok a) :
    ∃ b, a = some b ∧ Address.ofText? (Text.trim raw) = some b := by
  rw [readAddress?] at h
  obtain ⟨b, hb, rfl⟩ := map_eq_ok.mp h
  exact ⟨b, rfl, readAddress_eq_ok hb⟩

/-! ## Inner interfaces -/

/-- The address of an inner interface is the one that is written, and a router's port has none. -/
theorem lanInterface_eq_ok {m : Machine} {name : String} {e : InterfaceEntry} {i : Interface}
    (h : lanInterface m name e = .ok i) :
    i.name = name ∧ ∃ a, readAddress? m.label "networkinterfaces.lan.address" e.address = .ok a ∧
      i.addresses = a.toList ∧ (m.isRouter = true → a = none) := by
  unfold lanInterface at h
  obtain ⟨mac, -, h⟩ := bind_eq_ok.mp h
  obtain ⟨address, haddress, h⟩ := bind_eq_ok.mp h
  cases address with
  | none =>
    obtain ⟨-, rfl⟩ := Interface.checked_eq_ok.mp h
    exact ⟨rfl, none, haddress, rfl, fun _ => rfl⟩
  | some a =>
    dsimp only at h
    split at h
    · cases h
    · next hrouter =>
      obtain ⟨subnet, -, h⟩ := bind_eq_ok.mp h
      obtain ⟨gateway, -, h⟩ := bind_eq_ok.mp h
      obtain ⟨-, rfl⟩ := Interface.checked_eq_ok.mp h
      exact ⟨rfl, some a, haddress, rfl, fun hr => absurd hr hrouter⟩

theorem length_addresses_of_lanInterface {m : Machine} {name : String} {e : InterfaceEntry}
    {i : Interface} (h : lanInterface m name e = .ok i) : i.addresses.length ≤ 1 := by
  obtain ⟨-, a, -, ha, -⟩ := lanInterface_eq_ok h
  rw [ha]
  cases a <;> simp

/-- The inner interfaces of a server are those of its entry, if it has any. -/
theorem serverLan_eq_ok {m : Machine} {e : ServerEntry} {lan : List Interface}
    (h : serverLan m e = .ok lan) :
    (∀ i ∈ lan, i.addresses.length ≤ 1) ∧
      (e.lan ≠ [] →
        List.Forall₂ (fun entry i => lanInterface m entry.1 entry.2 = .ok i) e.lan lan) := by
  unfold serverLan at h
  obtain ⟨declared, hdeclared, h⟩ := bind_eq_ok.mp h
  have hall := mapM_eq_ok.mp hdeclared
  split at h
  · next hempty =>
    obtain ⟨i, hi, h⟩ := bind_eq_ok.mp h
    cases h
    refine ⟨by simpa using length_addresses_of_lanInterface hi, fun hne => ?_⟩
    have hnil : declared = [] := by simp_all
    subst hnil
    exact absurd (List.forall₂_nil_right_iff.mp hall) hne
  · cases h
    refine ⟨fun i hi => ?_, fun _ => hall⟩
    obtain ⟨entry, -, hentry⟩ := exists_of_mem_right hall hi
    exact length_addresses_of_lanInterface hentry

theorem addresses_of_deviceInterfacesFrom {label : String} {n : Nat} {seen : List Mac}
    {macs : List String} {lan : List Interface}
    (h : deviceInterfacesFrom label n seen macs = .ok lan) : ∀ i ∈ lan, i.addresses = [] := by
  induction macs generalizing n seen lan with
  | nil =>
    cases h
    simp
  | cons raw macs ih =>
    unfold deviceInterfacesFrom at h
    split at h
    · cases h
    · split at h
      · cases h
      · obtain ⟨i, hi, h⟩ := bind_eq_ok.mp h
        obtain ⟨rest, hrest, h⟩ := bind_eq_ok.mp h
        cases h
        obtain ⟨-, rfl⟩ := Interface.checked_eq_ok.mp hi
        rw [List.forall_mem_cons]
        exact ⟨rfl, ih hrest⟩

theorem addresses_of_deviceInterfaces {label : String} {macs : List String}
    {lan : List Interface} (h : deviceInterfaces label macs = .ok lan) :
    ∀ i ∈ lan, i.addresses = [] := by
  unfold deviceInterfaces at h
  split at h
  · obtain ⟨i, hi, h⟩ := map_eq_ok.mp h
    obtain ⟨-, rfl⟩ := Interface.checked_eq_ok.mp hi
    subst h
    simp [Interface.new]
  · exact addresses_of_deviceInterfacesFrom h

/-! ## Machines -/

/-- What a machine wants of the firewall gives it rules and an outer address, and changes nothing
else. -/
theorem Machine.exists_rules_of_withFirewall {defaultPorts : List Nat} {m n : Machine}
    {e : FirewallEntry} (h : m.withFirewall defaultPorts e = .ok n) :
    ∃ listen ingress egress forward dnat externalIp,
      n = { m with
        listen := listen, ingress := ingress, egress := egress, forward := forward, dnat := dnat,
        externalIp := externalIp } ∧
      (∃ ports, e.allowIngressFrom.mapM (ingressRule m.label ports) = .ok ingress ∧
        dnatRules m.label ports e.dnatTo = .ok dnat) ∧
      e.allowEgressTo.mapM (egressRule defaultPorts m.label) = .ok egress ∧
      e.allowForwardTo.mapM (forwardRule m.label) = .ok forward := by
  unfold withFirewall at h
  obtain ⟨tcp, -, h⟩ := bind_eq_ok.mp h
  obtain ⟨udp, -, h⟩ := bind_eq_ok.mp h
  obtain ⟨ingress, hingress, h⟩ := bind_eq_ok.mp h
  obtain ⟨egress, hegress, h⟩ := bind_eq_ok.mp h
  obtain ⟨forward, hforward, h⟩ := bind_eq_ok.mp h
  obtain ⟨dnat, hdnat, h⟩ := bind_eq_ok.mp h
  obtain ⟨externalIp, -, h⟩ := bind_eq_ok.mp h
  cases h
  exact ⟨tcp ++ udp, ingress, egress, forward, dnat, externalIp, rfl, ⟨_, hingress, hdnat⟩,
    hegress, hforward⟩

/-- The steps from the entry of a server to its machine. -/
theorem Machine.exists_steps_of_ofServer {defaultPorts : List Nat} {domain label : String}
    {e : ServerEntry} {m : Machine} (h : ofServer defaultPorts domain label e = .ok m) :
    ∃ n : Machine, n.label = label ∧ serverRoles label e.types = .ok n.roles ∧
      wanConnection? label n.roles e.extConnection = .ok n.wanConnection ∧
      serviceSpec? label n.roles e = .ok n.service ∧
      ∃ lan wan, serverLan n e = .ok lan ∧ serverWan n e = .ok wan ∧
        withFirewall defaultPorts { n with lan := lan, wan := wan } e.firewall = .ok m := by
  unfold ofServer at h
  obtain ⟨roles, hroles, h⟩ := bind_eq_ok.mp h
  obtain ⟨-, -, h⟩ := bind_eq_ok.mp h
  obtain ⟨connection, -, h⟩ := bind_eq_ok.mp h
  obtain ⟨wanConnection, hwanConnection, h⟩ := bind_eq_ok.mp h
  obtain ⟨service, hservice, h⟩ := bind_eq_ok.mp h
  obtain ⟨lan, hlan, h⟩ := bind_eq_ok.mp h
  obtain ⟨wan, hwan, h⟩ := bind_eq_ok.mp h
  exact ⟨_, rfl, hroles, hwanConnection, hservice, lan, wan, hlan, hwan, h⟩

/-- The label, the roles and the inner interfaces of a server. -/
theorem Machine.ofServer_eq_ok {defaultPorts : List Nat} {domain label : String}
    {e : ServerEntry} {m : Machine} (h : ofServer defaultPorts domain label e = .ok m) :
    m.label = label ∧ serverRoles label e.types = .ok m.roles ∧
      ∃ n : Machine, n.label = label ∧ n.isRouter = m.isRouter ∧ serverLan n e = .ok m.lan := by
  obtain ⟨n, hlabel, hroles, -, -, lan, wan, hlan, -, h⟩ := exists_steps_of_ofServer h
  obtain ⟨_, _, _, _, _, _, rfl, -⟩ := exists_rules_of_withFirewall h
  exact ⟨hlabel, hroles, n, hlabel, rfl, hlan⟩

theorem Machine.isDeclared_of_ofServer {defaultPorts : List Nat} {domain label : String}
    {e : ServerEntry} {m : Machine} (h : ofServer defaultPorts domain label e = .ok m) :
    m.IsDeclared := by
  obtain ⟨-, hroles, n, -, -, hlan⟩ := ofServer_eq_ok h
  obtain ⟨hserver, hguest⟩ := of_serverRoles hroles
  refine ⟨fun hrouter => ?_, (serverLan_eq_ok hlan).1⟩
  have hserver : Role.server ∈ m.roles :=
    hserver.resolve_left (by simpa [isRouter, is] using hrouter)
  exact exists_vlanRole hrouter hserver (by decide) hguest

/-- A device is neither a router nor a hypervisor nor a service, and has no outer interfaces. -/
theorem Machine.ofDevice_eq_ok {defaultPorts : List Nat} {domain label : String} {role : Role}
    {e : DeviceEntry} {m : Machine} (h : ofDevice defaultPorts domain role label e = .ok m) :
    m.label = label ∧ m.roles = Role.setOf [.device, role] ∧ m.wan = [] ∧ m.service = none ∧
      ∃ egress, e.allowEgressTo.mapM (egressRule defaultPorts label) = .ok egress ∧
        egress ⊆ m.egress := by
  unfold ofDevice at h
  obtain ⟨-, -, h⟩ := bind_eq_ok.mp h
  obtain ⟨lan, -, h⟩ := bind_eq_ok.mp h
  obtain ⟨egress, hegress, h⟩ := bind_eq_ok.mp h
  cases h
  exact ⟨rfl, rfl, rfl, rfl, egress, hegress, List.subset_append_right _ _⟩

/-- A user is neither a router nor a hypervisor nor a service, and has no outer interfaces. -/
theorem Machine.ofUser_eq_ok {domain label : String} {isAdmin : Bool} {e : UserEntry}
    {m : Machine} (h : ofUser domain isAdmin label e = .ok m) :
    m.label = label ∧ m.wan = [] ∧ m.service = none ∧
      ∀ r ∈ m.roles, r = .user ∨ r = .admin ∨ r = .device := by
  unfold ofUser at h
  obtain ⟨-, -, h⟩ := bind_eq_ok.mp h
  have hparts : m.label = label ∧ m.wan = [] ∧ m.service = none ∧
      m.roles = Role.setOf ([.user] ++ (if isAdmin then [.admin] else []) ++
        (if !e.macs.isEmpty then [.device] else [])) := by
    dsimp only at h
    split at h
    · obtain ⟨lan, -, h⟩ := bind_eq_ok.mp h
      cases h
      simp_all
    · cases h
      simp_all
  obtain ⟨hlabel, hwan, hservice, hroles⟩ := hparts
  refine ⟨hlabel, hwan, hservice, fun r hr => ?_⟩
  rw [hroles, Role.mem_setOf, List.mem_append, List.mem_append, List.mem_singleton] at hr
  rcases hr with (hr | hr) | hr
  · exact .inl hr
  · exact .inr (.inl (by split at hr <;> simp_all))
  · exact .inr (.inr (by split at hr <;> simp_all))

theorem Machine.isDeclared_of_ofDevice {defaultPorts : List Nat} {domain label : String}
    {role : Role} (hrole : role = .internalOnly ∨ role = .externalOnly) {e : DeviceEntry}
    {m : Machine} (h : ofDevice defaultPorts domain role label e = .ok m) : m.IsDeclared := by
  unfold ofDevice at h
  obtain ⟨-, -, h⟩ := bind_eq_ok.mp h
  obtain ⟨lan, hlan, h⟩ := bind_eq_ok.mp h
  obtain ⟨egress, -, h⟩ := bind_eq_ok.mp h
  cases h
  refine ⟨fun hrouter => ?_, fun i hi => by simp [addresses_of_deviceInterfaces hlan i hi]⟩
  have hmem : role ∈ Role.setOf [Role.device, role] :=
    Role.mem_setOf.mpr (List.mem_cons_of_mem _ List.mem_cons_self)
  refine exists_vlanRole hrouter hmem ?_ ?_
  · rcases hrole with rfl | rfl <;> decide
  · rw [Role.mem_setOf]
    rcases hrole with rfl | rfl <;> decide

theorem Machine.isDeclared_of_ofUser {domain label : String} {isAdmin : Bool} {e : UserEntry}
    {m : Machine} (h : ofUser domain isAdmin label e = .ok m) : m.IsDeclared := by
  unfold ofUser at h
  obtain ⟨-, -, h⟩ := bind_eq_ok.mp h
  have hparts : Role.user ∈ m.roles ∧ Role.guest ∉ m.roles ∧ ∀ i ∈ m.lan, i.addresses = [] := by
    dsimp only at h
    split at h
    · obtain ⟨lan, hlan, h⟩ := bind_eq_ok.mp h
      cases h
      exact ⟨by simp [Role.mem_setOf], by cases isAdmin <;> simp [Role.mem_setOf],
        addresses_of_deviceInterfaces hlan⟩
    · cases h
      exact ⟨by simp [Role.mem_setOf], by cases isAdmin <;> simp [Role.mem_setOf], by simp⟩
  obtain ⟨huser, hguest, hlan⟩ := hparts
  exact ⟨fun hrouter => exists_vlanRole hrouter huser (by decide) hguest,
    fun i hi => by simp [hlan i hi]⟩

end NetworkCompiler
