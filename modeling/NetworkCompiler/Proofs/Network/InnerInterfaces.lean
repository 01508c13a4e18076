import NetworkCompiler.Proofs.Network.Consistency

/-!
# Inner interfaces of servers

The inner interfaces of a server that is no router come from its entry
(`Graph.exists_serverLan`) : each has a fixed address or asks for one. The inner interfaces of any
machine have distinct names if the keys of entries are distinct, as the keys of a map are
(`Description.NamesLanOnce`, `Graph.nodup_lan`). The full name of any machine is its label in the
domain of the network (`Graph.fqdn_eq`).
-/

namespace NetworkCompiler

theorem kind_of_lanInterface {m : Machine} {name : String} {e : InterfaceEntry} {i : Interface}
    (h : lanInterface m name e = .ok i) (hrouter : m.isRouter = false) :
    i.kind = .static ∨ i.kind = .dhcp := by
  have hkind : ∀ given, lanKind m given = .static ∨ lanKind m given = .dhcp := fun given => by
    rw [lanKind, if_neg (by simp [hrouter])]
    split
    · exact .inl rfl
    · exact .inr rfl
  unfold lanInterface at h
  obtain ⟨mac, -, h⟩ := bind_eq_ok.mp h
  obtain ⟨address, -, h⟩ := bind_eq_ok.mp h
  cases address with
  | none =>
    obtain ⟨-, rfl⟩ := Interface.checked_eq_ok.mp h
    exact hkind _
  | some a =>
    dsimp only at h
    rw [if_neg (by simp [hrouter])] at h
    obtain ⟨subnet, -, h⟩ := bind_eq_ok.mp h
    obtain ⟨gateway, -, h⟩ := bind_eq_ok.mp h
    obtain ⟨-, rfl⟩ := Interface.checked_eq_ok.mp h
    exact hkind _

theorem kind_of_serverLan {m : Machine} {e : ServerEntry} {lan : List Interface}
    (h : serverLan m e = .ok lan) (hrouter : m.isRouter = false) :
    ∀ i ∈ lan, i.kind = .static ∨ i.kind = .dhcp := by
  unfold serverLan at h
  obtain ⟨declared, hdeclared, h⟩ := bind_eq_ok.mp h
  split at h
  · obtain ⟨i, hi, h⟩ := bind_eq_ok.mp h
    cases h
    exact List.forall_mem_singleton.mpr (kind_of_lanInterface hi hrouter)
  · cases h
    intro i hi
    obtain ⟨entry, -, hentry⟩ := exists_of_mem_right (mapM_eq_ok.mp hdeclared) hi
    exact kind_of_lanInterface hentry hrouter

theorem addresses_of_serverLan {m : Machine} {e : ServerEntry} {lan : List Interface}
    (h : serverLan m e = .ok lan) (hrouter : m.isRouter = true) : ∀ i ∈ lan, i.addresses = [] := by
  unfold serverLan at h
  obtain ⟨declared, hdeclared, h⟩ := bind_eq_ok.mp h
  rw [if_neg (by simp [hrouter])] at h
  cases h
  intro i hi
  obtain ⟨entry, -, hentry⟩ := exists_of_mem_right (mapM_eq_ok.mp hdeclared) hi
  obtain ⟨-, a, -, haddresses, hnone⟩ := lanInterface_eq_ok hentry
  rw [haddresses, hnone hrouter, Option.toList_none]

/-- No entry of a server names an inner interface twice. -/
def Description.NamesLanOnce (d : Description) : Prop :=
  ∀ entry ∈ d.servers, (entry.2.lan.map (·.1)).Nodup

instance (d : Description) : Decidable d.NamesLanOnce :=
  inferInstanceAs (Decidable (∀ entry ∈ d.servers, (entry.2.lan.map (·.1)).Nodup))

namespace Graph

variable {name : String} {d : Description} {s : Settings} {g : Graph} {m : Machine}
variable (h : Graph.ofDescription name d s = .ok g) (hm : m ∈ g.machines)
include h hm

/-- The full name of a machine is its label in the domain of the network. -/
theorem fqdn_eq : m.fqdn = m.label ++ "." ++ g.domain := by
  have hdomain : g.domain = domainOf d := by
    obtain ⟨_, -, h⟩ := bind_eq_ok.mp h
    obtain ⟨_, -, h⟩ := bind_eq_ok.mp h
    obtain ⟨_, -, h⟩ := bind_eq_ok.mp h
    obtain ⟨_, -, h⟩ := bind_eq_ok.mp h
    obtain ⟨_, -, h⟩ := bind_eq_ok.mp h
    cases h
    rfl
  obtain ⟨ms, n, rfl, hn⟩ := exists_isReadFrom h hm
  obtain ⟨more, hmore⟩ := exists_grantAccess_eq ms n
  rw [hmore, hdomain]
  change n.fqdn = n.label ++ "." ++ domainOf d
  cases hn with
  | server he hread =>
    unfold Machine.ofServer at hread
    obtain ⟨roles, -, hread⟩ := bind_eq_ok.mp hread
    obtain ⟨-, -, hread⟩ := bind_eq_ok.mp hread
    obtain ⟨connection, -, hread⟩ := bind_eq_ok.mp hread
    obtain ⟨wanConnection, -, hread⟩ := bind_eq_ok.mp hread
    obtain ⟨service, -, hread⟩ := bind_eq_ok.mp hread
    obtain ⟨lan, -, hread⟩ := bind_eq_ok.mp hread
    obtain ⟨wan, -, hread⟩ := bind_eq_ok.mp hread
    obtain ⟨_, _, _, _, _, _, rfl, -⟩ := Machine.exists_rules_of_withFirewall hread
    rfl
  | device hrole hread =>
    unfold Machine.ofDevice at hread
    obtain ⟨-, -, hread⟩ := bind_eq_ok.mp hread
    obtain ⟨lan, -, hread⟩ := bind_eq_ok.mp hread
    obtain ⟨egress, -, hread⟩ := bind_eq_ok.mp hread
    cases hread
    rfl
  | user hread =>
    unfold Machine.ofUser at hread
    obtain ⟨-, -, hread⟩ := bind_eq_ok.mp hread
    dsimp only at hread
    split at hread
    · obtain ⟨lan, -, hread⟩ := bind_eq_ok.mp hread
      cases hread
      rfl
    · cases hread
      rfl

/-- The inner interfaces of a server are read from its entry. -/
theorem exists_serverLan (hserver : m.is .server = true) : ∃ entry ∈ d.servers, ∃ n : Machine,
    n.isRouter = m.isRouter ∧ serverLan n entry.2 = .ok m.lan := by
  obtain ⟨ms, n, rfl, hn⟩ := exists_isReadFrom h hm
  obtain ⟨more, hmore⟩ := exists_grantAccess_eq ms n
  rw [hmore] at hserver ⊢
  replace hserver : Role.server ∈ n.roles := of_decide_eq_true hserver
  cases hn with
  | server he hread =>
    obtain ⟨-, -, n', -, hrouter, hlan⟩ := Machine.ofServer_eq_ok hread
    exact ⟨_, he, n', hrouter, hlan⟩
  | device hrole hread =>
    rw [(Machine.ofDevice_eq_ok hread).2.1, Role.mem_setOf] at hserver
    rcases hrole with rfl | rfl <;> simp at hserver
  | user hread =>
    rcases (Machine.ofUser_eq_ok hread).2.2.2 _ hserver with hr | hr | hr <;> cases hr

/-- The inner interfaces of a router are ports and have no addresses. -/
theorem addresses_of_router (hrouter : m.isRouter = true) : ∀ i ∈ m.lan, i.addresses = [] := by
  obtain ⟨ms, n, rfl, hn⟩ := exists_isReadFrom h hm
  obtain ⟨more, hmore⟩ := exists_grantAccess_eq ms n
  rw [hmore] at hrouter ⊢
  replace hrouter : Role.router ∈ n.roles := of_decide_eq_true hrouter
  cases hn with
  | server he hread =>
    obtain ⟨-, -, n', -, hsame, hlan⟩ := Machine.ofServer_eq_ok hread
    exact addresses_of_serverLan hlan (hsame.trans (decide_eq_true hrouter))
  | device hrole hread =>
    rw [(Machine.ofDevice_eq_ok hread).2.1, Role.mem_setOf] at hrouter
    rcases hrole with rfl | rfl <;> simp at hrouter
  | user hread =>
    rcases (Machine.ofUser_eq_ok hread).2.2.2 _ hrouter with hr | hr | hr <;> cases hr

/-- An inner interface of a server that is no router has a fixed address or asks for one. -/
theorem kind_of_mem_lan (hserver : m.is .server = true) (hrouter : m.isRouter = false) :
    ∀ i ∈ m.lan, i.kind = .static ∨ i.kind = .dhcp := by
  obtain ⟨entry, -, n, hn, hlan⟩ := exists_serverLan h hm hserver
  exact kind_of_serverLan hlan (hn.trans hrouter)

/-- The inner interfaces of a machine have distinct names. -/
theorem nodup_lan (hkeys : d.NamesLanOnce) : (m.lan.map (·.name)).Nodup := by
  obtain ⟨ms, n, rfl, hn⟩ := exists_isReadFrom h hm
  obtain ⟨more, hmore⟩ := exists_grantAccess_eq ms n
  rw [hmore]
  have hinner : (n.interfaces.map (·.name)).Nodup → (n.lan.map (·.name)).Nodup :=
    fun hnames => hnames.sublist ((List.sublist_append_left _ _).map _)
  cases hn with
  | server he hread =>
    obtain ⟨-, -, n', -, -, hlan⟩ := Machine.ofServer_eq_ok hread
    rw [(names_of_serverLan hlan).2]
    split
    · exact List.nodup_singleton _
    · exact hkeys _ he
  | device hrole hread => exact hinner (Machine.interfaces_of_ofDevice hread).2.1
  | user hread => exact hinner (Machine.interfaces_of_ofUser hread).2.1

end Graph

end NetworkCompiler
