import NetworkCompiler.Proofs.Dictionary
import NetworkCompiler.Proofs.Network.Names
import NetworkCompiler.Proofs.Network.Ports
import NetworkCompiler.Proofs.Network.Targets
import NetworkCompiler.Proofs.Report.Verification
import NetworkCompiler.Proofs.Text.Reading
import NetworkCompiler.Topology.Addresses

/-!
# Consistent graphs

Everything that later steps rely on without looking again (`Graph.IsConsistent`) : labels and
places are inverse to each other, no hardware address is declared twice, services and
administrators are found where they are named, whoever has to be placed can be, and all
interfaces are legal. The graph of every description that has one is consistent
(`graph_consistent`).

One thing is not promised : that the interfaces of a machine have names of their own. A server
without inner interfaces is given one, and its name is not held against the names of the outer
ones. `ServerEntry.NamesInterfacesOnce` is the exact condition.
-/

namespace NetworkCompiler

/-! ## Legal interfaces with names -/

section Entries

variable {m : Machine} {e : ServerEntry}

theorem legal_of_lanInterface {name : String} {entry : InterfaceEntry} {i : Interface}
    (h : lanInterface m name entry = .ok i) : i.fault? = none := by
  unfold lanInterface at h
  obtain ⟨mac, -, h⟩ := bind_eq_ok.mp h
  obtain ⟨address, -, h⟩ := bind_eq_ok.mp h
  cases address with
  | none =>
    obtain ⟨hlegal, rfl⟩ := Interface.checked_eq_ok.mp h
    exact hlegal
  | some a =>
    dsimp only at h
    split at h
    · cases h
    · obtain ⟨_, -, h⟩ := bind_eq_ok.mp h
      obtain ⟨_, -, h⟩ := bind_eq_ok.mp h
      obtain ⟨hlegal, rfl⟩ := Interface.checked_eq_ok.mp h
      exact hlegal

/-- The inner interfaces of a server have the names of its entry, or the only one that it is
given. -/
theorem names_of_serverLan {lan : List Interface} (h : serverLan m e = .ok lan) :
    (∀ i ∈ lan, i.fault? = none) ∧
      lan.map (·.name) =
        if e.lan = [] ∧ m.isRouter = false then ["lan0"] else e.lan.map (·.1) := by
  unfold serverLan at h
  obtain ⟨declared, hdeclared, h⟩ := bind_eq_ok.mp h
  have hall := mapM_eq_ok.mp hdeclared
  have hnames : declared.map (·.name) = e.lan.map (·.1) :=
    map_eq_map_of_forall₂ hall.flip fun i entry hi => (lanInterface_eq_ok hi).1
  have hnil : declared = [] ↔ e.lan = [] := by
    rw [← List.map_eq_nil_iff (f := (·.name)), hnames, List.map_eq_nil_iff]
  split at h
  · next hempty =>
    obtain ⟨i, hi, h⟩ := bind_eq_ok.mp h
    cases h
    have hgiven : e.lan = [] ∧ m.isRouter = false := by simpa [hnil] using hempty
    rw [if_pos hgiven]
    exact ⟨by simpa using legal_of_lanInterface hi, by simpa using (lanInterface_eq_ok hi).1⟩
  · next hnonempty =>
    cases h
    have hgiven : ¬(e.lan = [] ∧ m.isRouter = false) := by simpa [hnil] using hnonempty
    rw [if_neg hgiven]
    refine ⟨fun i hi => ?_, hnames⟩
    obtain ⟨entry, -, hentry⟩ := exists_of_mem_right hall hi
    exact legal_of_lanInterface hentry

/-- The outer interfaces of a server have the names of its entry, and none of them is the name of
an inner one there. -/
theorem names_of_serverWan {wan : List Interface} (h : serverWan m e = .ok wan) :
    wan.map (·.name) = e.wan.map (·.1) ∧
      ∀ name ∈ e.wan.map (·.1), name ∉ e.lan.map (·.1) := by
  refine ⟨map_eq_map_of_forall₂ (serverWan_eq_ok h).flip fun i entry hi => hi.name_eq, ?_⟩
  rw [List.forall_mem_map]
  intro entry hentry hmem
  obtain ⟨i, -, hi⟩ := exists_of_mem_left (mapM_eq_ok.mp h) hentry
  obtain ⟨l, hl, hname⟩ := List.mem_map.mp hmem
  have hany : (e.lan.any fun l => l.1 = entry.1) = true :=
    List.any_eq_true.mpr ⟨l, hl, decide_eq_true hname⟩
  dsimp only at hi
  rw [if_pos hany] at hi
  cases hi

/-- Whether the interfaces of a server get names of their own : the keys of its entry are
distinct, and the name of the inner interface that it is given is not that of an outer one. -/
def ServerEntry.NamesInterfacesOnce (e : ServerEntry) (isRouter : Bool) : Prop :=
  (e.lan.map (·.1)).Nodup ∧ (e.wan.map (·.1)).Nodup ∧
    (e.lan = [] → isRouter = false → "lan0" ∉ e.wan.map (·.1))

theorem Machine.interfaces_of_ofServer {defaultPorts : List Nat} {domain label : String}
    (h : ofServer defaultPorts domain label e = .ok m) :
    (∀ i ∈ m.interfaces, i.fault? = none) ∧
      ((m.interfaces.map (·.name)).Nodup ↔ e.NamesInterfacesOnce m.isRouter) := by
  obtain ⟨n, -, -, -, -, lan, wan, hlan, hwan, h⟩ := exists_steps_of_ofServer h
  obtain ⟨_, _, _, _, _, _, rfl, -⟩ := exists_rules_of_withFirewall h
  obtain ⟨hlegal, hlanNames⟩ := names_of_serverLan hlan
  obtain ⟨hwanNames, hapart⟩ := names_of_serverWan hwan
  constructor
  · intro i hi
    rcases List.mem_append.mp hi with hi | hi
    · exact hlegal i hi
    · obtain ⟨entry, -, hentry⟩ := exists_of_mem_right (serverWan_eq_ok hwan) hi
      exact hentry.legal
  · change ((lan ++ wan).map (·.name)).Nodup ↔ e.NamesInterfacesOnce n.isRouter
    rw [List.map_append, hlanNames, hwanNames, ServerEntry.NamesInterfacesOnce]
    split
    · next hgiven =>
      rw [List.singleton_append, List.nodup_cons, hgiven.1, hgiven.2]
      simp [and_comm]
    · next hdeclared =>
      have hnot : e.lan = [] → n.isRouter = false → "lan0" ∉ e.wan.map (·.1) :=
        fun hnil hrouter => absurd ⟨hnil, hrouter⟩ hdeclared
      rw [List.nodup_append]
      refine and_congr_right fun _ => and_congr_right fun _ => iff_of_true ?_ hnot
      exact fun a ha b hb hab => hapart b hb (hab ▸ ha)

/-! ## Devices -/

/-- The name of an interface of a device. -/
theorem lanName_inj {n k : Nat} (h : s!"lan{n}" = s!"lan{k}") : n = k := by
  have hdigits : toString n = toString k := by simpa using h
  exact Text.Chars.toString_inj.mp hdigits

theorem names_of_deviceInterfacesFrom {label : String} {n : Nat} {seen : List Mac}
    {macs : List String} {lan : List Interface}
    (h : deviceInterfacesFrom label n seen macs = .ok lan) :
    (∀ i ∈ lan, i.fault? = none) ∧
      lan.map (·.name) = (List.range' n lan.length).map fun k => s!"lan{k}" := by
  induction macs generalizing n seen lan with
  | nil =>
    cases h
    simp
  | cons raw macs ih =>
    unfold deviceInterfacesFrom at h
    split at h
    · cases h
    · split at h
      · cases h
      · obtain ⟨i, hi, h⟩ := bind_eq_ok.mp h
        obtain ⟨rest, hrest, h⟩ := bind_eq_ok.mp h
        cases h
        obtain ⟨hlegal, rfl⟩ := Interface.checked_eq_ok.mp hi
        obtain ⟨hrestLegal, hnames⟩ := ih hrest
        refine ⟨List.forall_mem_cons.mpr ⟨hlegal, hrestLegal⟩, ?_⟩
        rw [List.map_cons, hnames, List.length_cons, List.range'_succ, List.map_cons]
        rfl

theorem names_of_deviceInterfaces {label : String} {macs : List String} {lan : List Interface}
    (h : deviceInterfaces label macs = .ok lan) :
    (∀ i ∈ lan, i.fault? = none) ∧ (lan.map (·.name)).Nodup := by
  unfold deviceInterfaces at h
  split at h
  · obtain ⟨i, hi, h⟩ := map_eq_ok.mp h
    subst h
    obtain ⟨hlegal, rfl⟩ := Interface.checked_eq_ok.mp hi
    exact ⟨by simpa using hlegal, List.nodup_singleton _⟩
  · obtain ⟨hlegal, hnames⟩ := names_of_deviceInterfacesFrom h
    exact ⟨hlegal, hnames ▸ List.Nodup.map (fun _ _ => lanName_inj) List.nodup_range'⟩

end Entries

section Machines

variable {defaultPorts : List Nat} {domain label : String} {m : Machine}

theorem Machine.interfaces_of_ofDevice {role : Role} {e : DeviceEntry}
    (h : ofDevice defaultPorts domain role label e = .ok m) :
    (∀ i ∈ m.interfaces, i.fault? = none) ∧ (m.interfaces.map (·.name)).Nodup ∧ m.admins = [] := by
  unfold ofDevice at h
  obtain ⟨-, -, h⟩ := bind_eq_ok.mp h
  obtain ⟨lan, hlan, h⟩ := bind_eq_ok.mp h
  obtain ⟨egress, -, h⟩ := bind_eq_ok.mp h
  cases h
  obtain ⟨hlegal, hnames⟩ := names_of_deviceInterfaces hlan
  exact ⟨by simpa [interfaces] using hlegal, by simpa [interfaces] using hnames, rfl⟩

theorem Machine.interfaces_of_ofUser {isAdmin : Bool} {e : UserEntry}
    (h : ofUser domain isAdmin label e = .ok m) :
    (∀ i ∈ m.interfaces, i.fault? = none) ∧ (m.interfaces.map (·.name)).Nodup ∧ m.admins = [] := by
  unfold ofUser at h
  obtain ⟨-, -, h⟩ := bind_eq_ok.mp h
  dsimp only at h
  split at h
  · obtain ⟨lan, hlan, h⟩ := bind_eq_ok.mp h
    cases h
    obtain ⟨hlegal, hnames⟩ := names_of_deviceInterfaces hlan
    exact ⟨by simpa [interfaces] using hlegal, by simpa [interfaces] using hnames, rfl⟩
  · cases h
    simp [interfaces]

theorem Machine.account_of_ofUser {isAdmin : Bool} {e : UserEntry}
    (h : ofUser domain isAdmin label e = .ok m) : ∃ account, m.account = some account := by
  unfold ofUser at h
  obtain ⟨-, -, h⟩ := bind_eq_ok.mp h
  dsimp only at h
  split at h
  · obtain ⟨lan, -, h⟩ := bind_eq_ok.mp h
    cases h
    exact ⟨_, rfl⟩
  · cases h
    exact ⟨_, rfl⟩

/-- Who is an administrator is read off the description. -/
theorem Machine.roles_of_ofUser {isAdmin : Bool} {e : UserEntry}
    (h : ofUser domain isAdmin label e = .ok m) :
    m.is .user = true ∧ (isAdmin = true → m.is .admin = true) := by
  unfold ofUser at h
  obtain ⟨-, -, h⟩ := bind_eq_ok.mp h
  dsimp only at h
  split at h
  · obtain ⟨lan, -, h⟩ := bind_eq_ok.mp h
    cases h
    simp [is, Role.mem_setOf]
  · cases h
    simp [is, Role.mem_setOf]

theorem Machine.admins_of_ofServer {e : ServerEntry}
    (h : ofServer defaultPorts domain label e = .ok m) : m.admins = e.admins := by
  unfold ofServer at h
  obtain ⟨roles, -, h⟩ := bind_eq_ok.mp h
  obtain ⟨-, -, h⟩ := bind_eq_ok.mp h
  obtain ⟨connection, -, h⟩ := bind_eq_ok.mp h
  obtain ⟨wanConnection, -, h⟩ := bind_eq_ok.mp h
  obtain ⟨service, -, h⟩ := bind_eq_ok.mp h
  obtain ⟨lan, -, h⟩ := bind_eq_ok.mp h
  obtain ⟨wan, -, h⟩ := bind_eq_ok.mp h
  obtain ⟨_, _, _, _, _, _, rfl, -⟩ := exists_rules_of_withFirewall h
  rfl

end Machines

/-! ## Hardware addresses -/

theorem checkMacsFrom_eq_ok {seen macs : List (Mac × String × String)}
    (h : checkMacsFrom seen macs = .ok ()) :
    (macs.map (·.1)).Nodup ∧ ∀ x ∈ macs, x.1 ∉ seen.map (·.1) := by
  induction macs generalizing seen with
  | nil => simp
  | cons x macs ih =>
    obtain ⟨mac, label, iface⟩ := x
    rw [checkMacsFrom] at h
    split at h
    · cases h
    next hnone =>
    obtain ⟨hnd, hfresh⟩ := ih h
    have hnew : mac ∉ seen.map (·.1) := fun hmem => by
      obtain ⟨y, hy, heq⟩ := List.mem_map.mp hmem
      simpa [heq] using List.find?_eq_none.mp hnone y hy
    simp only [List.map_cons, List.mem_cons, not_or] at hfresh
    refine ⟨List.nodup_cons.mpr ⟨fun hmem => ?_, hnd⟩,
      List.forall_mem_cons.mpr ⟨hnew, fun y hy => (hfresh y hy).2⟩⟩
    obtain ⟨y, hy, rfl⟩ := List.mem_map.mp hmem
    exact (hfresh y hy).1 rfl

theorem map_declaredMacs (ms : List Machine) :
    (declaredMacs ms).map (·.1) = ms.flatMap fun m => m.interfaces.filterMap (·.mac) := by
  rw [declaredMacs, List.map_flatMap]
  refine List.flatMap_congr fun m _ => ?_
  rw [List.map_filterMap]
  refine List.filterMap_congr fun i _ => ?_
  cases i.mac <;> rfl

/-! ## The graph -/

namespace Graph

/-- What later steps rely on. -/
structure IsConsistent (g : Graph) : Prop where
  nodup_labels : (g.machines.map (·.label)).Nodup
  isLabel : ∀ m ∈ g.machines, isLabel m.label = true
  /-- A label is found at the place of its machine, and nowhere else. -/
  idOf? : ∀ label id, g.idOf? label = some id ↔ ∃ m, g.machine? id = some m ∧ m.label = label
  index : ∀ label, Dictionary.get? label g.index = g.idOf? label
  /-- No hardware address is declared on two interfaces. -/
  nodup_macs : (macsInUse g).Nodup
  hypervisor : ∀ m ∈ g.machines, ∀ spec, m.service = some spec →
    ∃ w ∈ g.machines, w.label = spec.hypervisor ∧ w.is .hypervisor = true
  admin : ∀ m ∈ g.machines, ∀ user ∈ m.admins,
    ∃ w ∈ g.machines, w.label = user ∧ w.is .user = true ∧ w.is .admin = true
  placed : ∀ m ∈ g.machines, m.isRouter = false → m.lan ≠ [] →
    ∃ r ∈ Role.vlanEligible, m.vlanRole? = some r
  lan : ∀ m ∈ g.machines, m.isRouter = false → m.is .server = true → m.lan ≠ []
  legal : ∀ m ∈ g.machines, ∀ i ∈ m.interfaces, i.IsLegal

variable {name : String} {d : Description} {s : Settings} {g : Graph}
variable (h : Graph.ofDescription name d s = .ok g)
include h

/-! ### Labels -/

theorem idOf?_eq_some_iff {label : String} {id : MachineId} :
    g.idOf? label = some id ↔ ∃ m, g.machine? id = some m ∧ m.label = label := by
  rw [Graph.idOf?, List.findIdx?_eq_some_iff_getElem]
  constructor
  · rintro ⟨hid, hlabel, -⟩
    exact ⟨g.machines[id], List.getElem?_eq_getElem hid, of_decide_eq_true hlabel⟩
  · rintro ⟨m, hm, rfl⟩
    obtain ⟨hid, rfl⟩ := List.getElem?_eq_some_iff.mp hm
    refine ⟨hid, by simp, fun j hj => ?_⟩
    have hlt : j < g.machines.length := Nat.lt_trans hj hid
    rw [decide_eq_true_eq]
    exact fun hlabel =>
      Nat.ne_of_lt hj (id_unique h (List.getElem?_eq_getElem hlt) hm hlabel)

theorem get?_index (label : String) : Dictionary.get? label g.index = g.idOf? label := by
  have hkeys : ((g.entries.map fun e => (e.2.label, e.1)).map (·.1)).Nodup := by
    rw [List.map_map]
    exact (g.map_entries (·.label)).symm ▸ nodup_labels h
  refine Option.ext fun id => ?_
  rw [idOf?_eq_some_iff h, index]
  refine (Dictionary.get?_ofList_eq_some hkeys).trans ?_
  constructor
  · intro hmem
    obtain ⟨⟨id', m⟩, hm, heq⟩ := List.mem_map.mp hmem
    cases heq
    exact ⟨m, mem_entries.mp hm, rfl⟩
  · rintro ⟨m, hm, rfl⟩
    exact List.mem_map.mpr ⟨(id, m), mem_entries.mpr hm, rfl⟩

theorem get?_label {m : Machine} (hm : m ∈ g.machines) : g.get? m.label = some m := by
  rw [Graph.get?]
  cases hfind : g.machines.find? fun w => w.label = m.label with
  | none => simpa using List.find?_eq_none.mp hfind m hm
  | some w =>
    have hlabel : w.label = m.label := by simpa using List.find?_some hfind
    rw [List.inj_on_of_nodup_map (nodup_labels h) (List.mem_of_find?_eq_some hfind) hm hlabel]

/-! ### What was checked -/

/-- The machines of a graph before administrators were given access, and the checks they have
passed. -/
theorem exists_checked : ∃ ms, machinesOf s.defaultPorts d = .ok ms ∧
    g.machines = ms.map (grantAccess ms) ∧ checkAdmins d = .ok () ∧ checkMacs ms = .ok () ∧
    checkHypervisors { g with machines := ms } = .ok () := by
  unfold Graph.ofDescription at h
  obtain ⟨_, -, h⟩ := bind_eq_ok.mp h
  obtain ⟨⟨⟩, hadmins, h⟩ := bind_eq_ok.mp h
  obtain ⟨ms, hms, h⟩ := bind_eq_ok.mp h
  obtain ⟨⟨⟩, hmacs, h⟩ := bind_eq_ok.mp h
  obtain ⟨⟨⟩, hhypervisors, h⟩ := bind_eq_ok.mp h
  cases h
  exact ⟨ms, ofInput_eq_ok.mp hms, rfl, ofInput_eq_ok.mp hadmins, ofInput_eq_ok.mp hmacs,
    ofTopology_eq_ok.mp hhypervisors⟩

theorem nodup_macsInUse : (macsInUse g).Nodup := by
  obtain ⟨ms, -, hg, -, hmacs, -⟩ := exists_checked h
  have hsame : macsInUse g = ms.flatMap fun m => m.interfaces.filterMap (·.mac) := by
    rw [macsInUse, hg, List.flatMap_map]
    refine List.flatMap_congr fun m _ => ?_
    obtain ⟨more, hmore⟩ := exists_grantAccess_eq ms m
    rw [hmore]
    rfl
  rw [hsame, ← map_declaredMacs]
  exact (checkMacsFrom_eq_ok hmacs).1

theorem exists_hypervisor_of_service {m : Machine} (hm : m ∈ g.machines) {spec : ServiceSpec}
    (hspec : m.service = some spec) :
    ∃ w ∈ g.machines, w.label = spec.hypervisor ∧ w.is .hypervisor = true := by
  obtain ⟨ms, -, hg, -, -, hcheck⟩ := exists_checked h
  rw [hg] at hm ⊢
  obtain ⟨n, hn, rfl⟩ := List.mem_map.mp hm
  obtain ⟨more, hmore⟩ := exists_grantAccess_eq ms n
  rw [hmore] at hspec
  obtain ⟨w, hw, hlabel, his⟩ := exists_hypervisor hcheck hn hspec
  exact ⟨grantAccess ms w, List.mem_map_of_mem hw, by simpa using hlabel,
    by simpa [Machine.is] using his⟩

/-- Whoever administers a server is a user of the network, described as an administrator. -/
theorem exists_user_of_admin {m : Machine} (hm : m ∈ g.machines) {user : String}
    (huser : user ∈ m.admins) :
    ∃ ms w domain e, grantAccess ms w ∈ g.machines ∧ Machine.ofUser domain true user e = .ok w := by
  obtain ⟨ms, hms, hg, hadmins, -, -⟩ := exists_checked h
  obtain ⟨-, servers, inner, outer, users, hsplit, hparts⟩ := exists_areMachinesOf hms
  rw [hg] at hm ⊢
  obtain ⟨n, hn, rfl⟩ := List.mem_map.mp hm
  obtain ⟨more, hmore⟩ := exists_grantAccess_eq ms n
  rw [hmore] at huser
  cases isReadFrom_of_mem hms hn with
  | @server label e he hread =>
    replace huser : user ∈ e.admins := Machine.admins_of_ofServer hread ▸ huser
    have hdeclared := forM_eq_ok (forM_eq_ok hadmins _ he) user huser
    split at hdeclared
    · next hany =>
      obtain ⟨⟨name, entry⟩, hu, heq⟩ := List.any_eq_true.mp hany
      obtain rfl : name = user := of_decide_eq_true heq
      obtain ⟨w, hw, hwread⟩ := exists_of_mem_left hparts.users hu
      have hadmin : isAdminOf d name = true :=
        List.any_eq_true.mpr ⟨_, he, by simpa using huser⟩
      exact ⟨ms, w, _, entry, List.mem_map_of_mem (by simp [hsplit, hw]), hadmin ▸ hwread⟩
    · cases hdeclared
  | device hrole hread => simp [(Machine.interfaces_of_ofDevice hread).2.2] at huser
  | user hread => simp [(Machine.interfaces_of_ofUser hread).2.2] at huser

/-- Whoever administers a server holds the roles of a user and of an administrator. -/
theorem exists_admin {m : Machine} (hm : m ∈ g.machines) {user : String}
    (huser : user ∈ m.admins) :
    ∃ w ∈ g.machines, w.label = user ∧ w.is .user = true ∧ w.is .admin = true := by
  obtain ⟨ms, w, domain, e, hw, hread⟩ := exists_user_of_admin h hm huser
  obtain ⟨hroleUser, hroleAdmin⟩ := Machine.roles_of_ofUser hread
  refine ⟨grantAccess ms w, hw, ?_, by simpa [Machine.is] using hroleUser,
    by simpa [Machine.is] using hroleAdmin rfl⟩
  rw [grantAccess_label, (Machine.ofUser_eq_ok hread).1]

/-- Whoever administers a server has an account to be made there. -/
theorem exists_account {m : Machine} (hm : m ∈ g.machines) {user : String}
    (huser : user ∈ m.admins) : ∃ account, (g.get? user).bind (·.account) = some account := by
  obtain ⟨ms, w, domain, e, hw, hread⟩ := exists_user_of_admin h hm huser
  obtain ⟨account, haccount⟩ := Machine.account_of_ofUser hread
  have hfind := get?_label h hw
  rw [grantAccess_label, (Machine.ofUser_eq_ok hread).1] at hfind
  exact ⟨account, by rw [hfind, Option.bind_some, grantAccess_account, haccount]⟩

/-! ### Interfaces -/

theorem isLegal_of_mem {m : Machine} (hm : m ∈ g.machines) {i : Interface}
    (hi : i ∈ m.interfaces) : i.IsLegal := by
  obtain ⟨ms, n, rfl, hn⟩ := exists_isReadFrom h hm
  obtain ⟨more, hmore⟩ := exists_grantAccess_eq ms n
  rw [hmore] at hi
  rw [← Interface.fault?_eq_none_iff]
  cases hn with
  | server he hread => exact (Machine.interfaces_of_ofServer hread).1 i hi
  | device hrole hread => exact (Machine.interfaces_of_ofDevice hread).1 i hi
  | user hread => exact (Machine.interfaces_of_ofUser hread).1 i hi

/-- Only a server that is a router may do without inner interfaces. -/
theorem lan_ne_nil_of_server {m : Machine} (hm : m ∈ g.machines) (hrouter : m.isRouter = false)
    (hserver : m.is .server = true) : m.lan ≠ [] := by
  obtain ⟨ms, n, rfl, hn⟩ := exists_isReadFrom h hm
  obtain ⟨more, hmore⟩ := exists_grantAccess_eq ms n
  rw [hmore] at hrouter hserver ⊢
  replace hserver : Role.server ∈ n.roles := of_decide_eq_true hserver
  cases hn with
  | server he hread =>
    have hlan : n.lan ≠ [] := Machine.lan_ne_nil_of_ofServer hread hrouter
    exact hlan
  | device hrole hread =>
    rw [(Machine.ofDevice_eq_ok hread).2.1, Role.mem_setOf] at hserver
    rcases hrole with rfl | rfl <;> simp at hserver
  | user hread =>
    rcases (Machine.ofUser_eq_ok hread).2.2.2 _ hserver with hr | hr | hr <;> cases hr

/-- The interfaces of a machine have names of their own exactly if the entry of its server, if it
is one, gives each its own. -/
theorem nodup_names_iff {m : Machine} (hm : m ∈ g.machines) :
    (m.interfaces.map (·.name)).Nodup ↔
      ∀ e, (m.label, e) ∈ d.servers → e.NamesInterfacesOnce m.isRouter := by
  obtain ⟨ms, hms, hg, -⟩ := exists_checked h
  obtain ⟨hnd, -⟩ := machinesOf_eq_ok hms
  rw [hg] at hm
  obtain ⟨n, hn, rfl⟩ := List.mem_map.mp hm
  obtain ⟨more, hmore⟩ := exists_grantAccess_eq ms n
  have hentry : ∀ e, (n.label, e) ∈ d.servers →
      ((n.interfaces.map (·.name)).Nodup ↔ e.NamesInterfacesOnce n.isRouter) := fun e he => by
    obtain ⟨n', hn', hread⟩ := (machinesOf_eq_ok hms).2.2 _ he
    obtain rfl : n' = n :=
      List.inj_on_of_nodup_map hnd hn' hn (Machine.ofServer_eq_ok hread).1
    exact (Machine.interfaces_of_ofServer hread).2
  rw [hmore]
  change (n.interfaces.map (·.name)).Nodup ↔
    ∀ e, (n.label, e) ∈ d.servers → e.NamesInterfacesOnce n.isRouter
  refine ⟨fun hnames e he => (hentry e he).mp hnames, fun hnames => ?_⟩
  cases isReadFrom_of_mem hms hn with
  | @server label e he hread =>
    obtain rfl : n.label = label := (Machine.ofServer_eq_ok hread).1
    exact (hentry e he).mpr (hnames e he)
  | device hrole hread => exact (Machine.interfaces_of_ofDevice hread).2.1
  | user hread => exact (Machine.interfaces_of_ofUser hread).2.1

end Graph

/-- The graph of a description is consistent, and the interfaces of a machine have names of their
own exactly if it is no server, or its entry gives each a name of its own. -/
theorem graph_consistent (name : String) (d : Description) (s : Settings) (g : Graph)
    (hg : Graph.ofDescription name d s = .ok g) :
    g.IsConsistent ∧ ∀ m ∈ g.machines, (m.interfaces.map (·.name)).Nodup ↔
      ∀ e, (m.label, e) ∈ d.servers → e.NamesInterfacesOnce m.isRouter :=
  ⟨{ nodup_labels := Graph.nodup_labels hg
     isLabel := fun _ => Graph.isLabel_of_mem hg
     idOf? := fun _ _ => Graph.idOf?_eq_some_iff hg
     index := Graph.get?_index hg
     nodup_macs := Graph.nodup_macsInUse hg
     hypervisor := fun _ hm _ => Graph.exists_hypervisor_of_service hg hm
     admin := fun _ hm _ => Graph.exists_admin hg hm
     placed := fun _ hm hrouter _ => by
       obtain ⟨r, hr, hrole, -⟩ := (Graph.isDeclared hg hm).placed hrouter
       exact ⟨r, hr, hrole⟩
     lan := fun _ => Graph.lan_ne_nil_of_server hg
     legal := fun _ hm _ => Graph.isLegal_of_mem hg hm },
    fun _ => Graph.nodup_names_iff hg⟩

/-- A hypervisor with a service, and the person who administers the service. -/
def hostedLab : Description where
  servers := [
    ("db", { types := ["service"], hypervisor := some "vm", admins := ["eva"] }),
    ("vm", { types := ["hypervisor"], mac := some "02:00:00:00:00:01", wan := [("eth1", {})] })]
  users := [("eva", { macs := ["02:00:00:00:00:02"] })]

theorem graph_consistent_hosted :
    ∃ g, Graph.ofDescription "lab" hostedLab .default = .ok g ∧ g.IsConsistent ∧
      g.machines.map (fun m => m.interfaces.map (·.name)) =
        [["lan0"], ["lan0", "eth1"], ["lan0"]] := by
  have hnames : (Graph.ofDescription "lab" hostedLab .default).map
      (fun g => g.machines.map fun m => m.interfaces.map (·.name)) =
      .ok [["lan0"], ["lan0", "eth1"], ["lan0"]] := by
    decide +kernel
  obtain ⟨g, hg, hnames⟩ := map_eq_ok.mp hnames
  exact ⟨g, hg, (graph_consistent "lab" hostedLab .default g hg).1, hnames⟩

/-- A server whose only interface lies outside, under the name of the inner one it is given. -/
def clashingLab : Description where
  servers := [("web", { types := ["dedicated"], wan := [("lan0", {})] })]

/-- The graph of this description has a machine with two interfaces of one name. -/
theorem graph_names_clash :
    ∃ g, Graph.ofDescription "lab" clashingLab .default = .ok g ∧ ∃ m ∈ g.machines,
      m.interfaces.map (·.name) = ["lan0", "lan0"] ∧ ¬(m.interfaces.map (·.name)).Nodup := by
  have hnames : (Graph.ofDescription "lab" clashingLab .default).map
      (fun g => g.machines.map fun m => m.interfaces.map (·.name)) = .ok [["lan0", "lan0"]] := by
    decide +kernel
  obtain ⟨g, hg, hnames⟩ := map_eq_ok.mp hnames
  have hmem : ["lan0", "lan0"] ∈ g.machines.map fun m => m.interfaces.map (·.name) := by
    rw [hnames]
    exact List.mem_singleton_self _
  obtain ⟨m, hm, hclash⟩ := List.mem_map.mp hmem
  refine ⟨g, hg, m, hm, hclash, ?_⟩
  rw [hclash]
  decide

end NetworkCompiler
