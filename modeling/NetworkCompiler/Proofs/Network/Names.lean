import NetworkCompiler.Firewall.Plan
import NetworkCompiler.Proofs.Network.Graphs
import NetworkCompiler.Proofs.Text.Words
import NetworkCompiler.Proofs.Topology.Construction
import NetworkCompiler.Report.Verification

/-!
# Labels, roles and names

The machines of a graph have the labels of the description, in its order (`Graph.map_label`), and
what a description says about the roles of its servers is what the graph says : devices and users
hold none of the roles that a word can give to a server, so the machines with such a role are the
servers that are written down with it (`Graph.map_label_filter`).

The labels of a described network were checked when its entries were read (`Graph.isLabel_of_mem`),
and so were the names of the outer interfaces; the names of the inner ones are those of the roles.
A label has no blanks (`isSolid_of_isLabel`), and the name of an interface is one word
(`Interface.isWord_of_isName`). So the interfaces in a plan are words, whatever is described
(`FirewallPlan.isWord_interfaces`).
-/

namespace NetworkCompiler

open Text (IsWord isBlank_of_isAlphanum)
open Text.Chars (IsSolid)

theorem OrderedSet.mem_ofList {α : Type} [LT α] [DecidableLT α] [DecidableEq α] {a : α}
    {l : List α} : a ∈ OrderedSet.ofList l ↔ a ∈ l := by
  have hfold : ∀ s : OrderedSet α,
      a ∈ l.foldl (fun s b => OrderedSet.insert b s) s ↔ a ∈ s ∨ a ∈ l := by
    induction l with
    | nil => simp
    | cons b l ih =>
      intro s
      rw [List.foldl_cons, ih, OrderedSet.mem_insert, List.mem_cons]
      tauto
  rw [OrderedSet.ofList, hfold]
  simp

/-! ## Roles -/

/-- The roles that are given to a server by a word of their own. -/
def Role.named : List Role :=
  [router, hypervisor, dedicated, service]

theorem mem_serverRolesOf? {word : String} {roles : List Role} {r : Role} (hr : r ∈ Role.named)
    (h : serverRolesOf? word = some roles) :
    r ∈ roles ↔ Text.lowercase (Text.trim word) = r.word := by
  simp only [Role.named, List.mem_cons, List.not_mem_nil, or_false] at hr
  unfold serverRolesOf? at h
  split at h <;> cases h
  all_goals
    next hword =>
    rw [hword]
    rcases hr with rfl | rfl | rfl | rfl <;> decide

/-- A server holds the roles of its words. -/
theorem mem_serverRoles {label : String} {e : ServerEntry} {roles : OrderedSet Role} {r : Role}
    (hr : r ∈ Role.named) (h : serverRoles label e.types = .ok roles) :
    r ∈ roles ↔ Description.ServerEntry.hasRole e r = true := by
  unfold serverRoles at h
  split at h
  · cases h
  obtain ⟨found, hfound, h⟩ := bind_eq_ok.mp h
  cases h
  have hword : List.Forall₂ (fun word roles => serverRolesOf? word = some roles) e.types found := by
    refine (mapM_eq_ok.mp hfound).imp fun word roles hread => ?_
    split at hread
    · next hroles =>
      cases hread
      exact hroles
    · cases hread
  rw [Role.mem_setOf, List.mem_flatten, Description.ServerEntry.hasRole, List.any_eq_true]
  constructor
  · rintro ⟨roles, hroles, hmem⟩
    obtain ⟨word, hmem', hread⟩ := exists_of_mem_right hword hroles
    exact ⟨word, hmem', by simpa using (mem_serverRolesOf? hr hread).mp hmem⟩
  · rintro ⟨word, hmem, hequal⟩
    obtain ⟨roles, hroles, hread⟩ := exists_of_mem_left hword hmem
    exact ⟨roles, hroles, (mem_serverRolesOf? hr hread).mpr (by simpa using hequal)⟩

theorem is_false_of_ofDevice {defaultPorts : List Nat} {domain label : String} {role r : Role}
    (hrole : role ∉ Role.named) (hr : r ∈ Role.named) {e : DeviceEntry} {m : Machine}
    (h : Machine.ofDevice defaultPorts domain role label e = .ok m) : m.is r = false := by
  rw [Machine.is, (Machine.ofDevice_eq_ok h).2.1, decide_eq_false_iff_not, Role.mem_setOf]
  rintro hmem
  rcases List.mem_cons.mp hmem with rfl | hmem
  · revert hr
    decide
  · exact hrole (List.mem_singleton.mp hmem ▸ hr)

theorem is_false_of_ofUser {domain label : String} {isAdmin : Bool} {r : Role}
    (hr : r ∈ Role.named) {e : UserEntry} {m : Machine}
    (h : Machine.ofUser domain isAdmin label e = .ok m) : m.is r = false := by
  rw [Machine.is, decide_eq_false_iff_not]
  intro hmem
  rcases (Machine.ofUser_eq_ok h).2.2.2 r hmem with rfl | rfl | rfl <;> revert hr <;> decide

/-! ## The graph -/

namespace AreMachinesOf

variable {defaultPorts : List Nat} {d : Description} {servers inner outer users : List Machine}
variable (h : AreMachinesOf defaultPorts d servers inner outer users)
include h

theorem map_label :
    (servers ++ inner ++ outer ++ users).map (·.label) =
      d.servers.map (·.1) ++ d.internalDevices.map (·.1) ++ d.externalDevices.map (·.1) ++
        d.users.map (·.1) := by
  simp only [List.map_append]
  rw [map_eq_map_of_forall₂ h.servers.flip fun m e he => (Machine.ofServer_eq_ok he).1,
    map_eq_map_of_forall₂ h.inner.flip fun m e he => (Machine.ofDevice_eq_ok he).1,
    map_eq_map_of_forall₂ h.outer.flip fun m e he => (Machine.ofDevice_eq_ok he).1,
    map_eq_map_of_forall₂ h.users.flip fun m e he => (Machine.ofUser_eq_ok he).1]

theorem map_label_filter {r : Role} (hr : r ∈ Role.named) :
    ((servers ++ inner ++ outer ++ users).filter (·.is r)).map (·.label) = d.serversWith r := by
  have hinner : inner.filter (·.is r) = [] := List.filter_eq_nil_iff.mpr fun m hm => by
    obtain ⟨e, -, he⟩ := exists_of_mem_right h.inner hm
    simp [is_false_of_ofDevice (by decide) hr he]
  have houter : outer.filter (·.is r) = [] := List.filter_eq_nil_iff.mpr fun m hm => by
    obtain ⟨e, -, he⟩ := exists_of_mem_right h.outer hm
    simp [is_false_of_ofDevice (by decide) hr he]
  have husers : users.filter (·.is r) = [] := List.filter_eq_nil_iff.mpr fun m hm => by
    obtain ⟨e, -, he⟩ := exists_of_mem_right h.users hm
    simp [is_false_of_ofUser hr he]
  have hservers := forall₂_filter (p := (·.is r))
    (q := fun e => Description.ServerEntry.hasRole e.2 r) h.servers.flip fun m e he => by
      rw [Machine.is, Bool.eq_iff_iff, decide_eq_true_iff]
      exact mem_serverRoles hr (Machine.ofServer_eq_ok he).2.1
  rw [List.filter_append, List.filter_append, List.filter_append, hinner, houter, husers]
  simp only [List.append_nil]
  exact map_eq_map_of_forall₂ hservers fun m e he => (Machine.ofServer_eq_ok he).1

end AreMachinesOf

namespace Graph

variable {name : String} {d : Description} {s : Settings} {g : Graph}
variable (h : Graph.ofDescription name d s = .ok g)
include h

/-- The labels of a graph are those of its description, in the same order. -/
theorem map_label :
    g.machines.map (·.label) =
      d.servers.map (·.1) ++ d.internalDevices.map (·.1) ++ d.externalDevices.map (·.1) ++
        d.users.map (·.1) := by
  obtain ⟨ms, hms, hg⟩ := exists_machinesOf h
  obtain ⟨-, servers, inner, outer, users, rfl, hparts⟩ := exists_areMachinesOf hms
  rw [hg, List.map_map, ← hparts.map_label]
  exact List.map_congr_left fun m _ => grantAccess_label _ m

theorem mem_labels {label : String} : label ∈ d.labels ↔ label ∈ g.machines.map (·.label) := by
  rw [Description.labels, OrderedSet.mem_ofList, map_label h]

/-- The machines that hold the role of a word are the servers that are written down with it. -/
theorem map_label_filter {r : Role} (hr : r ∈ Role.named) :
    (g.machines.filter (·.is r)).map (·.label) = d.serversWith r := by
  obtain ⟨ms, hms, hg⟩ := exists_machinesOf h
  obtain ⟨-, servers, inner, outer, users, rfl, hparts⟩ := exists_areMachinesOf hms
  rw [hg, List.filter_map, List.map_map, ← hparts.map_label_filter hr]
  have his : (fun m : Machine => m.is r) ∘ grantAccess (servers ++ inner ++ outer ++ users) =
      (·.is r) := by
    funext m
    simp [Machine.is]
  rw [his]
  exact List.map_congr_left fun m _ => grantAccess_label _ m

end Graph

/-! ## Labels without blanks -/

theorem isSolid_of_isLabel {label : String} (h : isLabel label = true) :
    IsSolid label.toList := by
  simp only [isLabel, Bool.and_eq_true, List.all_eq_true] at h
  intro c hc
  have hchar := h.1.2 c hc
  simp only [isLabelChar, Bool.or_eq_true, decide_eq_true_eq] at hchar
  rcases hchar with (hchar | rfl) | rfl
  · exact isBlank_of_isAlphanum hchar
  · decide
  · decide

theorem checkLabel_eq_ok {label : String} : checkLabel label = .ok () ↔ isLabel label = true := by
  unfold checkLabel
  split <;> simp_all

section Machines

variable {defaultPorts : List Nat} {domain label : String} {m : Machine}

theorem Machine.isLabel_of_ofServer {e : ServerEntry}
    (h : ofServer defaultPorts domain label e = .ok m) : isLabel m.label = true := by
  have hlabel := (ofServer_eq_ok h).1
  unfold ofServer at h
  obtain ⟨roles, -, h⟩ := bind_eq_ok.mp h
  obtain ⟨_, hcheck, -⟩ := bind_eq_ok.mp h
  rw [hlabel]
  exact checkLabel_eq_ok.mp hcheck

theorem Machine.isLabel_of_ofDevice {role : Role} {e : DeviceEntry}
    (h : ofDevice defaultPorts domain role label e = .ok m) : isLabel m.label = true := by
  have hlabel := (ofDevice_eq_ok h).1
  unfold ofDevice at h
  obtain ⟨_, hcheck, -⟩ := bind_eq_ok.mp h
  rw [hlabel]
  exact checkLabel_eq_ok.mp hcheck

theorem Machine.isLabel_of_ofUser {isAdmin : Bool} {e : UserEntry}
    (h : ofUser domain isAdmin label e = .ok m) : isLabel m.label = true := by
  have hlabel := (ofUser_eq_ok h).1
  unfold ofUser at h
  obtain ⟨_, hcheck, -⟩ := bind_eq_ok.mp h
  rw [hlabel]
  exact checkLabel_eq_ok.mp hcheck

end Machines

section Graph

variable {name : String} {d : Description} {s : Settings} {g : Graph}

/-- The machines of a described network have legal labels. -/
theorem Graph.isLabel_of_mem (h : Graph.ofDescription name d s = .ok g) {m : Machine}
    (hm : m ∈ g.machines) : isLabel m.label = true := by
  obtain ⟨ms, n, rfl, hn⟩ := exists_isReadFrom h hm
  rw [grantAccess_label]
  cases hn with
  | server _ hread => exact Machine.isLabel_of_ofServer hread
  | device _ hread => exact Machine.isLabel_of_ofDevice hread
  | user hread => exact Machine.isLabel_of_ofUser hread

end Graph

/-! ## Interfaces -/

theorem Interface.isWord_of_isName {name : String} (h : isName name = true) : IsWord name := by
  simp only [isName, Bool.and_eq_true, List.all_eq_true, decide_eq_true_eq,
    Bool.not_eq_true'] at h
  obtain ⟨⟨hsize, -⟩, hchars⟩ := h
  constructor
  · intro hnil
    have hempty : name = "" := String.toList_inj.mp hnil
    rw [hempty] at hsize
    exact absurd hsize (by decide)
  · intro c hc
    exact (hchars c hc).2

theorem Interface.isName_of_legal {i : Interface} (h : i.fault? = none) :
    isName i.name = true := by
  unfold Interface.fault? at h
  split at h
  · cases h
  · next hname => simpa using hname

/-- The inner interfaces of the router in a built topology have legal names. -/
theorem Topology.IsBuilt.isName_of_mem_vlans {g : Graph} {s : Settings} {t : Topology}
    (h : t.IsBuilt g s) {i : Interface} (hi : i ∈ t.vlans) : Interface.isName i.name = true := by
  obtain ⟨m, -, -, hvlans⟩ := h.router
  obtain ⟨x, -, hchecked⟩ := exists_of_mem_right hvlans hi
  obtain ⟨hlegal, rfl⟩ := Interface.checked_eq_ok.mp hchecked
  exact Interface.isName_of_legal hlegal

/-- The names of the router's interfaces in the plan of a described network are words. -/
theorem FirewallPlan.isWord_interfaces {name : String} {d : Description} {s : Settings} {g : Graph}
    {t : Topology} {p : FirewallPlan} (hg : Graph.ofDescription name d s = .ok g)
    (ht : (Topology.ofGraph g s).result = .ok t) (hp : (ofTopology g t).result = .ok p) :
    (∀ w ∈ p.wanInterfaces, IsWord w) ∧ ∀ l ∈ p.lanInterfaces, IsWord l := by
  obtain ⟨plans, -, hp⟩ := Traced.result_bind_eq_ok.mp hp
  cases hp
  constructor
  · intro w hw
    cases hm : g.machine? t.router with
    | none => simp [hm] at hw
    | some m =>
      simp only [hm, Option.map_some, Option.getD_some] at hw
      obtain ⟨i, hi, rfl⟩ := List.mem_map.mp hw
      have hlegal := Graph.legal_of_mem_wan hg (List.mem_of_getElem? hm) hi
      exact Interface.isWord_of_isName (Interface.isName_of_legal hlegal)
  · intro l hl
    obtain ⟨i, hi, rfl⟩ := List.mem_map.mp hl
    have hbuilt := Topology.isBuilt_of_ofGraph ht
    exact Interface.isWord_of_isName (hbuilt.isName_of_mem_vlans hi)

end NetworkCompiler
