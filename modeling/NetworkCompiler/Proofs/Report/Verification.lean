import NetworkCompiler.Proofs.Firewall.Plans
import NetworkCompiler.Proofs.Network.Targets
import NetworkCompiler.Proofs.Topology.Assignments

/-!
# Verification and compilation

`verify` looks for faults in a description on its own, a compilation runs into them. If a network
compiles, each kind of reference that `verify` looks at is sound : there is one router, the
administrators are users, services have their hypervisors, and the targets of all rules stand for
something. The one exception is a redirection to a machine without an address, which a compilation
leaves out unread. Only a router without subnets has none (`isRouter_of_addressesOf_eq_nil`).

`verify_errors_iff` puts this together : a report has an error exactly if the network does not
compile, but for the targets of such redirections (`verify_errors_unread`).
-/

namespace NetworkCompiler

open Ipv4 (Address Block)

/-! ## Findings -/

theorem errors_pos_iff {r : VerifyReport} :
    0 < r.errors ↔ ∃ f ∈ r.findings, f.isError = true := by
  rw [VerifyReport.errors, List.length_pos_iff_exists_mem]
  simp only [List.mem_filter]

theorem mem_compileFinding? {name : String} {d : Description} {s : Settings} {f : Finding} :
    d.compileFinding? name s = some f ↔
      ∃ e, (CompiledNetwork.ofDescription name d s).result = .error e ∧ f = .compileFailed e := by
  unfold Description.compileFinding?
  cases (CompiledNetwork.ofDescription name d s).result <;> simp [eq_comm]

/-- A report has an error if there is one among the references, or else if the compilation
fails. -/
theorem verify_errors_pos {name : String} {d : Description} {s : Settings} :
    0 < (verify name d s).errors ↔
      (∃ f ∈ d.referenceFindings, f.isError = true) ∨
        ∃ e, (CompiledNetwork.ofDescription name d s).result = .error e := by
  rw [errors_pos_iff, verify]
  simp only [List.mem_append, Option.mem_toList]
  constructor
  · rintro ⟨f, hf | hf, herror⟩
    · exact .inl ⟨f, hf, herror⟩
    · split at hf
      · cases hf
      · obtain ⟨e, he, -⟩ := mem_compileFinding?.mp hf
        exact .inr ⟨e, he⟩
  · rintro (⟨f, hf, herror⟩ | ⟨e, he⟩)
    · exact ⟨f, .inl hf, herror⟩
    · by_cases hreferences : d.referenceFindings.any Finding.isError = true
      · obtain ⟨f, hf, herror⟩ := List.any_eq_true.mp hreferences
        exact ⟨f, .inl hf, herror⟩
      · rw [if_neg hreferences]
        exact ⟨.compileFailed e, .inr (mem_compileFinding?.mpr ⟨e, he, rfl⟩), rfl⟩

/-! ## Routers and administrators -/

namespace Graph

variable {name : String} {d : Description} {s : Settings} {g : Graph}

/-- The checks that a graph has passed, before administrators were given access. -/
theorem exists_checks (h : Graph.ofDescription name d s = .ok g) :
    checkAdmins d = .ok () ∧ ∃ g' : Graph, checkHypervisors g' = .ok () ∧
      ∃ servers inner outer users, g'.machines = servers ++ inner ++ outer ++ users ∧
        AreMachinesOf s.defaultPorts d servers inner outer users := by
  unfold Graph.ofDescription at h
  obtain ⟨_, -, h⟩ := bind_eq_ok.mp h
  obtain ⟨⟨⟩, hadmins, h⟩ := bind_eq_ok.mp h
  obtain ⟨ms, hms, h⟩ := bind_eq_ok.mp h
  obtain ⟨_, -, h⟩ := bind_eq_ok.mp h
  obtain ⟨⟨⟩, hhypervisors, -⟩ := bind_eq_ok.mp h
  exact ⟨ofInput_eq_ok.mp hadmins, _, ofTopology_eq_ok.mp hhypervisors,
    (exists_areMachinesOf (ofInput_eq_ok.mp hms)).2⟩

theorem map_label_withRole (g : Graph) (r : Role) :
    (g.withRole r).map (·.2.label) = (g.machines.filter (·.is r)).map (·.label) := by
  rw [← List.map_id g.machines, ← g.map_entries id, List.filter_map, List.map_map]
  rfl

end Graph

section Compiled

variable {name : String} {d : Description} {s : Settings} {g : Graph} {t : Topology}

/-- A network with a topology has one router. -/
theorem routerFindings_eq_nil (hg : Graph.ofDescription name d s = .ok g) (h : t.IsBuilt g s) :
    d.routerFindings = [] := by
  obtain ⟨m, -, -, hone, -⟩ := h.exists_router
  have hlabels := (g.map_label_withRole .router).trans (Graph.map_label_filter hg (by decide))
  rw [hone] at hlabels
  rw [Description.routerFindings, ← hlabels]
  rfl

theorem adminFindings_eq_nil (hg : Graph.ofDescription name d s = .ok g) :
    d.adminFindings = [] := by
  obtain ⟨hadmins, -⟩ := Graph.exists_checks hg
  refine List.flatMap_eq_nil_iff.mpr fun ⟨label, e⟩ he => ?_
  refine List.map_eq_nil_iff.mpr (List.filter_eq_nil_iff.mpr fun admin hadmin => ?_)
  have huser := forM_eq_ok (forM_eq_ok hadmins _ he) admin hadmin
  split at huser
  · next hany =>
    obtain ⟨u, hu, heq⟩ := List.any_eq_true.mp hany
    have hsome := Dictionary.isSome_get?_of_mem hu
    rw [of_decide_eq_true heq] at hsome
    simpa [Option.isSome_iff_ne_none] using hsome
  · cases huser

/-! ## Services -/

theorem serviceSpec_eq_ok {label : String} {e : ServerEntry} {spec : ServiceSpec}
    (h : serviceSpec label e = .ok spec) : e.hypervisor = some spec.hypervisor := by
  unfold serviceSpec at h
  split at h
  · cases h
  · next hypervisor heq =>
    obtain ⟨_, -, h⟩ := bind_eq_ok.mp h
    obtain ⟨_, -, h⟩ := bind_eq_ok.mp h
    obtain ⟨_, -, h⟩ := bind_eq_ok.mp h
    obtain ⟨_, -, h⟩ := bind_eq_ok.mp h
    cases h
    exact heq

/-- A server that is written down as a service is one, on the hypervisor of its entry. -/
theorem exists_service_of_ofServer {defaultPorts : List Nat} {domain label : String}
    {e : ServerEntry} {m : Machine} (h : Machine.ofServer defaultPorts domain label e = .ok m)
    (hrole : Description.ServerEntry.hasRole e .service = true) :
    ∃ spec, m.service = some spec ∧ e.hypervisor = some spec.hypervisor := by
  obtain ⟨n, -, hroles, -, hservice, lan, wan, -, -, h⟩ := Machine.exists_steps_of_ofServer h
  obtain ⟨_, _, _, _, _, _, rfl, -⟩ := Machine.exists_rules_of_withFirewall h
  rw [serviceSpec?, if_pos ((mem_serverRoles (by decide) hroles).mpr hrole)] at hservice
  obtain ⟨spec, hspec, hn⟩ := map_eq_ok.mp hservice
  exact ⟨spec, hn.symm, serviceSpec_eq_ok hspec⟩

/-- The machine that a service names is a hypervisor. -/
theorem exists_hypervisor {m : Machine} {spec : ServiceSpec}
    (h : checkHypervisors g = .ok ()) (hm : m ∈ g.machines) (hspec : m.service = some spec) :
    ∃ w ∈ g.machines, w.label = spec.hypervisor ∧ w.is .hypervisor = true := by
  have hchecked := forM_eq_ok h m hm
  simp only [hspec] at hchecked
  split at hchecked
  · next hhypervisor =>
    cases hfound : g.get? spec.hypervisor with
    | none => simp [hfound] at hhypervisor
    | some w =>
      have hlabel : w.label = spec.hypervisor := by simpa using List.find?_some hfound
      have his : w.is .hypervisor = true := by simpa [hfound] using hhypervisor
      exact ⟨w, List.mem_of_find?_eq_some hfound, hlabel, his⟩
  · cases hchecked

/-- Every service names a hypervisor of the network. -/
theorem serviceFindings_eq_nil (hg : Graph.ofDescription name d s = .ok g) :
    d.services.filterMap d.serviceFinding? = [] := by
  obtain ⟨-, g', hcheck, servers, inner, outer, users, hmachines, hparts⟩ :=
    Graph.exists_checks hg
  refine List.filterMap_eq_nil_iff.mpr fun service hservice => ?_
  obtain ⟨⟨label, e⟩, he, rfl⟩ := List.mem_map.mp hservice
  obtain ⟨he, hrole⟩ := List.mem_filter.mp he
  obtain ⟨m, hm, hread⟩ := exists_of_mem_left hparts.servers he
  obtain ⟨spec, hspec, hentry⟩ := exists_service_of_ofServer hread hrole
  have hentry : e.hypervisor = some spec.hypervisor := hentry
  obtain ⟨w, hw, hlabel, his⟩ := exists_hypervisor hcheck (by simp [hmachines, hm]) hspec
  have hnamed : spec.hypervisor ∈ d.serversWith .hypervisor := by
    rw [← hparts.map_label_filter (by decide), ← hmachines, ← hlabel]
    exact List.mem_map_of_mem (List.mem_filter.mpr ⟨hw, his⟩)
  simp [Description.serviceFinding?, hentry, hnamed]

/-! ## Targets -/

/-- A compilation knows what `verify` knows. -/
theorem ofText_ne_unknown (hg : Graph.ofDescription name d s = .ok g) {target : String} :
    Target.ofText g target ≠ .unknown ↔ d.knowsTarget target = true := by
  have hlabel : g.idOf? target = none ↔ target ∉ d.labels := by
    rw [Graph.mem_labels hg, Graph.idOf?, List.findIdx?_eq_none_iff]
    simp
  by_cases hany : target = anywhere
  · simp [Target.ofText, Description.knowsTarget, hany]
  cases hid : g.idOf? target with
  | some id =>
    have hmem : target ∈ d.labels := by
      by_contra hnot
      rw [hlabel.mpr hnot] at hid
      cases hid
    simp [Target.ofText, Description.knowsTarget, hany, hid, hmem]
  | none =>
    have hmem := hlabel.mp hid
    cases haddress : Address.ofText? target <;> cases hblock : Block.ofText? target <;>
      by_cases hdot : '.' ∈ target.toList <;>
      simp [Target.ofText, Description.knowsTarget, hany, hid, hmem, haddress, hblock, hdot]

theorem targetFinding?_eq_none {label field raw target : String} {port : Option Nat}
    (hsplit : splitTarget label field raw = .ok (target, port))
    (hknown : d.knowsTarget target = true) : d.targetFinding? label field raw = none := by
  rw [Description.targetFinding?, hsplit]
  exact if_pos hknown

/-- There is nothing to say about a target that a resolved rule names. -/
theorem targetFinding?_of_isNamedIn (hg : Graph.ofDescription name d s = .ok g)
    {rules : List TrafficRule} {label field raw : String} (h : IsNamedIn rules label field raw)
    (hrules : FirewallPlan.Resolves g rules) : d.targetFinding? label field raw = none := by
  obtain ⟨target, port, hsplit, r, hr, hname⟩ := h
  exact targetFinding?_eq_none hsplit ((ofText_ne_unknown hg).mp (hrules r hr target hname))

/-! ## Addresses -/

/-- Only the router of a network without subnets has no address. -/
theorem isRouter_of_addressesOf_eq_nil (hg : Graph.ofDescription name d s = .ok g)
    {s' : Settings} (h : t.IsBuilt g s') {id : MachineId} {m : Machine}
    (hm : g.machine? id = some m) (hlan : m.isRouter = false → m.lan ≠ [])
    (hnone : t.addressesOf id = []) : m.isRouter = true ∧ t.subnets = [] := by
  unfold Topology.addressesOf at hnone
  split at hnone
  · next hid => exact ⟨(h.eq_router_iff hm).mp hid, List.map_eq_nil_iff.mp hnone⟩
  · next hid =>
    have hfalse : m.isRouter = false := by
      simpa using mt (h.eq_router_iff hm).mpr hid
    have hall := h.assignmentsOf_of_isDeclared hm
      (Graph.isDeclared hg (List.mem_of_getElem? hm)) hfalse
    rw [List.map_eq_nil_iff.mp hnone] at hall
    exact absurd (List.forall₂_nil_right_iff.mp hall) (hlan hfalse)

/-- The target of a redirection to a router without subnets, read but not known. -/
def IsUnread (d : Description) (t : Topology) (label : String) (e : ServerEntry) : Prop :=
  t.subnets = [] ∧ Description.ServerEntry.hasRole e .router = true ∧
    ∃ raw ∈ e.firewall.dnatTo, ∃ target port,
      splitTarget label "dnat_to" raw = .ok (target, port) ∧ d.knowsTarget target = false

/-- Whatever is to be said about the targets of a server is about redirections that are not
read. -/
theorem isUnread_of_targetFinding {p : FirewallPlan} (hg : Graph.ofDescription name d s = .ok g)
    (h : t.IsBuilt g s) (hp : (FirewallPlan.ofTopology g t).result = .ok p) {label : String}
    {e : ServerEntry} (he : (label, e) ∈ d.servers) {field raw : String} {f : Finding}
    (hraw : (field, raw) ∈ Description.serverTargets e.firewall)
    (hf : d.targetFinding? label field raw = some f) : IsUnread d t label e := by
  obtain ⟨id, m, hm, -, hnames, hrole, hlan⟩ := Graph.exists_naming_server hg he
  have hresolved := FirewallPlan.hasResolved_of_ofTopology hp hm
  have hnone : d.targetFinding? label field raw ≠ none := by simp [hf]
  simp only [Description.serverTargets, List.mem_append, List.mem_map, Prod.mk.injEq] at hraw
  rcases hraw with ((⟨_, hraw, rfl, rfl⟩ | ⟨_, hraw, rfl, rfl⟩) | ⟨_, hraw, rfl, rfl⟩) |
    ⟨_, hraw, rfl, rfl⟩
  · exact absurd (targetFinding?_of_isNamedIn hg (hnames.egress _ hraw) hresolved.egress) hnone
  · exact absurd (targetFinding?_of_isNamedIn hg (hnames.ingress _ hraw) hresolved.ingress) hnone
  · exact absurd (targetFinding?_of_isNamedIn hg (hnames.forward _ hraw) hresolved.forward) hnone
  · obtain ⟨target, port, hsplit, r, hr, hname⟩ := hnames.dnat _ hraw
    have hunknown : ¬d.knowsTarget target = true := fun h => hnone (targetFinding?_eq_none hsplit h)
    have haddresses : t.addressesOf id = [] := by
      by_contra hne
      exact hunknown ((ofText_ne_unknown hg).mp (hresolved.dnat hne r hr target hname))
    obtain ⟨hrouter, hsubnets⟩ := isRouter_of_addressesOf_eq_nil hg h hm hlan haddresses
    exact ⟨hsubnets, hrole.mp hrouter, _, hraw, target, port, hsplit, by simpa using hunknown⟩

/-- There is nothing to say about the targets of a device. -/
theorem targetFinding?_device_eq_none {p : FirewallPlan}
    (hg : Graph.ofDescription name d s = .ok g)
    (hp : (FirewallPlan.ofTopology g t).result = .ok p) {label raw : String} {e : DeviceEntry}
    (he : (label, e) ∈ d.internalDevices ++ d.externalDevices) (hraw : raw ∈ e.allowEgressTo) :
    d.targetFinding? label "allow_egress_to" raw = none := by
  obtain ⟨m, hm, hnames⟩ := Graph.exists_naming_device hg he
  obtain ⟨id, hid⟩ := List.mem_iff_getElem?.mp hm
  exact targetFinding?_of_isNamedIn hg (hnames raw hraw)
    (FirewallPlan.hasResolved_of_ofTopology hp hid).egress

end Compiled

/-! ## The verdict -/

theorem mem_targetFindings {d : Description} {f : Finding} :
    f ∈ d.targetFindings ↔
      (∃ label e, (label, e) ∈ d.servers ∧ ∃ field raw,
        (field, raw) ∈ Description.serverTargets e.firewall ∧
          d.targetFinding? label field raw = some f) ∨
      ∃ label e, (label, e) ∈ d.internalDevices ++ d.externalDevices ∧ ∃ raw ∈ e.allowEgressTo,
        d.targetFinding? label "allow_egress_to" raw = some f := by
  simp only [Description.targetFindings, List.mem_append, List.mem_flatMap, List.mem_filterMap,
    Prod.exists]

/-- If a network compiles, the errors among the references are the targets of unread
redirections. -/
theorem exists_isUnread_of_isError {name : String} {d : Description} {s : Settings}
    {n : CompiledNetwork} (hn : (CompiledNetwork.ofDescription name d s).result = .ok n)
    {f : Finding} (hf : f ∈ d.referenceFindings) (herror : f.isError = true) :
    ∃ label e, (label, e) ∈ d.servers ∧ IsUnread d n.topology label e := by
  obtain ⟨hg, ht, hp, -⟩ := CompiledNetwork.ofDescription_eq_ok hn
  have h := Topology.isBuilt_of_ofGraph ht
  rw [Description.referenceFindings, Description.hypervisorFindings,
    routerFindings_eq_nil hg h, adminFindings_eq_nil hg, serviceFindings_eq_nil hg] at hf
  simp only [List.nil_append, List.mem_append] at hf
  rcases hf with (hidle | htarget) | huser
  · obtain ⟨_, -, rfl⟩ := List.mem_map.mp hidle
    cases herror
  · rcases mem_targetFindings.mp htarget with
      ⟨label, e, he, field, raw, hraw, hfound⟩ | ⟨label, e, he, raw, hraw, hfound⟩
    · exact ⟨label, e, he, isUnread_of_targetFinding hg h hp he hraw hfound⟩
    · rw [targetFinding?_device_eq_none hg hp he hraw] at hfound
      cases hfound
  · obtain ⟨_, -, rfl⟩ := List.mem_map.mp huser
    cases herror

/-- An unread redirection is found. -/
theorem exists_error_of_isUnread {d : Description} {t : Topology} {label : String}
    {e : ServerEntry} (he : (label, e) ∈ d.servers) (h : IsUnread d t label e) :
    ∃ f ∈ d.referenceFindings, f.isError = true := by
  obtain ⟨-, -, raw, hraw, target, port, hsplit, hunknown⟩ := h
  have hfinding : d.targetFinding? label "dnat_to" raw =
      some (.unknownTarget label "dnat_to" target) := by
    simp [Description.targetFinding?, hsplit, hunknown]
  have hmem : ("dnat_to", raw) ∈ Description.serverTargets e.firewall := by
    simp [Description.serverTargets, hraw]
  have htarget := mem_targetFindings.mpr (.inl ⟨label, e, he, _, raw, hmem, hfinding⟩)
  exact ⟨.unknownTarget label "dnat_to" target,
    by simp [Description.referenceFindings, htarget], rfl⟩

/-- A report has an error exactly if the network does not compile, or compiles without reading a
redirection of which the target is not known. -/
theorem verify_errors_iff (name : String) (d : Description) (s : Settings) :
    0 < (verify name d s).errors ↔
      (∃ e, (CompiledNetwork.ofDescription name d s).result = .error e) ∨
        ∃ n, (CompiledNetwork.ofDescription name d s).result = .ok n ∧
          ∃ label e, (label, e) ∈ d.servers ∧ IsUnread d n.topology label e := by
  rw [verify_errors_pos]
  constructor
  · rintro (⟨f, hf, herror⟩ | hfail)
    · cases hn : (CompiledNetwork.ofDescription name d s).result with
      | error e => exact .inl ⟨e, rfl⟩
      | ok n => exact .inr ⟨n, rfl, exists_isUnread_of_isError hn hf herror⟩
    · exact .inl hfail
  · rintro (hfail | ⟨n, -, label, e, he, hunread⟩)
    · exact .inr hfail
    · exact .inl (exists_error_of_isUnread he hunread)

/-- A router alone, which redirects a port to a name that is not there. -/
def unreadLab : Description where
  servers := [("router",
    { types := ["router"], firewall := { listenTcp := [80], dnatTo := ["nosuch"] } })]

/-- A report can have an error though the network compiles. -/
theorem verify_errors_unread :
    Settings.default.Valid ∧ 0 < (verify "lab" unreadLab .default).errors ∧
      ∃ n, (CompiledNetwork.ofDescription "lab" unreadLab .default).result = .ok n := by
  have hok : (CompiledNetwork.ofDescription "lab" unreadLab .default).result.isOk = true := by
    decide +kernel
  refine ⟨by decide, by decide +kernel, ?_⟩
  cases hn : (CompiledNetwork.ofDescription "lab" unreadLab .default).result with
  | ok n => exact ⟨n, rfl⟩
  | error e =>
    rw [hn] at hok
    cases hok

end NetworkCompiler
