import NetworkCompiler.Compilation.Scripts
import NetworkCompiler.Proofs.Firewall.Plans
import NetworkCompiler.Proofs.Network.InnerInterfaces
import NetworkCompiler.Proofs.Provision.InnerLinks
import NetworkCompiler.Proofs.Provision.NameRecords
import NetworkCompiler.Proofs.Provision.Reservations

/-!
# Addresses in the files of machines

What a compiled network assigned is written in many places : the link service of a machine, its
table of names, the address service and the name service of the router, and the firewall look it
up by themselves. `addresses_agree` says that they all find the same.

The domain of a network is written into most of these files as it is, and other names of machines
into that of the name service. Neither is looked at when the network is described, so the files are
read under a condition on those names, and a domain with a line break adds a line with any address
to the table of every machine (`hostsFile_of_broken_domain`).
-/

namespace NetworkCompiler

open Ipv4 (Address)
open Text (IsLine behind margin)
open Text.Chars (IsSolid)

/-! ## Names that files may hold -/

/-- The domain of a network and the other names of its machines have no blanks. -/
def Graph.HasPlainNames (g : Graph) : Prop :=
  IsSolid g.domain.toList ∧ ∀ m ∈ g.machines, ∀ name ∈ m.cnames, IsSolid name.toList

instance (g : Graph) : Decidable g.HasPlainNames :=
  inferInstanceAs (Decidable (_ ∧ _))

section Names

variable {name : String} {d : Description} {s : Settings} {g : Graph} {m : Machine}
variable (hg : Graph.ofDescription name d s = .ok g) (hm : m ∈ g.machines)
include hg hm

theorem Graph.isWord_label : Text.IsWord m.label := by
  have hlabel := Graph.isLabel_of_mem hg hm
  refine ⟨fun hempty => ?_, isSolid_of_isLabel hlabel⟩
  rw [String.toList_eq_nil_iff.mp hempty] at hlabel
  exact absurd hlabel (by decide)

theorem Graph.isLine_label : IsLine m.label :=
  Text.isLine_of_isSolid (Graph.isWord_label hg hm).2

/-- A full name breaks a line exactly if the domain does. -/
theorem Graph.isLine_fqdn_iff : IsLine m.fqdn ↔ IsLine g.domain := by
  rw [Graph.fqdn_eq hg hm]
  constructor
  · intro hfqdn
    rw [IsLine, String.toList_append, List.mem_append, not_or] at hfqdn
    exact hfqdn.2
  · exact Text.isLine_append (Text.isLine_append (Graph.isLine_label hg hm) (by decide))

theorem Graph.isSolid_fqdn (hdomain : IsSolid g.domain.toList) : IsSolid m.fqdn.toList := by
  have hlabel := (Graph.isWord_label hg hm).2
  rw [Graph.fqdn_eq hg hm]
  exact Text.isSolid_append (Text.isSolid_append hlabel (by decide)) hdomain

end Names

/-- Machines of a described network have distinct full names. -/
theorem Graph.nodup_fqdns {name : String} {d : Description} {s : Settings} {g : Graph}
    (hg : Graph.ofDescription name d s = .ok g) : (g.machines.map (·.fqdn)).Nodup := by
  have hfqdns : g.machines.map (·.fqdn) =
      (g.machines.map (·.label)).map fun label => label ++ "." ++ g.domain := by
    rw [List.map_map]
    exact List.map_congr_left fun m hm => Graph.fqdn_eq hg hm
  rw [hfqdns]
  refine (Graph.nodup_labels hg).map fun label label' h => ?_
  simpa only [String.append_left_inj] using h

/-- The addresses of a machine that is no router are those of its assignments. -/
theorem Topology.IsBuilt.addressesOf_eq {g : Graph} {s : Settings} {t : Topology}
    (h : t.IsBuilt g s) {id : MachineId} {m : Machine} (hm : g.machine? id = some m)
    (hrouter : m.isRouter = false) :
    t.addressesOf id = (t.assignmentsOf id).map (·.address) := by
  refine if_neg fun hid => ?_
  rw [(h.eq_router_iff hm).mp hid] at hrouter
  cases hrouter

namespace Provision

theorem mem_managedContexts {n : CompiledNetwork} {secrets : Secrets} {c : Context}
    (hc : c ∈ managedContexts n secrets) :
    c.network = n ∧ n.graph.machine? c.id = some c.machine ∧ isManaged c.machine = true := by
  obtain ⟨⟨id, m⟩, hmem, rfl⟩ := List.mem_map.mp hc
  obtain ⟨hentry, hmanaged⟩ := List.mem_filter.mp hmem
  exact ⟨rfl, Graph.mem_entries.mp hentry, hmanaged⟩

section Compiled

variable {name : String} {d : Description} {s : Settings} {n : CompiledNetwork}
variable (hn : (CompiledNetwork.ofDescription name d s).result = .ok n)
variable {secrets : Secrets} {c : Context} (hc : c ∈ managedContexts n secrets)
include hn hc

/-! ## What the configurations of the router are made from -/

theorem isPlain_leaseConfig (hdomain : IsLine n.graph.domain) : (leaseConfig c).IsPlain := by
  obtain ⟨hg, ht, -⟩ := CompiledNetwork.ofDescription_eq_ok hn
  obtain ⟨rfl, hm, -⟩ := mem_managedContexts hc
  have h := Topology.isBuilt_of_ofGraph ht
  refine ⟨Graph.isLine_label hg (List.mem_of_getElem? hm), hdomain, fun l hl => ?_⟩
  obtain ⟨a, ha, rfl⟩ := Topology.mem_leases hl
  obtain ⟨m, i, hm', hi, hiname, -⟩ := h.exists_interface ha
  have hmem : m ∈ c.network.graph.machines := List.mem_of_getElem? hm'
  have hlegal := Graph.isLegal_of_mem hg hmem (List.mem_append_left _ hi)
  constructor
  · rw [show a.lease c.graph = _ from Assignment.lease_eq hm']
    exact Graph.isLine_label hg hmem
  · change IsLine a.iface
    rw [← hiname]
    exact Text.isLine_of_isSolid (Interface.isWord_of_isName hlegal.isName).2

theorem isPlain_nameConfig (hplain : n.graph.HasPlainNames) : (nameConfig c).IsPlain := by
  obtain ⟨hg, -⟩ := CompiledNetwork.ofDescription_eq_ok hn
  obtain ⟨rfl, -⟩ := mem_managedContexts hc
  obtain ⟨hdomain, hcnames⟩ := hplain
  refine ⟨Text.isLine_of_isSolid hdomain, fun r hr => ?_, fun p hp => ?_⟩
  · rcases List.mem_append.mp hr with hr | hr
    · obtain ⟨⟨id, m⟩, hmem, hr⟩ := List.mem_filterMap.mp hr
      obtain ⟨a, -, rfl⟩ := Option.map_eq_some_iff.mp hr
      exact Graph.isSolid_fqdn hg (List.mem_of_getElem? (Graph.mem_entries.mp hmem)) hdomain
    · obtain ⟨m, hm, hr⟩ := List.mem_flatMap.mp hr
      obtain ⟨cname, hcname, rfl⟩ := List.mem_map.mp hr
      have hname := hcnames m hm cname hcname
      refine ⟨?_, Graph.isSolid_fqdn hg hm hdomain⟩
      rw [qualified]
      split
      · exact hname
      · exact Text.isSolid_append (Text.isSolid_append hname (by decide)) hdomain
  · change p ∈ (if c.graph.adblocking then some blocklistPath else none) at hp
    split at hp
    · obtain rfl := Option.some.inj hp
      decide
    · cases hp

/-- The name service has the first address of a machine for its full name. -/
theorem filterMap_records {m : Machine} {id : MachineId} (hm : n.graph.machine? id = some m) :
    ((nameConfig c).records.filterMap fun r => r.address? m.fqdn) =
      (n.topology.addressesOf id).head?.toList := by
  obtain ⟨hg, -⟩ := CompiledNetwork.ofDescription_eq_ok hn
  obtain ⟨rfl, -⟩ := mem_managedContexts hc
  have halias : (aliasRecords c.graph).filterMap (fun r => r.address? m.fqdn) = [] := by
    rw [List.filterMap_eq_nil_iff]
    intro r hr
    obtain ⟨n, -, hr⟩ := List.mem_flatMap.mp hr
    obtain ⟨cname, -, rfl⟩ := List.mem_map.mp hr
    rfl
  have hnodup : (c.network.graph.entries.map fun e => e.2.fqdn).Nodup := by
    rw [Graph.map_entries]
    exact Graph.nodup_fqdns hg
  have haddress : (addressRecords c).filterMap (fun r => r.address? m.fqdn) =
      c.network.graph.entries.flatMap fun e =>
        if e.2.fqdn = m.fqdn then (c.network.topology.addressesOf e.1).head?.toList else [] := by
    rw [addressRecords, List.filterMap_filterMap, List.filterMap_eq_flatMap_toList]
    refine List.flatMap_congr fun e _ => ?_
    change (((c.network.topology.addressesOf e.1).head?.map (NameRecord.address e.2.fqdn)).bind
      fun r => r.address? m.fqdn).toList = _
    cases (c.network.topology.addressesOf e.1).head? with
    | none => simp
    | some a => by_cases hname : e.2.fqdn = m.fqdn <;> simp [NameRecord.address?, hname]
  change (addressRecords c ++ aliasRecords c.graph).filterMap _ = _
  rw [List.filterMap_append, halias, List.append_nil, haddress]
  exact flatMap_of_nodup_key hnodup (x := (id, m)) (Graph.mem_entries.mpr hm)

/-! ## The firewall -/

/-- The firewall knows a machine by the addresses that it was given. -/
theorem filter_machines (hrouter : c.machine.isRouter = false) :
    ((n.firewall.machines.filter fun r => r.id = c.id).map (·.addresses)) =
      [(n.topology.assignmentsOf c.id).map (·.address)] := by
  obtain ⟨-, ht, hp, -⟩ := CompiledNetwork.ofDescription_eq_ok hn
  obtain ⟨rfl, hm, -⟩ := mem_managedContexts hc
  obtain ⟨-, hmachines⟩ := FirewallPlan.ofTopology_eq_ok hp
  have hrules := hmachines.imp fun _ _ hr => FirewallPlan.rulesOf_eq_ok hr
  have hfilter := forall₂_filter (p := fun e => e.1 = c.id) (q := fun r => r.id = c.id) hrules
    fun e r hr => by rw [hr.1]
  have hentry : (c.network.graph.entries.filter fun e => e.1 = c.id) = [(c.id, c.machine)] :=
    filter_of_nodup_key (Graph.nodup_entries _) (Graph.mem_entries.mpr hm)
  rw [hentry] at hfilter
  rw [← map_eq_map_of_forall₂ (f := fun e => c.network.topology.addressesOf e.1) hfilter
    fun e r hr => hr.2.2.2.1.symm, List.map_singleton,
    (Topology.isBuilt_of_ofGraph ht).addressesOf_eq hm hrouter]

end Compiled

/-! ## One interface -/

section Interface

variable {name : String} {d : Description} {s : Settings} {n : CompiledNetwork}
variable (hn : (CompiledNetwork.ofDescription name d s).result = .ok n)
variable {secrets : Secrets} {c r : Context} {i : Interface} {x : Subnet} {a : Assignment}
variable (h : n.topology.Gives c.id i x a)
include hn h

/-- If made-up hardware addresses do not run out, the file of the address service has one
reservation for the hardware address of an interface, and that is of its address. -/
theorem filter_reservationsIn (hs : s.Valid) (hr : r ∈ managedContexts n secrets)
    (hdomain : IsLine n.graph.domain) (hspare : n.topology.HasSpareMacs n.graph s.macVendor) :
    ((LeaseConfig.reservationsIn (leaseConfig r).text).filter fun e => e.1 = a.mac.text ++ ";") =
      [(a.mac.text ++ ";", a.address.text ++ ";")] := by
  obtain ⟨hg, ht, -⟩ := CompiledNetwork.ofDescription_eq_ok hn
  have hbuilt := Topology.isBuilt_of_ofGraph ht
  have hplain := isPlain_leaseConfig hn hr hdomain
  obtain ⟨rfl, -⟩ := mem_managedContexts hr
  have hunique : ∀ b ∈ r.network.topology.assignments, b.mac = a.mac → b = a := by
    intro b hb hmac
    obtain ⟨hid, hiface⟩ := hbuilt.place_eq_of_mac_eq hg hspare hb h.mem hmac
    obtain ⟨haid, haiface⟩ := (h.only a h.mem).mpr rfl
    exact (h.only b hb).mp ⟨hid.trans haid, hiface.trans haiface⟩
  have hread : ∀ l : Lease, l.mac.text ++ ";" = a.mac.text ++ ";" ↔ l.mac = a.mac := fun l => by
    rw [String.append_left_inj]
    exact ⟨Mac.text_inj, fun hmac => hmac ▸ rfl⟩
  rw [LeaseConfig.reservationsIn_text hplain, List.filter_map]
  have hsame : ((leaseConfig r).reservations.filter ((fun e => decide (e.1 = a.mac.text ++ ";")) ∘
      fun l => (l.mac.text ++ ";", l.address.text ++ ";"))) =
      (r.network.topology.leases r.network.graph).filter fun l => l.mac = a.mac :=
    List.filter_congr fun l _ => by
      rw [Function.comp_apply, decide_eq_decide]
      exact hread l
  have hleases := hbuilt.filter_leases hs h.mem hunique
  refine (congrArg _ (hsame.trans hleases)).trans ?_
  rw [List.map_singleton, Assignment.lease]

end Interface

/-! ## All renderings -/

/-- All renderings of a compiled network agree on the addresses of a managed machine that is no
router. Each of its inner interfaces has one assignment, whose address is a host of the subnet in
which the machine is placed. If the interface is static, its file and the unit that looks at the
running system carry that address with the prefix length of the subnet, and the file its gateway;
if not, its file asks for an address. The file finds the interface by the hardware address for
which the address service has one reservation, and that is of the same address. The machine's
table of names, the record of the name service for its full name and the firewall list the
addresses of its interfaces in their order, the record the first alone.

The table lists those addresses alone exactly if the domain is on one line. What is read off the
other files holds if it is, and if, for that of the name service, no name has blanks; and the
reservation is the only one unless the hardware addresses that can be made up for some machine are
all in use. -/
theorem addresses_agree (name : String) (d : Description) (s : Settings) (hs : s.Valid)
    (hkeys : d.NamesLanOnce) (n : CompiledNetwork)
    (hn : (CompiledNetwork.ofDescription name d s).result = .ok n) (secrets : Secrets)
    (c r : Context) (hc : c ∈ managedContexts n secrets) (hr : r ∈ managedContexts n secrets)
    (hrouter : c.machine.isRouter = false) :
    (∀ i ∈ c.machine.lan, ∃ x a, n.topology.Gives c.id i x a ∧
      (i.kind = .static ∨ i.kind = .dhcp) ∧
      ((linkFiles c).filter fun f => f.link = i.name) = [lanFile c i] ∧
      (IsLine n.graph.domain → FileAgrees c i x a) ∧
      (∀ precondition address, addressUnit precondition i.name address ∈ linkLive c ↔
        i.kind = .static ∧ precondition = (ConfigUnit.serviceRunning linkService).label ∧
          address = cidr a.address x.net) ∧
      (IsLine n.graph.domain → n.topology.HasSpareMacs n.graph s.macVendor →
        ((LeaseConfig.reservationsIn (leaseConfig r).text).filter
          fun e => e.1 = a.mac.text ++ ";") = [(a.mac.text ++ ";", a.address.text ++ ";")])) ∧
    (n.topology.assignmentsOf c.id).map (·.iface) = c.machine.lan.map (·.name) ∧
    (Text.firstWords (hostsFile c) =
        "127.0.0.1" :: "127.0.1.1" :: (n.topology.assignmentsOf c.id).map (·.address.text) ↔
      IsLine n.graph.domain) ∧
    (n.graph.HasPlainNames →
      behind (margin ++ recordStart c.machine.fqdn) (nameConfig r).text =
        ((n.topology.assignmentsOf c.id).head?.map fun a => a.address.text ++ "\"").toList) ∧
    ((n.firewall.machines.filter fun f => f.id = c.id).map (·.addresses)) =
      [(n.topology.assignmentsOf c.id).map (·.address)] := by
  obtain ⟨hg, ht, -⟩ := CompiledNetwork.ofDescription_eq_ok hn
  have h := Topology.isBuilt_of_ofGraph ht
  obtain ⟨hnetwork, hm, hmanaged⟩ := mem_managedContexts hc
  have hmem : c.machine ∈ n.graph.machines := List.mem_of_getElem? hm
  have hserver : c.machine.is .server = true := by
    rwa [isManaged, hrouter, Bool.false_or] at hmanaged
  have hnames := Graph.nodup_lan hg hmem hkeys
  have haddresses := h.addressesOf_eq hm hrouter
  refine ⟨fun i hi => ?_, ?_, ?_, fun hplain => ?_, filter_machines hn hc hrouter⟩
  · obtain ⟨x, a, hgives⟩ := h.exists_gives hg hs hm hrouter hnames hi
    have hkind := Graph.kind_of_mem_lan hg hmem hserver hrouter i hi
    refine ⟨x, a, hgives, hkind, filter_linkFiles hrouter hnames hi, ?_, ?_,
      filter_reservationsIn hn hgives hs hr⟩
    · subst hnetwork
      exact fileAgrees hgives hkind
    · subst hnetwork
      exact fun _ _ => addressUnit_mem_iff hgives hrouter hnames hi
  · exact (map_eq_map_of_forall₂ (h.assignmentsOf_of_isDeclared hm (Graph.isDeclared hg hmem)
      hrouter) fun _ _ hia => hia.1.symm).symm
  · subst hnetwork
    have htable := firstWords_hostsFile c (Graph.isWord_label hg hmem)
    rw [show c.topology.addressesOf c.id = _ from haddresses, List.map_map] at htable
    exact htable.trans (Graph.isLine_fqdn_iff hg hmem)
  · rw [NameConfig.behind_text (isPlain_nameConfig hn hr hplain)
      (Graph.isSolid_fqdn hg hmem hplain.1), filterMap_records hn hr hm, haddresses,
      List.head?_map]
    cases (n.topology.assignmentsOf c.id).head? <;> rfl

theorem addresses_agree_lab :
    Settings.default.Valid ∧ describedLab.NamesLanOnce ∧ ∃ n,
      (CompiledNetwork.ofDescription "lab" describedLab .default).result = .ok n ∧
      IsLine n.graph.domain ∧ n.graph.HasPlainNames ∧
      n.topology.HasSpareMacs n.graph Settings.default.macVendor ∧
      ∃ c ∈ managedContexts n .builtin, c.machine.isRouter = false ∧
        (∃ i ∈ c.machine.lan, ∃ x a, i.kind = .static ∧ FileAgrees c i x a) ∧
        Text.firstWords (hostsFile c) = ["127.0.0.1", "127.0.1.1", "10.10.0.2"] := by
  have hvalid : Settings.default.Valid := by decide
  have hkeys : describedLab.NamesLanOnce := by decide
  have hlab : (CompiledNetwork.ofDescription "lab" describedLab .default).result.map (fun n =>
      decide (IsLine n.graph.domain ∧ n.graph.HasPlainNames ∧
        (∀ m ∈ n.graph.machines, Mac.derived Settings.default.macVendor m.label 0 ∉
          macsInUse n.graph ++ n.topology.assignments.map (·.mac)) ∧
        ∃ e ∈ n.graph.entries, isManaged e.2 = true ∧ e.2.isRouter = false ∧
          (∃ i ∈ e.2.lan, i.kind = .static) ∧
          (n.topology.assignmentsOf e.1).map (·.address.text) = ["10.10.0.2"])) = .ok true := by
    decide +kernel
  obtain ⟨n, hn, hlab⟩ := map_eq_ok.mp hlab
  obtain ⟨hdomain, hplain, hderived, e, he, hmanaged, hrouter, ⟨i, hi, hstatic⟩, haddresses⟩ :=
    of_decide_eq_true hlab
  have hspare : n.topology.HasSpareMacs n.graph Settings.default.macVendor := fun m hm =>
    ⟨0, by decide, hderived m hm⟩
  have hc : (⟨n, e.1, e.2, .builtin⟩ : Context) ∈ managedContexts n .builtin :=
    List.mem_map.mpr ⟨e, List.mem_filter.mpr ⟨he, hmanaged⟩, rfl⟩
  have h := addresses_agree "lab" describedLab .default hvalid hkeys n hn .builtin _ _ hc hc hrouter
  obtain ⟨x, a, -, -, -, hfile, -⟩ := h.1 i hi
  refine ⟨hvalid, hkeys, n, hn, hdomain, hplain, hspare, _, hc, hrouter,
    ⟨i, hi, x, a, hstatic, hfile hdomain⟩, ?_⟩
  rw [h.2.2.1.mpr hdomain, haddresses]

/-- A network with a line break in its domain. -/
def brokenLab : Description :=
  { describedLab with domain := some "lan\n10.10.0.77\tbackup" }

/-- A line break in the domain makes the table of a machine list an address that nobody was
given. -/
theorem hostsFile_of_broken_domain :
    ∃ n, (CompiledNetwork.ofDescription "lab" brokenLab .default).result = .ok n ∧
      (∀ a ∈ n.topology.assignments, a.address.text ≠ "10.10.0.77") ∧
      ∃ c ∈ managedContexts n .builtin, c.machine.isRouter = false ∧
        "10.10.0.77" ∈ Text.firstWords (hostsFile c) := by
  have hlab : (CompiledNetwork.ofDescription "lab" brokenLab .default).result.map (fun n =>
      decide ((∀ a ∈ n.topology.assignments, a.address.text ≠ "10.10.0.77") ∧
        ∃ c ∈ managedContexts n .builtin, c.machine.isRouter = false ∧
          "10.10.0.77" ∈ Text.firstWords (hostsFile c))) = .ok true := by
    decide +kernel
  obtain ⟨n, hn, hlab⟩ := map_eq_ok.mp hlab
  exact ⟨n, hn, of_decide_eq_true hlab⟩

end Provision

end NetworkCompiler
