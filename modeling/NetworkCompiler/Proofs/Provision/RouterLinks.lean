import NetworkCompiler.Proofs.Network.Consistency
import NetworkCompiler.Proofs.Provision.RenderedAddresses

/-!
# Links of the router

Beside its ports the router has interfaces that nobody declared : a VLAN interface for each subnet,
and a dummy or a bond to carry them unless exactly one port is there to do so. Their names are made
up (`madeNames`) without a look at the names of the ports, which are refused only if two ports have
the same. `router_links_apart_iff` says what distinct names depend on, for the interfaces and for
the files that bring them up.
-/

namespace NetworkCompiler

variable {g : Graph} {s : Settings} {t : Topology}

/-! ## Interfaces -/

/-- The interfaces that a router ends up with. -/
def Topology.routerInterfaces (t : Topology) (m : Machine) : List Interface :=
  t.trunk :: t.bondMembers ++ (t.vlans ++ m.wan)

/-- The name that is made up for the trunk of a router with these inner ports. -/
def trunkName? : List Interface → Option String
  | [] => some "lan0"
  | [_] => none
  | _ => some "bond0"

/-- The names that are made up beside those of the ports. -/
def madeNames (lan : List Interface) (roles : List Role) : List String :=
  (trunkName? lan).toList ++ roles.map Role.vlanInterface

theorem nodup_madeNames (lan : List Interface) {roles : List Role}
    (hroles : roles.Sublist Role.vlanEligible) : (madeNames lan roles).Nodup := by
  have hall : (["lan0", "bond0"] ++ Role.vlanEligible.map Role.vlanInterface).Nodup := by decide
  have htrunk : (trunkName? lan).toList.Sublist ["lan0", "bond0"] := by
    match lan with
    | [] => exact List.sublist_append_left ["lan0"] ["bond0"]
    | [_] => exact List.nil_sublist _
    | _ :: _ :: _ => exact List.sublist_append_right ["lan0"] ["bond0"]
  exact hall.sublist (htrunk.append (hroles.map _))

theorem map_name_trunk {label : String} {lan bonded : List Interface} {trunk : Interface}
    (h : buildTrunk label lan = .ok (trunk, bonded)) :
    (trunk :: bonded).map (·.name) = (trunkName? lan).toList ++ lan.map (·.name) := by
  match lan with
  | [] =>
    obtain ⟨dummy, hdummy, h⟩ := bind_eq_ok.mp h
    obtain ⟨-, rfl⟩ := Interface.checked_eq_ok.mp hdummy
    cases h
    rfl
  | [port] =>
    cases h
    rfl
  | port :: port' :: ports =>
    obtain ⟨bond, hbond, h⟩ := bind_eq_ok.mp h
    obtain ⟨-, rfl⟩ := Interface.checked_eq_ok.mp hbond
    cases h
    rfl

section Built

variable (h : t.IsBuilt g s) {m : Machine} (hm : g.machine? t.router = some m)
include h hm

/-- The names of the router's interfaces are those that are made up and those of its ports. -/
theorem Topology.IsBuilt.perm_routerInterfaces :
    ((t.routerInterfaces m).map (·.name)).Perm
      (madeNames m.lan g.servedRoles ++ m.interfaces.map (·.name)) := by
  obtain ⟨w, hw, -, -, htrunk⟩ := h.exists_router
  obtain rfl : w = m := Option.some.inj (hw.symm.trans hm)
  have hinner := map_name_trunk htrunk
  simp only [routerInterfaces, madeNames, Machine.interfaces, List.map_append, hinner,
    h.map_name_vlans, List.append_assoc]
  refine List.Perm.append_left _ ?_
  rw [← List.append_assoc, ← List.append_assoc]
  exact List.perm_append_comm.append_right _

/-- The router's interfaces have distinct names exactly if its ports have, and none has a name
that is made up. -/
theorem Topology.IsBuilt.nodup_routerInterfaces_iff :
    ((t.routerInterfaces m).map (·.name)).Nodup ↔
      (m.interfaces.map (·.name)).Nodup ∧
        ∀ n ∈ madeNames m.lan g.servedRoles, n ∉ m.interfaces.map (·.name) := by
  rw [(h.perm_routerInterfaces hm).nodup_iff, List.nodup_append]
  constructor
  · rintro ⟨-, hports, hapart⟩
    exact ⟨hports, fun n hn hport => hapart n hn n hport rfl⟩
  · rintro ⟨hports, hapart⟩
    exact ⟨nodup_madeNames _ (servedRoles_sublist g), hports,
      fun n hn port hport heq => hapart n hn (heq ▸ hport)⟩

end Built

/-! ## Files -/

namespace Provision

open LinkFile

/-- What a file is about : the link, and whether it makes the device or configures it. -/
def LinkFile.subject (f : LinkFile) : String × LinkFileKind :=
  (f.link, f.kind)

/-- The interfaces of a router that exist only once they are made. -/
def madeLinks (t : Topology) : List Interface :=
  (t.trunk :: t.vlans).filter fun i => (device? i).isSome

theorem map_subject_device? (i : Interface) :
    (device? i).toList.map LinkFile.subject =
      if (device? i).isSome then [(i.name, .device)] else [] := by
  cases h : device? i with
  | none => rfl
  | some f =>
    have hsubject : f.subject = (i.name, .device) := by
      unfold device? at h
      split at h
      · cases h
        rfl
      · obtain ⟨id, -, rfl⟩ := Option.map_eq_some_iff.mp h
        rfl
      · cases h
        rfl
      · cases h
    rw [Option.toList_some, List.map_singleton, hsubject]
    rfl

theorem map_subject_madeLinks (t : Topology) :
    (madeLinks t).map (fun i => (i.name, LinkFileKind.device)) =
      (t.trunk :: t.vlans).flatMap fun i => (device? i).toList.map LinkFile.subject := by
  simp only [map_subject_device?, ← flatMap_filter]
  rw [List.map_eq_flatMap, madeLinks]

theorem perm_subjects_vlans (t : Topology) :
    ((t.vlans.flatMap (vlanFiles t)).map LinkFile.subject).Perm
      ((t.vlans.flatMap fun i => (device? i).toList.map LinkFile.subject) ++
        t.vlans.map fun i => (i.name, .network)) := by
  rw [List.map_flatMap, List.map_eq_flatMap (l := t.vlans)]
  refine .trans (.of_eq (List.flatMap_congr fun i _ => ?_)) (List.flatMap_append_perm _ _ _).symm
  simp [vlanFiles, LinkFile.of, LinkFile.subject]

/-- Every interface of the router is configured by one file, and made by another if it has to
be. -/
theorem perm_subjects (c : Context) :
    ((routerFiles c).map LinkFile.subject).Perm
      (((c.topology.routerInterfaces c.machine).map fun i => (i.name, .network)) ++
        (madeLinks c.topology).map fun i => (i.name, .device)) := by
  have hfile : ∀ (file : Interface → LinkFile) (is : List Interface),
      (∀ i, (file i).subject = (i.name, .network)) →
        (is.map file).map LinkFile.subject = is.map fun i => (i.name, .network) :=
    fun file is hsubject => by rw [List.map_map]; exact List.map_congr_left fun i _ => hsubject i
  have htrunk : (trunkFiles c.topology).map LinkFile.subject =
      (device? c.topology.trunk).toList.map LinkFile.subject ++
        [(c.topology.trunk.name, .network)] := by
    simp [trunkFiles, LinkFile.of, LinkFile.subject]
  rw [map_subject_madeLinks, routerFiles, List.map_append, List.map_append, List.map_append,
    hfile _ _ fun _ => rfl, hfile _ _ fun _ => rfl, htrunk, Topology.routerInterfaces]
  -- The two lists differ in their order only, which counting does not see.
  refine List.perm_iff_count.mpr fun x => ?_
  have hvlans := (perm_subjects_vlans c.topology).count_eq x
  simp only [List.map_append, List.map_cons, List.flatMap_cons, List.count_append, List.count_cons,
    List.count_nil] at hvlans ⊢
  omega

/-- No two files of the router are about the same exactly if its interfaces have distinct names. -/
theorem nodup_subjects_iff (c : Context) :
    ((routerFiles c).map LinkFile.subject).Nodup ↔
      ((c.topology.routerInterfaces c.machine).map (·.name)).Nodup := by
  have hkind : ∀ (kind : LinkFileKind) (is : List Interface),
      (is.map fun i => (i.name, kind)).Nodup ↔ (is.map (·.name)).Nodup := fun kind is => by
    have hinj : Function.Injective fun name : String => (name, kind) :=
      fun _ _ h => congrArg Prod.fst h
    rw [← List.nodup_map_iff hinj, List.map_map]
    rfl
  have hmade : (madeLinks c.topology).Sublist (c.topology.routerInterfaces c.machine) :=
    List.filter_sublist.trans (.cons_cons _
      ((List.sublist_append_left _ _).trans (List.sublist_append_right _ _)))
  rw [(perm_subjects c).nodup_iff, List.nodup_append, hkind, hkind]
  refine ⟨fun h => h.1, fun h => ⟨h, h.sublist (hmade.map _), fun x hx y hy hxy => ?_⟩⟩
  obtain ⟨_, -, rfl⟩ := List.mem_map.mp hx
  obtain ⟨_, -, rfl⟩ := List.mem_map.mp hy
  cases congrArg Prod.snd hxy

/-! ## Compiled networks -/

/-- The interfaces that the router of a compiled network ends up with have distinct names, and no
two files of its links are about the same, exactly if its entry names no port twice and no port
has a name that is made up. -/
theorem router_links_apart_iff (name : String) (d : Description) (s : Settings)
    (n : CompiledNetwork) (hn : (CompiledNetwork.ofDescription name d s).result = .ok n) :
    ∃ m, n.graph.machine? n.topology.router = some m ∧ m.isRouter = true ∧
      ((n.topology.routerInterfaces m).map (·.name)).Perm
        (madeNames m.lan n.graph.servedRoles ++ m.interfaces.map (·.name)) ∧
      (((n.topology.routerInterfaces m).map (·.name)).Nodup ↔
        (∀ e, (m.label, e) ∈ d.servers → (e.lan.map (·.1)).Nodup ∧ (e.wan.map (·.1)).Nodup) ∧
        ∀ k ∈ madeNames m.lan n.graph.servedRoles, k ∉ m.interfaces.map (·.name)) ∧
      ∀ secrets, ∀ c ∈ managedContexts n secrets, c.machine.isRouter = true → c.machine = m ∧
        (((linkFiles c).map LinkFile.subject).Nodup ↔
          ((n.topology.routerInterfaces m).map (·.name)).Nodup) := by
  obtain ⟨hg, ht, -⟩ := CompiledNetwork.ofDescription_eq_ok hn
  have h := Topology.isBuilt_of_ofGraph ht
  obtain ⟨m, hm, hrouter, -⟩ := h.exists_router
  refine ⟨m, hm, hrouter, h.perm_routerInterfaces hm, ?_, fun secrets c hc hcrouter => ?_⟩
  · rw [h.nodup_routerInterfaces_iff hm, Graph.nodup_names_iff hg (List.mem_of_getElem? hm)]
    simp [ServerEntry.NamesInterfacesOnce, hrouter]
  · obtain ⟨rfl, hcm, -⟩ := mem_managedContexts hc
    rw [(h.eq_router_iff hcm).mpr hcrouter, hm] at hcm
    obtain rfl := Option.some.inj hcm
    rw [linkFiles, if_pos hcrouter]
    exact ⟨rfl, nodup_subjects_iff c⟩

/-- The router of the lab has its inner port as trunk, one VLAN and an outer port. -/
theorem router_links_apart_lab :
    ∃ n m, (CompiledNetwork.ofDescription "lab" describedLab .default).result = .ok n ∧
      n.graph.machine? n.topology.router = some m ∧
      (n.topology.routerInterfaces m).map (·.name) = ["eth0", "servers", "eth1"] ∧
      ∀ k ∈ madeNames m.lan n.graph.servedRoles, k ∉ m.interfaces.map (·.name) := by
  have hlab : (CompiledNetwork.ofDescription "lab" describedLab .default).result.map (fun n =>
      (n.graph.machine? n.topology.router).map fun m =>
        (n.topology.routerInterfaces m).map (·.name)) = .ok (some ["eth0", "servers", "eth1"]) := by
    decide +kernel
  obtain ⟨n, hn, hlab⟩ := map_eq_ok.mp hlab
  obtain ⟨m, hm, -, -, hiff, -⟩ := router_links_apart_iff "lab" describedLab .default n hn
  rw [hm, Option.map_some, Option.some.injEq] at hlab
  exact ⟨n, m, hn, hm, hlab, (hiff.mp (by rw [hlab]; decide)).2⟩

/-- A router with an inner port that is called as the VLAN of its servers will be. -/
def shadowedLab : Description where
  servers := [
    ("router", { types := ["router"], lan := [("servers", {})], wan := [("eth1", {})] }),
    ("web", { types := ["dedicated"], mac := some "02:00:00:00:00:01" })]

/-- The network compiles, with two interfaces of one name on its router and two files that
configure that name. -/
theorem router_links_shadowed :
    ∃ n m c, (CompiledNetwork.ofDescription "lab" shadowedLab .default).result = .ok n ∧
      n.graph.machine? n.topology.router = some m ∧
      (n.topology.routerInterfaces m).map (·.name) = ["servers", "servers", "eth1"] ∧
      ¬((n.topology.routerInterfaces m).map (·.name)).Nodup ∧
      c ∈ managedContexts n .builtin ∧ c.machine = m ∧
      (linkFiles c).map (fun f => (f.link, f.kind)) =
        [("servers", .network), ("servers", .device), ("servers", .network),
          ("eth1", .network)] := by
  have hlab : (CompiledNetwork.ofDescription "lab" shadowedLab .default).result.map (fun n =>
      decide (∃ c ∈ managedContexts n .builtin,
        n.graph.machine? n.topology.router = some c.machine ∧
        (n.topology.routerInterfaces c.machine).map (·.name) = ["servers", "servers", "eth1"] ∧
        (linkFiles c).map (fun f => (f.link, f.kind)) =
          [("servers", .network), ("servers", .device), ("servers", .network),
            ("eth1", .network)])) = .ok true := by
    decide +kernel
  obtain ⟨n, hn, hlab⟩ := map_eq_ok.mp hlab
  obtain ⟨c, hc, hm, hnames, hfiles⟩ := of_decide_eq_true hlab
  refine ⟨n, c.machine, c, hn, hm, hnames, ?_, hc, rfl, hfiles⟩
  rw [hnames]
  decide

end Provision

end NetworkCompiler
