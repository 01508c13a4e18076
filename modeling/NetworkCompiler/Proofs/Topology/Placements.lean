import NetworkCompiler.Proofs.Network.Graphs
import NetworkCompiler.Proofs.Topology.Construction
import NetworkCompiler.Settings.Reader

/-!
# Places of machines, numbers of VLANs

The router of a topology is the one machine that is a router (`Topology.IsBuilt.eq_router_iff`).
Every machine of a graph has a number of its own (`Graph.nodup_entries`), so it is placed at most
once (`mem_placementsOf`), and every role has at most one subnet. `filter_seats` finds the seats
of a placed machine : its inner interfaces in their order, in the subnet of its role.

The VLAN of a subnet has the number that is planned for its role, in the settings or built in. The
VLAN interface on the trunk and the routing table of the subnet have the same number. A settings
check looks at the range of each number that is chosen and never at two of them together, so a
number that is chosen for one role may be the one of another. `vlans_apart_iff` says that subnets
share no VLAN and no routing table exactly if the plans of the roles that are served tell them
apart (`Settings.SeparatesVlans`), as the built-in plans do for any network.
-/

namespace NetworkCompiler

open Ipv4 (Address Block)

/-! ## The router -/

theorem findRouter_eq_ok {g : Graph} {r : MachineId × Machine} (h : findRouter g = .ok r) :
    g.withRole .router = [r] := by
  unfold findRouter at h
  split at h
  · cases h
  · next hone =>
    cases h
    exact hone
  · cases h

namespace Topology.IsBuilt

variable {g : Graph} {s : Settings} {t : Topology} (h : t.IsBuilt g s)
include h

/-- The router of a topology is a machine of the graph, and its inner ports are what the trunk is
built from. -/
theorem exists_router : ∃ m, g.machine? t.router = some m ∧ m.isRouter = true ∧
    g.withRole .router = [(t.router, m)] ∧
    buildTrunk m.label m.lan = .ok (t.trunk, t.bondMembers) := by
  obtain ⟨m, hfind, htrunk, -⟩ := h.router
  have hone := findRouter_eq_ok hfind
  have hmem : (t.router, m) ∈ g.withRole .router := hone ▸ List.mem_singleton_self _
  obtain ⟨hentry, hrouter⟩ := List.mem_filter.mp hmem
  exact ⟨m, Graph.mem_entries.mp hentry, hrouter, hone, htrunk⟩

/-- The router of a topology is the machine that is one. -/
theorem eq_router_iff {id : MachineId} {m : Machine} (hm : g.machine? id = some m) :
    id = t.router ↔ m.isRouter = true := by
  obtain ⟨w, hw, hrouter, hone, -⟩ := h.exists_router
  constructor
  · rintro rfl
    rwa [Option.some.inj (hm.symm.trans hw)]
  · intro hrole
    have hmem : (id, m) ∈ g.withRole .router :=
      List.mem_filter.mpr ⟨Graph.mem_entries.mpr hm, hrole⟩
    rw [hone, List.mem_singleton] at hmem
    exact congrArg Prod.fst hmem

end Topology.IsBuilt

/-! ## Placements -/

section Placements

variable {g : Graph} {s : Settings} {t : Topology}

theorem mem_placementsOf {id : MachineId} {r : Role} :
    (id, r) ∈ placementsOf g ↔
      ∃ m, g.machine? id = some m ∧ m.lan ≠ [] ∧ m.vlanRole? = some r := by
  rw [placementsOf, List.mem_filterMap]
  constructor
  · rintro ⟨⟨id', m⟩, hmem, h⟩
    dsimp only at h
    split at h
    · cases h
    · next hlan =>
      obtain ⟨r', hr', heq⟩ := Option.map_eq_some_iff.mp h
      cases heq
      exact ⟨m, Graph.mem_entries.mp hmem, by simpa using hlan, hr'⟩
  · rintro ⟨m, hm, hlan, hr⟩
    refine ⟨(id, m), Graph.mem_entries.mpr hm, ?_⟩
    dsimp only
    rw [if_neg (by simpa using hlan), hr, Option.map_some]

theorem placement_unique {id : MachineId} {q r : Role} (hq : (id, q) ∈ placementsOf g)
    (hr : (id, r) ∈ placementsOf g) : q = r := by
  obtain ⟨m, hm, -, hq⟩ := mem_placementsOf.mp hq
  obtain ⟨n, hn, -, hr⟩ := mem_placementsOf.mp hr
  cases hm.symm.trans hn
  exact Option.some.inj (hq.symm.trans hr)

theorem servedRoles_sublist (g : Graph) : g.servedRoles.Sublist Role.vlanEligible :=
  List.filter_sublist.trans List.filter_sublist

theorem nodup_servedRoles (g : Graph) : g.servedRoles.Nodup :=
  (by decide : Role.vlanEligible.Nodup).sublist (servedRoles_sublist g)

/-- A role by which a machine is placed is served, unless it is the guests'. -/
theorem mem_servedRoles {id : MachineId} {r : Role} (hplace : (id, r) ∈ placementsOf g)
    (hr : r ∈ Role.vlanEligible) (hguest : r ≠ .guest) : r ∈ g.servedRoles := by
  have hpopulated : r ∈ (placementsOf g).map (·.2) := List.mem_map_of_mem hplace
  refine List.mem_filter.mpr ⟨List.mem_filter.mpr ⟨hr, by simp [hguest]⟩, ?_⟩
  rw [Role.isServed, decide_eq_true hpopulated, Bool.true_or]

namespace Topology.IsBuilt

variable (h : t.IsBuilt g s)
include h

theorem placement?_eq_some {id : MachineId} {r : Role} (hr : (id, r) ∈ placementsOf g) :
    t.placement? id = some r := by
  rw [placement?, h.placements]
  cases hfind : (placementsOf g).find? fun p => p.1 = id with
  | none => simpa using List.find?_eq_none.mp hfind _ hr
  | some p =>
    obtain ⟨id', q⟩ := p
    obtain rfl : id' = id := by simpa using List.find?_some hfind
    rw [Option.map_some, placement_unique (List.mem_of_find?_eq_some hfind) hr]

theorem nodup_roles : (t.subnets.map (·.role)).Nodup :=
  h.allocations.map_role ▸ nodup_servedRoles g

theorem subnet_unique {x y : Subnet} (hx : x ∈ t.subnets) (hy : y ∈ t.subnets)
    (hr : x.role = y.role) : x = y :=
  List.inj_on_of_nodup_map h.nodup_roles hx hy hr

theorem subnet?_eq_some {x : Subnet} (hx : x ∈ t.subnets) : t.subnet? x.role = some x := by
  rw [subnet?]
  cases hfind : t.subnets.find? fun y => y.role = x.role with
  | none => simpa using List.find?_eq_none.mp hfind _ hx
  | some y =>
    have hr : y.role = x.role := by simpa using List.find?_some hfind
    rw [h.subnet_unique (List.mem_of_find?_eq_some hfind) hx hr]

/-- A machine is placed in the subnet of its role. -/
theorem subnetOf?_eq_some {id : MachineId} {x : Subnet} (hx : x ∈ t.subnets)
    (hr : (id, x.role) ∈ placementsOf g) : t.subnetOf? id = some x := by
  rw [subnetOf?, h.placement?_eq_some hr, Option.bind_some, h.subnet?_eq_some hx]

end Topology.IsBuilt

/-! ## Seats -/

theorem mem_seats {xs : List Subnet} {x : Seat} :
    x ∈ seats g (placementsOf g) xs ↔
      x.subnet ∈ xs ∧ (x.machine, x.subnet.role) ∈ placementsOf g ∧
        ∃ m, g.machine? x.machine = some m ∧ x.label = m.label ∧ x.iface ∈ m.lan := by
  simp only [seats, List.mem_flatMap, List.mem_filter, List.mem_map, decide_eq_true_eq]
  constructor
  · rintro ⟨y, hy, ⟨id, m⟩, ⟨hm, hplace⟩, i, hi, rfl⟩
    exact ⟨hy, hplace, m, Graph.mem_entries.mp hm, rfl, hi⟩
  · rintro ⟨hy, hplace, m, hm, hlabel, hi⟩
    obtain ⟨y, id, label, i⟩ := x
    cases hlabel
    exact ⟨y, hy, (id, m), ⟨Graph.mem_entries.mpr hm, hplace⟩, i, hi, rfl⟩

/-- The seats of one machine among those in one subnet. -/
theorem filter_seats_subnet {x : Subnet} {id : MachineId} {m : Machine}
    (hm : g.machine? id = some m) :
    ((g.entries.filter fun e => (e.1, x.role) ∈ placementsOf g).flatMap fun e =>
        (e.2.lan.map fun i => (⟨x, e.1, e.2.label, i⟩ : Seat))).filter (fun y => y.machine = id) =
      if (id, x.role) ∈ placementsOf g then m.lan.map fun i => ⟨x, id, m.label, i⟩ else [] := by
  have hpiece : ∀ e : MachineId × Machine,
      (e.2.lan.map fun i => (⟨x, e.1, e.2.label, i⟩ : Seat)).filter (fun y => y.machine = id) =
        if e.1 = id then e.2.lan.map fun i => ⟨x, e.1, e.2.label, i⟩ else [] := fun e => by
    by_cases hid : e.1 = id <;> simp [List.filter_map, Function.comp_def, hid]
  rw [List.filter_flatMap]
  simp only [hpiece]
  split
  · next hplace =>
    have hmem : (id, m) ∈ g.entries.filter fun e => (e.1, x.role) ∈ placementsOf g :=
      List.mem_filter.mpr ⟨Graph.mem_entries.mpr hm, by simpa using hplace⟩
    have hnd : ((g.entries.filter fun e => (e.1, x.role) ∈ placementsOf g).map (·.1)).Nodup :=
      (Graph.nodup_entries g).sublist (List.filter_sublist.map _)
    exact flatMap_of_nodup_key (f := fun e => e.2.lan.map fun i => (⟨x, e.1, e.2.label, i⟩ : Seat))
      hnd hmem
  · next hplace =>
    refine List.flatMap_eq_nil_iff.mpr fun e he => if_neg fun hid => hplace ?_
    rw [← hid]
    simpa using (List.mem_filter.mp he).2

/-- The seats of a placed machine are its inner interfaces, in the subnet of its role. -/
theorem filter_seats (h : t.IsBuilt g s) {x : Subnet} (hx : x ∈ t.subnets) {id : MachineId}
    {m : Machine} (hm : g.machine? id = some m) (hplace : (id, x.role) ∈ placementsOf g) :
    (seats g (placementsOf g) t.subnets).filter (fun y => y.machine = id) =
      m.lan.map fun i => ⟨x, id, m.label, i⟩ := by
  rw [seats, List.filter_flatMap]
  have hpiece : ∀ y ∈ t.subnets,
      (((g.entries.filter fun e => (e.1, y.role) ∈ placementsOf g).flatMap fun e =>
        (e.2.lan.map fun i => (⟨y, e.1, e.2.label, i⟩ : Seat))).filter fun z => z.machine = id) =
      if y.role = x.role then m.lan.map fun i => ⟨y, id, m.label, i⟩ else [] := fun y _ => by
    rw [filter_seats_subnet hm]
    refine if_congr ⟨fun hy => placement_unique hy hplace, fun hr => hr ▸ hplace⟩ rfl rfl
  exact (List.flatMap_congr hpiece).trans (flatMap_of_nodup_key
    (f := fun y => m.lan.map fun i => (⟨y, id, m.label, i⟩ : Seat)) h.nodup_roles hx)

end Placements

/-! ## Planned numbers -/

namespace Settings

variable {s : Settings} {roles roles' : List Role}

/-- The VLAN that is planned for a role. -/
def vlanId? (s : Settings) (r : Role) : Option Nat :=
  (s.vlanFor? r).map (·.vlan)

/-- No two of these roles are planned with the same VLAN. -/
def SeparatesVlans (s : Settings) (roles : List Role) : Prop :=
  ∀ q ∈ roles, ∀ r ∈ roles, s.vlanId? q = s.vlanId? r → q = r

instance : Decidable (s.SeparatesVlans roles) :=
  inferInstanceAs (Decidable (∀ q ∈ roles, ∀ r ∈ roles, s.vlanId? q = s.vlanId? r → q = r))

theorem SeparatesVlans.mono (h : s.SeparatesVlans roles) (hsub : roles' ⊆ roles) :
    s.SeparatesVlans roles' :=
  fun q hq r hr => h q (hsub hq) r (hsub hr)

theorem separatesVlans_default : default.SeparatesVlans Role.vlanEligible := by
  decide

end Settings

namespace Allocations

variable {s : Settings} {wan : List Ipv4.Block} {taken : List Subnet} {roles : List Role}
  {xs : List Subnet}

theorem vlanId_eq (h : Allocations s wan taken roles xs) {x : Subnet} (hx : x ∈ xs) :
    s.vlanId? x.role = some x.vlanId := by
  obtain ⟨_, hx⟩ := h.allocates_of_mem hx
  obtain ⟨p, hp, hvlan⟩ := hx.plan
  rw [Settings.vlanId?, hp, hvlan, Option.map_some]

/-- Subnets of distinct roles have distinct VLANs exactly if these are planned so. -/
theorem nodup_vlanIds_iff (h : Allocations s wan taken roles xs) (hroles : roles.Nodup) :
    (xs.map (·.vlanId)).Nodup ↔ s.SeparatesVlans roles := by
  have hplanned : (xs.map (·.vlanId)).map some = roles.map s.vlanId? := by
    rw [← h.map_role, List.map_map, List.map_map]
    exact List.map_congr_left fun x hx => (h.vlanId_eq hx).symm
  rw [← List.nodup_map_iff fun _ _ => Option.some.inj, hplanned,
    List.nodup_map_iff_inj_on hroles, Settings.SeparatesVlans]

end Allocations

/-! ## Built topologies -/

section Built

variable {g : Graph} {s : Settings} {t : Topology} (h : t.IsBuilt g s)
include h

theorem Topology.IsBuilt.map_name_filter_vlans (n : Nat) :
    (t.vlans.filter fun i => i.vlanId = some n).map (·.name) =
      (t.subnets.filter fun x => x.vlanId = n).map (·.iface) := by
  have hfilter := forall₂_filter (p := fun x => decide (x.vlanId = n))
    (q := fun i => decide (i.vlanId = some n)) h.forall₂_vlans fun x i hi => by simp [hi.2.2.1]
  exact (map_eq_map_of_forall₂ hfilter fun x i hi => hi.1.symm).symm

theorem Topology.IsBuilt.map_source_filter_routingRules (n : Nat) :
    (t.routingRules.filter fun r => r.table = n).map (·.source) =
      (t.subnets.filter fun x => x.vlanId = n).map (·.net) := by
  rw [h.routingRules, List.filter_map, List.map_map]
  rfl

end Built

/-- In a built topology the VLAN of a subnet, the VLAN interface on the trunk and the routing
table have the number that is planned for the role. No two subnets share a number, every VLAN of
the trunk carries one subnet, and every routing table has one, exactly if no two of the roles that
are served are planned with the same number. -/
theorem vlans_apart_iff (g : Graph) (s : Settings) (hs : s.Valid) (t : Topology)
    (ht : (Topology.ofGraph g s).result = .ok t) :
    t.subnets.map (·.role) = g.servedRoles ∧
    (∀ x ∈ t.subnets, s.vlanId? x.role = some x.vlanId ∧ 1 ≤ x.vlanId ∧ x.vlanId ≤ 4094) ∧
    List.Forall₂ (fun x i => i.name = x.iface ∧ i.parent = some t.trunk.name ∧
      i.vlanId = some x.vlanId ∧ i.addresses = [x.gateway] ∧ i.subnet = some x.net)
      t.subnets t.vlans ∧
    ((t.subnets.map (·.vlanId)).Nodup ↔ s.SeparatesVlans g.servedRoles) ∧
    ((∀ x ∈ t.subnets, (t.vlans.filter fun i => i.vlanId = some x.vlanId).map (·.name) =
      [x.iface]) ↔ s.SeparatesVlans g.servedRoles) ∧
    ((∀ x ∈ t.subnets, (t.routingRules.filter fun r => r.table = x.vlanId).map (·.source) =
      [x.net]) ↔ s.SeparatesVlans g.servedRoles) := by
  have h := Topology.isBuilt_of_ofGraph ht
  have happart := h.allocations.nodup_vlanIds_iff (nodup_servedRoles g)
  refine ⟨h.allocations.map_role, fun x hx => ?_, h.forall₂_vlans, happart, ?_, ?_⟩
  · have hrole : x.role ∈ Role.vlanEligible :=
      (servedRoles_sublist g).subset (h.allocations.map_role ▸ List.mem_map_of_mem hx)
    obtain ⟨p, hp, hrange⟩ := hs.exists_plan hrole
    have hplanned := h.allocations.vlanId_eq hx
    have hvlan : p.vlan = x.vlanId := by simpa [Settings.vlanId?, hp] using hplanned
    exact ⟨hplanned, hvlan ▸ hrange⟩
  · simp only [h.map_name_filter_vlans]
    rw [← nodup_map_iff_filter, happart]
  · simp only [h.map_source_filter_routingRules]
    rw [← nodup_map_iff_filter, happart]

/-- A network with a server and a user. -/
def mixedLab : Description where
  servers := [
    ("router", { types := ["router"] }),
    ("web", { types := ["dedicated"], mac := some "02:00:00:00:00:01" })]
  users := [("eva", { macs := ["02:00:00:00:00:02"] })]

/-- With the built-in plans the two are on VLANs of their own. -/
theorem vlans_apart_mixed :
    Settings.default.Valid ∧ ∃ g t, Graph.ofDescription "lab" mixedLab .default = .ok g ∧
      (Topology.ofGraph g .default).result = .ok t ∧
      t.subnets.map (·.vlanId) = [10, 40] ∧ (t.subnets.map (·.vlanId)).Nodup := by
  have hvalid : Settings.default.Valid := by decide
  have hvlans : (Graph.ofDescription "lab" mixedLab .default >>= fun g =>
      (Topology.ofGraph g .default).result.map fun t => t.subnets.map (·.vlanId)) =
        .ok [10, 40] := by
    decide +kernel
  obtain ⟨g, hg, hvlans⟩ := bind_eq_ok.mp hvlans
  obtain ⟨t, ht, hvlans⟩ := map_eq_ok.mp hvlans
  have h := vlans_apart_iff g .default hvalid t ht
  exact ⟨hvalid, g, t, hg, ht, hvlans,
    h.2.2.2.1.mpr (Settings.separatesVlans_default.mono (servedRoles_sublist g).subset)⟩

/-- Settings that move the users to the servers' VLAN. -/
def sharedVlanSettings : String :=
  "[subnets.types.user]\nbase = \"10.40.0.0\"\nvlan = 10\n"

/-- These settings pass their check, and the topology builds with both subnets on one VLAN and in
one routing table. -/
theorem vlans_shared :
    ∃ s g t, Settings.read "settings.toml" sharedVlanSettings = .ok s ∧
      Graph.ofDescription "lab" mixedLab s = .ok g ∧ (Topology.ofGraph g s).result = .ok t ∧
      t.vlans.map (fun i => (i.name, i.vlanId)) = [("servers", some 10), ("users", some 10)] ∧
      t.routingRules.map (fun r => (r.source.text, r.table)) =
        [("10.10.0.0/24", 10), ("10.40.0.0/24", 10)] ∧
      ¬(t.subnets.map (·.vlanId)).Nodup := by
  have hshared : (Settings.read "settings.toml" sharedVlanSettings).map (fun s => decide (
      (Graph.ofDescription "lab" mixedLab s >>= fun g =>
        (Topology.ofGraph g s).result.map fun t => decide (
          t.vlans.map (fun i => (i.name, i.vlanId)) = [("servers", some 10), ("users", some 10)] ∧
          t.routingRules.map (fun r => (r.source.text, r.table)) =
            [("10.10.0.0/24", 10), ("10.40.0.0/24", 10)] ∧
          ¬(t.subnets.map (·.vlanId)).Nodup)) = .ok true)) = .ok true := by
    decide +kernel
  obtain ⟨s, hs, hshared⟩ := map_eq_ok.mp hshared
  have hshared := of_decide_eq_true hshared
  obtain ⟨g, hg, hshared⟩ := bind_eq_ok.mp hshared
  obtain ⟨t, ht, hshared⟩ := map_eq_ok.mp hshared
  exact ⟨s, g, t, hs, hg, ht, of_decide_eq_true hshared⟩

end NetworkCompiler
